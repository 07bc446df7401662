import Linewise.Proofs.Tilings
import Mathlib.Data.List.DropRight
import Mathlib.Data.List.Infix

/-!
# Addresses in a text

Where an address starts in a text, and how long it is, is told by how the text goes on there: it goes on with one of
the openings, in small or capital letters (`opening?_eq_some_iff`), and the run of characters of addresses, less the
punctuation at its end, is the address (`take_of_address?`). So nothing changes if what stands behind an address is
cut off (`address?_take`), an address that starts within another one ends with it (`add_of_address?`), and none
starts right behind one (`opening?_drop_of_address?`).
-/

namespace Linewise.Hyperlink

/-! ### Openings -/

theorem eq_of_openings_start : ∀ a ∈ openings, ∀ b ∈ openings, a <+: b → a = b := by
  decide

/-- **Which opening a text starts with.** -/
theorem opening?_eq_some_iff {cs : List Char} {n : Nat} :
    opening? cs = some n ↔ ∃ o ∈ openings, o <+: cs.map Char.toLower ∧ o.length = n := by
  unfold opening?
  rw [Option.map_eq_some_iff]
  constructor
  · rintro ⟨o, ho, rfl⟩
    have hstarts := List.find?_some ho
    exact ⟨o, List.mem_of_find?_eq_some ho, Text.startsWithFolded_iff.mp hstarts, rfl⟩
  · rintro ⟨o, ho, hfront, rfl⟩
    cases hfind : openings.find? fun o => Text.startsWithFolded o cs with
    | none => exact absurd (Text.startsWithFolded_iff.mpr hfront) (List.find?_eq_none.mp hfind o ho)
    | some a =>
      have ha := List.mem_of_find?_eq_some hfind
      have hstarts := List.find?_some hfind
      refine ⟨a, rfl, congrArg List.length ?_⟩
      rcases List.prefix_or_prefix_of_prefix (Text.startsWithFolded_iff.mp hstarts) hfront with hle | hle
      · exact eq_of_openings_start a ha o ho hle
      · exact (eq_of_openings_start o ho a ha hle).symm

/-- Folding a capital to a small letter keeps a character of addresses one, and makes no punctuation of it. -/
theorem class_of_toLower (c : Char) :
    isAddressChar c.toLower = isAddressChar c ∧ isTrailing c.toLower = isTrailing c := by
  by_cases hcapital : c.val ≥ 'A'.val ∧ c.val ≤ 'Z'.val
  · have hall : ∀ n ∈ List.range' 65 26, isAddressChar (Char.ofNat n).toLower = isAddressChar (Char.ofNat n) ∧
        isTrailing (Char.ofNat n).toLower = isTrailing (Char.ofNat n) := by decide +kernel
    have hrange : 65 ≤ c.toNat ∧ c.toNat ≤ 90 := by
      simpa [UInt32.le_iff_toNat_le] using hcapital
    have hc := hall c.toNat (List.mem_range'_1.mpr (by omega))
    rwa [Char.ofNat_toNat] at hc
  · rw [show c.toLower = c from dif_neg hcapital]
    exact ⟨rfl, rfl⟩

section Opening
variable {cs : List Char} {n : Nat}

theorem le_length_of_opening? (h : opening? cs = some n) : n ≤ cs.length := by
  obtain ⟨o, -, hfront, rfl⟩ := opening?_eq_some_iff.mp h
  simpa using hfront.length_le

theorem isAddressChar_of_mem_opening (h : opening? cs = some n) : ∀ c ∈ cs.take n, isAddressChar c = true := by
  obtain ⟨o, ho, hfront, rfl⟩ := opening?_eq_some_iff.mp h
  have hall : ∀ o ∈ openings, o.all isAddressChar = true := by decide
  have htake : o = (cs.take o.length).map Char.toLower := by
    rw [List.map_take]
    exact List.prefix_iff_eq_take.mp hfront
  intro c hc
  have hmem : c.toLower ∈ o := by
    rw [htake]
    exact List.mem_map_of_mem hc
  rw [← (class_of_toLower c).1]
  exact List.all_eq_true.mp (hall o ho) _ hmem

theorem head_of_opening? (h : opening? cs = some n) :
    ∃ c, cs.head? = some c ∧ isAddressChar c = true ∧ isTrailing c = false := by
  obtain ⟨o, ho, hfront, -⟩ := opening?_eq_some_iff.mp h
  have hall : ∀ o ∈ openings, o.head?.any (fun x => isAddressChar x && !isTrailing x) = true := by decide
  have hclass := hall o ho
  cases o with
  | nil => cases hclass
  | cons x o =>
    cases cs with
    | nil => exact absurd (List.prefix_nil.mp hfront) (List.cons_ne_nil x o)
    | cons c cs =>
      obtain ⟨rfl, -⟩ := List.cons_prefix_cons.mp hfront
      rw [List.head?_cons, Option.any_some, Bool.and_eq_true, Bool.not_eq_true', (class_of_toLower c).1,
        (class_of_toLower c).2] at hclass
      exact ⟨c, rfl, hclass⟩

/-- What a text starts with does not depend on what is cut off behind. -/
theorem opening?_of_take {k : Nat} (h : opening? (cs.take k) = some n) : opening? cs = some n := by
  obtain ⟨o, ho, hfront, hlength⟩ := opening?_eq_some_iff.mp h
  rw [List.map_take] at hfront
  exact opening?_eq_some_iff.mpr ⟨o, ho, hfront.trans (List.take_prefix ..), hlength⟩

theorem opening?_take {k : Nat} (h : opening? cs = some n) (hle : n ≤ k) : opening? (cs.take k) = some n := by
  obtain ⟨o, ho, hfront, rfl⟩ := opening?_eq_some_iff.mp h
  refine opening?_eq_some_iff.mpr ⟨o, ho, ?_, rfl⟩
  rw [List.map_take]
  exact List.prefix_take_iff.mpr ⟨hfront, hle⟩

end Opening

/-! ### What follows an opening -/

/-- The run of characters of addresses at the front of a text, less the punctuation at its end. -/
def tail (cs : List Char) : List Char := (cs.takeWhile isAddressChar).rdropWhile isTrailing

section Tail
variable {cs : List Char}

theorem length_tail (cs : List Char) : tailLength cs = (tail cs).length := by
  rw [tail, List.rdropWhile, List.length_reverse, tailLength]

theorem isPrefix_tail (cs : List Char) : tail cs <+: cs :=
  (List.rdropWhile_prefix ..).trans (List.takeWhile_prefix _)

theorem isAddressChar_of_mem_tail (cs : List Char) : ∀ c ∈ tail cs, isAddressChar c = true := fun _ hc =>
  List.mem_takeWhile_imp ((List.rdropWhile_prefix ..).subset hc)

theorem isTrailing_of_getLast?_tail : ∀ c ∈ (tail cs).getLast?, isTrailing c = false := by
  intro c hc
  have hne : tail cs ≠ [] := by
    rintro hnil
    rw [hnil] at hc
    cases hc
  rw [List.getLast?_eq_some_getLast hne] at hc
  obtain rfl := Option.some.inj hc
  exact Bool.eq_false_iff.mpr (List.rdropWhile_last_not isTrailing _ hne)

theorem tail_ne_nil_iff : tail cs ≠ [] ↔ ∃ c ∈ cs.takeWhile isAddressChar, isTrailing c = false := by
  rw [tail, ne_eq, List.rdropWhile_eq_nil_iff]
  simp

theorem tail_append {front : List Char} (hfront : ∀ c ∈ front, isAddressChar c = true) (h : tail cs ≠ []) :
    tail (front ++ cs) = front ++ tail cs := by
  have hreverse : ((cs.takeWhile isAddressChar).reverse.dropWhile isTrailing).isEmpty = false := by
    rw [tail, List.rdropWhile, ne_eq, List.reverse_eq_nil_iff] at h
    exact List.isEmpty_eq_false_iff.mpr h
  rw [tail, List.takeWhile_append_of_pos hfront, List.rdropWhile, List.reverse_append, List.dropWhile_append, hreverse,
    if_neg Bool.noConfusion, List.reverse_append, List.reverse_reverse]
  rfl

theorem tail_tail (cs : List Char) : tail (tail cs) = tail cs := by
  have htake : (tail cs).takeWhile isAddressChar = tail cs :=
    List.takeWhile_eq_self_iff.mpr (isAddressChar_of_mem_tail cs)
  rw [tail, htake]
  exact List.rdropWhile_idempotent ..

theorem behind_tail {c : Char} (h : (cs.drop (tail cs).length).head? = some c) :
    isAddressChar c = false ∨ isTrailing c = true := by
  by_contra hboth
  rw [not_or, Bool.not_eq_false, Bool.not_eq_true] at hboth
  obtain ⟨rest, hrest⟩ := List.head?_eq_some_iff.mp h
  -- Otherwise the tail would go on.
  have hmore : tail (c :: rest) ≠ [] := by
    refine tail_ne_nil_iff.mpr ⟨c, ?_, hboth.2⟩
    rw [List.takeWhile_cons_of_pos hboth.1]
    exact List.mem_cons_self
  have hcs : tail cs ++ c :: rest = cs := by
    rw [← hrest]
    exact List.prefix_iff_eq_append.mp (isPrefix_tail cs)
  have happend := tail_append (isAddressChar_of_mem_tail cs) hmore
  rw [hcs] at happend
  exact hmore (List.self_eq_append_right.mp happend)

end Tail

/-! ### Addresses -/

/-- **A text is an address**: it starts with an opening, behind which there is something, and goes on with characters
of addresses, of which the last is no punctuation. -/
structure IsAddress (text : List Char) : Prop where
  opens : ∃ n, opening? text = some n ∧ n < text.length ∧ ∀ c ∈ text.drop n, isAddressChar c = true
  last : ∀ c ∈ text.getLast?, isTrailing c = false

section Address
variable {before : Option Char} {cs : List Char} {n : Nat}

/-- **What is found as an address.** -/
theorem address?_eq_some_iff :
    address? before cs = some n ↔ ∃ o, opening? cs = some o ∧ before.any Text.isAlphanumeric = false ∧
      tail (cs.drop o) ≠ [] ∧ o + (tail (cs.drop o)).length = n := by
  unfold address?
  cases opening? cs with
  | none => simp
  | some o =>
    simp only [length_tail, List.length_eq_zero_iff, Option.some.injEq, exists_eq_left']
    split_ifs with hnone
    · refine ⟨nofun, fun ⟨hbefore, htail, _⟩ => ?_⟩
      rcases hnone with hword | hnil
      · rw [hword] at hbefore
        cases hbefore
      · exact absurd hnil htail
    · rw [not_or, Bool.not_eq_true] at hnone
      simp [hnone.1, hnone.2]

theorem take_of_address? (h : address? before cs = some n) : cs.take n = tail cs ∧ (tail cs).length = n := by
  obtain ⟨o, hopening, -, hne, rfl⟩ := address?_eq_some_iff.mp h
  have htail : tail cs = cs.take o ++ tail (cs.drop o) := by
    rw [← tail_append (isAddressChar_of_mem_opening hopening) hne, List.take_append_drop]
  have hlength : (tail cs).length = o + (tail (cs.drop o)).length := by
    rw [htail, List.length_append, List.length_take_of_le (le_length_of_opening? hopening)]
  exact ⟨by rw [← hlength]; exact (List.prefix_iff_eq_take.mp (isPrefix_tail cs)).symm, hlength⟩

theorem isAddress_of_address? (h : address? before cs = some n) : IsAddress (cs.take n) := by
  obtain ⟨htake, hlength⟩ := take_of_address? h
  obtain ⟨o, hopening, -, hne, hn⟩ := address?_eq_some_iff.mp h
  have hpos := List.length_pos_iff.mpr hne
  refine ⟨⟨o, opening?_take hopening (by omega), by rw [htake]; omega, fun c hc => ?_⟩, ?_⟩
  · rw [htake] at hc
    exact isAddressChar_of_mem_tail cs c (List.mem_of_mem_drop hc)
  · rw [htake]
    exact isTrailing_of_getLast?_tail

theorem address?_take (h : address? before cs = some n) : address? none (cs.take n) = some n := by
  obtain ⟨o, hopening, -, hne, hn⟩ := address?_eq_some_iff.mp h
  have htail : tail ((cs.take n).drop o) = tail (cs.drop o) := by
    rw [List.drop_take, ← hn, Nat.add_sub_cancel_left, ← List.prefix_iff_eq_take.mp (isPrefix_tail (cs.drop o)),
      tail_tail]
  exact address?_eq_some_iff.mpr ⟨o, opening?_take hopening (by omega), rfl, by rwa [htail], by rwa [htail]⟩

/-- Cutting off what stands behind makes no address of what is none. -/
theorem exists_address?_of_take {k : Nat} (h : address? before (cs.take k) = some n) :
    ∃ m, address? before cs = some m := by
  obtain ⟨o, hopening, hbefore, hne, -⟩ := address?_eq_some_iff.mp h
  refine ⟨_, address?_eq_some_iff.mpr ⟨o, opening?_of_take hopening, hbefore, ?_, rfl⟩⟩
  rw [List.drop_take, tail_ne_nil_iff] at hne
  obtain ⟨c, hc, hlast⟩ := hne
  refine tail_ne_nil_iff.mpr ⟨c, ?_, hlast⟩
  rw [← List.take_append_drop (k - o) (cs.drop o), List.takeWhile_append]
  split_ifs
  · exact List.mem_append_left _ ((List.takeWhile_prefix _).subset hc)
  · exact hc

theorem opening?_drop_of_address? (h : address? before cs = some n) : opening? (cs.drop n) = none := by
  rw [Option.eq_none_iff_forall_ne_some]
  intro o hopening
  obtain ⟨c, hc, haddress, hlast⟩ := head_of_opening? hopening
  rw [← (take_of_address? h).2] at hc
  rcases behind_tail hc with hother | htrailing
  · exact Bool.noConfusion (hother.symm.trans haddress)
  · exact Bool.noConfusion (hlast.symm.trans htrailing)

theorem add_of_address? (h : address? before cs = some n) {i m : Nat} (hi : i < n) {before' : Option Char}
    (h' : address? before' (cs.drop i) = some m) : i + m = n := by
  obtain ⟨htake, hlength⟩ := take_of_address? h
  obtain ⟨-, hlength'⟩ := take_of_address? h'
  have hbounds := address?_bounds h'
  have hfront : ∀ c ∈ cs.take i, isAddressChar c = true := fun c hc => by
    refine isAddressChar_of_mem_tail cs c ?_
    rw [← htake]
    exact (List.take_prefix_take_left (Nat.le_of_lt hi)).subset hc
  have htail := tail_append hfront (List.ne_nil_of_length_pos (by omega) : tail (cs.drop i) ≠ [])
  rw [List.take_append_drop] at htail
  have hsum := congrArg List.length htail
  rw [List.length_append, List.length_take, List.length_drop] at *
  omega

end Address

end Linewise.Hyperlink
