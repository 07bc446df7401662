import Linewise.Brackets
import Mathlib.Data.List.Induction
import Mathlib.Data.List.Nodup
import Mathlib.Tactic.Common

/-!
# Pairs of a stack

Brackets of one form pair up by a stack (`Brackets.pairUp`): an opening bracket is put onto it, and a closing one
takes the last opening bracket off it, or is skipped if there is none. The search for the partner of a
bracket knows no stack. It walks along the brackets behind an opening bracket, or backwards along those in
front of a closing one, and counts. Both find the same pairs:

* `mem_pairUp_iff_walk_below`: behind an opening bracket, **the walk stops where the stack is down to that
  bracket and loses it**;
* `mem_pairUp_iff_walk_above`: in front of a closing bracket, **the walk stops at the last bracket on the
  stack**. The brackets on the stack are those at which a walk backwards stops if it has to skip none, one,
  two and so on (`walk_reverse_eq_inr_iff`).
-/

namespace Linewise

open BracketMatcher (Cell walk)

namespace BracketMatcher

/-! ### Walks -/

theorem walk_append (same : Char) (depth : Nat) (xs ys : List Cell) :
    walk same depth (xs ++ ys) = (walk same depth xs).elim (fun depth => walk same depth ys) .inr := by
  induction xs generalizing depth with
  | nil => rfl
  | cons x xs ih =>
    obtain ⟨o, c⟩ := x
    by_cases hc : c = same
    · simp only [List.cons_append, walk, if_pos hc, ih]
    · cases depth with
      | zero => simp only [List.cons_append, walk, if_neg hc, Sum.elim_inr]
      | succ depth => simp only [List.cons_append, walk, if_neg hc, ih]

theorem walk_map (f : Nat → Nat) (same : Char) (depth : Nat) (xs : List Cell) :
    walk same depth (xs.map (Prod.map f id)) = (walk same depth xs).map id f := by
  induction xs generalizing depth with
  | nil => rfl
  | cons x xs ih =>
    obtain ⟨o, c⟩ := x
    by_cases hc : c = same
    · simp only [List.map_cons, Prod.map_apply, id_eq, walk, if_pos hc, ih]
    · cases depth with
      | zero => simp only [List.map_cons, Prod.map_apply, id_eq, walk, if_neg hc, Sum.map_inr]
      | succ depth => simp only [List.map_cons, Prod.map_apply, id_eq, walk, if_neg hc, ih]

theorem mem_of_walk {same : Char} {depth t : Nat} {xs : List Cell} (h : walk same depth xs = .inr t) :
    ∃ c, (t, c) ∈ xs := by
  induction xs generalizing depth with
  | nil => cases h
  | cons x xs ih =>
    obtain ⟨o, c⟩ := x
    have hlater {depth : Nat} (hrest : walk same depth xs = .inr t) : ∃ c', (t, c') ∈ (o, c) :: xs := by
      obtain ⟨c', hc'⟩ := ih hrest
      exact ⟨c', List.mem_cons_of_mem _ hc'⟩
    by_cases hc : c = same
    · simp only [walk, if_pos hc] at h
      exact hlater h
    · cases depth with
      | zero =>
        simp only [walk, if_neg hc] at h
        exact ⟨c, Sum.inr.inj h ▸ List.mem_cons_self⟩
      | succ depth =>
        simp only [walk, if_neg hc] at h
        exact hlater h

end BracketMatcher

namespace Brackets

open BracketMatcher (walk_append)

/-- **The pairs that a stack finds**, the opening bracket of each before the closing one. The brackets that
are `opened` wait on the stack, the last one first. -/
def pairUp (opening : Char) (opened : List Nat) : List Cell → List (Nat × Nat)
  | [] => []
  | (o, c) :: rest =>
    if c = opening then pairUp opening (o :: opened) rest
    else
      match opened with
      | [] => pairUp opening [] rest
      | first :: opened => (first, o) :: pairUp opening opened rest

/-- The brackets that wait on the stack at the end. -/
def stillOpen (opening : Char) (opened : List Nat) : List Cell → List Nat
  | [] => opened
  | (o, c) :: rest =>
    if c = opening then stillOpen opening (o :: opened) rest else stillOpen opening opened.tail rest

section Stack
variable {opening closing : Char} {opened deeper : List Nat} {xs above below : List Cell} {x t : Nat}

@[simp] theorem pairUp_opening {o : Nat} :
    pairUp opening opened ((o, opening) :: xs) = pairUp opening (o :: opened) xs := by
  cases opened <;> simp only [pairUp, if_true]

theorem stillOpen_append (opened : List Nat) (xs ys : List Cell) :
    stillOpen opening opened (xs ++ ys) = stillOpen opening (stillOpen opening opened xs) ys := by
  induction xs generalizing opened with
  | nil => rfl
  | cons x xs ih =>
    simp only [List.cons_append, stillOpen, ih]
    split_ifs <;> rfl

theorem pairUp_append (opened : List Nat) (xs ys : List Cell) :
    pairUp opening opened (xs ++ ys) =
      pairUp opening opened xs ++ pairUp opening (stillOpen opening opened xs) ys := by
  induction xs generalizing opened with
  | nil => rfl
  | cons x xs ih =>
    obtain ⟨o, c⟩ := x
    by_cases hc : c = opening
    · simp only [List.cons_append, pairUp, stillOpen, if_pos hc, ih]
    · cases opened with
      | nil => simp only [List.cons_append, pairUp, stillOpen, if_neg hc, ih, List.tail_nil]
      | cons first opened => simp only [List.cons_append, pairUp, stillOpen, if_neg hc, ih, List.tail_cons]

/-! ### The ends of a pair -/

theorem mem_stillOpen (h : x ∈ stillOpen opening opened xs) : x ∈ opened ∨ (x, opening) ∈ xs := by
  induction xs generalizing opened with
  | nil => exact Or.inl h
  | cons cell xs ih =>
    obtain ⟨o, c⟩ := cell
    rw [stillOpen] at h
    split_ifs at h with hc
    · rcases ih h with hopened | hmem
      · rcases List.mem_cons.mp hopened with rfl | hopened
        · exact Or.inr (hc ▸ List.mem_cons_self)
        · exact Or.inl hopened
      · exact Or.inr (List.mem_cons_of_mem _ hmem)
    · exact (ih h).imp List.mem_of_mem_tail (List.mem_cons_of_mem _)

theorem fst_mem_of_mem_pairUp (h : (x, t) ∈ pairUp opening opened xs) :
    x ∈ opened ∨ (x, opening) ∈ xs := by
  induction xs generalizing opened with
  | nil => cases h
  | cons cell xs ih =>
    obtain ⟨o, c⟩ := cell
    by_cases hc : c = opening
    · subst hc
      rw [pairUp_opening] at h
      rcases ih h with hopened | hmem
      · rcases List.mem_cons.mp hopened with rfl | hopened
        · exact Or.inr List.mem_cons_self
        · exact Or.inl hopened
      · exact Or.inr (List.mem_cons_of_mem _ hmem)
    · cases opened with
      | nil =>
        simp only [pairUp, if_neg hc] at h
        exact (ih h).imp_right (List.mem_cons_of_mem _)
      | cons first opened =>
        simp only [pairUp, if_neg hc] at h
        rcases List.mem_cons.mp h with he | hmem
        · exact Or.inl ((Prod.mk.inj he).1 ▸ List.mem_cons_self)
        · exact (ih hmem).imp (List.mem_cons_of_mem _) (List.mem_cons_of_mem _)

theorem snd_mem_of_mem_pairUp (h : (x, t) ∈ pairUp opening opened xs) :
    ∃ c, c ≠ opening ∧ (t, c) ∈ xs := by
  induction xs generalizing opened with
  | nil => cases h
  | cons cell xs ih =>
    obtain ⟨o, c⟩ := cell
    have hlater {opened : List Nat} (hmem : (x, t) ∈ pairUp opening opened xs) :
        ∃ c', c' ≠ opening ∧ (t, c') ∈ (o, c) :: xs := by
      obtain ⟨c', hne, hc'⟩ := ih hmem
      exact ⟨c', hne, List.mem_cons_of_mem _ hc'⟩
    by_cases hc : c = opening
    · subst hc
      rw [pairUp_opening] at h
      exact hlater h
    · cases opened with
      | nil =>
        simp only [pairUp, if_neg hc] at h
        exact hlater h
      | cons first opened =>
        simp only [pairUp, if_neg hc] at h
        rcases List.mem_cons.mp h with he | hmem
        · exact ⟨c, hc, (Prod.mk.inj he).2 ▸ List.mem_cons_self⟩
        · exact hlater hmem

/-- No opening bracket has two partners. -/
theorem nodup_fst_pairUp (h : (opened ++ xs.map Prod.fst).Nodup) :
    ((pairUp opening opened xs).map Prod.fst).Nodup := by
  induction xs generalizing opened with
  | nil => simp [pairUp]
  | cons cell xs ih =>
    obtain ⟨o, c⟩ := cell
    rw [List.map_cons] at h
    by_cases hc : c = opening
    · subst hc
      rw [pairUp_opening]
      exact ih (List.nodup_middle.mp h)
    · cases opened with
      | nil =>
        simp only [pairUp, if_neg hc]
        exact ih (List.nodup_cons.mp h).2
      | cons first opened =>
        simp only [pairUp, if_neg hc, List.map_cons]
        obtain ⟨hfirst, hrest⟩ := List.nodup_cons.mp (List.cons_append ▸ h)
        have hrest' : (opened ++ xs.map Prod.fst).Nodup := (List.nodup_cons.mp (List.nodup_middle.mp hrest)).2
        refine List.nodup_cons.mpr ⟨?_, ih hrest'⟩
        intro hmem
        obtain ⟨⟨x, t⟩, hpair, rfl⟩ := List.mem_map.mp hmem
        rcases fst_mem_of_mem_pairUp hpair with hopened | hopening
        · exact hfirst (List.mem_append_left _ hopened)
        · exact hfirst (List.mem_append_right _ (List.mem_cons_of_mem _ (List.mem_map_of_mem hopening)))

/-! ### The two searches -/

/-- **The search behind an opening bracket** `x` that waits on the stack below some others. -/
theorem mem_pairUp_iff_walk (opened : List Nat) (hopened : x ∉ opened) (hdeeper : x ∉ deeper)
    (hxs : x ∉ xs.map Prod.fst) :
    (x, t) ∈ pairUp opening (opened ++ x :: deeper) xs ↔ walk opening opened.length xs = .inr t := by
  induction xs generalizing opened with
  | nil => simp [pairUp, walk]
  | cons cell xs ih =>
    obtain ⟨o, c⟩ := cell
    simp only [List.map_cons, List.mem_cons, not_or] at hxs
    obtain ⟨hxo, hxs⟩ := hxs
    by_cases hc : c = opening
    · have hstep := ih (o :: opened) (by simpa [hxo] using hopened) hxs
      simpa only [pairUp, walk, if_pos hc, List.cons_append, List.length_cons] using hstep
    · cases opened with
      | nil =>
        -- The bracket itself is on top of the stack, and comes off it.
        simp only [List.nil_append, pairUp, walk, if_neg hc, List.length_nil, List.mem_cons, Sum.inr.injEq,
          Prod.mk.injEq, true_and]
        constructor
        · rintro (rfl | hmem)
          · rfl
          · rcases fst_mem_of_mem_pairUp hmem with hbelow | hlater
            · exact absurd hbelow hdeeper
            · exact absurd (List.mem_map_of_mem hlater) hxs
        · intro he
          exact Or.inl he.symm
      | cons first opened =>
        simp only [List.mem_cons, not_or] at hopened
        simp only [List.cons_append, pairUp, walk, if_neg hc, List.length_cons, List.mem_cons, Prod.mk.injEq,
          hopened.1, false_and, false_or]
        exact ih opened hopened.2 hxs

/-- **The search in front of a closing bracket**: the walk stops at the bracket on the stack that it has to
skip `depth` others for. -/
theorem walk_reverse_eq_inr_iff (hne : opening ≠ closing)
    (hxs : ∀ cell ∈ xs, cell.2 = opening ∨ cell.2 = closing) (depth : Nat) :
    walk closing depth xs.reverse = .inr t ↔ (stillOpen opening [] xs)[depth]? = some t := by
  induction xs using List.reverseRecOn generalizing depth with
  | nil => simp [walk, stillOpen]
  | append_singleton xs cell ih =>
    obtain ⟨o, c⟩ := cell
    have hfront : ∀ cell ∈ xs, cell.2 = opening ∨ cell.2 = closing := by
      intro cell hmem
      exact hxs cell (List.mem_append_left _ hmem)
    rw [List.reverse_append, List.reverse_singleton, List.singleton_append, stillOpen_append]
    rcases hxs (o, c) (by simp) with rfl | rfl
    · simp only [walk, if_neg hne, stillOpen, if_true]
      cases depth with
      | zero => simp
      | succ depth => simpa using ih hfront depth
    · simp only [walk, if_true, stillOpen, if_neg hne.symm]
      rw [ih hfront, List.getElem?_tail]

/-- **An opening bracket is paired with the bracket at which the walk behind it stops.** -/
theorem mem_pairUp_iff_walk_below (habove : x ∉ above.map Prod.fst) (hbelow : x ∉ below.map Prod.fst) :
    (x, t) ∈ pairUp opening [] (above ++ (x, opening) :: below) ↔ walk opening 0 below = .inr t := by
  have hopening {y : Nat} (h : (y, opening) ∈ above) : y ∈ above.map Prod.fst := List.mem_map_of_mem h
  have hstack : x ∉ stillOpen opening [] above := by
    intro hmem
    rcases mem_stillOpen hmem with hnil | habove'
    · cases hnil
    · exact habove (hopening habove')
  rw [pairUp_append, List.mem_append, pairUp_opening]
  have hwalk : (x, t) ∈ pairUp opening ([] ++ x :: stillOpen opening [] above) below ↔
      walk opening 0 below = .inr t := mem_pairUp_iff_walk [] List.not_mem_nil hstack hbelow
  rw [List.nil_append] at hwalk
  rw [hwalk]
  constructor
  · rintro (hmem | hstop)
    · rcases fst_mem_of_mem_pairUp hmem with hnil | habove'
      · cases hnil
      · exact absurd (hopening habove') habove
    · exact hstop
  · exact Or.inr

/-- **A closing bracket is paired with the bracket at which the walk backwards in front of it stops.** -/
theorem mem_pairUp_iff_walk_above (hne : opening ≠ closing)
    (hcells : ∀ cell ∈ above, cell.2 = opening ∨ cell.2 = closing)
    (habove : x ∉ above.map Prod.fst) (hbelow : x ∉ below.map Prod.fst) :
    (t, x) ∈ pairUp opening [] (above ++ (x, closing) :: below) ↔
      walk closing 0 above.reverse = .inr t := by
  rw [walk_reverse_eq_inr_iff hne hcells, pairUp_append, List.mem_append]
  have hfront : (t, x) ∉ pairUp opening [] above := by
    intro hmem
    obtain ⟨c, -, hc⟩ := snd_mem_of_mem_pairUp hmem
    exact habove (List.mem_map_of_mem hc)
  have hlater (opened : List Nat) : (t, x) ∉ pairUp opening opened below := by
    intro hmem
    obtain ⟨c, -, hc⟩ := snd_mem_of_mem_pairUp hmem
    exact hbelow (List.mem_map_of_mem hc)
  cases stillOpen opening [] above with
  | nil => simp [pairUp, hne.symm, hfront, hlater]
  | cons first opened => simp [pairUp, hne.symm, hfront, hlater, eq_comm]

end Stack

end Brackets

end Linewise
