import Linewise.CFamily.InPlace.Literal
import Linewise.Proofs.LineEnds
import Mathlib.Algebra.Group.Nat.Even
import Mathlib.Algebra.Ring.Parity
import Mathlib.Order.Bounds.Basic

/-!
# Where quoted literals end

The end of a quoted literal is looked for from the left, and a backslash is skipped together with the character
behind it. Seen from a quote it is the number of backslashes in front of it that decides: each two of them stand for
one, so it closes the literal if that number is even (`ClosesAt`). Both views agree because a backslash that is
skipped as the first of two, and what it is skipped with, leave the parity of a run of backslashes behind them as it
is (`even_lastBackslashes_pair`), and any other character ends such a run (`lastBackslashes_cons`).

* `QuoteEnd.endsAs_quoteEnd`: the end that is found in a text is the one that the backslashes tell.
* `InPlace.quoteEnd_closed_iff_isLeast`: **so it is in a part of a line**, by column.
-/

namespace Linewise.CFamily

/-- Number of backslashes with which a text ends. -/
def lastBackslashes (cs : List Char) : Nat := Text.run (· == '\x5c') cs.reverse

section Backslashes
variable {c : Char} {cs : List Char}

theorem lastBackslashes_cons (hc : c ≠ '\x5c') (cs : List Char) : lastBackslashes (c :: cs) = lastBackslashes cs := by
  unfold lastBackslashes Text.run
  rw [List.reverse_cons, List.takeWhile_append]
  split_ifs with hall
  · rw [List.length_append, hall]
    simp [hc]
  · rfl

/-- **A backslash and the character behind it do not change the parity** of the backslashes at the end. -/
theorem even_lastBackslashes_pair (c : Char) (cs : List Char) :
    Even (lastBackslashes ('\x5c' :: c :: cs)) ↔ Even (lastBackslashes cs) := by
  unfold lastBackslashes Text.run
  rw [List.reverse_cons, List.reverse_cons, List.append_assoc, List.singleton_append, List.takeWhile_append]
  split_ifs with hall
  · rw [List.length_append, hall, Nat.even_add]
    by_cases hc : c = '\x5c'
    · simp [hc]
    · simp [hc]
  · exact Iff.rfl

end Backslashes

/-- **A quote closes a literal**: the backslashes in front of it pair off. -/
def ClosesAt (quote : Char) (cs : List Char) (i : Nat) : Prop :=
  cs[i]? = some quote ∧ Even (lastBackslashes (cs.take i))

/-- **What an end of a literal says** of the text behind the opening quote. -/
def QuoteEnd.EndsAs (quote : Char) (continuable : Bool) (cs : List Char) : QuoteEnd → Prop
  | .closed length => ∃ i, length = i + 1 ∧ IsLeast {i | ClosesAt quote cs i} i
  | .continued => (∀ i, ¬ ClosesAt quote cs i) ∧ continuable = true ∧ Odd (lastBackslashes cs)
  | .unterminated => (∀ i, ¬ ClosesAt quote cs i) ∧ ¬ (continuable = true ∧ Odd (lastBackslashes cs))

section Ends
variable {quote c : Char} {continuable : Bool} {cs : List Char} {i : Nat}

theorem closesAt_cons_iff (hc : c ≠ '\x5c') (hquote : c ≠ quote) :
    ClosesAt quote (c :: cs) i ↔ ∃ j, i = j + 1 ∧ ClosesAt quote cs j := by
  unfold ClosesAt
  cases i with
  | zero => simp [hquote]
  | succ i => simp [lastBackslashes_cons hc]

theorem closesAt_pair_iff (hquote : quote ≠ '\x5c') :
    ClosesAt quote ('\x5c' :: c :: cs) i ↔ ∃ j, i = j + 2 ∧ ClosesAt quote cs j := by
  unfold ClosesAt
  rcases i with _ | _ | i
  · simp [Ne.symm hquote]
  · simp [lastBackslashes, Text.run]
  · simp [even_lastBackslashes_pair]

/-- An end that is found behind some characters says the same of the whole text, if these close nothing and leave the
parity of the backslashes at the end as it is. -/
theorem QuoteEnd.EndsAs.shift {e : QuoteEnd} {whole : List Char} {n : Nat} (h : e.EndsAs quote continuable cs)
    (hcloses : ∀ i, ClosesAt quote whole i ↔ ∃ j, i = j + n ∧ ClosesAt quote cs j)
    (heven : Even (lastBackslashes whole) ↔ Even (lastBackslashes cs)) :
    (e.shift n).EndsAs quote continuable whole := by
  have hodd : Odd (lastBackslashes whole) ↔ Odd (lastBackslashes cs) := by
    rw [← Nat.not_even_iff_odd, ← Nat.not_even_iff_odd, heven]
  have hnone (hcs : ∀ i, ¬ ClosesAt quote cs i) : ∀ i, ¬ ClosesAt quote whole i := by
    intro i hi
    obtain ⟨j, -, hj⟩ := (hcloses i).mp hi
    exact hcs j hj
  cases e with
  | closed length =>
    obtain ⟨i, rfl, hi, hleast⟩ := h
    refine ⟨i + n, by omega, (hcloses _).mpr ⟨i, rfl, hi⟩, fun k hk => ?_⟩
    obtain ⟨j, rfl, hj⟩ := (hcloses k).mp hk
    exact Nat.add_le_add_right (hleast hj) n
  | continued => exact ⟨hnone h.1, h.2.1, hodd.mpr h.2.2⟩
  | unterminated => exact ⟨hnone h.1, by rw [hodd]; exact h.2⟩

/-- **The end that is found from the left is the one that the backslashes tell.** -/
theorem QuoteEnd.endsAs_quoteEnd (hquote : quote ≠ '\x5c') (continuable : Bool) (cs : List Char) :
    (quoteEnd quote continuable cs).EndsAs quote continuable cs := by
  have hbackslash : ∀ i, ¬ ClosesAt quote ['\x5c'] i := by
    intro i hi
    rcases i with _ | i
    · exact hquote (Option.some.inj hi.1).symm
    · cases hi.1
  fun_induction quoteEnd quote continuable cs with
  | case1 => simp [EndsAs, ClosesAt, lastBackslashes, Text.run]
  | case2 hcontinuable => exact ⟨hbackslash, hcontinuable, by decide⟩
  | case3 hcontinuable => exact ⟨hbackslash, fun h => hcontinuable h.1⟩
  | case4 c cs ih => exact ih.shift (fun _ => closesAt_pair_iff hquote) (even_lastBackslashes_pair c cs)
  | case5 cs _ _ => exact ⟨0, rfl, ⟨rfl, by simp [lastBackslashes, Text.run]⟩, fun _ _ => Nat.zero_le _⟩
  | case6 c cs hlast hescape hne ih =>
    have hc := ne_backslash hlast hescape
    exact ih.shift (fun _ => closesAt_cons_iff hc hne) (by rw [lastBackslashes_cons hc])

end Ends

/-! ### In a part of a line -/

namespace InPlace

open Text (Window)

/-- **A quote at a column closes the literal** that is open from another column on. -/
def ClosesAt (w : Window) (quote : Char) (column i : Nat) : Prop :=
  column ≤ i ∧ i < w.stop ∧ (w.line)[i]? = some quote ∧ Even (lastBackslashes (w.slice column i))

section Window
variable {w : Window} {quote : Char} {column : Nat}

theorem closesAt_iff {i : Nat} :
    ClosesAt w quote column i ↔ ∃ j, i = column + j ∧ CFamily.ClosesAt quote (w.behind column) j := by
  unfold ClosesAt CFamily.ClosesAt
  constructor
  · rintro ⟨hle, hlt, hchar, heven⟩
    obtain ⟨j, rfl⟩ := Nat.exists_eq_add_of_le hle
    refine ⟨j, rfl, ?_, ?_⟩
    · rw [Window.getElem?_behind, Window.char?, if_pos hlt, hchar]
    · rwa [Window.slice_eq_take (Nat.le_of_lt hlt), Nat.add_sub_cancel_left] at heven
  · rintro ⟨j, rfl, hchar, heven⟩
    rw [Window.getElem?_behind] at hchar
    have hlt := Window.lt_stop_of_char? hchar
    rw [Window.char?, if_pos hlt] at hchar
    refine ⟨Nat.le_add_right _ _, hlt, hchar, ?_⟩
    rwa [Window.slice_eq_take (Nat.le_of_lt hlt), Nat.add_sub_cancel_left]

theorem isLeast_closesAt_iff {j : Nat} :
    IsLeast {i | ClosesAt w quote column i} (column + j) ↔
      IsLeast {j | CFamily.ClosesAt quote (w.behind column) j} j := by
  constructor
  · rintro ⟨hcloses, hleast⟩
    obtain ⟨k, hk, hcloses⟩ := closesAt_iff.mp hcloses
    obtain rfl := Nat.add_left_cancel hk
    exact ⟨hcloses, fun k hk => Nat.le_of_add_le_add_left (hleast (closesAt_iff.mpr ⟨k, rfl, hk⟩))⟩
  · rintro ⟨hcloses, hleast⟩
    refine ⟨closesAt_iff.mpr ⟨j, rfl, hcloses⟩, fun i hi => ?_⟩
    obtain ⟨k, rfl, hk⟩ := closesAt_iff.mp hi
    exact Nat.add_le_add_left (hleast hk) column

theorem slice_stop (hsize : w.stop ≤ w.line.size) (column : Nat) : w.slice column w.stop = w.behind column := by
  rw [Window.slice_eq_take (Nat.le_refl _), ← Window.length_behind hsize, List.take_length]

/-- **Where a quoted literal ends.** In a part of a line that starts behind an opening quote, the literal is closed just
behind the first quote in front of which the backslashes pair off. If there is none, the literal goes on in the next
line just where that is allowed and the part ends with an unpaired backslash. -/
theorem quoteEnd_closed_iff_isLeast (hsize : w.stop ≤ w.line.size) (hquote : quote ≠ '\x5c') (continuable : Bool)
    (column : Nat) :
    (∀ stop, quoteEnd w quote continuable column = .closed stop ↔
      ∃ i, stop = i + 1 ∧ IsLeast {i | ClosesAt w quote column i} i) ∧
    ((∀ i, ¬ ClosesAt w quote column i) → quoteEnd w quote continuable column =
      if continuable = true ∧ Odd (lastBackslashes (w.slice column w.stop)) then .continued else .unterminated) ∧
    ∀ stop, quoteEnd w quote continuable column = .closed stop → stop ≤ w.stop := by
  have hends := QuoteEnd.endsAs_quoteEnd hquote continuable (w.behind column)
  have hnone (hopen : ∀ j, ¬ CFamily.ClosesAt quote (w.behind column) j) (stop : Nat) :
      ¬ ∃ i, stop = i + 1 ∧ IsLeast {i | ClosesAt w quote column i} i := by
    rintro ⟨i, -, hi, -⟩
    obtain ⟨j, -, hj⟩ := closesAt_iff.mp hi
    exact hopen j hj
  rw [quoteEnd_eq hsize, slice_stop hsize]
  cases hend : CFamily.quoteEnd quote continuable (w.behind column) with
  | closed length =>
    rw [hend] at hends
    obtain ⟨j, rfl, hleast⟩ := hends
    rw [← isLeast_closesAt_iff] at hleast
    refine ⟨fun stop => ⟨?_, ?_⟩, fun hopen => absurd hleast.1 (hopen _), ?_⟩
    · intro hstop
      exact ⟨column + j, (QuoteEnd.closed.inj hstop).symm, hleast⟩
    · rintro ⟨i, rfl, hi⟩
      rw [hi.unique hleast]
      rfl
    · intro stop hstop
      obtain rfl := QuoteEnd.closed.inj hstop
      exact hleast.1.2.1
  | continued =>
    rw [hend] at hends
    obtain ⟨hopen, hodd⟩ := hends
    exact ⟨fun stop => iff_of_false nofun (hnone hopen stop), fun _ => (if_pos hodd).symm, nofun⟩
  | unterminated =>
    rw [hend] at hends
    obtain ⟨hopen, heven⟩ := hends
    exact ⟨fun stop => iff_of_false nofun (hnone hopen stop), fun _ => (if_neg heven).symm, nofun⟩

/-- Of two quotes, the first is escaped and the second stands behind an escaped backslash. -/
theorem quoteEnd_closed_iff_isLeast_escaped :
    let w : Window := ⟨#['\x22', 'a', '\x5c', '\x22', 'b', '\x5c', '\x5c', '\x22', 'c'], 0, 9⟩
    w.stop ≤ w.line.size ∧ '\x22' ≠ '\x5c' ∧ quoteEnd w '\x22' true 1 = .closed 8 ∧
      (∀ stop, quoteEnd w '\x22' true 1 = .closed stop ↔
        ∃ i, stop = i + 1 ∧ IsLeast {i | ClosesAt w '\x22' 1 i} i) ∧
      ((∀ i, ¬ ClosesAt w '\x22' 1 i) → quoteEnd w '\x22' true 1 =
        if true = true ∧ Odd (lastBackslashes (w.slice 1 w.stop)) then .continued else .unterminated) ∧
      ∀ stop, quoteEnd w '\x22' true 1 = .closed stop → stop ≤ w.stop := by
  intro w
  have hsize : w.stop ≤ w.line.size := by decide
  have hquote : '\x22' ≠ '\x5c' := by decide
  have hend : quoteEnd w '\x22' true 1 = .closed 8 := by decide +kernel
  exact ⟨hsize, hquote, hend, quoteEnd_closed_iff_isLeast hsize hquote true 1⟩

end Window

end InPlace

end Linewise.CFamily
