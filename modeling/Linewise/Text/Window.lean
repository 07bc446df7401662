import Linewise.Text.Search

/-!
# Windows on a line

A scanner may be handed a part of a line, from one column to just before another. It reads that part where
it stands: what looks ahead stops at the end of the part, and what looks back stops at its start.

What a window shows is divided by a column into the characters behind it (`behind`) and those in front of
it (`inFront`). Every question about the window is one about these two texts, and each function below says
which (`char?_eq`, `runEnd_eq`, `find?_eq`, `runStart_eq`, ...), so that nothing outside the window counts.
-/

namespace Linewise.Text

/-- A part of a line. -/
structure Window where
  line : Array Char
  /-- Column of the first character. -/
  start : Nat
  /-- Column just behind the last character. -/
  stop : Nat

namespace Window

/-! ### What a window shows -/

/-- The line up to the end of the window. -/
def text (w : Window) : List Char := w.line.toList.take w.stop

/-- The characters from a column on. -/
def behind (w : Window) (column : Nat) : List Char := w.text.drop column

/-- The characters in front of a column, nearest first. -/
def inFront (w : Window) (column : Nat) : List Char := ((w.text.take column).drop w.start).reverse

/-- The character at a column. -/
def char? (w : Window) (column : Nat) : Option Char :=
  if column < w.stop then w.line[column]? else none

variable {w : Window} {column : Nat} {c : Char}

theorem length_text (h : w.stop ≤ w.line.size) : w.text.length = w.stop := by
  simp [text, h]

theorem char?_eq_getElem? (w : Window) (column : Nat) : w.char? column = w.text[column]? := by
  simp [char?, text, List.getElem?_take]

theorem lt_length_of_char? (h : w.char? column = some c) : column < w.text.length := by
  rw [char?_eq_getElem?] at h
  exact (List.getElem?_eq_some_iff.1 h).1

theorem lt_stop_of_char? (h : w.char? column = some c) : column < w.stop :=
  Nat.lt_of_lt_of_le (lt_length_of_char? h) (List.length_take_le ..)

theorem char?_eq (w : Window) (column : Nat) : w.char? column = (w.behind column).head? := by
  rw [char?_eq_getElem?, behind, List.head?_drop]

theorem behind_eq_cons (h : w.char? column = some c) : w.behind column = c :: w.behind (column + 1) := by
  rw [char?_eq_getElem?] at h
  obtain ⟨hlt, rfl⟩ := List.getElem?_eq_some_iff.1 h
  exact List.drop_eq_getElem_cons hlt

theorem behind_eq_nil (h : w.char? column = none) : w.behind column = [] := by
  rw [char?_eq_getElem?, List.getElem?_eq_none_iff] at h
  exact List.drop_eq_nil_of_le h

theorem drop_behind (w : Window) (column n : Nat) : (w.behind column).drop n = w.behind (column + n) := by
  rw [behind, behind, List.drop_drop]

theorem head?_drop_behind (w : Window) (column n : Nat) :
    ((w.behind column).drop n).head? = w.char? (column + n) := by
  rw [drop_behind, char?_eq]

theorem getElem?_behind (w : Window) (column n : Nat) :
    (w.behind column)[n]? = w.char? (column + n) := by
  rw [char?_eq_getElem?, behind, List.getElem?_drop]

theorem length_behind (h : w.stop ≤ w.line.size) (column : Nat) :
    (w.behind column).length = w.stop - column := by
  rw [behind, List.length_drop, length_text h]

theorem inFront_add {n : Nat} (hstart : w.start ≤ column) (hcolumn : column ≤ w.text.length) :
    w.inFront (column + n) = ((w.behind column).take n).reverse ++ w.inFront column := by
  have hlength : w.start ≤ (w.text.take column).length := by
    rw [List.length_take]
    omega
  rw [inFront, List.take_add, List.drop_append_of_le_length hlength, List.reverse_append]
  rfl

theorem inFront_start (w : Window) : w.inFront w.start = [] := by
  rw [inFront, List.drop_take_self, List.reverse_nil]

theorem inFront_succ (hstart : w.start ≤ column) (h : w.char? column = some c) :
    w.inFront (column + 1) = c :: w.inFront column := by
  rw [inFront_add hstart (Nat.le_of_lt (lt_length_of_char? h)), behind_eq_cons h]
  rfl

/-- The characters between two columns. -/
def slice (w : Window) (first stop : Nat) : List Char := (w.line.extract first stop).toList

theorem slice_eq_take {first stop : Nat} (h : stop ≤ w.stop) :
    w.slice first stop = (w.behind first).take (stop - first) := by
  rw [slice, Array.toList_extract, List.extract_eq_take_drop, behind, text, List.drop_take,
    List.take_take, Nat.min_eq_left (by omega)]

theorem slice_eq_drop {first stop : Nat} (h : stop ≤ w.stop) :
    w.slice first stop = (w.text.take stop).drop first := by
  rw [slice_eq_take h, behind, List.drop_take]

/-! ### Runs -/

/-- The column behind the run of characters of one class that starts at a column. -/
def runEnd (w : Window) (p : Char → Bool) (column : Nat) : Nat :=
  match h : w.char? column with
  | some c => if p c then w.runEnd p (column + 1) else column
  | none => column
termination_by w.stop - column
decreasing_by
  have := lt_stop_of_char? h
  omega

theorem runEnd_eq (w : Window) (p : Char → Bool) (column : Nat) :
    w.runEnd p column = column + run p (w.behind column) := by
  fun_induction runEnd w p column with
  | case1 column c h hp ih =>
    rw [ih, behind_eq_cons h, run, run, List.takeWhile_cons_of_pos hp, List.length_cons]
    omega
  | case2 column c h hp =>
    rw [behind_eq_cons h, run, List.takeWhile_cons_of_neg hp]
    rfl
  | case3 column h =>
    rw [behind_eq_nil h]
    rfl

theorem runEnd_le {p : Char → Bool} (hcolumn : column ≤ w.stop) : w.runEnd p column ≤ w.stop := by
  have hrun := run_le_length p (w.behind column)
  have hbehind : (w.behind column).length ≤ w.stop - column := by
    rw [behind, List.length_drop]
    exact Nat.sub_le_sub_right (List.length_take_le ..) column
  rw [runEnd_eq]
  omega

/-- The column at which the run of characters of one class starts that ends in front of a column. -/
def runStart (w : Window) (p : Char → Bool) : Nat → Nat
  | 0 => 0
  | column + 1 =>
    if w.start ≤ column ∧ (w.line[column]?).any p then w.runStart p column else column + 1

/-- The character in front of a column. -/
def last? (w : Window) (column : Nat) : Option Char :=
  if w.start < column then w.line[column - 1]? else none

section Back
variable (hstop : column ≤ w.stop) (hsize : w.stop ≤ w.line.size)
include hstop hsize

theorem exists_char? {first : Nat} (h : first < column) :
    ∃ c, w.line[first]? = some c ∧ w.char? first = some c := by
  have hline : w.line[first]? = some w.line[first] := Array.getElem?_eq_getElem (by omega)
  exact ⟨_, hline, by rw [char?, if_pos (by omega), hline]⟩

theorem last?_eq : w.last? column = (w.inFront column).head? := by
  unfold last?
  split
  · next h =>
    obtain ⟨above, rfl⟩ : ∃ above, column = above + 1 := ⟨column - 1, by omega⟩
    obtain ⟨c, hline, hc⟩ := exists_char? hstop hsize (Nat.lt_succ_self above)
    rw [inFront_succ (by omega) hc, Nat.add_sub_cancel, hline, List.head?_cons]
  · next h =>
    rw [inFront, List.drop_eq_nil_of_le (by rw [List.length_take]; omega)]
    rfl

end Back

theorem runStart_bounds {p : Char → Bool} (hstart : w.start ≤ column) :
    w.start ≤ w.runStart p column ∧ w.runStart p column ≤ column := by
  induction column with
  | zero => exact ⟨hstart, Nat.le_refl _⟩
  | succ column ih =>
    unfold runStart
    split
    · next h =>
      have := ih h.1
      omega
    · exact ⟨hstart, Nat.le_refl _⟩

/-- The characters in front of a column are those of the run that ends there, and behind them those in
front of the run. -/
theorem runStart_eq {p : Char → Bool} (hstart : w.start ≤ column) (hstop : column ≤ w.stop)
    (hsize : w.stop ≤ w.line.size) :
    w.slice (w.runStart p column) column = ((w.inFront column).takeWhile p).reverse ∧
      w.inFront (w.runStart p column) = (w.inFront column).dropWhile p := by
  induction column with
  | zero =>
    have hnil : w.inFront 0 = [] := by simp [inFront]
    rw [runStart, hnil, slice_eq_drop hstop]
    simp
  | succ column ih =>
    rw [slice_eq_drop hstop]
    unfold runStart
    by_cases hin : w.start ≤ column
    · obtain ⟨c, hline, hc⟩ := exists_char? hstop hsize (Nat.lt_succ_self column)
      have ih := ih hin (by omega)
      rw [slice_eq_drop (by omega)] at ih
      have htext : w.text.take (column + 1) = w.text.take column ++ [c] := by
        rw [List.take_add_one, ← char?_eq_getElem?, hc, Option.toList_some]
      have hbounds := runStart_bounds (p := p) hin
      have hdrop : w.runStart p column ≤ (w.text.take column).length := by
        rw [List.length_take]
        have := lt_length_of_char? hc
        omega
      rw [inFront_succ hin hc, hline, Option.any_some]
      by_cases hp : p c = true
      · rw [if_pos ⟨hin, hp⟩, List.takeWhile_cons_of_pos hp, List.dropWhile_cons_of_pos hp, htext,
          List.drop_append_of_le_length hdrop, ih.1, List.reverse_cons]
        exact ⟨rfl, ih.2⟩
      · rw [if_neg (fun h => hp h.2), List.takeWhile_cons_of_neg hp, List.dropWhile_cons_of_neg hp,
          inFront_succ hin hc]
        simp
    · have hcolumn : w.start = column + 1 := by omega
      rw [if_neg (fun h => hin h.1), ← hcolumn, inFront_start]
      simp

/-! ### Occurrences -/

/-- Whether a text stands at a column. -/
def startsAt (w : Window) : (pat : List Char) → (column : Nat) → Bool
  | [], _ => true
  | c :: pat, column => w.char? column == some c && w.startsAt pat (column + 1)

/-- The column of the first occurrence of a text from a column on. -/
def find? (w : Window) (pat : List Char) (column : Nat) : Option Nat :=
  match h : w.char? column with
  | some _ => if w.startsAt pat column then some column else w.find? pat (column + 1)
  | none => none
termination_by w.stop - column
decreasing_by
  have := lt_stop_of_char? h
  omega

theorem startsAt_eq (w : Window) (pat : List Char) (column : Nat) :
    w.startsAt pat column = pat.isPrefixOf (w.behind column) := by
  induction pat generalizing column with
  | nil => rfl
  | cons p pat ih =>
    unfold startsAt
    cases h : w.char? column with
    | none => rw [behind_eq_nil h]; rfl
    | some c =>
      rw [behind_eq_cons h, ih, List.isPrefixOf_cons_cons, Option.some_beq_some]
      congr 1
      exact Bool.beq_comm

theorem find?_eq (w : Window) (pat : List Char) (column : Nat) :
    w.find? pat column = (Text.find? pat (w.behind column)).map (column + ·) := by
  fun_induction find? w pat column with
  | case1 column c h hpat =>
    rw [startsAt_eq, behind_eq_cons h] at hpat
    simp [Text.find?, behind_eq_cons h, firstSuffix?, hpat]
  | case2 column c h hpat ih =>
    rw [startsAt_eq, behind_eq_cons h] at hpat
    rw [ih, Text.find?, Text.find?, behind_eq_cons h, firstSuffix?, if_neg hpat, Option.map_map]
    congr 1
    funext n
    show column + 1 + n = column + (n + 1)
    omega
  | case3 column h =>
    rw [behind_eq_nil h]
    rfl

end Window

end Linewise.Text
