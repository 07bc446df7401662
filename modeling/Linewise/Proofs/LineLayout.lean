import Linewise.Proofs.BoundaryLines
import Mathlib.Order.Bounds.Basic

/-!
# The layout of a text

The lines of a text stand one behind the other, with one break between each two of them, and nothing else is
there. Here it is said of what can be asked of a buffer, which is where a line starts, how long it is, which line
holds an offset, and the characters from an offset on (`Buffer.LaidOut`). How long a line is, a buffer tells from
the last characters of the line and its break, and so it has to be shown that it leaves off the break, all of it
and nothing else (`Buffer.lines_eq_map`). The cut itself is greedy: a carriage return never ends a line by itself
in front of a line feed (`Text.head?_below_ne`), so a pair is one break.

* `Buffer.range_line`, `Buffer.breakBehind_eq`: where a line and its break stand.
* `Buffer.laidOut`: **every buffer is laid out line by line**.
-/

namespace Linewise

namespace Text

theorem ending_eq_nil {seen cs : List Char} {above : List Line} {l : Line} (h : linesFrom seen cs = above ++ [l]) :
    l.ending = [] := by
  obtain ⟨front, last, hlines, -⟩ := linesFrom_append seen cs
  obtain ⟨-, hlast⟩ := List.append_inj' (h.symm.trans hlines) rfl
  rw [List.head_eq_of_cons_eq hlast]

/-- **A pair is one break**: where a carriage return alone ends a line, no line feed follows. -/
theorem head?_below_ne {seen cs : List Char} {above below : List Line} {l : Line}
    (h : linesFrom seen cs = above ++ l :: below) (hl : l.ending = ['\r']) :
    (below.flatMap Line.full).head? ≠ some '\n' := by
  fun_induction linesFrom seen cs generalizing above with
  | case1 seen =>
    cases above with
    | nil =>
      obtain ⟨rfl, -⟩ := List.cons.inj h
      cases hl
    | cons x above => simp at h
  | case2 seen cs ih =>
    cases above with
    | nil =>
      obtain ⟨rfl, -⟩ := List.cons.inj h
      cases hl
    | cons x above => exact ih (List.cons.inj h).2
  | case3 seen c cs hpair _ ih =>
    cases above with
    | nil =>
      obtain ⟨rfl, rfl⟩ := List.cons.inj h
      obtain rfl : c = '\r' := List.head_eq_of_cons_eq hl
      rw [flatMap_full_linesFrom]
      intro hhead
      obtain ⟨rest, rfl⟩ := List.head?_eq_some_iff.mp hhead
      exact hpair rest rfl rfl
    | cons x above => exact ih (List.cons.inj h).2
  | case4 seen c cs _ _ ih => exact ih h

end Text

namespace Buffer

open Text (Line totalSize IsOneBreak)

variable {b : Buffer} {i j : Nat}

/-- What stands between the last character of a line and the start of the next one. -/
def breakBehind (b : Buffer) (i : Nat) : List Char :=
  b.range (b.lineStart i + b.lineLength i) (b.lineStart (i + 1) - (b.lineStart i + b.lineLength i))

/-- **A buffer is laid out line by line.** -/
structure LaidOut (b : Buffer) : Prop where
  lineCount_pos : 0 < b.lineCount
  lineStart_zero : b.lineStart 0 = 0
  lineStart_lt : ∀ i j, i < j → j < b.lineCount → b.lineStart i < b.lineStart j
  /-- What is read of the lines, and what is left off, is the text as it is cut. -/
  lines_eq : b.lines = (List.range b.lineCount).map fun i => ⟨(b.line? i).getD [], b.breakBehind i⟩
  /-- The lines and the breaks behind them, put together, are the text. -/
  text_eq : b.text = (List.range b.lineCount).flatMap fun i => (b.line? i).getD [] ++ b.breakBehind i
  /-- The text of a line stands at its start. -/
  line?_eq : ∀ i < b.lineCount, b.line? i = some (b.range (b.lineStart i) (b.lineLength i))
  length_line? : ∀ i < b.lineCount, ((b.line? i).getD []).length = b.lineLength i
  no_break : ∀ i < b.lineCount, ∀ c ∈ (b.line? i).getD [], Text.isBreak c = false
  isOneBreak_breakBehind : ∀ i, i + 1 < b.lineCount → IsOneBreak (b.breakBehind i)
  breakBehind_last : ∀ i, i + 1 = b.lineCount → b.breakBehind i = []
  /-- No pair of carriage return and line feed is divided between two lines. -/
  pair_whole : ∀ i, i + 1 < b.lineCount → b.breakBehind i = ['\r'] →
    (b.text)[b.lineStart (i + 1)]? ≠ some '\n'
  /-- The line that holds an offset is the last one that does not start behind it. -/
  isGreatest_lineOf : ∀ offset, IsGreatest {i | i < b.lineCount ∧ b.lineStart i ≤ offset} (b.lineOf offset)

/-! ### A line among the others -/

section Placed
variable {above below : List Line} {l : Line} (h : b.lines = above ++ l :: below)
include h

theorem lineStart_succ_eq : b.lineStart (above.length + 1) = totalSize above + l.size := by
  have hsplit : b.lines = (above ++ [l]) ++ below := by rw [h, List.append_assoc, List.singleton_append]
  have hstart := lineStart_of_lines_eq hsplit
  rwa [List.length_append, List.length_singleton, Text.totalSize_append, totalSize, totalSize, Nat.add_zero] at hstart

theorem succ_lt_lineCount_iff : above.length + 1 < b.lineCount ↔ below ≠ [] := by
  rw [lineCount, h, List.length_append, List.length_cons, ← List.length_pos_iff]
  omega

theorem drop_lineStop :
    b.text.drop (b.lineStart above.length + b.lineLength above.length) = l.ending ++ below.flatMap Line.full := by
  rw [← List.drop_drop, drop_lineStart h, lineLength_eq h, List.drop_left]

/-- **Its break stands behind it.** -/
theorem breakBehind_eq : b.breakBehind above.length = l.ending := by
  have hending : totalSize above + l.size - (totalSize above + l.text.length) = l.ending.length := by
    simp only [Line.size]
    omega
  rw [breakBehind, range, drop_lineStop h, lineStart_succ_eq h, lineStart_of_lines_eq h, lineLength_eq h, hending,
    List.take_left]

theorem drop_lineStart_succ : b.text.drop (b.lineStart (above.length + 1)) = below.flatMap Line.full := by
  have hnext : b.lineStart (above.length + 1) =
      b.lineStart above.length + b.lineLength above.length + l.ending.length := by
    rw [lineStart_succ_eq h, lineStart_of_lines_eq h, lineLength_eq h, Line.size, Nat.add_assoc]
  rw [hnext, ← List.drop_drop, drop_lineStop h, List.drop_left]

theorem isOneBreak_ending (hbelow : below ≠ []) : IsOneBreak l.ending :=
  (Text.of_mem_lines (mem_lines h)).2.resolve_left
    (Text.ending_ne_nil (show Text.linesFrom [] b.text = _ from h) hbelow)

theorem lineStart_lt_lineStart_succ (hbelow : below ≠ []) :
    b.lineStart above.length < b.lineStart (above.length + 1) := by
  have hend := List.length_pos_iff.mpr (Text.ending_ne_nil (show Text.linesFrom [] b.text = _ from h) hbelow)
  rw [lineStart_succ_eq h, lineStart_of_lines_eq h, Line.size]
  omega

end Placed

/-! ### The layout -/

theorem lineStart_lt_lineStart (hij : i < j) (hj : j < b.lineCount) : b.lineStart i < b.lineStart j := by
  have hstep {k : Nat} (hk : k + 1 < b.lineCount) : b.lineStart k < b.lineStart (k + 1) := by
    obtain ⟨above, l, below, hlines, rfl⟩ := exists_lines_eq (Nat.lt_of_succ_lt hk)
    exact lineStart_lt_lineStart_succ hlines ((succ_lt_lineCount_iff hlines).mp hk)
  induction j, hij using Nat.le_induction with
  | base => exact hstep hj
  | succ j hij ih => exact Nat.lt_trans (ih (Nat.lt_of_succ_lt hj)) (hstep hj)

/-- **The line that holds an offset is the last one that does not start behind it.** -/
theorem isGreatest_lineOf (b : Buffer) (offset : Nat) :
    IsGreatest {i | i < b.lineCount ∧ b.lineStart i ≤ offset} (b.lineOf offset) := by
  obtain ⟨above, l, below, hlines, hle, hlt⟩ :=
    Text.exists_line_of_offset (Text.linesFrom_ne_nil [] b.text) offset
  replace hlines : b.lines = above ++ l :: below := hlines
  have hline : b.lineOf offset = above.length := by
    rw [lineOf, lineStarts, hlines, Text.lineOf_startsFrom hle hlt]
  rw [hline]
  constructor
  · refine ⟨?_, by rwa [lineStart_of_lines_eq hlines]⟩
    rw [lineCount, hlines, List.length_append, List.length_cons]
    omega
  · rintro i ⟨hi, hstart⟩
    by_contra hlater
    rw [Nat.not_le] at hlater
    -- A later line starts where this one and its break end, or further behind.
    have hoffset := hlt ((succ_lt_lineCount_iff hlines).mp (Nat.lt_of_le_of_lt hlater hi))
    rw [← lineStart_succ_eq hlines] at hoffset
    rcases Nat.eq_or_lt_of_le hlater with rfl | hlater
    · exact absurd hstart (Nat.not_le_of_lt hoffset)
    · exact absurd (Nat.lt_trans hoffset (lineStart_lt_lineStart hlater hi)) (Nat.not_lt_of_le hstart)

/-- **What is read of a line is its text, and what is left off is its break.** -/
theorem lines_eq_map (b : Buffer) :
    b.lines = (List.range b.lineCount).map fun i => ⟨(b.line? i).getD [], b.breakBehind i⟩ := by
  refine List.ext_getElem (by simp [lineCount]) fun i hi _ => ?_
  obtain ⟨above, l, below, hlines, rfl⟩ := exists_lines_eq hi
  simp [line?_of_lines_eq hlines, breakBehind_eq hlines, hlines]

theorem text_eq_flatMap (b : Buffer) :
    b.text = (List.range b.lineCount).flatMap fun i => (b.line? i).getD [] ++ b.breakBehind i := by
  have hall : b.lines.flatMap Line.full = b.text := Text.flatMap_full_lines b.text
  rw [b.lines_eq_map, List.flatMap_map] at hall
  exact hall.symm

/-- **Every buffer is laid out line by line**, whatever changes have led to its text. -/
theorem laidOut (b : Buffer) : b.LaidOut where
  lineCount_pos := List.length_pos_iff.mpr (Text.linesFrom_ne_nil [] b.text)
  lineStart_zero := lineStart_of_lines_eq (List.nil_append b.lines).symm
  lineStart_lt _ _ := lineStart_lt_lineStart
  lines_eq := b.lines_eq_map
  text_eq := b.text_eq_flatMap
  line?_eq i hi := if_neg (Nat.not_le_of_lt hi)
  length_line? i hi := by
    obtain ⟨above, l, below, hlines, rfl⟩ := exists_lines_eq hi
    rw [line?_of_lines_eq hlines, Option.getD_some, lineLength_eq hlines]
  no_break i hi := by
    obtain ⟨above, l, below, hlines, rfl⟩ := exists_lines_eq hi
    rw [line?_of_lines_eq hlines, Option.getD_some]
    exact (Text.of_mem_lines (mem_lines hlines)).1
  isOneBreak_breakBehind i hi := by
    obtain ⟨above, l, below, hlines, rfl⟩ := exists_lines_eq (Nat.lt_of_succ_lt hi)
    rw [breakBehind_eq hlines]
    exact isOneBreak_ending hlines ((succ_lt_lineCount_iff hlines).mp hi)
  breakBehind_last i hi := by
    obtain ⟨above, l, below, hlines, rfl⟩ := exists_lines_eq (Nat.lt_of_lt_of_eq i.lt_succ_self hi)
    obtain rfl : below = [] := by
      by_contra hbelow
      exact absurd hi (Nat.ne_of_lt ((succ_lt_lineCount_iff hlines).mpr hbelow))
    rw [breakBehind_eq hlines]
    exact Text.ending_eq_nil (show Text.linesFrom [] b.text = _ from hlines)
  pair_whole i hi hreturn := by
    obtain ⟨above, l, below, hlines, rfl⟩ := exists_lines_eq (Nat.lt_of_succ_lt hi)
    rw [breakBehind_eq hlines] at hreturn
    rw [← List.head?_drop, drop_lineStart_succ hlines]
    exact Text.head?_below_ne (show Text.linesFrom [] b.text = _ from hlines) hreturn
  isGreatest_lineOf := b.isGreatest_lineOf

/-- A return in front of a pair ends a line of its own, and the offset inside the pair is on the line that the pair
ends. -/
example : let b : Buffer := ⟨['a', '\r', '\r', '\n', 'b'], 0⟩
    (List.range b.lineCount).map b.breakBehind = [['\r'], ['\r', '\n'], []] ∧ b.lineOf 3 = 1 := by decide

end Buffer

end Linewise
