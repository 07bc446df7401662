import Linewise.Brackets
import Linewise.Proofs.EditReports
import Mathlib.Data.List.Nodup
import Mathlib.Data.List.Range

/-!
# Offsets and columns

The lines of a buffer, put together with their breaks, are its text. So a column of a line is an offset of
the text, namely as far behind the line's start, and the line that holds an offset is the one that starts
last in front of it (`Buffer.exists_line_source`, `Buffer.lineOf_source`). What is looked for line by line
is therefore found in the text as a whole, if no break is looked for (`Buffer.cells_text`).
-/

namespace Linewise

open BracketMatcher (Cell cells)

/-! ### Characters that are one of two -/

namespace BracketMatcher

/-- A character of a line at its place in the text, in which the line starts at an offset. -/
def Cell.shift (start : Nat) (cell : Cell) : Cell := (start + cell.1, cell.2)

theorem Cell.map_shift_shift (start start' : Nat) (cells : List Cell) :
    (cells.map (Cell.shift start')).map (Cell.shift start) = cells.map (Cell.shift (start + start')) := by
  rw [List.map_map]
  refine List.map_congr_left fun cell _ => ?_
  simp [shift, Nat.add_assoc]

section Cells
variable {a b : Char} {xs ys : List Char}

theorem cells_eq (a b : Char) (xs : List Char) :
    cells a b xs = (xs.zipIdx.map Prod.swap).filter fun cell => cell.2 == a || cell.2 == b := rfl

theorem mem_cells {o : Nat} {c : Char} :
    (o, c) ∈ cells a b xs ↔ xs[o]? = some c ∧ (c = a ∨ c = b) := by
  simp only [cells_eq, List.mem_filter, List.mem_map, Prod.exists, List.mem_zipIdx_iff_getElem?,
    Bool.or_eq_true, beq_iff_eq]
  constructor
  · rintro ⟨⟨c, o, hc, ⟨⟩⟩, hab⟩
    exact ⟨hc, hab⟩
  · rintro ⟨hc, hab⟩
    exact ⟨⟨c, o, hc, rfl⟩, hab⟩

theorem lt_of_mem_cells {cell : Cell} (h : cell ∈ cells a b xs) : cell.1 < xs.length := by
  obtain ⟨o, c⟩ := cell
  obtain ⟨hlt, -⟩ := List.getElem?_eq_some_iff.mp (mem_cells.mp h).1
  exact hlt

theorem cells_comm : cells a b xs = cells b a xs := by
  refine List.filter_congr ?_
  rintro ⟨o, c⟩ -
  exact Bool.or_comm _ _

theorem cells_append :
    cells a b (xs ++ ys) = cells a b xs ++ (cells a b ys).map (Cell.shift xs.length) := by
  have hplaces : (ys.zipIdx (0 + xs.length)).map Prod.swap =
      (ys.zipIdx.map Prod.swap).map (Cell.shift xs.length) := by
    rw [Nat.zero_add, List.zipIdx_eq_map_add, List.map_map, List.map_map]
    rfl
  rw [cells_eq, List.zipIdx_append, List.map_append, List.filter_append, hplaces,
    List.filter_map (f := Cell.shift xs.length)]
  rfl

theorem map_snd_cells : (cells a b xs).map Prod.snd = xs.filter fun c => c == a || c == b := by
  conv_rhs => rw [← List.zipIdx_map_fst 0 xs, List.filter_map]
  rw [cells_eq, List.filter_map, List.map_map]
  rfl

theorem cells_eq_nil (h : ∀ c ∈ xs, c ≠ a ∧ c ≠ b) : cells a b xs = [] := by
  refine List.eq_nil_iff_forall_not_mem.mpr ?_
  rintro ⟨o, c⟩ hmem
  obtain ⟨hc, hab⟩ := mem_cells.mp hmem
  obtain ⟨hne, hne'⟩ := h c (List.mem_of_getElem? hc)
  rcases hab with rfl | rfl
  · exact hne rfl
  · exact hne' rfl

theorem sorted_cells : ((cells a b xs).map Prod.fst).Pairwise (· < ·) := by
  have hplaces : (xs.zipIdx.map Prod.swap).map Prod.fst = List.range xs.length := by
    rw [List.map_map]
    exact (List.zipIdx_map_snd 0 xs).trans List.range_eq_range'.symm
  have hsub : ((cells a b xs).map Prod.fst).Sublist (List.range xs.length) := by
    rw [← hplaces]
    exact List.filter_sublist.map _
  exact List.pairwise_lt_range.sublist hsub

theorem eq_append_of_mem {cells : List Cell} (hsorted : (cells.map Prod.fst).Pairwise (· < ·)) {o : Nat} {c : Char}
    (h : (o, c) ∈ cells) :
    cells = cells.filter (fun cell => cell.1 < o) ++ (o, c) :: cells.filter (fun cell => o < cell.1) := by
  induction cells with
  | nil => cases h
  | cons cell cells ih =>
    rw [List.map_cons, List.pairwise_cons] at hsorted
    obtain ⟨hfirst, hrest⟩ := hsorted
    rcases List.mem_cons.mp h with rfl | hmem
    · have hbehind : ∀ cell ∈ cells, o < cell.1 := by
        intro cell hcell
        exact hfirst cell.1 (List.mem_map_of_mem hcell)
      have hnone : cells.filter (fun cell => cell.1 < o) = [] := by
        rw [List.filter_eq_nil_iff]
        intro cell hcell
        have hlt := hbehind cell hcell
        simp only [decide_eq_true_eq]
        omega
      have hall : cells.filter (fun cell => o < cell.1) = cells := by
        rw [List.filter_eq_self]
        intro cell hcell
        exact decide_eq_true (hbehind cell hcell)
      simp only [List.filter_cons, Nat.lt_irrefl, decide_false, Bool.false_eq_true, if_false, hnone, hall,
        List.nil_append]
    · have hlt : cell.1 < o := hfirst o (List.mem_map_of_mem hmem)
      have hnot : ¬ o < cell.1 := by omega
      simp only [List.filter_cons, hlt, hnot, decide_true, decide_false, Bool.false_eq_true, if_true, if_false,
        List.cons_append]
      rw [← ih hrest hmem]

end Cells

end BracketMatcher

/-! ### Lines and their starts -/

namespace Text

theorem isBreak_of_mem_ending {seen cs : List Char} {l : Line} (hl : l ∈ linesFrom seen cs) :
    ∀ c ∈ l.ending, isBreak c = true := by
  fun_induction linesFrom seen cs with
  | case1 => simp_all
  | case2 seen cs ih =>
    rcases List.mem_cons.mp hl with rfl | hl
    · simp [isBreak]
    · exact ih hl
  | case3 seen c cs _ hc ih =>
    rcases List.mem_cons.mp hl with rfl | hl
    · simpa using hc
    · exact ih hl
  | case4 seen c cs _ _ ih => exact ih hl

/-- Every offset is on a line: behind the text, on the last one. -/
theorem exists_line_of_offset {ls : List Line} (hne : ls ≠ []) (offset : Nat) :
    ∃ above l below, ls = above ++ l :: below ∧ totalSize above ≤ offset ∧
      (below ≠ [] → offset < totalSize above + l.size) := by
  induction ls generalizing offset with
  | nil => exact absurd rfl hne
  | cons l ls ih =>
    by_cases hon : ls ≠ [] → offset < l.size
    · exact ⟨[], l, ls, rfl, Nat.zero_le _, by simpa [totalSize] using hon⟩
    · obtain ⟨hbelow, hle⟩ := Classical.not_imp.mp hon
      obtain ⟨above, l', below, rfl, hstart, hstop⟩ := ih hbelow (offset - l.size)
      refine ⟨l :: above, l', below, rfl, ?_, ?_⟩
      · simp only [totalSize]
        omega
      · intro hne'
        have hlt := hstop hne'
        simp only [totalSize]
        omega

end Text

/-! ### Lines of a buffer -/

namespace Buffer

open Text (Line totalSize startsFrom)

variable {b : Buffer} {above below : List Line} {l : Line} {i column : Nat} {sl : SourceLine}

theorem map_start_source (b : Buffer) : b.source.lines.map (·.start) = startsFrom 0 b.lines := by
  have hlen : b.lineStarts.length ≤ b.lines.length := Nat.le_of_eq (Text.length_startsFrom 0 b.lines)
  rw [lines_source, List.map_map]
  show (b.lineStarts.zip b.lines).map Prod.fst = _
  rw [List.map_fst_zip hlen]
  rfl

theorem lineOf_eq (b : Buffer) (offset : Nat) : b.source.lineOf offset = b.lineOf offset := by
  unfold Source.lineOf
  rw [b.map_start_source]
  rfl

theorem line?_source (h : b.lines = above ++ l :: below) :
    b.source.line? above.length = some ⟨totalSize above, l.text⟩ := by
  simp [Source.line?, source, lt_lineCount h, line?_of_lines_eq h, lineStart_of_lines_eq h]

theorem exists_lines_of_line? (h : b.source.line? i = some sl) :
    ∃ above l below, b.lines = above ++ l :: below ∧ above.length = i ∧ sl = ⟨totalSize above, l.text⟩ := by
  have hi : i < b.source.lineCount := (List.getElem?_eq_some_iff.mp h).1
  rw [b.lineCount_source] at hi
  obtain ⟨above, l, below, hlines, rfl⟩ := exists_lines_eq hi
  exact ⟨above, l, below, hlines, rfl, Option.some.inj (h.symm.trans (line?_source hlines))⟩

theorem lineStart_eq (h : b.source.line? i = some sl) : b.lineStart i = sl.start := by
  obtain ⟨above, l, below, hlines, rfl, rfl⟩ := exists_lines_of_line? h
  exact lineStart_of_lines_eq hlines

/-- **A column of a line is an offset that the line holds.** -/
theorem lineOf_source (h : b.source.line? i = some sl) (hcolumn : column < sl.text.length) :
    b.source.lineOf (sl.start + column) = i := by
  obtain ⟨above, l, below, hlines, rfl, rfl⟩ := exists_lines_of_line? h
  unfold Source.lineOf
  rw [b.map_start_source, hlines]
  refine Text.lineOf_startsFrom (Nat.le_add_right _ _) fun _ => ?_
  simp only [Line.size] at hcolumn ⊢
  omega

/-- **Every offset is held by a line**, which does not start behind it. -/
theorem exists_line_source (b : Buffer) (offset : Nat) :
    ∃ sl, b.source.line? (b.source.lineOf offset) = some sl ∧ sl.start ≤ offset := by
  obtain ⟨above, l, below, hlines, hle, hlt⟩ :=
    Text.exists_line_of_offset (Text.linesFrom_ne_nil [] b.text) offset
  refine ⟨⟨totalSize above, l.text⟩, ?_, hle⟩
  have hline : b.source.lineOf offset = above.length := by
    unfold Source.lineOf
    rw [b.map_start_source, show b.lines = _ from hlines]
    exact Text.lineOf_startsFrom hle hlt
  rw [hline]
  exact line?_source hlines

theorem stop_le_length (h : b.source.line? i = some sl) : sl.start + sl.text.length ≤ b.length := by
  obtain ⟨above, l, below, hlines, -, rfl⟩ := exists_lines_of_line? h
  have hsize : totalSize b.lines = b.length := Text.totalSize_lines b.text
  rw [hlines, Text.totalSize_append] at hsize
  simp only [totalSize, Line.size] at hsize ⊢
  omega

theorem lineOf_le_length (b : Buffer) (offset : Nat) : b.lineOf offset ≤ b.length := by
  have key : ∀ ls : List Line, (∀ l ∈ ls, l.ending ≠ []) → ls.length ≤ totalSize ls := by
    intro ls
    induction ls with
    | nil => exact fun _ => Nat.le_refl _
    | cons l ls ih =>
      intro hends
      rw [List.forall_mem_cons] at hends
      have hpos := List.length_pos_iff.mpr hends.1
      have hrest := ih hends.2
      simp only [List.length_cons, totalSize, Line.size]
      omega
  obtain ⟨sl, hl, -⟩ := b.exists_line_source offset
  obtain ⟨above, l, below, hlines, hlength, -⟩ := exists_lines_of_line? hl
  have hends : ∀ l' ∈ above, l'.ending ≠ [] := by
    intro l' hl'
    obtain ⟨front, back, rfl⟩ := List.append_of_mem hl'
    rw [List.append_assoc, List.cons_append] at hlines
    exact Text.ending_ne_nil (show Text.linesFrom [] b.text = _ from hlines) (by simp)
  have hsize : totalSize b.lines = b.length := Text.totalSize_lines b.text
  rw [hlines, Text.totalSize_append] at hsize
  have habove := key above hends
  rw [← b.lineOf_eq, ← hlength]
  omega

/-- There is no more than one line for each character, and one for what is behind them all. -/
theorem lineCount_le (b : Buffer) : b.lineCount ≤ b.length + 1 := by
  have hline := Text.lineOf_append b.text []
  rw [Text.cut_eq_zero (by simp), List.append_nil] at hline
  have hle := b.lineOf_le_length b.text.length
  rw [← b.length_texts, ← hline]
  exact Nat.succ_le_succ hle

/-- **What is no break is found line by line**, at its offset. -/
theorem cells_text {x y : Char} (hx : Text.isBreak x = false) (hy : Text.isBreak y = false) (b : Buffer) :
    cells x y b.text = b.source.lines.flatMap fun l => (cells x y l.text).map (Cell.shift l.start) := by
  have key : ∀ (ls : List Line) (start : Nat), (∀ l ∈ ls, ∀ c ∈ l.ending, Text.isBreak c = true) →
      (cells x y (ls.flatMap Line.full)).map (Cell.shift start) =
        ((startsFrom start ls).zip ls).flatMap fun placed =>
          (cells x y placed.2.text).map (Cell.shift placed.1) := by
    intro ls
    induction ls with
    | nil => exact fun _ _ => rfl
    | cons l ls ih =>
      intro start hbreaks
      rw [List.forall_mem_cons] at hbreaks
      have hending : cells x y l.ending = [] := by
        refine BracketMatcher.cells_eq_nil fun c hc => ⟨?_, ?_⟩
        · rintro rfl
          exact absurd (hbreaks.1 c hc) (by simp [hx])
        · rintro rfl
          exact absurd (hbreaks.1 c hc) (by simp [hy])
      have hfull : cells x y l.full = cells x y l.text := by
        rw [Line.full, BracketMatcher.cells_append, hending, List.map_nil, List.append_nil]
      have hsize : l.full.length = l.size := by simp [Line.full, Line.size]
      rw [List.flatMap_cons, BracketMatcher.cells_append, hfull, hsize, List.map_append, Cell.map_shift_shift,
        ih _ hbreaks.2]
      rfl
  have hlines := key b.lines 0 fun l hl => Text.isBreak_of_mem_ending hl
  rw [show b.lines.flatMap Line.full = b.text from Text.flatMap_full_lines b.text] at hlines
  have hzero : (cells x y b.text).map (Cell.shift 0) = cells x y b.text := by
    refine List.map_id'' (fun cell => ?_) _
    simp [Cell.shift]
  rw [← hzero, hlines]
  rw [lines_source, List.flatMap_map]
  rfl

/-- **A character that is no break stands on the line that holds its offset**, at its column. -/
theorem getElem?_text_iff {c : Char} {offset : Nat} (hc : Text.isBreak c = false)
    (hl : b.source.line? (b.source.lineOf offset) = some sl) (hstart : sl.start ≤ offset) :
    b.text[offset]? = some c ↔ sl.text[offset - sl.start]? = some c := by
  have hmem : b.text[offset]? = some c ↔ (offset, c) ∈ cells c c b.text := by
    rw [BracketMatcher.mem_cells]
    simp
  rw [hmem, cells_text hc hc, List.mem_flatMap]
  constructor
  · rintro ⟨l, hl', hplaced⟩
    obtain ⟨⟨column, c'⟩, hcell, heq⟩ := List.mem_map.mp hplaced
    obtain ⟨rfl, rfl⟩ := Prod.mk.inj heq
    obtain ⟨i, hi⟩ := List.getElem?_of_mem hl'
    have hline := lineOf_source (b := b) hi (BracketMatcher.lt_of_mem_cells hcell)
    dsimp only at hline hl hstart
    rw [hline, show b.source.line? i = some l from hi] at hl
    obtain rfl := Option.some.inj hl
    rw [Nat.add_sub_cancel_left]
    exact (BracketMatcher.mem_cells.mp hcell).1
  · intro hcolumn
    refine ⟨sl, List.mem_of_getElem? hl, List.mem_map.mpr ⟨(offset - sl.start, c), ?_, ?_⟩⟩
    · exact BracketMatcher.mem_cells.mpr ⟨hcolumn, Or.inl rfl⟩
    · simp only [Cell.shift, Nat.add_sub_cancel' hstart]

end Buffer

end Linewise
