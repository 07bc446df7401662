import Linewise.Proofs.LineBreaks

/-!
# The text of a line

A buffer is asked for its lines by number. It takes the line with its break, tells from the last characters how
much of it the break is (`Text.lengthBeforeBreak`), and reads as many characters as are left from the line's
start on. That this is the line as it was cut rests on two things: a line holds no break in front of the one
that ends it, so that nothing of the line itself is taken for a break (`Text.lengthBeforeBreak_full`), and the
lines above it are together as long as the line's start is far (`Buffer.lineStart_of_lines_eq`).

* `Text.of_mem_lines`: what a single line is made of.
* `Buffer.line?_eq`: **what is read of a line is the line without its break**, and nothing is read behind the last
  one.
* `Buffer.lines_source`: so a pass reads the lines as they are cut, each at its start.
-/

namespace Linewise

namespace Text

/-- **One break**: a character that ends a line, or the pair of carriage return and line feed. -/
def IsOneBreak (cs : List Char) : Prop := cs = ['\r', '\n'] ∨ ∃ c, isBreak c = true ∧ cs = [c]

/-- A line holds no break, and one break ends it or none. -/
theorem of_mem_linesFrom {seen cs : List Char} {l : Line} (hseen : ∀ c ∈ seen, isBreak c = false)
    (hl : l ∈ linesFrom seen cs) : (∀ c ∈ l.text, isBreak c = false) ∧ (l.ending = [] ∨ IsOneBreak l.ending) := by
  have hreverse {seen : List Char} (h : ∀ c ∈ seen, isBreak c = false) : ∀ c ∈ seen.reverse, isBreak c = false :=
    fun c hc => h c (List.mem_reverse.mp hc)
  fun_induction linesFrom seen cs with
  | case1 seen =>
    obtain rfl := List.mem_singleton.mp hl
    exact ⟨hreverse hseen, Or.inl rfl⟩
  | case2 seen cs ih =>
    rcases List.mem_cons.mp hl with rfl | hl
    · exact ⟨hreverse hseen, Or.inr (Or.inl rfl)⟩
    · exact ih (List.forall_mem_nil _) hl
  | case3 seen c cs _ hc ih =>
    rcases List.mem_cons.mp hl with rfl | hl
    · exact ⟨hreverse hseen, Or.inr (Or.inr ⟨c, hc, rfl⟩)⟩
    · exact ih (List.forall_mem_nil _) hl
  | case4 seen c cs _ hc ih => exact ih (List.forall_mem_cons.mpr ⟨Bool.eq_false_iff.mpr hc, hseen⟩) hl

theorem of_mem_lines {cs : List Char} {l : Line} (hl : l ∈ lines cs) :
    (∀ c ∈ l.text, isBreak c = false) ∧ (l.ending = [] ∨ IsOneBreak l.ending) :=
  of_mem_linesFrom (List.forall_mem_nil _) hl

/-! ### Where the break of a line begins -/

section LengthBeforeBreak
variable {cs : List Char}

theorem lengthBeforeBreak_of_no_break (h : ∀ c ∈ cs, isBreak c = false) : lengthBeforeBreak cs = cs.length := by
  rcases List.eq_nil_or_concat cs with rfl | ⟨front, c, rfl⟩
  · rfl
  · have hc : isBreak c = false := h c (by simp)
    simp [lengthBeforeBreak, hc]

theorem lengthBeforeBreak_append_pair (cs : List Char) : lengthBeforeBreak (cs ++ ['\r', '\n']) = cs.length := by
  have hfeed : isBreak '\n' = true := by decide
  rw [show cs ++ ['\r', '\n'] = (cs ++ ['\r']) ++ ['\n'] by simp]
  simp [lengthBeforeBreak, hfeed]

/-- A feed is not taken for the half of a pair where nothing in front of it is a break. -/
theorem lengthBeforeBreak_append_break {c : Char} (h : ∀ c ∈ cs, isBreak c = false) (hc : isBreak c = true) :
    lengthBeforeBreak (cs ++ [c]) = cs.length := by
  have hreturn : cs.getLast? ≠ some '\r' := by
    intro hlast
    exact absurd (h '\r' (List.mem_of_getLast? hlast)) (by decide)
  simp [lengthBeforeBreak, hc, hreturn]

/-- **A line is as long as its text**, whatever its break. -/
theorem lengthBeforeBreak_full {l : Line} (hl : l ∈ lines cs) : lengthBeforeBreak l.full = l.text.length := by
  obtain ⟨htext, hnone | hpair | ⟨c, hc, hone⟩⟩ := of_mem_lines hl
  · rw [Line.full, hnone, List.append_nil, lengthBeforeBreak_of_no_break htext]
  · rw [Line.full, hpair, lengthBeforeBreak_append_pair]
  · rw [Line.full, hone, lengthBeforeBreak_append_break htext hc]

end LengthBeforeBreak

/-! ### Where lines start -/

theorem length_startsFrom (offset : Nat) (ls : List Line) : (startsFrom offset ls).length = ls.length := by
  induction ls generalizing offset with
  | nil => rfl
  | cons l ls ih => simp [startsFrom, ih]

theorem startsFrom_append (start : Nat) (above below : List Line) :
    startsFrom start (above ++ below) = startsFrom start above ++ startsFrom (start + totalSize above) below := by
  induction above generalizing start with
  | nil => simp [startsFrom, totalSize]
  | cons l above ih => simp [startsFrom, totalSize, ih, Nat.add_assoc]

theorem getElem?_startsFrom_append (above : List Line) (l : Line) (below : List Line) :
    (startsFrom 0 (above ++ l :: below))[above.length]? = some (totalSize above) := by
  rw [startsFrom_append, List.getElem?_append_right (Nat.le_of_eq (length_startsFrom 0 above)), length_startsFrom,
    Nat.sub_self]
  simp [startsFrom]

end Text

namespace Buffer

open Text (Line texts totalSize)

variable {b : Buffer} {above below : List Line} {l : Line} {i : Nat}

theorem lineStart_of_lines_eq (h : b.lines = above ++ below) : b.lineStart above.length = totalSize above := by
  cases below with
  | nil =>
    have hsize : totalSize b.lines = b.length := Text.totalSize_lines b.text
    have hstarts : b.lineStarts.length = above.length := by
      rw [lineStarts, Text.length_startsFrom, h, List.append_nil]
    rw [lineStart, List.getElem?_eq_none (Nat.le_of_eq hstarts), Option.getD_none, ← hsize, h, List.append_nil]
  | cons l below => rw [lineStart, lineStarts, h, Text.getElem?_startsFrom_append, Option.getD_some]

theorem exists_lines_eq (hi : i < b.lineCount) :
    ∃ above l below, b.lines = above ++ l :: below ∧ above.length = i := by
  replace hi : i < b.lines.length := hi
  refine ⟨b.lines.take i, b.lines[i], b.lines.drop (i + 1), ?_, List.length_take_of_le (Nat.le_of_lt hi)⟩
  rw [← List.drop_eq_getElem_cons hi, List.take_append_drop]

/-! ### A line among the others -/

section Placed
variable (h : b.lines = above ++ l :: below)
include h

theorem lt_lineCount : above.length < b.lineCount := by
  rw [lineCount, h, List.length_append, List.length_cons]
  omega

theorem mem_lines : l ∈ Text.lines b.text := by
  rw [show Text.lines b.text = _ from h]
  exact List.mem_append_cons_self

theorem lineLength_eq : b.lineLength above.length = l.text.length := by
  have hline : b.lines[above.length]? = some l := by simp [h]
  rw [lineLength, hline]
  exact Text.lengthBeforeBreak_full (mem_lines h)

theorem drop_lineStart :
    b.text.drop (b.lineStart above.length) = l.text ++ (l.ending ++ below.flatMap Line.full) := by
  have hall : b.lines.flatMap Line.full = b.text := Text.flatMap_full_lines b.text
  have habove : (above.flatMap Line.full).length = totalSize above := Text.length_flatMap_full above
  rw [lineStart_of_lines_eq h, ← hall, h, List.flatMap_append, List.drop_left' habove, List.flatMap_cons, Line.full,
    List.append_assoc]

/-- **The text of a line stands at its start.** -/
theorem range_line : b.range (b.lineStart above.length) (b.lineLength above.length) = l.text := by
  rw [range, drop_lineStart h, lineLength_eq h, List.take_left]

theorem line?_of_lines_eq : b.line? above.length = some l.text := by
  rw [line?, if_neg (Nat.not_le_of_lt (lt_lineCount h)), range_line h]

end Placed

/-! ### The lines by number -/

/-- **What is read of a line is the line without its break.** -/
theorem line?_eq (b : Buffer) (i : Nat) : b.line? i = (texts b.text)[i]? := by
  have htexts : texts b.text = b.lines.map (·.text) := rfl
  rcases Nat.lt_or_ge i b.lineCount with hi | hi
  · obtain ⟨above, l, below, h, rfl⟩ := exists_lines_eq hi
    rw [line?_of_lines_eq h, htexts, h]
    simp
  · rw [line?, if_pos hi, htexts, List.getElem?_eq_none]
    rwa [List.length_map]

theorem lineLength_of_line? {cs : List Char} (h : b.line? i = some cs) : b.lineLength i = cs.length := by
  have hi : i < b.lineCount := by
    by_contra hge
    rw [line?, if_pos (Nat.not_lt.mp hge)] at h
    cases h
  obtain ⟨above, l, below, hlines, rfl⟩ := exists_lines_eq hi
  obtain rfl := Option.some.inj ((line?_of_lines_eq hlines).symm.trans h)
  exact lineLength_eq hlines

/-- **A pass reads the lines as they are cut**, each at its start. -/
theorem lines_source (b : Buffer) :
    b.source.lines = (b.lineStarts.zip b.lines).map fun (start, l) => ⟨start, l.text⟩ := by
  have hstarts : b.lineStarts.length = b.lines.length := Text.length_startsFrom 0 b.lines
  refine List.ext_getElem? fun i => ?_
  rcases Nat.lt_or_ge i b.lineCount with hi | hi
  · obtain ⟨above, l, below, h, rfl⟩ := exists_lines_eq hi
    have hzip : (b.lineStarts.zip b.lines)[above.length]? = some (totalSize above, l) := by
      rw [List.getElem?_zip_eq_some, lineStarts, h, Text.getElem?_startsFrom_append]
      simp
    simp [source, hi, hzip, line?_of_lines_eq h, lineStart_of_lines_eq h]
  · rw [List.getElem?_eq_none (by simpa [source] using hi), List.getElem?_eq_none]
    rwa [List.length_map, List.length_zip, hstarts, Nat.min_self]

end Buffer

end Linewise
