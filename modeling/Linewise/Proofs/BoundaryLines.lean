import Linewise.Proofs.FoldStates
import Linewise.Proofs.LinesBelow

/-!
# Lines on which regions begin and end

An insertion pushes the lines behind its own one down, and the boundaries of regions with them. What becomes of
the line that is edited is a matter of the column: its text stays in front of what is inserted, goes down behind
it, or is divided. In front of it stands what is inserted at the very start of the line, and if that has a line
break, the text of the line goes down with all the lines below it. The boundary does not: to it the line is the
one edited, whatever the column (`LeavesBehind`).

What stands on the edited line afterwards is found at the seam (`Text.texts_insert`): the first line of what is
put behind a text goes on with its last line, but for a feed that completes a pair with the return there.

* `boundaries_follow_iff`: **a boundary follows its line just if it is not left behind**.
-/

namespace Linewise

namespace Text

/-- What is put behind a text, less a feed that makes a pair with the return at the end of the text. -/
def lessFeed (a b : List Char) : List Char := if CutsPair a b then b.tail else b

/-- The last line of a text goes on in the first line of what is put behind it, less a feed. -/
theorem texts_append_lessFeed (a b : List Char) :
    ∃ above last first below, texts a = above ++ [last] ∧ texts (lessFeed a b) = first :: below ∧
      texts (a ++ b) = above ++ (last ++ first) :: below := by
  obtain ⟨above, last, first, below, ha, hb, ⟨hcut, h⟩ | ⟨hcut, rfl, rfl, h⟩⟩ := texts_append a b
  · exact ⟨above, last, first, below, ha, by rwa [lessFeed, if_neg hcut], h⟩
  · obtain ⟨b', rfl⟩ := List.head?_eq_some_iff.mp hcut.2
    rw [texts_feed_cons] at hb
    obtain ⟨first, below', hbelow⟩ := List.exists_cons_of_length_pos (texts_length_pos b')
    obtain rfl : texts b' = below := (List.cons.inj hb).2
    refine ⟨above, [], first, below', ha, ?_, ?_⟩
    · rwa [lessFeed, if_pos hcut, List.tail_cons]
    · rw [h, hbelow, List.nil_append]

theorem lessFeed_append {a b : List Char} (h : ¬ CutsPair a b) (n : List Char) :
    lessFeed a (n ++ b) = lessFeed a n ++ b := by
  cases n with
  | nil => simp [lessFeed, h]
  | cons c n =>
    have hcut : CutsPair a (c :: n ++ b) ↔ CutsPair a (c :: n) := Iff.rfl
    unfold lessFeed
    rw [if_congr hcut rfl rfl]
    split_ifs
    · rfl
    · rfl

/-- **What becomes of the line of a seam**, if that divides no pair: the line is divided, and behind its first part
stands the first line of what is inserted, or all of that and then the rest. -/
theorem texts_insert {a b : List Char} (hcut : ¬ CutsPair a b) (n : List Char) :
    ∃ front last first head back rest, texts a = front ++ [last] ∧
      texts (a ++ b) = front ++ (last ++ first) :: back ∧
      texts (a ++ (n ++ b)) = front ++ (last ++ head) :: rest ∧
      (first = [] ∨ rest.length = back.length ∧ first <:+ head ∨
        back.length < rest.length ∧ head = (texts (lessFeed a n)).headD []) := by
  obtain ⟨front, last, first, back, ha, hb, ⟨-, hold⟩ | ⟨h, -⟩⟩ := texts_append a b
  swap
  · exact absurd h hcut
  obtain ⟨front', last', head, rest, ha', hhead, hnew⟩ := texts_append_lessFeed a (n ++ b)
  obtain ⟨rfl, hlast⟩ := List.append_inj' (ha.symm.trans ha') rfl
  obtain rfl : last = last' := List.head_eq_of_cons_eq hlast
  refine ⟨front, last, first, head, back, rest, ha, hold, hnew, ?_⟩
  by_cases hfeed : b.head? = some '\n'
  · left
    obtain ⟨b', rfl⟩ := List.head?_eq_some_iff.mp hfeed
    rw [texts_feed_cons] at hb
    exact (List.cons.inj hb).1.symm
  right
  -- No feed stands behind what is inserted, so the line's rest goes on where that ends.
  obtain ⟨mid, tail, first', back', hn, hb', ⟨-, hjoin⟩ | ⟨h, -⟩⟩ := texts_append (lessFeed a n) b
  swap
  · exact absurd h.2 hfeed
  obtain ⟨rfl, rfl⟩ := List.cons.inj (hb.symm.trans hb')
  rw [lessFeed_append hcut, hjoin] at hhead
  rw [hn]
  cases mid with
  | nil =>
    left
    obtain ⟨rfl, rfl⟩ := List.cons.inj hhead
    exact ⟨rfl, List.suffix_append _ _⟩
  | cons m mid =>
    right
    rw [List.cons_append] at hhead
    obtain ⟨rfl, rfl⟩ := List.cons.inj hhead
    refine ⟨?_, rfl⟩
    simp only [List.length_append, List.length_cons]
    omega

end Text

namespace Buffer

open Text (texts cut CutsPair Line totalSize lessFeed)

variable {b : Buffer} {offset line line' : Nat} {inserted : List Char}

/-! ### Where lines start -/

/-- **The offset at which a line starts is on the line.** -/
theorem lineOf_lineStart (h : line < b.lineCount) : b.lineOf (b.lineStart line) = line := by
  obtain ⟨above, l, below, hlines, rfl⟩ := exists_lines_eq h
  rw [lineStart_of_lines_eq hlines, lineOf, lineStarts, hlines, Text.lineOf_startsFrom (Nat.le_refl _) ?_]
  intro hbelow
  have hend := List.length_pos_iff.mpr (Text.ending_ne_nil (show Text.linesFrom [] b.text = _ from hlines) hbelow)
  simp only [Line.size]
  omega

theorem lineStart_add_lineLength_le (h : line < b.lineCount) :
    b.lineStart line + b.lineLength line ≤ b.length := by
  obtain ⟨above, l, below, hlines, rfl⟩ := exists_lines_eq h
  rw [lineStart_of_lines_eq hlines, lineLength_eq hlines]
  exact stop_le_length (line?_source hlines)

section Seam
variable {above below : List Char} (htext : b.text = above ++ below)
include htext

/-- An offset that divides no pair is as far behind the start of its line as the text in front of it goes on
there. -/
theorem lineStart_add_of_not_cutsPair (hcut : ¬ CutsPair above below) {front : List (List Char)} {last : List Char}
    (habove : texts above = front ++ [last]) : b.lineStart front.length + last.length = above.length := by
  obtain ⟨ls, last', first, back, ha, -, ⟨-, h⟩ | ⟨h, -⟩⟩ := Text.lines_append above below
  swap
  · exact absurd h hcut
  have htexts : front ++ [last] = ls.map (·.text) ++ [last'] := by rw [← habove, texts, ha]; simp
  obtain ⟨rfl, hlast⟩ := List.append_inj' htexts rfl
  obtain rfl : last = last' := List.head_eq_of_cons_eq hlast
  have hsize := Text.totalSize_lines above
  rw [ha, Text.totalSize_append] at hsize
  have hlines : b.lines = ls ++ ⟨last ++ first.text, first.ending⟩ :: back := by rw [lines, htext, h]
  rw [List.length_map, lineStart_of_lines_eq hlines, ← hsize]
  simp [totalSize, Line.size]

theorem lineStart_lt_of_cutsPair (hcut : CutsPair above below) (hline : line + 2 = (texts above).length) :
    b.lineStart line < above.length := by
  obtain ⟨ls, last, first, back, ha, -, ⟨h, -⟩ | ⟨-, front, l, rfl, rfl, -, h⟩⟩ := Text.lines_append above below
  · exact absurd hcut h
  have hsize := Text.totalSize_lines above
  rw [ha, Text.totalSize_append, Text.totalSize_append] at hsize
  rw [texts, List.length_map, ha] at hline
  simp only [List.length_append, List.length_singleton, totalSize, Line.size, List.length_nil] at hline hsize
  obtain rfl : line = front.length := by omega
  have hlines : b.lines = front ++ ⟨l, ['\r', '\n']⟩ :: back := by rw [lines, htext, h]
  rw [lineStart_of_lines_eq hlines]
  omega

end Seam

/-! ### Lines around an insertion -/

section Insert

theorem line?_insert_above (h : line < (b.insert offset inserted).2.startLine) :
    (b.insert offset inserted).1.line? line = b.line? line := by
  have hm := b.insert_describes offset inserted
  rw [line?_eq, line?_eq, ← texts_source, ← texts_source]
  exact hm.above line h

theorem line?_insert_below (h : (b.insert offset inserted).2.startLine < line) (hline : line < b.lineCount) :
    (b.insert offset inserted).1.line? (line + (b.insert offset inserted).2.linesAdded) = b.line? line := by
  have hm := b.insert_describes offset inserted
  have hremoved : (b.insert offset inserted).2.linesRemoved = 0 := rfl
  have hcount := hm.length_eq
  rw [texts_source, texts_source, length_texts, length_texts, hremoved] at hcount
  rw [line?_eq, line?_eq, ← texts_source, ← texts_source]
  have hbelow := hm.below (line + (b.insert offset inserted).2.linesAdded)
    (by rw [texts_source, length_texts]; omega) (by unfold Edit.lastChangedLine; omega)
  rwa [Nat.add_sub_cancel, hremoved, Nat.add_zero] at hbelow

/-- **What becomes of the line that is edited.** Between the halves of a pair, nothing; elsewhere it is divided at
the offset, and behind its first part stands the first line of what is inserted, or all of it and then the rest. -/
theorem line?_insert_edited (b : Buffer) (offset : Nat) (inserted : List Char) :
    ∃ old new, b.line? (b.insert offset inserted).2.startLine = some old ∧
      (b.insert offset inserted).1.line? (b.insert offset inserted).2.startLine = some new ∧
      (old = new ∧ b.lineStart (b.insert offset inserted).2.startLine < min offset b.length ∨
        ∃ last first head, old = last ++ first ∧ new = last ++ head ∧
          b.lineStart (b.insert offset inserted).2.startLine + last.length = min offset b.length ∧
          (first = [] ∨ (b.insert offset inserted).2.linesAdded = 0 ∧ first <:+ head ∨
            0 < (b.insert offset inserted).2.linesAdded ∧
              head = (texts (lessFeed (b.text.take offset) inserted)).headD [])) := by
  obtain ⟨above, below, htext, hnew, hlength, -, hstart, hcount⟩ := b.insert_eq offset inserted
  generalize (b.insert offset inserted).2.startLine = start at *
  generalize (b.insert offset inserted).2.linesAdded = added at *
  have habove : b.text.take offset = above := by
    have htake : b.text.take offset = b.text.take above.length := by
      rw [List.take_eq_take_iff, hlength]
      unfold length
      omega
    rw [htake, htext, List.take_left]
  rw [habove, line?_eq, line?_eq, htext, hnew, ← hlength]
  rw [List.append_assoc] at hcount ⊢
  by_cases hcut : CutsPair above below
  · rw [cut, if_pos hcut] at hstart
    have hlt : start < (texts above).length := by omega
    have hkept (behind : List Char) : (texts (above ++ behind))[start]? = some (texts above)[start] := by
      rw [Text.getElem?_texts_append_left _ (by omega), List.getElem?_eq_getElem hlt]
    exact ⟨_, _, hkept _, hkept _, Or.inl ⟨rfl, lineStart_lt_of_cutsPair htext hcut hstart⟩⟩
  obtain ⟨front, last, first, head, back, rest, hlast, hold, hnow, hcases⟩ := Text.texts_insert hcut inserted
  rw [cut, if_neg hcut, hlast, List.length_append, List.length_singleton] at hstart
  obtain rfl : start = front.length := by omega
  rw [hold, hnow] at hcount ⊢
  simp only [List.length_append, List.length_cons] at hcount
  refine ⟨last ++ first, last ++ head, by simp, by simp, Or.inr ⟨last, first, head, rfl, rfl,
    lineStart_add_of_not_cutsPair htext hcut hlast, ?_⟩⟩
  exact hcases.imp_right (Or.imp (fun h => ⟨by omega, h.2⟩) fun h => ⟨by omega, h.2⟩)

end Insert

/-! ### Lines that are followed -/

/-- **`line'` is where `line` has gone**, if the insertion does not divide its text: it still ends with that text if
the insertion is in front of it, and begins with it if the insertion is behind it. -/
def Follows (b : Buffer) (offset : Nat) (inserted : List Char) (line line' : Nat) : Prop :=
  ∃ old new, b.line? line = some old ∧ (b.insert offset inserted).1.line? line' = some new ∧
    (offset ≤ b.lineStart line → old <:+ new) ∧
    (b.lineStart line + b.lineLength line ≤ offset → old <+: new)

/-- **A boundary on `line` is left behind**: what is inserted at the very start of the line brings lines, and
the text of the line does not stand at the end of the first one. -/
def LeavesBehind (b : Buffer) (offset : Nat) (inserted : List Char) (line : Nat) : Prop :=
  offset = b.lineStart line ∧ 0 < (b.insert offset inserted).2.linesAdded ∧
    ¬ (b.line? line).getD [] <:+ (texts (lessFeed (b.text.take offset) inserted)).headD []

instance (b : Buffer) (offset : Nat) (inserted : List Char) (line : Nat) :
    Decidable (b.LeavesBehind offset inserted line) :=
  inferInstanceAs (Decidable (_ ∧ _ ∧ ¬ _))

theorem startLine_insert_lineStart (h : line < b.lineCount) :
    (b.insert (b.lineStart line) inserted).2.startLine = line := by
  have hle := lineStart_add_lineLength_le h
  have hmin : min (b.lineStart line) b.length = b.lineStart line := by omega
  show b.lineOf (min (b.lineStart line) b.length) = line
  rw [hmin, lineOf_lineStart h]

theorem follows_of_line?_eq (hline : line < b.lineCount)
    (h : (b.insert offset inserted).1.line? line' = b.line? line) : b.Follows offset inserted line line' := by
  obtain ⟨above, l, below, hlines, rfl⟩ := exists_lines_eq hline
  have hl := line?_of_lines_eq hlines
  exact ⟨_, _, hl, h.trans hl, fun _ => List.suffix_rfl, fun _ => List.prefix_rfl⟩

/-- **The line that is edited** is followed just if it is not left behind. -/
theorem follows_edited_iff (hline : line < b.lineCount) (hedited : (b.insert offset inserted).2.startLine = line) :
    b.Follows offset inserted line line ↔ ¬ b.LeavesBehind offset inserted line := by
  obtain ⟨old, new, hold, hnew, hcases⟩ := b.line?_insert_edited offset inserted
  rw [hedited] at hold hnew hcases
  have hbound := lineStart_add_lineLength_le hline
  have hlength : b.lineLength line = old.length := lineLength_of_line? hold
  have hfollows : b.Follows offset inserted line line ↔
      (offset ≤ b.lineStart line → old <:+ new) ∧ (b.lineStart line + old.length ≤ offset → old <+: new) := by
    unfold Follows
    rw [hold, hnew, hlength]
    simp
  rw [hlength] at hbound
  rw [hfollows, LeavesBehind, hold, Option.getD_some]
  rcases hcases with ⟨rfl, hlt⟩ | ⟨last, first, head, rfl, rfl, hseam, hcases⟩
  · refine iff_of_true ⟨fun _ => List.suffix_rfl, fun _ => List.prefix_rfl⟩ ?_
    rintro ⟨rfl, -⟩
    omega
  rw [List.length_append] at hbound ⊢
  by_cases hat : offset = b.lineStart line
  swap
  · refine iff_of_true ⟨fun hle => absurd hle (by omega), fun hle => ?_⟩ fun h => hat h.1
    obtain rfl : first = [] := List.eq_nil_of_length_eq_zero (by omega)
    rw [List.append_nil]
    exact List.prefix_append _ _
  -- At the very start of the line, nothing of it stays in front of what is inserted.
  obtain rfl : last = [] := List.eq_nil_of_length_eq_zero (by omega)
  simp only [List.nil_append, List.length_nil, Nat.zero_add]
  have hbehind : b.lineStart line + first.length ≤ offset → first <+: head := by
    intro hle
    rw [List.eq_nil_of_length_eq_zero (by omega : first.length = 0)]
    exact List.nil_prefix
  rcases hcases with rfl | ⟨hadded, hsuffix⟩ | ⟨hadded, rfl⟩
  · exact iff_of_true ⟨fun _ => List.nil_suffix, hbehind⟩ fun h => h.2.2 List.nil_suffix
  · exact iff_of_true ⟨fun _ => hsuffix, hbehind⟩ fun h => absurd h.2.1 (by omega)
  · constructor
    · rintro ⟨hfront, -⟩ ⟨-, -, hnot⟩
      exact hnot (hfront (Nat.le_of_eq hat))
    · intro h
      exact ⟨fun _ => not_not.mp fun hnot => h ⟨hat, hadded, hnot⟩, hbehind⟩

/-- **A line is followed just if it is not left behind.** All lines but the one that is edited are as they were, where
the report says. -/
theorem follows_iff (hline : line < b.lineCount) (himage : (b.insert offset inserted).2.image line = some line') :
    b.Follows offset inserted line line' ↔ ¬ b.LeavesBehind offset inserted line := by
  have hremoved : (b.insert offset inserted).2.linesRemoved = 0 := rfl
  rw [Edit.image_eq_some_iff, hremoved, Nat.add_zero, Nat.sub_zero] at himage
  by_cases hedited : (b.insert offset inserted).2.startLine = line
  · obtain rfl : line' = line := by omega
    exact follows_edited_iff hline hedited
  refine iff_of_true (follows_of_line?_eq hline ?_) ?_
  · rcases himage with ⟨hle, rfl⟩ | ⟨hlt, rfl⟩
    · exact line?_insert_above (by omega)
    · exact line?_insert_below hlt hline
  · rintro ⟨rfl, -⟩
    exact hedited (startLine_insert_lineStart hline)

end Buffer

namespace Folds

/-- **A boundary follows its line just if it is not left behind.** Whatever is inserted, a region with both
boundaries in the document stays, folded or not as it was. If the offset is not inside the text of the line of a
boundary, the line that the boundary names afterwards ends with this text, or begins with it, just if the boundary
is not left behind. -/
theorem boundaries_follow_iff (b : Buffer) {f : Folds} {i : Nat} {r : FoldRegion} (hr : f.regions[i]? = some r)
    (hfirst : r.first.toNat < b.lineCount) (hlast : r.last.toNat < b.lineCount) (offset : Nat)
    (inserted : List Char) (hsize : (b.insert offset inserted).1.length < UInt64.size) :
    ∃ r', (f.adjust (b.insert offset inserted).2).regions[i]? = some r' ∧ r'.isFolded = r.isFolded ∧
      (b.Follows offset inserted r.first.toNat r'.first.toNat ↔
        ¬ b.LeavesBehind offset inserted r.first.toNat) ∧
      (b.Follows offset inserted r.last.toNat r'.last.toNat ↔
        ¬ b.LeavesBehind offset inserted r.last.toNat) := by
  have hcount : (b.insert offset inserted).1.lineCount + 0 =
      b.lineCount + (b.insert offset inserted).2.linesAdded := b.lineCount_change (.insert offset inserted)
  have hlines := (b.insert offset inserted).1.lineCount_le
  have hstart := (b.insert_describes offset inserted).old_line
  rw [Buffer.texts_source, Buffer.length_texts] at hstart
  obtain ⟨move, hmove⟩ : ∃ move, move = pushDown (.ofNat (b.insert offset inserted).2.startLine)
    (.ofNat (b.insert offset inserted).2.linesAdded) := ⟨_, rfl⟩
  have hmoved {line : UInt64} (h : line.toNat < b.lineCount) :
      (b.insert offset inserted).2.image line.toNat = some (move line).toNat := by
    have hremoved : (b.insert offset inserted).2.linesRemoved = 0 := rfl
    rw [hmove, pushDown_eq (by omega), UInt64.toNat_ofNat_of_lt' (by split_ifs <;> omega), Edit.image_eq_some_iff]
    split_ifs <;> omega
  have hregion : (f.adjust (b.insert offset inserted).2).regions[i]? =
      some ⟨move r.first, move r.last, r.isFolded⟩ := by
    rw [hmove]
    show (f.regions.map _)[i]? = _
    rw [List.getElem?_map, hr]
    rfl
  exact ⟨_, hregion, rfl, Buffer.follows_iff hfirst (hmoved hfirst), Buffer.follows_iff hlast (hmoved hlast)⟩

/-- A line is inserted at the very start of the line on which a folded block opens: the block is left behind by its
opening brace, while the closing one takes its boundary along. -/
theorem boundaries_follow_iff_opening_line :
    let b := Buffer.ofString "a\n\x7b\nb\n\x7d"
    let f : Folds := ⟨[⟨1, 3, true⟩]⟩
    let inserted := "x\n".toList
    f.regions[0]? = some ⟨1, 3, true⟩ ∧ 3 < b.lineCount ∧ (b.insert 2 inserted).1.length < UInt64.size ∧
      b.LeavesBehind 2 inserted 1 ∧ ¬ b.LeavesBehind 2 inserted 3 ∧
      ∃ r', (f.adjust (b.insert 2 inserted).2).regions[0]? = some r' ∧ r'.isFolded = true ∧
        ¬ b.Follows 2 inserted 1 r'.first.toNat ∧ b.Follows 2 inserted 3 r'.last.toNat := by
  have hcount : 3 < (Buffer.ofString "a\n\x7b\nb\n\x7d").lineCount := by decide +kernel
  have hsize : ((Buffer.ofString "a\n\x7b\nb\n\x7d").insert 2 "x\n".toList).1.length < UInt64.size := by
    decide +kernel
  have hbehind : (Buffer.ofString "a\n\x7b\nb\n\x7d").LeavesBehind 2 "x\n".toList 1 := by decide +kernel
  have hkept : ¬ (Buffer.ofString "a\n\x7b\nb\n\x7d").LeavesBehind 2 "x\n".toList 3 := by decide +kernel
  obtain ⟨r', hr', hflag, hfirst, hlast⟩ := boundaries_follow_iff (Buffer.ofString "a\n\x7b\nb\n\x7d")
    (show (⟨[⟨1, 3, true⟩]⟩ : Folds).regions[0]? = some ⟨1, 3, true⟩ from rfl) (by decide +kernel) (by decide +kernel)
    2 "x\n".toList hsize
  exact ⟨rfl, hcount, hsize, hbehind, hkept, r', hr', hflag, fun h => hfirst.mp h hbehind, hlast.mpr hkept⟩

/-- A line feed at the start of a text pushes the opening brace of its block down, and the block still begins on the
line that is empty now. -/
theorem not_followed_pushed_line :
    let b := Buffer.ofString "\x7b\n\x7d"
    let f : Folds := ⟨[⟨0, 1, false⟩]⟩
    ¬ ∃ r', (f.adjust (b.insert 0 ['\n']).2).regions[0]? = some r' ∧ b.Follows 0 ['\n'] 0 r'.first.toNat := by
  rintro b f ⟨r', hr', old, new, hold, hnew, hfront, -⟩
  have hregion : (f.adjust (b.insert 0 ['\n']).2).regions[0]? = some ⟨0, 2, false⟩ := by decide +kernel
  obtain rfl := Option.some.inj (hr'.symm.trans hregion)
  have hopening : b.line? 0 = some ['\x7b'] := by decide +kernel
  have hempty : (b.insert 0 ['\n']).1.line? 0 = some [] := by decide +kernel
  obtain rfl := Option.some.inj (hold.symm.trans hopening)
  obtain rfl := Option.some.inj (hnew.symm.trans hempty)
  exact absurd (hfront (Nat.zero_le _)) (by decide)

end Folds

end Linewise
