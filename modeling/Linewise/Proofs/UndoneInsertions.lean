import Linewise.Proofs.FoldStates
import Linewise.Proofs.LinesBelow

/-!
# Insertions that are undone

What is inserted is removed again, and the text is the old one. The two reports count as many lines, and regions
go down by the one and up by the other. They come back to where they were if both reports name the same line.

But a return in front of the offset ends a line alone, or together with a feed behind it, and what is inserted
can bring such a feed or take it away. Then one of the reports names the line that the return ends, the other the
line below, which starts at the offset (`LosesLine`). A boundary on this line stays where it is when the other
lines move, and is taken for one that is removed, or the other way round. A region with such a boundary is dropped.

* `adjust_adjust_eq_iff`: when an edit undoes another, as far as regions go.
* `restored_iff`: **folds are restored just if no region has a boundary on a line that is lost**, and no line number
  goes past a word on the way.
-/

namespace Linewise

namespace Edit

/-- `e'` takes as many lines away again as `e` has brought. -/
structure Undoes (e' e : Edit) : Prop where
  insert : e.kind = .insert
  remove : e'.kind = .remove
  removed : e'.linesRemoved = e.linesAdded
  start_lt : e.startLine < UInt64.size
  gone_lt : e'.startLine + e'.linesRemoved < UInt64.size

/-- A line comes back to where it was: both edits move it or none does, and it does not go past a word. -/
def BringsBack (e' e : Edit) (line : Nat) : Prop :=
  (e.startLine < line ↔ e'.startLine < line) ∧ (e.startLine < line → line + e.linesAdded < UInt64.size)

end Edit

namespace Folds

section Undoes
variable {e e' : Edit}

/-- **A boundary that is pushed down and pulled up**, and not dropped in between, is where it was just if its line
is brought back. -/
theorem pullUp_pushDown_iff (h : e'.Undoes e) (hadded : 0 < e.linesAdded) (line : UInt64) :
    (¬ isGone (.ofNat e'.startLine) (.ofNat e'.linesRemoved)
        (pushDown (.ofNat e.startLine) (.ofNat e.linesAdded) line) = true ∧
      pullUp (.ofNat e'.startLine) (.ofNat e'.linesRemoved)
        (pushDown (.ofNat e.startLine) (.ofNat e.linesAdded) line) = line) ↔ e'.BringsBack e line.toNat := by
  obtain ⟨-, -, hremoved, hstart, hgone⟩ := h
  have hline := line.toNat_lt_size
  obtain ⟨moved, hmoved⟩ : ∃ moved, moved = pushDown (.ofNat e.startLine) (.ofNat e.linesAdded) line := ⟨_, rfl⟩
  have hnumber : moved.toNat =
      (if e.startLine < line.toNat then line.toNat + e.linesAdded else line.toNat) % UInt64.size := by
    rw [hmoved, pushDown_eq hstart]
    exact UInt64.toNat_ofNat'
  have hback (hkept : ¬ (e'.startLine < moved.toNat ∧ moved.toNat ≤ e'.startLine + e'.linesRemoved)) :
      pullUp (.ofNat e'.startLine) (.ofNat e'.linesRemoved) moved = line ↔
        (if e'.startLine < moved.toNat then moved.toNat - e'.linesRemoved else moved.toNat) = line.toNat := by
    have hlt := moved.toNat_lt_size
    rw [pullUp_eq (by omega) (by omega), ← UInt64.toNat_inj, UInt64.toNat_ofNat_of_lt' (by split_ifs <;> omega)]
  rw [← hmoved, isGone_iff hgone, Edit.BringsBack]
  by_cases hkept : e'.startLine < moved.toNat ∧ moved.toNat ≤ e'.startLine + e'.linesRemoved
  · refine iff_of_false (fun h => h.1 hkept) ?_
    rintro ⟨hboth, hfits⟩
    split_ifs at hnumber with hlt
    · rw [Nat.mod_eq_of_lt (hfits hlt)] at hnumber
      omega
    · rw [Nat.mod_eq_of_lt hline] at hnumber
      omega
  rw [and_iff_right hkept, hback hkept]
  split_ifs at hnumber with hlt
  · rcases Nat.lt_or_ge (line.toNat + e.linesAdded) UInt64.size with hfits | hwraps
    · rw [Nat.mod_eq_of_lt hfits] at hnumber
      split_ifs <;> omega
    · rw [Nat.mod_eq_sub_mod hwraps, Nat.mod_eq_of_lt (by omega)] at hnumber
      split_ifs <;> omega
  · rw [Nat.mod_eq_of_lt hline] at hnumber
    split_ifs <;> omega

theorem filterMap_eq_self_iff {g : FoldRegion → Option FoldRegion} {rs : List FoldRegion} :
    rs.filterMap g = rs ↔ ∀ r ∈ rs, g r = some r := by
  have h := List.filterMap_eq_map_iff_forall_eq_some (f := g) (g := id) (l := rs)
  rwa [List.map_id] at h

/-- **What becomes of regions** when an edit undoes another: they are all restored just if both edits move the lines
of the same boundaries. -/
theorem adjust_adjust_eq_iff (h : e'.Undoes e) (f : Folds) :
    (f.adjust e).adjust e' = f ↔ e.linesAdded = 0 ∨
      ∀ r ∈ f.regions, r.first < r.last ∧ e'.BringsBack e r.first.toNat ∧ e'.BringsBack e r.last.toNat := by
  rcases Nat.eq_zero_or_pos e.linesAdded with hnone | hadded
  · refine iff_of_true ?_ (Or.inl hnone)
    have hsame (pivot line : UInt64) : pushDown pivot 0 line = line := by simp [pushDown]
    simp [adjust, h.insert, h.remove, h.removed, hnone, hsame]
  rw [or_iff_right (Nat.ne_of_gt hadded)]
  have hone : ¬ e'.linesRemoved = 0 := by rw [h.removed]; omega
  obtain ⟨rs⟩ := f
  simp only [adjust, h.insert, h.remove, hone, if_false, filter_map_filter, List.filterMap_map, Folds.mk.injEq]
  rw [filterMap_eq_self_iff]
  refine forall₂_congr ?_
  rintro ⟨first, last, flag⟩ -
  rw [← pullUp_pushDown_iff h hadded, ← pullUp_pushDown_iff h hadded]
  simp only [Function.comp_apply, Option.ite_none_right_eq_some, Option.some.injEq, FoldRegion.mk.injEq, and_true,
    Bool.and_eq_true, Bool.not_eq_true', Bool.not_eq_true, decide_eq_true_eq]
  constructor
  · rintro ⟨⟨⟨hfirst, hlast⟩, hlt⟩, heq, heq'⟩
    rw [heq, heq'] at hlt
    exact ⟨hlt, ⟨hfirst, heq⟩, hlast, heq'⟩
  · rintro ⟨hlt, ⟨hfirst, heq⟩, hlast, heq'⟩
    refine ⟨⟨⟨hfirst, hlast⟩, ?_⟩, heq, heq'⟩
    rwa [heq, heq']

end Undoes

end Folds

namespace Text

theorem cut_eq_cut_iff {a b c : List Char} : cut a b = cut a c ↔ (CutsPair a b ↔ CutsPair a c) := by
  unfold cut
  split_ifs <;> simp [*]

end Text

namespace Buffer

open Text (texts cut CutsPair)

/-- Inserts a text at an offset, and removes it again. -/
def undoInsert (b : Buffer) (offset : Nat) (inserted : List Char) : Buffer × Edit :=
  (b.insert offset inserted).1.remove offset (offset + inserted.length)

/-- **The line that is lost when an insertion is undone**: the one that starts at the offset, if the character in
front of it is the return of a pair just once, in the old text or with what is inserted behind it. -/
def LosesLine (b : Buffer) (offset : Nat) (inserted : List Char) (line : Nat) : Prop :=
  ¬ (CutsPair (b.text.take offset) (b.text.drop offset) ↔
      CutsPair (b.text.take offset) (inserted ++ b.text.drop offset)) ∧
    line + 1 = (texts (b.text.take offset)).length

/-- **A line comes back to where it was** when the insertion is undone: it is not lost, and its number does not go
past a word in between. -/
def RestoresLine (b : Buffer) (offset : Nat) (inserted : List Char) (line : Nat) : Prop :=
  ¬ b.LosesLine offset inserted line ∧
    (b.lineOf offset < line → line + (b.insert offset inserted).2.linesAdded < UInt64.size)

instance (b : Buffer) (offset : Nat) (inserted : List Char) (line : Nat) :
    Decidable (b.LosesLine offset inserted line) :=
  inferInstanceAs (Decidable (¬ (_ ↔ _) ∧ _))

instance (b : Buffer) (offset : Nat) (inserted : List Char) (line : Nat) :
    Decidable (b.RestoresLine offset inserted line) :=
  inferInstanceAs (Decidable (¬ _ ∧ (_ → _)))

/-- **What an insertion and its removal report.** -/
theorem undoes_insert (b : Buffer) {offset : Nat} (hoffset : offset ≤ b.length) (inserted : List Char)
    (hsize : (b.insert offset inserted).1.length < UInt64.size) :
    (b.undoInsert offset inserted).1.text = b.text ∧
      (b.undoInsert offset inserted).2.Undoes (b.insert offset inserted).2 ∧
      ∀ line, (b.undoInsert offset inserted).2.BringsBack (b.insert offset inserted).2 line ↔
        b.RestoresLine offset inserted line := by
  unfold undoInsert
  obtain ⟨above, below, htext, hnew, hlength, -, hstart, hcount⟩ := b.insert_eq offset inserted
  obtain ⟨above', gone, below', htext', hnew', hlength', hend, -, -, hstart', hcount'⟩ :=
    (b.insert offset inserted).1.remove_eq offset (offset + inserted.length)
  have hall : (b.insert offset inserted).1.length = offset + inserted.length + below.length := by
    unfold length at hoffset hlength ⊢
    rw [hnew, List.length_append, List.length_append]
    omega
  have hsplit : above' ++ (gone ++ below') = above ++ (inserted ++ below) := by
    rw [← List.append_assoc, ← htext', hnew, List.append_assoc]
  obtain ⟨rfl, htail⟩ := List.append_inj hsplit (by omega)
  obtain ⟨rfl, rfl⟩ := List.append_inj htail (by omega)
  have hlines := (b.insert offset gone).1.lineCount_le
  rw [← length_texts, hnew] at hlines
  have hhas := ((b.insert offset gone).1.remove_matches offset (offset + gone.length)).old_line
  have hhad := (b.insert_describes offset gone).old_line
  rw [hnew] at hhas
  rw [texts_source, htext] at hhad
  have habove : b.text.take offset = above' := by rw [htext]; exact List.take_left' (by omega)
  have hbelow : b.text.drop offset = below' := by rw [htext]; exact List.drop_left' (by omega)
  refine ⟨hnew'.trans htext.symm, ⟨rfl, rfl, by omega, by omega, by omega⟩, fun line => ?_⟩
  have hone := Text.cut_le_one above' below'
  have hone' := Text.cut_le_one above' (gone ++ below')
  have hline : (b.insert offset gone).2.startLine = b.lineOf offset :=
    congrArg b.lineOf (Nat.min_eq_left hoffset)
  rw [RestoresLine, LosesLine, habove, hbelow, ← Text.cut_eq_cut_iff, ← hline, Edit.BringsBack]
  refine and_congr_left fun _ => ?_
  omega

end Buffer

namespace Folds

/-- **Folds are restored when an insertion is undone, just if no region has a boundary on a line that is lost.** The
text is the old one in any case, and so are the folds if the insertion has brought no lines. Otherwise they are just
if each region has more than one line, and the lines of both its boundaries come back to where they were. -/
theorem restored_iff (b : Buffer) (f : Folds) {offset : Nat} (hoffset : offset ≤ b.length) (inserted : List Char)
    (hsize : (b.insert offset inserted).1.length < UInt64.size) :
    (b.undoInsert offset inserted).1.text = b.text ∧
      ((f.adjust (b.insert offset inserted).2).adjust (b.undoInsert offset inserted).2 = f ↔
        (b.insert offset inserted).2.linesAdded = 0 ∨
          ∀ r ∈ f.regions, r.first < r.last ∧
            b.RestoresLine offset inserted r.first.toNat ∧ b.RestoresLine offset inserted r.last.toNat) := by
  obtain ⟨htext, hundoes, hlines⟩ := b.undoes_insert hoffset inserted hsize
  refine ⟨htext, ?_⟩
  rw [adjust_adjust_eq_iff hundoes]
  simp only [hlines]

/-- A return ends a line, and the feed that is inserted behind it makes a pair with it. The block that starts behind
the return is lost when this is undone; a block around it is not. -/
theorem restored_iff_joined_pair :
    let b := Buffer.ofString "\x7b\r\x7b\n\x7d\x7d"
    let outer : FoldRegion := ⟨0, 2, true⟩
    let inner : FoldRegion := ⟨1, 2, true⟩
    let inserts := (b.insert 2 ['\n', '\n']).2
    let removes := (b.undoInsert 2 ['\n', '\n']).2
    2 ≤ b.length ∧ (b.insert 2 ['\n', '\n']).1.length < UInt64.size ∧
      (Folds.adjust ⟨[outer]⟩ inserts).adjust removes = ⟨[outer]⟩ ∧
      (Folds.adjust ⟨[outer, inner]⟩ inserts).adjust removes ≠ ⟨[outer, inner]⟩ := by
  have hoffset : 2 ≤ (Buffer.ofString "\x7b\r\x7b\n\x7d\x7d").length := by decide +kernel
  have hsize : ((Buffer.ofString "\x7b\r\x7b\n\x7d\x7d").insert 2 ['\n', '\n']).1.length < UInt64.size := by
    decide +kernel
  refine ⟨hoffset, hsize, (restored_iff _ _ hoffset _ hsize).2.mpr (by decide +kernel), fun h => ?_⟩
  exact absurd ((restored_iff _ _ hoffset _ hsize).2.mp h) (by decide +kernel)

/-- A character that is inserted into a pair and removed again takes the block along that ends behind the pair. -/
theorem not_restored_parted_pair :
    let b := Buffer.ofString "\x7b\r\n\x7d"
    let f : Folds := ⟨[⟨0, 1, false⟩]⟩
    (b.undoInsert 2 ['x']).1.text = b.text ∧
      (f.adjust (b.insert 2 ['x']).2).adjust (b.undoInsert 2 ['x']).2 ≠ f := by
  decide +kernel

end Folds

end Linewise
