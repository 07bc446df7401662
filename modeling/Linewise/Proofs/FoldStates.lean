import Linewise.Proofs.FoldPairs
import Linewise.Proofs.GatheredDamage

/-!
# States of folds

Regions are added one by one or found anew, they are folded and unfolded, and they move along with their
lines when the text is edited. Through all of this they stay in the order of their first lines, and each of
them ends below the line on which it starts (`Folds.Sound`), as long as no sum of line numbers goes past a
word (`Edit.Fits`).

What an edit does to regions is said once, in plain numbers (`Folds.regions_adjust`): a region is kept if the
lines of both its boundaries are still there, and its boundaries go where these lines go by the report of the
edit (`Edit.image`).

* `sound_change`, `sound_changes`: **a change of folds keeps them sound**, and so does a run of changes.
-/

namespace Linewise

/-! ### Edits as regions see them -/

namespace Edit

/-- What regions see of an edit: an insertion takes no lines, and a removal brings none. -/
def oneWay (e : Edit) : Edit :=
  match e.kind with
  | .insert => { e with linesRemoved := 0 }
  | .remove => { e with linesAdded := 0 }

/-- No line is moved past a word, nor is the last line that goes. -/
structure Fits (e : Edit) (f : Folds) : Prop where
  gone_lt : e.startLine + e.linesRemoved < UInt64.size
  moved_lt : ∀ r ∈ f.regions, e.startLine < r.last.toNat → r.last.toNat + e.linesAdded < UInt64.size

section Image
variable {e : Edit} {i j i' j' : Nat}

theorem image_eq_some_iff : e.image i = some j ↔
    i ≤ e.startLine ∧ j = i ∨
      e.startLine + e.linesRemoved < i ∧ j = i - e.linesRemoved + e.linesAdded := by
  unfold image
  split_ifs <;> simp only [Option.some.injEq, false_iff] <;> omega

theorem image_eq_none_iff : e.image i = none ↔ e.startLine < i ∧ i ≤ e.startLine + e.linesRemoved := by
  unfold image
  split_ifs <;> simp only [false_iff, true_iff] <;> omega

theorem image_lt_image (h : i < j) (hi : e.image i = some i') (hj : e.image j = some j') : i' < j' := by
  rw [image_eq_some_iff] at hi hj
  omega

theorem image_le_image (h : i ≤ j) (hi : e.image i = some i') (hj : e.image j = some j') : i' ≤ j' := by
  rcases Nat.lt_or_eq_of_le h with hlt | rfl
  · exact Nat.le_of_lt (image_lt_image hlt hi hj)
  · exact Nat.le_of_eq (Option.some.inj (hi.symm.trans hj))

end Image

/-- The last line of a region does not go past a word. -/
theorem Fits.image_lt {e : Edit} {f : Folds} (h : e.Fits f) {r : FoldRegion} (hr : r ∈ f.regions) {j : Nat}
    (hj : e.image r.last.toNat = some j) : j < UInt64.size := by
  have hmoved := h.moved_lt r hr
  have hlast := r.last.toNat_lt_size
  rw [image_eq_some_iff] at hj
  omega

end Edit

namespace Buffer

theorem oneWay_change (b : Buffer) (c : Change) : (b.change c).2.oneWay = (b.change c).2 := by
  cases c <;> rfl

end Buffer

namespace FoldRegion

/-- The boundaries of a region. -/
def bounds (r : FoldRegion) : UInt64 × UInt64 := (r.first, r.last)

theorem hides_iff {r : FoldRegion} {line : UInt64} : r.hides line = true ↔
    r.isFolded = true ∧ r.first.toNat < line.toNat ∧ line.toNat ≤ r.last.toNat := by
  rw [hides, Bool.and_eq_true, Bool.and_eq_true, decide_eq_true_eq, decide_eq_true_eq, UInt64.lt_iff_toNat_lt,
    UInt64.le_iff_toNat_le, and_assoc]

/-- A region whose boundaries have gone where their lines go, if both lines are still there. -/
def along (e : Edit) (r : FoldRegion) : Option FoldRegion :=
  (e.image r.first.toNat).bind fun first =>
    (e.image r.last.toNat).map fun last => ⟨.ofNat first, .ofNat last, r.isFolded⟩

theorem along_eq_some_iff {e : Edit} {r s : FoldRegion} : r.along e = some s ↔
    ∃ first last, e.image r.first.toNat = some first ∧ e.image r.last.toNat = some last ∧
      s = ⟨.ofNat first, .ofNat last, r.isFolded⟩ := by
  simp only [along, Option.bind_eq_some_iff, Option.map_eq_some_iff]
  constructor
  · rintro ⟨first, hfirst, last, hlast, rfl⟩
    exact ⟨first, last, hfirst, hlast, rfl⟩
  · rintro ⟨first, last, hfirst, hlast, rfl⟩
    exact ⟨first, hfirst, last, hlast, rfl⟩

end FoldRegion

namespace Folds

/-! ### Sound folds -/

/-- **Folds as they should be**: in the order of their first lines, each with more than one line. -/
structure Sound (f : Folds) : Prop where
  ordered : f.Ordered
  proper : ∀ r ∈ f.regions, r.first < r.last

theorem sound_empty : empty.Sound := ⟨List.Pairwise.nil, by simp [empty]⟩

theorem Sound.of_bounds {f g : Folds} (h : f.Sound)
    (hbounds : g.regions.map FoldRegion.bounds = f.regions.map FoldRegion.bounds) : g.Sound where
  ordered := by
    have hf : (f.regions.map FoldRegion.bounds).Pairwise fun x y => x.1 ≤ y.1 := by
      rw [List.pairwise_map]
      exact h.ordered
    rw [← hbounds, List.pairwise_map] at hf
    exact hf
  proper := by
    intro r hr
    have hmem : r.bounds ∈ f.regions.map FoldRegion.bounds := hbounds ▸ List.mem_map_of_mem hr
    obtain ⟨r', hr', heq⟩ := List.mem_map.mp hmem
    have hproper := h.proper r' hr'
    rwa [(Prod.mk.inj heq).1, (Prod.mk.inj heq).2] at hproper

/-! ### Regions that are added, folded and unfolded -/

section Mem
variable {f : Folds} {r x : FoldRegion}

theorem mem_add (hx : x ∈ (f.add r).regions) : x = r ∧ r.first < r.last ∨ x ∈ f.regions := by
  by_cases hempty : r.last ≤ r.first
  · rw [add, if_pos hempty] at hx
    exact Or.inr hx
  · have hlt := UInt64.not_le.mp hempty
    rcases List.mem_cons.mp ((perm_add f hlt).mem_iff.mp hx) with rfl | hmem
    · exact Or.inl ⟨rfl, hlt⟩
    · exact Or.inr hmem

theorem sound_add (h : f.Sound) (r : FoldRegion) : (f.add r).Sound where
  ordered := ordered_add h.ordered r
  proper := by
    intro x hx
    rcases mem_add hx with ⟨rfl, hlt⟩ | hmem
    · exact hlt
    · exact h.proper x hmem

end Mem

theorem map_bounds_toggle (f : Folds) (line : UInt64) :
    (f.toggle line).2.regions.map FoldRegion.bounds = f.regions.map FoldRegion.bounds := by
  show (toggleFirst line f.regions).map FoldRegion.bounds = _
  induction f.regions with
  | nil => rfl
  | cons r rs ih =>
    rw [toggleFirst]
    split_ifs
    · rfl
    · exact congrArg (r.bounds :: ·) ih

theorem map_bounds_withFlags (rs : List FoldRegion) (flag : FoldRegion → Bool) :
    (rs.map fun r => { r with isFolded := flag r }).map FoldRegion.bounds = rs.map FoldRegion.bounds := by
  rw [List.map_map]
  rfl

/-! ### Regions that are found -/

/-- What is found in a source are the regions of its braces, or nothing; a region may be folded from the start. -/
theorem detect_cases (f : Folds) (r : Retokenizer) (source : Source) :
    (f.detect r source).2.1 = empty ∨
      (f.detect r source).2.1.regions.map FoldRegion.bounds =
        (ofBraces (readBraces r source 0 source.lines).lines).regions.map FoldRegion.bounds := by
  unfold detect
  split_ifs
  · exact Or.inl rfl
  · right
    dsimp only
    cases (readBraces r source 0 source.lines).failure with
    | some e => rfl
    | none => exact map_bounds_withFlags _ _

/-- A region that reaches from one line to a later one, both with a property. -/
def Spans (p : Nat → Prop) (r : FoldRegion) : Prop :=
  r.first < r.last ∧ ∃ first last, p first ∧ p last ∧ r.bounds = (.ofNat first, .ofNat last)

section Found
variable {p : Nat → Prop}

theorem spans_pairBrace {line : Nat} (hline : p line) {found : List Nat × Folds} (hopened : ∀ l ∈ found.1, p l)
    (hfound : ∀ r ∈ found.2.regions, Spans p r) (brace : Char) :
    (∀ l ∈ (pairBrace line found brace).1, p l) ∧ ∀ r ∈ (pairBrace line found brace).2.regions, Spans p r := by
  obtain ⟨opened, folds⟩ := found
  unfold pairBrace
  split
  next heq =>
    obtain ⟨rfl, rfl⟩ := Prod.mk.inj heq
    exact ⟨List.forall_mem_cons.mpr ⟨hline, hopened⟩, hfound⟩
  next heq =>
    obtain ⟨rfl, rfl⟩ := Prod.mk.inj heq
    rw [List.forall_mem_cons] at hopened
    refine ⟨hopened.2, fun r hr => ?_⟩
    rcases mem_add hr with ⟨rfl, hlt⟩ | hmem
    · exact ⟨hlt, _, _, hopened.1, hline, rfl⟩
    · exact hfound r hmem
  next heq =>
    obtain ⟨rfl, rfl⟩ := Prod.mk.inj heq
    exact ⟨hopened, hfound⟩

/-- **Regions of braces reach from one line with braces to another.** -/
theorem spans_ofBraces {lines : List (Nat × List Char)} (h : ∀ x ∈ lines, p x.1) :
    ∀ r ∈ (ofBraces lines).regions, Spans p r := by
  have key (xs : List (Nat × Char)) (hxs : ∀ x ∈ xs, p x.1) (found : List Nat × Folds)
      (hopened : ∀ l ∈ found.1, p l) (hfound : ∀ r ∈ found.2.regions, Spans p r) :
      ∀ r ∈ (xs.foldl (fun found x => pairBrace x.1 found x.2) found).2.regions, Spans p r := by
    induction xs generalizing found with
    | nil => exact hfound
    | cons x xs ih =>
      rw [List.forall_mem_cons] at hxs
      obtain ⟨hopened', hfound'⟩ := spans_pairBrace hxs.1 hopened hfound x.2
      exact ih hxs.2 _ hopened' hfound'
  rw [ofBraces_eq]
  refine key _ ?_ _ (by simp) (by simp [empty])
  intro x hx
  obtain ⟨y, hy, hmem⟩ := List.mem_flatMap.mp hx
  obtain ⟨c, -, rfl⟩ := List.mem_map.mp hmem
  exact h y hy

theorem ordered_ofBraces (lines : List (Nat × List Char)) : (ofBraces lines).Ordered := by
  rw [ofBraces_eq]
  refine ordered_foldl_pairBrace ?_ _
  exact List.Pairwise.nil

end Found

theorem sound_detect (f : Folds) (r : Retokenizer) (source : Source) : (f.detect r source).2.1.Sound := by
  rcases f.detect_cases r source with hempty | hbounds
  · rw [hempty]
    exact sound_empty
  · have hfound : (ofBraces (readBraces r source 0 source.lines).lines).Sound := by
      refine ⟨ordered_ofBraces _, fun x hx => ?_⟩
      exact (spans_ofBraces (p := fun _ => True) (fun _ _ => trivial) x hx).1
    exact hfound.of_bounds hbounds

/-! ### Regions that are moved -/

section Adjust
variable {f : Folds} {e : Edit} {line : UInt64}

theorem adjust_oneWay (f : Folds) (e : Edit) : f.adjust e.oneWay = f.adjust e := by
  obtain ⟨kind, _, _, _, _, _⟩ := e
  cases kind <;> rfl

theorem ofNat_lt_iff (h : e.startLine < UInt64.size) : UInt64.ofNat e.startLine < line ↔ e.startLine < line.toNat := by
  rw [UInt64.lt_iff_toNat_lt, UInt64.toNat_ofNat_of_lt' h]

theorem pushDown_eq (h : e.startLine < UInt64.size) :
    pushDown (.ofNat e.startLine) (.ofNat e.linesAdded) line =
      .ofNat (if e.startLine < line.toNat then line.toNat + e.linesAdded else line.toNat) := by
  unfold pushDown
  simp only [ofNat_lt_iff h]
  split_ifs
  · rw [UInt64.ofNat_add, UInt64.ofNat_toNat]
  · rw [UInt64.ofNat_toNat]

theorem pullUp_eq (h : e.startLine < UInt64.size) (hle : e.startLine < line.toNat → e.linesRemoved ≤ line.toNat) :
    pullUp (.ofNat e.startLine) (.ofNat e.linesRemoved) line =
      .ofNat (if e.startLine < line.toNat then line.toNat - e.linesRemoved else line.toNat) := by
  unfold pullUp
  simp only [ofNat_lt_iff h]
  split_ifs with hlt
  · rw [UInt64.ofNat_sub (hle hlt), UInt64.ofNat_toNat]
  · rw [UInt64.ofNat_toNat]

theorem isGone_iff (h : e.startLine + e.linesRemoved < UInt64.size) :
    isGone (.ofNat e.startLine) (.ofNat e.linesRemoved) line = true ↔
      e.startLine < line.toNat ∧ line.toNat ≤ e.startLine + e.linesRemoved := by
  have hstart : e.startLine < UInt64.size := by omega
  rw [isGone, Bool.and_eq_true, decide_eq_true_eq, decide_eq_true_eq, ofNat_lt_iff hstart, ← UInt64.ofNat_add,
    UInt64.le_iff_toNat_le, UInt64.toNat_ofNat_of_lt' h]

/-- Dropping some regions, moving the others and dropping some of these is one pass. -/
theorem filter_map_filter (keeps : FoldRegion → Bool) (move : FoldRegion → FoldRegion) (wide : FoldRegion → Bool)
    (rs : List FoldRegion) :
    ((rs.filter keeps).map move).filter wide =
      rs.filterMap fun r => if keeps r && wide (move r) then some (move r) else none := by
  induction rs with
  | nil => rfl
  | cons r rs ih =>
    cases hk : keeps r with
    | false => simpa [List.filter_cons, hk] using ih
    | true =>
      cases hw : wide (move r) with
      | false => simpa [List.filter_cons, hk, hw] using ih
      | true => simpa [List.filter_cons, hk, hw] using ih

theorem regions_adjust_insert (hkind : e.kind = .insert) (hremoved : e.linesRemoved = 0) (hfits : e.Fits f) :
    (f.adjust e).regions = f.regions.filterMap (·.along e) := by
  have hstart : e.startLine < UInt64.size := Nat.lt_of_le_of_lt (Nat.le_add_right _ _) hfits.gone_lt
  have himage (i : Nat) : e.image i = some (if e.startLine < i then i + e.linesAdded else i) := by
    rw [Edit.image_eq_some_iff]
    split_ifs <;> omega
  simp only [adjust, hkind]
  symm
  rw [List.filterMap_eq_map_iff_forall_eq_some]
  intro r _
  rw [FoldRegion.along_eq_some_iff]
  exact ⟨_, _, himage _, himage _, by rw [pushDown_eq hstart, pushDown_eq hstart]⟩

theorem regions_adjust_remove (hkind : e.kind = .remove) (hadded : e.linesAdded = 0) (hf : f.Sound)
    (hfits : e.Fits f) : (f.adjust e).regions = f.regions.filterMap (·.along e) := by
  have hgone := hfits.gone_lt
  have hstart : e.startLine < UInt64.size := by omega
  by_cases hnone : e.linesRemoved = 0
  · simp only [adjust, hkind, hnone, if_true]
    symm
    rw [← List.map_id f.regions, List.filterMap_map, List.filterMap_eq_map_iff_forall_eq_some]
    intro r _
    rw [Function.comp_apply, FoldRegion.along_eq_some_iff]
    have himage (i : Nat) : e.image i = some i := Edit.image_of_no_lines hadded hnone i
    exact ⟨_, _, himage _, himage _, by simp [UInt64.ofNat_toNat]⟩
  simp only [adjust, hkind, hnone, if_false]
  rw [filter_map_filter]
  refine List.filterMap_congr fun r hr => ?_
  have hproper := UInt64.lt_iff_toNat_lt.mp (hf.proper r hr)
  -- A boundary is gone, or both are where their lines have gone, and these are still two.
  by_cases hfirst : isGone (.ofNat e.startLine) (.ofNat e.linesRemoved) r.first = true
  · have hlost := Edit.image_eq_none_iff.mpr ((isGone_iff hgone).mp hfirst)
    simp [FoldRegion.along, hlost, hfirst]
  by_cases hlast : isGone (.ofNat e.startLine) (.ofNat e.linesRemoved) r.last = true
  · have hlost := Edit.image_eq_none_iff.mpr ((isGone_iff hgone).mp hlast)
    simp [FoldRegion.along, hlost, hlast]
  have himage {line : UInt64} (h : ¬ isGone (.ofNat e.startLine) (.ofNat e.linesRemoved) line = true) :
      ∃ i < UInt64.size, e.image line.toNat = some i ∧
        pullUp (.ofNat e.startLine) (.ofNat e.linesRemoved) line = .ofNat i := by
    rw [isGone_iff hgone] at h
    have hlt := line.toNat_lt_size
    refine ⟨if e.startLine < line.toNat then line.toNat - e.linesRemoved else line.toNat, ?_, ?_,
      pullUp_eq hstart (by omega)⟩
    · split_ifs <;> omega
    · rw [Edit.image_eq_some_iff]
      split_ifs <;> omega
  obtain ⟨first, hfirstlt, hfirsti, hfirsteq⟩ := himage hfirst
  obtain ⟨last, hlastlt, hlasti, hlasteq⟩ := himage hlast
  have hlt : UInt64.ofNat first < UInt64.ofNat last :=
    (UInt64.ofNat_lt_iff_lt hfirstlt hlastlt).mpr (Edit.image_lt_image hproper hfirsti hlasti)
  simp [FoldRegion.along, hfirsti, hlasti, hfirsteq, hlasteq, hfirst, hlast, hlt]

/-- **What an edit does to regions**: those are kept of which both boundaries are on lines that are still there,
and the boundaries go where these lines go. -/
theorem regions_adjust (hf : f.Sound) (hfits : e.oneWay.Fits f) :
    (f.adjust e).regions = f.regions.filterMap (·.along e.oneWay) := by
  rw [← adjust_oneWay]
  cases hkind : e.kind with
  | insert => exact regions_adjust_insert (by simp [Edit.oneWay, hkind]) (by simp [Edit.oneWay, hkind]) hfits
  | remove => exact regions_adjust_remove (by simp [Edit.oneWay, hkind]) (by simp [Edit.oneWay, hkind]) hf hfits

/-- **An edit keeps folds sound** if no line is moved past a word. -/
theorem sound_adjust (hf : f.Sound) (hfits : e.oneWay.Fits f) : (f.adjust e).Sound := by
  have halong {r s : FoldRegion} (hr : r ∈ f.regions) (hs : r.along e.oneWay = some s) :
      ∃ first last, e.oneWay.image r.first.toNat = some first ∧ first < last ∧ last < UInt64.size ∧
        s.first = .ofNat first ∧ s.last = .ofNat last := by
    obtain ⟨first, last, hfirst, hlast, rfl⟩ := FoldRegion.along_eq_some_iff.mp hs
    have hproper := UInt64.lt_iff_toNat_lt.mp (hf.proper r hr)
    exact ⟨first, last, hfirst, Edit.image_lt_image hproper hfirst hlast, hfits.image_lt hr hlast, rfl, rfl⟩
  constructor
  · rw [Ordered, regions_adjust hf hfits]
    have hmem : f.regions.Pairwise fun r r' => r ∈ f.regions ∧ r' ∈ f.regions ∧ r.first ≤ r'.first :=
      List.Pairwise.and_mem.mp hf.ordered
    refine hmem.filterMap _ ?_
    rintro r r' ⟨hr, hr', hle⟩ s hs s' hs'
    obtain ⟨first, last, hfirst, hlt, hsize, heq, -⟩ := halong hr hs
    obtain ⟨first', last', hfirst', hlt', hsize', heq', -⟩ := halong hr' hs'
    have hle' := Edit.image_le_image (UInt64.le_iff_toNat_le.mp hle) hfirst hfirst'
    rw [heq, heq']
    exact (UInt64.ofNat_le_iff_le (by omega) (by omega)).mpr hle'
  · intro s hs
    rw [regions_adjust hf hfits, List.mem_filterMap] at hs
    obtain ⟨r, hr, hs⟩ := hs
    obtain ⟨first, last, -, hlt, hsize, hfirst, hlast⟩ := halong hr hs
    rw [hfirst, hlast]
    exact (UInt64.ofNat_lt_iff_lt (by omega) hsize).mpr hlt

end Adjust

/-! ### One change after the other -/

/-- What can be done to folds. -/
inductive Change where
  | add (r : FoldRegion)
  | toggle (line : UInt64)
  | foldAll
  | clear
  | adjust (e : Edit)
  | detect (r : Retokenizer) (source : Source)

/-- Folds once something has been done to them. -/
def change (f : Folds) : Change → Folds
  | .add r => f.add r
  | .toggle line => (f.toggle line).2
  | .foldAll => f.foldAll
  | .clear => empty
  | .adjust e => f.adjust e
  | .detect r source => (f.detect r source).2.1

/-- One change after the other. -/
def changes (f : Folds) (cs : List Change) : Folds := cs.foldl change f

/-- No sum that the change takes goes past a word. -/
def Change.Fits (f : Folds) : Change → Prop
  | .adjust e => e.oneWay.Fits f
  | _ => True

/-- No sum that one of the changes takes goes past a word. -/
def ChangesFit : Folds → List Change → Prop
  | _, [] => True
  | f, c :: cs => c.Fits f ∧ (f.change c).ChangesFit cs

/-- **A change keeps folds sound.** -/
theorem sound_change {f : Folds} (hf : f.Sound) {c : Change} (hc : c.Fits f) : (f.change c).Sound := by
  cases c with
  | add r => exact sound_add hf r
  | toggle line => exact hf.of_bounds (f.map_bounds_toggle line)
  | foldAll => exact hf.of_bounds (map_bounds_withFlags _ _)
  | clear => exact sound_empty
  | adjust e => exact sound_adjust hf hc
  | detect r source => exact f.sound_detect r source

/-- **A run of changes keeps folds sound.** -/
theorem sound_changes {f : Folds} (hf : f.Sound) {cs : List Change} (hcs : f.ChangesFit cs) :
    (f.changes cs).Sound := by
  induction cs generalizing f with
  | nil => exact hf
  | cons c cs ih => exact ih (sound_change hf hcs.1) hcs.2

end Folds

end Linewise
