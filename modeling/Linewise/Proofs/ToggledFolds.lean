import Linewise.Proofs.FoldStates
import Mathlib.Algebra.Ring.Parity

/-!
# Folding and unfolding by line

Several regions can start on one line. The line counts as folded if any of them is, but toggling the line turns
over the first of them alone. So toggling shows only as long as none of the others is folded; where all have been
folded, it does not. And when folds are found anew, a region is folded if any was that started on its first line: the
regions of a line then come to be alike, and so keep their state only if they were alike before.

* `Folds.toggle_turns_iff`: **a line is folded or unfolded by a toggle** just if no region behind the first that
  starts on it is folded.
* `Document.detectFolds_again_iff`: **folds that are found again are as they were** just if no line on which
  several regions start was toggled an odd number of times.
-/

namespace Linewise

namespace Folds

/-! ### The regions of a line -/

/-- The regions that start on a line, in order. -/
def startingAt (f : Folds) (line : UInt64) : List FoldRegion := f.regions.filter (·.startsAt line)

/-- Which of the regions that start on a line are folded. -/
def flags (f : Folds) (line : UInt64) : List Bool := (f.startingAt line).map (·.isFolded)

section Flags
variable {f : Folds} {line other : UInt64}

theorem isFoldedAt_eq (f : Folds) (line : UInt64) : f.isFoldedAt line = (f.flags line).any id := by
  simp only [isFoldedAt, flags, startingAt, List.any_map, List.any_filter, Function.comp_apply, id_eq]

theorem length_flags (f : Folds) (line : UInt64) : (f.flags line).length = (f.startingAt line).length :=
  List.length_map _

theorem flags_cons (r : FoldRegion) (rs : List FoldRegion) (line : UInt64) :
    flags ⟨r :: rs⟩ line = if r.first = line then r.isFolded :: flags ⟨rs⟩ line else flags ⟨rs⟩ line := by
  have hstarts : r.startsAt line = true ↔ r.first = line := beq_iff_eq
  simp only [flags, startingAt, List.filter_cons, hstarts]
  split_ifs <;> rfl

theorem toggle_cons (r : FoldRegion) (rs : List FoldRegion) (line : UInt64) :
    (toggle ⟨r :: rs⟩ line).2 = if r.first = line then ⟨{ r with isFolded := !r.isFolded } :: rs⟩
      else ⟨r :: (toggle ⟨rs⟩ line).2.regions⟩ := by
  have hstarts : r.startsAt line = true ↔ r.first = line := beq_iff_eq
  simp only [toggle, toggleFirst, hstarts]
  split_ifs <;> rfl

theorem flags_toggle (f : Folds) (line : UInt64) :
    (f.toggle line).2.flags line = (f.flags line).modifyHead not := by
  obtain ⟨rs⟩ := f
  induction rs with
  | nil => rfl
  | cons r rs ih =>
    rw [toggle_cons, flags_cons]
    split_ifs with hstarts
    · rw [flags_cons, if_pos hstarts]
      rfl
    · rw [flags_cons, if_neg hstarts]
      exact ih

theorem flags_toggle_of_ne (f : Folds) (h : other ≠ line) : (f.toggle line).2.flags other = f.flags other := by
  obtain ⟨rs⟩ := f
  induction rs with
  | nil => rfl
  | cons r rs ih =>
    rw [toggle_cons]
    split_ifs with hstarts
    · have hother : r.first ≠ other := fun heq => h (heq.symm.trans hstarts)
      rw [flags_cons, flags_cons, if_neg hother, if_neg hother]
    · rw [flags_cons, flags_cons, ih]

theorem flags_foldAll (f : Folds) (line : UInt64) :
    f.foldAll.flags line = List.replicate (f.startingAt line).length true := by
  rw [← length_flags]
  obtain ⟨rs⟩ := f
  induction rs with
  | nil => rfl
  | cons r rs ih =>
    have hcons : foldAll ⟨r :: rs⟩ = ⟨{ r with isFolded := true } :: (foldAll ⟨rs⟩).regions⟩ := rfl
    rw [hcons, flags_cons, flags_cons]
    split_ifs
    · exact congrArg (true :: ·) ih
    · exact ih

end Flags

/-! ### Toggling a line -/

section Toggle
variable {f : Folds} {line : UInt64}

theorem toggle_fst_iff (f : Folds) (line : UInt64) :
    (f.toggle line).1 = true ↔ ∃ r ∈ f.regions, r.first = line := by
  show f.regions.any (·.startsAt line) = true ↔ _
  rw [List.any_eq_true]
  exact exists_congr fun r => and_congr_right fun _ => beq_iff_eq

theorem startingAt_ne_nil_iff : f.startingAt line ≠ [] ↔ (f.toggle line).1 = true := by
  rw [toggle_fst_iff, Ne, startingAt, List.filter_eq_nil_iff]
  simp only [FoldRegion.startsAt, beq_iff_eq, not_forall, not_not, exists_prop]

theorem toggle_of_not_found (h : ¬ (f.toggle line).1 = true) : (f.toggle line).2 = f := by
  rw [toggle_fst_iff] at h
  obtain ⟨rs⟩ := f
  induction rs with
  | nil => rfl
  | cons r rs ih =>
    have hfirst : r.first ≠ line := fun heq => h ⟨r, List.mem_cons_self, heq⟩
    have hrest : ¬ ∃ s ∈ rs, s.first = line := fun ⟨s, hs, heq⟩ => h ⟨s, List.mem_cons_of_mem _ hs, heq⟩
    rw [toggle_cons, if_neg hfirst, ih hrest]

/-- Turning over the first flag changes whether any is set just if none of the others is. -/
theorem any_modifyHead_not_iff {flags : List Bool} (h : flags ≠ []) :
    (flags.modifyHead not).any id = !flags.any id ↔ ∀ flag ∈ flags.tail, flag = false := by
  obtain ⟨flag, rest, rfl⟩ := List.exists_cons_of_ne_nil h
  have hrest : (∀ b ∈ rest, b = false) ↔ rest.any id = false := by
    simp only [List.any_eq_false, id_eq, Bool.not_eq_true]
  rw [List.modifyHead_cons, List.any_cons, List.any_cons, List.tail_cons, hrest]
  cases flag <;> cases rest.any id <;> decide

/-- **What toggling a line does.** It finds a region just if one starts there, and otherwise changes nothing. No
region moves, and no other line is folded or unfolded. If it finds one, the line is folded or unfolded by it just if
no region behind the first that starts there is folded. So where all regions have been folded, a line is unfolded by
it just if one region alone starts there. -/
theorem toggle_turns_iff (f : Folds) (line : UInt64) :
    let found := (f.toggle line).1
    let g := (f.toggle line).2
    (found = true ↔ ∃ r ∈ f.regions, r.first = line) ∧ (found = false → g = f) ∧
      g.regions.map FoldRegion.bounds = f.regions.map FoldRegion.bounds ∧
      (∀ other, other ≠ line → g.isFoldedAt other = f.isFoldedAt other) ∧
      (found = true →
        (g.isFoldedAt line = !f.isFoldedAt line ↔ ∀ r ∈ (f.startingAt line).tail, r.isFolded = false) ∧
        ((f.foldAll.toggle line).2.isFoldedAt line = false ↔ (f.startingAt line).length = 1)) := by
  intro found g
  refine ⟨f.toggle_fst_iff line, ?_, f.map_bounds_toggle line, ?_, fun hfound => ?_⟩
  · intro hnone
    exact toggle_of_not_found (Bool.eq_false_iff.mp hnone)
  · intro other hother
    rw [isFoldedAt_eq, isFoldedAt_eq, flags_toggle_of_ne f hother]
  have hstarts : f.startingAt line ≠ [] := startingAt_ne_nil_iff.mpr hfound
  constructor
  · have hflags : f.flags line ≠ [] := fun hnil => hstarts (List.map_eq_nil_iff.mp hnil)
    rw [isFoldedAt_eq, isFoldedAt_eq, flags_toggle, any_modifyHead_not_iff hflags, flags, ← List.map_tail,
      List.forall_mem_map]
  · obtain ⟨r, rest, hcons⟩ := List.exists_cons_of_ne_nil hstarts
    rw [isFoldedAt_eq, flags_toggle, flags_foldAll, hcons, List.length_cons, List.replicate_succ,
      List.modifyHead_cons, List.any_cons, List.any_replicate]
    cases rest <;> simp

/-- Of two regions that start on one line, all are folded, and the line is toggled: the second region is as it
was, so the line still counts as folded. -/
theorem not_turned_two_regions :
    let f := empty.changes [.add ⟨0, 1, false⟩, .add ⟨0, 2, false⟩, .foldAll]
    let g := (f.toggle 0).2
    (f.toggle 0).1 = true ∧ g.regions = [⟨0, 2, false⟩, ⟨0, 1, true⟩] ∧
      f.isFoldedAt 0 = true ∧ g.isFoldedAt 0 = true := by
  decide +kernel

end Toggle

/-! ### A run of toggles -/

/-- A change that folds and unfolds, and does nothing else. -/
def Change.OnlyFolds : Change → Prop
  | .toggle _ | .foldAll => True
  | _ => False

/-- How often a line was toggled since all regions were folded last, if they ever were. -/
def toggles (line : UInt64) (cs : List Change) : Nat :=
  cs.foldl (fun count c => match c with
    | .toggle other => if other = line then count + 1 else count
    | .foldAll => 0
    | _ => count) 0

section Runs
variable {f : Folds} {line : UInt64} {cs : List Change}

theorem changes_concat (f : Folds) (cs : List Change) (c : Change) :
    f.changes (cs ++ [c]) = (f.changes cs).change c := by
  rw [changes, List.foldl_append]
  rfl

theorem toggles_concat (line : UInt64) (cs : List Change) (c : Change) :
    toggles line (cs ++ [c]) = match c with
      | .toggle other => if other = line then toggles line cs + 1 else toggles line cs
      | .foldAll => 0
      | _ => toggles line cs := by
  rw [toggles, List.foldl_append]
  rfl

theorem map_bounds_changes (f : Folds) (hcs : ∀ c ∈ cs, c.OnlyFolds) :
    (f.changes cs).regions.map FoldRegion.bounds = f.regions.map FoldRegion.bounds := by
  induction cs using List.reverseRecOn with
  | nil => rfl
  | append_singleton cs c ih =>
    rw [List.forall_mem_append] at hcs
    have hc := hcs.2 c (List.mem_singleton_self c)
    rw [changes_concat, ← ih hcs.1]
    cases c with
    | toggle other => exact map_bounds_toggle _ other
    | foldAll => exact map_bounds_withFlags _ _
    | _ => exact hc.elim

theorem length_startingAt_of_bounds {g : Folds}
    (h : g.regions.map FoldRegion.bounds = f.regions.map FoldRegion.bounds) (line : UInt64) :
    (g.startingAt line).length = (f.startingAt line).length := by
  have hcount (f : Folds) : (f.startingAt line).length =
      ((f.regions.map FoldRegion.bounds).filter fun x => x.1 == line).length := by
    rw [List.filter_map, List.length_map]
    rfl
  rw [hcount, hcount, h]

/-- **What a run of toggles makes of the regions of a line** that were alike before: the first of them is turned
over as often as the line was toggled since all were folded last, and the others stay alike. -/
theorem exists_flags_changes {b : Bool} (hf : f.flags line = List.replicate (f.startingAt line).length b)
    (hcs : ∀ c ∈ cs, c.OnlyFolds) : ∃ b', (f.changes cs).flags line =
      (List.modifyHead not)^[toggles line cs] (List.replicate (f.startingAt line).length b') := by
  induction cs using List.reverseRecOn with
  | nil => exact ⟨b, hf⟩
  | append_singleton cs c ih =>
    rw [List.forall_mem_append] at hcs
    have hc := hcs.2 c (List.mem_singleton_self c)
    obtain ⟨b', hflags⟩ := ih hcs.1
    rw [changes_concat, toggles_concat]
    cases c with
    | toggle other =>
      refine ⟨b', ?_⟩
      dsimp only [change]
      split_ifs with hline
      · rw [hline, flags_toggle, hflags, Function.iterate_succ_apply']
      · rw [flags_toggle_of_ne _ (Ne.symm hline), hflags]
    | foldAll =>
      refine ⟨true, ?_⟩
      show (f.changes cs).foldAll.flags line = _
      rw [flags_foldAll, length_startingAt_of_bounds (f.map_bounds_changes hcs.1)]
      rfl
    | _ => exact hc.elim

/-- Flags that were alike until the first of them was turned over some times are alike if there is no other, or if it
was turned back. -/
theorem alike_iff {n k : Nat} {b : Bool} {flags : List Bool}
    (h : flags = (List.modifyHead not)^[k] (List.replicate n b)) :
    (∀ flag ∈ flags, flags.any id = flag) ↔ n ≤ 1 ∨ Even k := by
  have hinvolutive : Function.Involutive (List.modifyHead not) := by
    intro flags
    cases flags with
    | nil => rfl
    | cons flag rest => rw [List.modifyHead_cons, List.modifyHead_cons, Bool.not_not]
  rcases Nat.even_or_odd k with heven | hodd
  · rw [hinvolutive.iterate_even heven, id_eq] at h
    subst h
    simp only [heven, or_true, iff_true, List.mem_replicate, List.any_replicate]
    rintro flag ⟨hn, rfl⟩
    rw [if_neg hn, id_eq]
  · rw [hinvolutive.iterate_odd hodd] at h
    simp only [Nat.not_even_iff_odd.mpr hodd, or_false]
    match n with
    | 0 => simp [h]
    | 1 => simp [h]
    | n + 2 =>
      have hflags : flags = (!b) :: b :: List.replicate n b := h
      cases b <;> simp [hflags]

end Runs

/-! ### Folds that are found again -/

/-- The folds with regions of one line made alike: a region is folded if any is that starts on its first line. -/
def levelled (f : Folds) : Folds := ⟨f.regions.map fun r => { r with isFolded := f.isFoldedAt r.first }⟩

section Levelled
variable {f g : Folds} {line : UInt64}

theorem map_withFlags_of_bounds {rs rs' : List FoldRegion}
    (h : rs'.map FoldRegion.bounds = rs.map FoldRegion.bounds) (flag : UInt64 → Bool) :
    (rs'.map fun r => { r with isFolded := flag r.first }) = rs.map fun r => { r with isFolded := flag r.first } := by
  have key (rs : List FoldRegion) : (rs.map fun r => { r with isFolded := flag r.first }) =
      (rs.map FoldRegion.bounds).map fun x => ⟨x.1, x.2, flag x.1⟩ := by
    rw [List.map_map]
    rfl
  rw [key, key, h]

theorem flags_withFlags (rs : List FoldRegion) (flag : UInt64 → Bool) (line : UInt64) :
    flags ⟨rs.map fun r => { r with isFolded := flag r.first }⟩ line =
      List.replicate (startingAt ⟨rs.map fun r => { r with isFolded := flag r.first }⟩ line).length (flag line) := by
  rw [List.eq_replicate_iff]
  refine ⟨length_flags _ _, ?_⟩
  intro b hb
  obtain ⟨r, hr, rfl⟩ := List.mem_map.mp hb
  obtain ⟨hmem, hstarts⟩ := List.mem_filter.mp hr
  obtain ⟨s, -, rfl⟩ := List.mem_map.mp hmem
  have hfirst : s.first = line := beq_iff_eq.mp hstarts
  exact congrArg flag hfirst

theorem levelled_eq_iff : f.levelled = f ↔ ∀ line, ∀ flag ∈ f.flags line, (f.flags line).any id = flag := by
  have hregions : f.levelled = f ↔ ∀ r ∈ f.regions, f.isFoldedAt r.first = r.isFolded := by
    have hmap : f.levelled = f ↔
        (f.regions.map fun r => { r with isFolded := f.isFoldedAt r.first }) = f.regions.map id := by
      rw [List.map_id]
      exact ⟨congrArg Folds.regions, congrArg Folds.mk⟩
    rw [hmap, List.map_inj_left]
    refine forall₂_congr fun r _ => ?_
    obtain ⟨first, last, isFolded⟩ := r
    simp only [id_eq, FoldRegion.mk.injEq, true_and]
  rw [hregions]
  constructor
  · intro h line flag hflag
    obtain ⟨r, hr, rfl⟩ := List.mem_map.mp hflag
    obtain ⟨hmem, hstarts⟩ := List.mem_filter.mp hr
    obtain rfl : r.first = line := beq_iff_eq.mp hstarts
    rw [← isFoldedAt_eq, h r hmem]
  · intro h r hr
    have hstarting : r ∈ f.startingAt r.first := List.mem_filter.mpr ⟨hr, beq_self_eq_true r.first⟩
    rw [isFoldedAt_eq, h r.first r.isFolded (List.mem_map_of_mem hstarting)]

end Levelled

end Folds

namespace Document

section Detect
variable {d : Document}

/-- What is found depends on the folds only through the lines that are folded. -/
theorem Readable.exists_detected (h : d.Readable) : ∃ rs : List FoldRegion, ∀ folds : Folds,
    { d with folds := folds }.detectFolds =
      (.ok (), { d with folds := ⟨rs.map fun r => { r with isFolded := folds.isFoldedAt r.first }⟩ }) := by
  cases hbraces : d.retokenizer.scanner.usesBraces with
  | false =>
    refine ⟨[], fun folds => ?_⟩
    exact detectFolds_of_no_braces (d := { d with folds := folds }) hbraces
  | true =>
    let braces := Folds.readBraces d.retokenizer d.buffer.source 0 d.buffer.source.lines
    refine ⟨(Folds.ofBraces braces.lines).regions, fun folds => ?_⟩
    have hfolds : Readable { d with folds := folds } := ⟨h.builtIn, ⟨h.ready.trusted, h.ready.sized⟩⟩
    exact hfolds.detectFolds_eq hbraces

theorem Readable.flags_detectFolds (h : d.Readable) (line : UInt64) :
    d.detectFolds.2.folds.flags line =
      List.replicate (d.detectFolds.2.folds.startingAt line).length (d.folds.isFoldedAt line) := by
  obtain ⟨rs, hrs⟩ := h.exists_detected
  have hfound := congrArg (fun x => x.2.folds) (hrs d.folds)
  dsimp only at hfound
  rw [hfound]
  exact Folds.flags_withFlags rs d.folds.isFoldedAt line

/-- If folds have only been folded and unfolded since they were found, finding them again makes the regions of each
line alike. -/
theorem Readable.detectFolds_again (h : d.Readable) {cs : List Folds.Change} (hcs : ∀ c ∈ cs, c.OnlyFolds) :
    let found := d.detectFolds.2
    let d' := { found with folds := found.folds.changes cs }
    d'.detectFolds = (.ok (), { d' with folds := d'.folds.levelled }) := by
  intro found d'
  obtain ⟨rs, hrs⟩ := h.exists_detected
  have hfound : found = { d with folds := found.folds } := by
    show d.detectFolds.2 = { d with folds := d.detectFolds.2.folds }
    rw [show d.detectFolds = _ from hrs d.folds]
  have hd' : d' = { d with folds := d'.folds } := by
    show { found with folds := d'.folds } = { d with folds := d'.folds }
    rw [hfound]
  have hbounds : d'.folds.regions.map FoldRegion.bounds = rs.map FoldRegion.bounds := by
    have hkept : d'.folds.regions.map FoldRegion.bounds = found.folds.regions.map FoldRegion.bounds :=
      found.folds.map_bounds_changes hcs
    have hregions := congrArg (fun x => x.2.folds.regions.map FoldRegion.bounds) (hrs d.folds)
    dsimp only at hregions
    rw [hkept, show found.folds.regions.map FoldRegion.bounds = _ from hregions, Folds.map_bounds_withFlags]
  rw [hd', hrs d'.folds, ← Folds.map_withFlags_of_bounds hbounds]
  rfl

/-- **Folds that are found again are as they were just if no line is half folded.** In every document that can come
about, let folds be found, then folded and unfolded in any way, and then found again. The second time the same
regions are found, in the same order, and each is folded if any was that starts on its first line. So all is as it was
just if each line on which several regions start was toggled an even number of times since they were found or folded
all together. -/
theorem detectFolds_again_iff (buffer : Buffer) (filePath : Option String) (settings : Settings)
    (steps : List (Nat × Op)) {cs : List Folds.Change} (hcs : ∀ c ∈ cs, c.OnlyFolds) :
    let found := ((ofBuffer buffer filePath settings).run steps).detectFolds.2
    let d := { found with folds := found.folds.changes cs }
    d.detectFolds.1 = .ok () ∧
      d.detectFolds.2.folds.regions.map FoldRegion.bounds = d.folds.regions.map FoldRegion.bounds ∧
      (∀ r ∈ d.detectFolds.2.folds.regions, r.isFolded = d.folds.isFoldedAt r.first) ∧
      (d.detectFolds.2.folds = d.folds ↔
        ∀ line, (found.folds.startingAt line).length ≤ 1 ∨ Even (Folds.toggles line cs)) := by
  intro found d
  have hstart : ((ofBuffer buffer filePath settings).run steps).Readable :=
    readable_run (readable_ofBuffer buffer filePath settings) steps
  have hagain : d.detectFolds = (.ok (), { d with folds := d.folds.levelled }) := hstart.detectFolds_again hcs
  rw [hagain]
  refine ⟨rfl, Folds.map_bounds_withFlags _ _, ?_, ?_⟩
  · intro r hr
    obtain ⟨s, -, rfl⟩ := List.mem_map.mp hr
    rfl
  · show d.folds.levelled = d.folds ↔ _
    rw [Folds.levelled_eq_iff]
    refine forall_congr' fun line => ?_
    obtain ⟨b, hflags⟩ := Folds.exists_flags_changes (hstart.flags_detectFolds line) hcs
    exact Folds.alike_iff hflags

/-- One of two blocks of Java that start on one line is folded and unfolded again, and one that starts further down
is folded. -/
theorem detectFolds_again_iff_toggled_back :
    let cs : List Folds.Change := [.foldAll, .toggle 0, .toggle 1, .toggle 0]
    (∀ c ∈ cs, c.OnlyFolds) ∧
    let found := ((ofBuffer (.ofString "\x7b \x7b\n\x7b\n\x7d\n\x7d\n\x7d") none
      { defaultLanguage := "text/java" }).run []).detectFolds.2
    let d := { found with folds := found.folds.changes cs }
    d.folds.regions = [⟨0, 4, true⟩, ⟨0, 3, true⟩, ⟨1, 2, false⟩] ∧ d.detectFolds.1 = .ok () ∧
      d.detectFolds.2.folds.regions.map FoldRegion.bounds = d.folds.regions.map FoldRegion.bounds ∧
      (∀ r ∈ d.detectFolds.2.folds.regions, r.isFolded = d.folds.isFoldedAt r.first) ∧
      (d.detectFolds.2.folds = d.folds ↔
        ∀ line, (found.folds.startingAt line).length ≤ 1 ∨ Even (Folds.toggles line cs)) := by
  intro cs
  have hcs : ∀ c ∈ cs, c.OnlyFolds := by simp [cs, Folds.Change.OnlyFolds]
  exact ⟨hcs, by decide +kernel, detectFolds_again_iff _ _ _ _ hcs⟩

/-- One of two blocks that start on one line is folded: when folds are found again, the other one comes to be folded
too. -/
theorem not_kept_two_blocks :
    let found := (ofString "\x7b \x7b\n\x7d\n\x7d" { defaultLanguage := "text/java" }).detectFolds.2
    let d := { found with folds := found.folds.changes [.toggle 0] }
    d.folds.regions = [⟨0, 2, true⟩, ⟨0, 1, false⟩] ∧
      d.detectFolds.2.folds.regions = [⟨0, 2, true⟩, ⟨0, 1, true⟩] ∧ d.detectFolds.2.folds ≠ d.folds := by
  decide +kernel

end Detect

end Document

end Linewise
