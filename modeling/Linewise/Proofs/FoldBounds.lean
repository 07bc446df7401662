import Linewise.Proofs.FoldStates
import Mathlib.Tactic.IntervalCases

/-!
# Folds within their document

Regions are moved by the line counts that an edit reports, and what lines there are depends on the text behind
the edit, where breaks may have come together or apart. Both fit: whatever is inserted or removed, the line that
the report names is there in both texts, and so are the last lines that came or went
(`Buffer.exists_source_matches`). Regions that are found end on lines with a brace.

* `within_perform`, `folds_within_run`: **regions that were found stay within the text** through every step.
-/

namespace Linewise

namespace Folds

/-- Folds whose regions end within a document of so many lines. -/
structure Within (f : Folds) (lines : Nat) : Prop where
  sound : f.Sound
  last_lt : ∀ r ∈ f.regions, r.last.toNat < lines

section Within
variable {f g : Folds} {n : Nat}

theorem within_empty (n : Nat) : empty.Within n := ⟨sound_empty, by simp [empty]⟩

theorem Within.of_bounds (h : f.Within n)
    (hbounds : g.regions.map FoldRegion.bounds = f.regions.map FoldRegion.bounds) : g.Within n where
  sound := h.sound.of_bounds hbounds
  last_lt := by
    intro r hr
    have hmem : r.bounds ∈ f.regions.map FoldRegion.bounds := hbounds ▸ List.mem_map_of_mem hr
    obtain ⟨r', hr', heq⟩ := List.mem_map.mp hmem
    have hlt := h.last_lt r' hr'
    rwa [(Prod.mk.inj heq).2] at hlt

/-- **An edit keeps folds within the text** if its report fits. -/
theorem Within.adjust {e : Edit} {reach : Nat} {old new : List (List Char)} (h : f.Within old.length)
    (hm : e.Matches reach old new) (hkind : e.oneWay = e) (hold : old.length ≤ UInt64.size)
    (hnew : new.length ≤ UInt64.size) : (f.adjust e).Within new.length := by
  have hstart := hm.old_line
  have hstart' := hm.new_line
  have hcount := hm.length_eq
  have hfits : e.oneWay.Fits f := by
    rw [hkind]
    refine ⟨by omega, fun r hr hbelow => ?_⟩
    have hlast := h.last_lt r hr
    have hway : e.linesRemoved = 0 ∨ e.linesAdded = 0 := by
      cases hk : e.kind with
      | insert =>
        simp only [Edit.oneWay, hk] at hkind
        exact Or.inl (congrArg Edit.linesRemoved hkind).symm
      | remove =>
        simp only [Edit.oneWay, hk] at hkind
        exact Or.inr (congrArg Edit.linesAdded hkind).symm
    omega
  refine ⟨sound_adjust h.sound hfits, fun s hs => ?_⟩
  rw [regions_adjust h.sound hfits, hkind, List.mem_filterMap] at hs
  obtain ⟨r, hr, hs⟩ := hs
  obtain ⟨first, last, -, hlast, rfl⟩ := FoldRegion.along_eq_some_iff.mp hs
  have hlt := h.last_lt r hr
  rw [Edit.image_eq_some_iff] at hlast
  have hlast' : last < new.length := by omega
  show (UInt64.ofNat last).toNat < new.length
  rwa [UInt64.toNat_ofNat_of_lt' (by omega)]

theorem lt_of_mem_readBraces {r : Retokenizer} {source : Source} {number : Nat} {ls : List SourceLine} :
    ∀ x ∈ (readBraces r source number ls).lines, x.1 < number + ls.length := by
  induction ls generalizing number with
  | nil => simp [readBraces]
  | cons l ls ih =>
    have hrest : ∀ x ∈ (readBraces r source (number + 1) ls).lines, x.1 < number + (l :: ls).length := by
      intro x hx
      have hlt := ih x hx
      rw [List.length_cons]
      omega
    by_cases hany : (l.text.any fun c => c == '\x7b' || c == '\x7d') = true
    · cases hline : r.lineTokens source number with
      | error failure =>
        rw [readBraces, hany, hline]
        simp
      | ok found =>
        rw [readBraces_of_brace hany hline, List.forall_mem_cons]
        exact ⟨Nat.lt_add_of_pos_right (Nat.succ_pos _), hrest⟩
    · rw [readBraces_of_no_brace hany]
      exact hrest

/-- **What is found lies within the source.** -/
theorem within_detect (f : Folds) (r : Retokenizer) (source : Source) (hsize : source.lineCount ≤ UInt64.size) :
    (f.detect r source).2.1.Within source.lineCount := by
  rcases f.detect_cases r source with hempty | hbounds
  · rw [hempty]
    exact within_empty _
  refine ⟨f.sound_detect r source, fun x hx => ?_⟩
  have hmem : x.bounds ∈ (ofBraces (readBraces r source 0 source.lines).lines).regions.map FoldRegion.bounds :=
    hbounds ▸ List.mem_map_of_mem hx
  obtain ⟨y, hy, heq⟩ := List.mem_map.mp hmem
  have hlines : ∀ x ∈ (readBraces r source 0 source.lines).lines, x.1 < source.lineCount := by
    intro x hx
    have hlt := lt_of_mem_readBraces x hx
    rwa [Nat.zero_add] at hlt
  obtain ⟨-, first, last, -, hlast, hspan⟩ := spans_ofBraces (p := (· < source.lineCount)) hlines y hy
  rw [heq] at hspan
  rw [show x.last = .ofNat last from (Prod.mk.inj hspan).2, UInt64.toNat_ofNat_of_lt' (by omega)]
  exact hlast

/-- Hidden lines are within the document, and below its first line. -/
theorem Within.of_isHidden (h : f.Within n) {line : UInt64} (hline : f.isHidden line = true) :
    line ≠ 0 ∧ line.toNat < n := by
  obtain ⟨r, hr, hhides⟩ := List.any_eq_true.mp hline
  rw [FoldRegion.hides_iff] at hhides
  have hlast := h.last_lt r hr
  refine ⟨?_, by omega⟩
  rintro rfl
  rw [UInt64.toNat_zero] at hhides
  omega

end Within

end Folds

namespace Document

/-- A step that changes folds by hand in no other way than by folding and unfolding. -/
def Op.OnlyFolds : Op → Prop
  | .withFolds f => f = Folds.foldAll ∨ ∃ line, f = fun folds => (folds.toggle line).2
  | _ => True

section Step
variable {d : Document} {now : Nat} {op : Op}

theorem folds_change (d : Document) (now : Nat) (c : Buffer.Change) :
    (d.change now c).2.folds = d.folds.adjust (d.buffer.change c).2 := by
  cases c with
  | insert offset inserted => rfl
  | remove start stop =>
    simp only [change, remove, Buffer.change]
    split_ifs with hempty
    · have hnone := (Buffer.remove_of_length_eq_zero hempty).2
      have hkind : (d.buffer.remove start stop).2.kind = .remove := rfl
      simp only [Folds.adjust, hkind, hnone, if_true]
    · rfl

theorem folds_setLanguage (d : Document) (id : String) (now : Nat) : (d.setLanguage id now).2.folds = d.folds := by
  simp only [setLanguage]
  cases (d.retokenizer.setLanguage id d.buffer.source).1 <;> rfl

/-- **A step keeps folds within the text.** -/
theorem within_perform (h : d.folds.Within d.buffer.lineCount) (hop : op.OnlyFolds)
    (hsize : d.buffer.length < UInt64.size) (hsize' : (d.perform now op).buffer.length < UInt64.size) :
    (d.perform now op).folds.Within (d.perform now op).buffer.lineCount := by
  have hlines := d.buffer.lineCount_le
  have hlines' := (d.perform now op).buffer.lineCount_le
  by_cases hchange : ∃ c, op = .change c
  · obtain ⟨c, rfl⟩ := hchange
    have hbuffer : (d.perform now (.change c)).buffer = (d.buffer.change c).1 := d.buffer_change now c
    have hfolds : (d.perform now (.change c)).folds = d.folds.adjust (d.buffer.change c).2 := d.folds_change now c
    obtain ⟨old, hold, hm⟩ := d.buffer.exists_source_matches c
    have hlength : old.texts.length = d.buffer.lineCount := by rw [old.length_texts, hold]
    have hlength' : (d.buffer.change c).1.source.texts.length = (d.buffer.change c).1.lineCount := by
      rw [Source.length_texts, Buffer.lineCount_source]
    rw [hbuffer] at hlines' hsize' ⊢
    rw [← hlength] at h
    rw [hfolds, ← hlength']
    exact h.adjust hm (d.buffer.oneWay_change c) (by omega) (by omega)
  · have hbuffer : (d.perform now op).buffer = d.buffer := by
      rcases d.perform_cases now op with hc | hkeeps | hrefreshes
      · exact absurd hc hchange
      · exact hkeeps.buffer_eq
      · exact hrefreshes.buffer_eq
    rw [hbuffer]
    cases op with
    | change c => exact absurd ⟨c, rfl⟩ hchange
    | detectFolds =>
      have hfound := d.folds.within_detect d.retokenizer d.buffer.source
        (by rw [Buffer.lineCount_source]; omega)
      rwa [Buffer.lineCount_source] at hfound
    | withFolds f =>
      rcases hop with rfl | ⟨line, rfl⟩
      · exact h.of_bounds (Folds.map_bounds_withFlags _ _)
      · exact h.of_bounds (d.folds.map_bounds_toggle line)
    | setLanguage id =>
      show (d.setLanguage id now).2.folds.Within _
      rw [folds_setLanguage]
      exact h
    | _ => exact h

end Step

/-- **Regions that were found stay within the text.** Whatever is inserted and removed, found anew, folded and
unfolded, and whatever else is asked of a document that starts without regions and that 64-bit words can address,
its regions are in the order of their first lines, each of them ends below its first line and within the text,
and so all hidden lines are lines of the text other than the first. -/
theorem folds_within_run (d : Document) (hnone : d.folds = .empty) (steps : List (Nat × Op))
    (hsteps : ∀ step ∈ steps, step.2.OnlyFolds)
    (hsize : ∀ n, (d.run (steps.take n)).buffer.length < UInt64.size) :
    let d' := d.run steps
    d'.folds.Ordered ∧ (∀ r ∈ d'.folds.regions, r.first < r.last ∧ r.last.toNat < d'.buffer.lineCount) ∧
      ∀ line, d'.folds.isHidden line = true → line ≠ 0 ∧ line.toNat < d'.buffer.lineCount := by
  intro d'
  have hwithin : d'.folds.Within d'.buffer.lineCount := by
    induction steps using List.reverseRecOn with
    | nil =>
      show d.folds.Within _
      rw [hnone]
      exact Folds.within_empty _
    | append_singleton steps step ih =>
      rw [List.forall_mem_append] at hsteps
      have hbefore (n : Nat) : (d.run (steps.take n)).buffer.length < UInt64.size := by
        rcases Nat.le_total n steps.length with hle | hle
        · have hn := hsize n
          rwa [List.take_append_of_le_length hle] at hn
        · have hall := hsize steps.length
          rw [List.take_left] at hall
          rwa [List.take_of_length_le hle]
      have hstart := hbefore steps.length
      have hend := hsize (steps.length + 1)
      rw [List.take_length] at hstart
      rw [List.take_of_length_le (by simp)] at hend
      obtain ⟨now, op⟩ := step
      rw [run_concat] at hend
      rw [show d' = (d.run steps).perform now op from d.run_concat steps now op]
      exact within_perform (ih hsteps.1 hbefore) (hsteps.2 _ (List.mem_singleton_self _)) hstart hend
  exact ⟨hwithin.sound.ordered, fun r hr => ⟨hwithin.sound.proper r hr, hwithin.last_lt r hr⟩,
    fun line hline => hwithin.of_isHidden hline⟩

/-- Of two blocks of Java that are found and folded, the upper one loses its lines to a removal. Before that, a
blank between a return and a feed has gone, which makes one break of the two. -/
theorem folds_within_run_joined_pair :
    let d := ofBuffer (.ofString "\x7b\r\n\x7d\r \n\n\x7b\n\x7d") none { defaultLanguage := "text/java" }
    let steps : List (Nat × Op) := [(0, .detectFolds), (1, .withFolds .foldAll), (2, .change (.remove 5 6)),
      (3, .withFolds fun folds => (folds.toggle 0).2), (4, .change (.remove 1 3))]
    let d' := d.run steps
    d.folds = .empty ∧ (∀ step ∈ steps, step.2.OnlyFolds) ∧
      (∀ n, (d.run (steps.take n)).buffer.length < UInt64.size) ∧ d'.folds.regions = [⟨2, 3, true⟩] ∧
      d'.folds.Ordered ∧ (∀ r ∈ d'.folds.regions, r.first < r.last ∧ r.last.toNat < d'.buffer.lineCount) ∧
      ∀ line, d'.folds.isHidden line = true → line ≠ 0 ∧ line.toNat < d'.buffer.lineCount := by
  intro d steps
  have hnone : d.folds = .empty := by decide +kernel
  have hsteps : ∀ step ∈ steps, step.2.OnlyFolds := by
    simp only [steps, List.forall_mem_cons, Op.OnlyFolds, true_or, true_and]
    exact ⟨Or.inr ⟨0, rfl⟩, by simp⟩
  have hsize (n : Nat) : (d.run (steps.take n)).buffer.length < UInt64.size := by
    rcases Nat.lt_or_ge n 5 with hlt | hge
    · interval_cases n <;> decide +kernel
    · rw [List.take_of_length_le hge]
      decide +kernel
  have hregions : (d.run steps).folds.regions = [⟨2, 3, true⟩] := by decide +kernel
  exact ⟨hnone, hsteps, hsize, hregions, folds_within_run d hnone steps hsteps hsize⟩

end Document

end Linewise
