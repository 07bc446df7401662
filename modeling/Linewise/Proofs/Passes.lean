import Linewise.Proofs.Upkeep

/-!
# Passes over the whole text

A pass over the whole text fails if the text changes meanwhile, and in no other way. Each operation that
makes one takes over what the pass has found, so that the states are *in step* with the text
(`Retokenizer.InStep`), or keeps the states that it had. An edit whose report fits the text keeps states
in step; if the text changes meanwhile, it marks them stale.
-/

namespace Linewise

theorem Source.quiet_iff {s : Source} :
    s.Quiet ↔ s.revisionAfter s.lineCount = s.revisionAfter 0 := by
  constructor
  · exact fun h => h _ (Nat.le_refl _)
  · intro h reads hle
    unfold revisionAfter at *
    cases hs : s.stableReads with
    | none => rfl
    | some stable =>
      simp only [hs] at h ⊢
      split_ifs at * <;> omega

namespace Retokenizer

/-- **The states are those that a full pass finds.** -/
def InStep (r : Retokenizer) (source : Source) : Prop :=
  r.states.entries = r.expectedStates source.texts

/-- Two retokenizers have the same choice of languages, and use the same one in the same way. -/
structure SameLanguage (r r' : Retokenizer) : Prop where
  registry_eq : r'.registry = r.registry
  languageId_eq : r'.languageId = r.languageId
  scanner_eq : r'.scanner = r.scanner
  settings_eq : r'.settings = r.settings

section Passes
variable {r r' : Retokenizer} {source : Source}

theorem SameLanguage.refl (r : Retokenizer) : r.SameLanguage r := ⟨rfl, rfl, rfl, rfl⟩

theorem SameLanguage.trans {r'' : Retokenizer} (h : r.SameLanguage r') (h' : r'.SameLanguage r'') :
    r.SameLanguage r'' where
  registry_eq := h'.registry_eq.trans h.registry_eq
  languageId_eq := h'.languageId_eq.trans h.languageId_eq
  scanner_eq := h'.scanner_eq.trans h.scanner_eq
  settings_eq := h'.settings_eq.trans h.settings_eq

theorem SameLanguage.expectedStates_eq (h : r.SameLanguage r') (texts : List (List Char)) :
    r'.expectedStates texts = r.expectedStates texts := by
  rw [expectedStates, h.scanner_eq, h.settings_eq]
  rfl

theorem fullPass_of_quiet (h : source.Quiet) :
    r.fullPass source = .ok (r.expectedStates source.texts) := by
  rw [Source.quiet_iff] at h
  simp [fullPass, h]

theorem fullPass_of_not_quiet (h : ¬ source.Quiet) :
    ∃ expected found, r.fullPass source = .error (.bufferChanged expected found) := by
  rw [Source.quiet_iff] at h
  exact ⟨_, _, by simp only [fullPass, ne_eq, h, not_false_eq_true, if_true]; rfl⟩

/-- States are in step just if a pass over a text that stays as it is finds them. -/
theorem inStep_iff (h : source.Quiet) :
    r.InStep source ↔ r.fullPass source = .ok r.states.entries := by
  rw [fullPass_of_quiet h, InStep, Except.ok.injEq]
  exact eq_comm

theorem InStep.length_states (h : r.InStep source) : r.states.length = source.lineCount := by
  show r.states.entries.length = _
  rw [h, length_expectedStates, source.length_texts]

theorem rebuild_of_quiet (h : source.Quiet) :
    r.rebuild source = (.ok (), r.adopt (r.expectedStates source.texts)) := by
  simp only [rebuild, fullPass_of_quiet h]

theorem rebuild_of_not_quiet (h : ¬ source.Quiet) :
    ∃ expected found, r.rebuild source = (.error (.bufferChanged expected found), r) := by
  obtain ⟨expected, found, hpass⟩ := fullPass_of_not_quiet (r := r) h
  exact ⟨expected, found, by simp only [rebuild, hpass]⟩

theorem inStep_adopt (h : source.texts ≠ []) : (r.adopt (r.expectedStates source.texts)).InStep source := by
  have hne : (r.expectedStates source.texts).isEmpty = false := by
    rw [List.isEmpty_eq_false_iff, ← List.length_pos_iff, length_expectedStates]
    exact List.length_pos_iff.mpr h
  show (LineStates.ofList (r.expectedStates source.texts)).entries = r.expectedStates source.texts
  simp only [LineStates.ofList, hne, Bool.false_eq_true, if_false]

theorem sameLanguage_rebuild (r : Retokenizer) (source : Source) :
    r.SameLanguage (r.rebuild source).2 := by
  unfold rebuild
  cases r.fullPass source <;> exact ⟨rfl, rfl, rfl, rfl⟩

theorem sameLanguage_verify (r : Retokenizer) (source : Source) :
    r.SameLanguage (r.verify source).2 := by
  unfold verify
  cases r.fullPass source with
  | error e => exact .refl r
  | ok states =>
    dsimp only
    split_ifs <;> exact ⟨rfl, rfl, rfl, rfl⟩

theorem verify_of_quiet (h : source.Quiet) (hne : source.texts ≠ []) :
    ∃ well, (r.verify source).1 = .ok well ∧ (r.verify source).2.InStep source := by
  simp only [verify, fullPass_of_quiet h]
  split_ifs with hwell
  · exact ⟨true, rfl, hwell.1.symm⟩
  · exact ⟨false, rfl, inStep_adopt hne⟩

theorem verify_of_not_quiet (h : ¬ source.Quiet) :
    ∃ expected found, r.verify source = (.error (.bufferChanged expected found), r) := by
  obtain ⟨expected, found, hpass⟩ := fullPass_of_not_quiet (r := r) h
  exact ⟨expected, found, by simp only [verify, hpass]⟩

theorem setLanguage_cases (r : Retokenizer) (id : String) (source : Source) :
    (r.languageId = id ∧ r.stale = false ∧ r.setLanguage id source = (.ok (), r)) ∨
      (∃ e, r.registry.get id = .error e ∧ r.setLanguage id source = (.error e, r)) ∨
      (∃ scanner, r.registry.get id = .ok scanner ∧ ¬ (r.languageId = id ∧ r.stale = false) ∧
        r.setLanguage id source =
          { r with languageId := id, scanner := scanner }.rebuild source) := by
  unfold setLanguage
  split_ifs with h
  · exact Or.inl ⟨h.1, by simpa using h.2, rfl⟩
  · right
    cases hget : r.registry.get id with
    | error e => exact Or.inl ⟨e, rfl, rfl⟩
    | ok scanner => exact Or.inr ⟨scanner, rfl, by simpa using h, rfl⟩

theorem settings_setLanguage (r : Retokenizer) (id : String) (source : Source) :
    (r.setLanguage id source).2.settings = r.settings := by
  rcases r.setLanguage_cases id source with ⟨-, -, he⟩ | ⟨e, -, he⟩ | ⟨scanner, -, -, he⟩
  · rw [he]
  · rw [he]
  · rw [he]
    exact (sameLanguage_rebuild _ source).settings_eq

end Passes

/-! ### Edits -/

section OnEdit
variable {r : Retokenizer} {e : Edit} {source : Source}

theorem onEdit_of_stale (h : r.stale = true) :
    r.onEdit source e =
      ((r.rebuild source).1.map fun _ => allLines source, (r.rebuild source).2) := by
  simp [onEdit, h]

theorem sameLanguage_applyEdit (r : Retokenizer) (source : Source) (e : Edit) :
    r.SameLanguage (r.applyEdit source e).2 := by
  unfold applyEdit
  split
  · exact ⟨rfl, rfl, rfl, rfl⟩
  · dsimp only
    split_ifs <;> exact ⟨rfl, rfl, rfl, rfl⟩

theorem sameLanguage_onEdit (r : Retokenizer) (source : Source) (e : Edit) :
    r.SameLanguage (r.onEdit source e).2 := by
  unfold onEdit
  dsimp only
  split_ifs
  · exact r.sameLanguage_rebuild source
  · have happly := r.sameLanguage_applyEdit source e
    have hrebuild (r' : Retokenizer) :
        r'.SameLanguage ({ r' with repairs := r'.repairs + 1 }.rebuild source).2 := by
      obtain ⟨h1, h2, h3, h4⟩ := sameLanguage_rebuild { r' with repairs := r'.repairs + 1 } source
      exact ⟨h1, h2, h3, h4⟩
    generalize r.applyEdit source e = answer at happly ⊢
    obtain ⟨x | d, r'⟩ := answer
    · cases x with
      | bufferChanged => exact happly.trans ⟨rfl, rfl, rfl, rfl⟩
      | unknownLanguage => exact happly
      | configuration => exact happly
      | unreadableFile => exact happly
      | lineOutOfRange => exact happly.trans (hrebuild r')
      | malformedTokens => exact happly.trans (hrebuild r')
    · exact happly.trans ⟨rfl, rfl, rfl, rfl⟩

/-- An edit of states that can be trusted succeeds and leaves them in step, or fails since the text has
changed, and marks them stale. -/
theorem onEdit_cases {old : List (List Char)} (hm : e.Matches e.reach old source.texts)
    (hs : r.stale = false) (hc : r.states.entries = r.expectedStates old) :
    (∃ d r', r.onEdit source e = (.ok d, r') ∧ r'.InStep source) ∨
      (¬ source.Quiet ∧ (r.onEdit source e).2.stale = true) := by
  have hlen := length_states hc
  have hsame := r.sameLanguage_applyEdit source e
  rcases happly : r.applyEdit source e with ⟨x | d, r'⟩
  · obtain ⟨⟨expected, found, rfl⟩, hq⟩ := applyEdit_error hm hlen happly
    exact Or.inr ⟨hq, by rw [onEdit_of_changed hs happly]⟩
  · rw [happly] at hsame
    have hentries := entries_applyEdit hm hc happly
    exact Or.inl ⟨d, _, onEdit_of_ok hs happly, hentries.trans (hsame.expectedStates_eq _).symm⟩

theorem inStep_onEdit {old : List (List Char)} (hm : e.Matches e.reach old source.texts)
    (h : r.stale = true ∨ r.states.entries = r.expectedStates old) (hq : source.Quiet) :
    ∃ d r', r.onEdit source e = (.ok d, r') ∧ r'.InStep source := by
  have hne : source.texts ≠ [] := List.length_pos_iff.mp (by have := hm.new_line; omega)
  cases hs : r.stale with
  | true =>
    refine ⟨allLines source, r.adopt (r.expectedStates source.texts), ?_, inStep_adopt hne⟩
    rw [onEdit_of_stale hs, rebuild_of_quiet hq]
    rfl
  | false =>
    have hc : r.states.entries = r.expectedStates old := h.resolve_left (by simp [hs])
    exact (onEdit_cases hm hs hc).resolve_right fun hmoved => hmoved.1 hq

/-- An edit leaves the states in step or marks them stale. -/
theorem stale_or_inStep_onEdit {old : List (List Char)} (hm : e.Matches e.reach old source.texts)
    (h : r.stale = true ∨ r.states.entries = r.expectedStates old) :
    (r.onEdit source e).2.stale = true ∨ (r.onEdit source e).2.InStep source := by
  by_cases hq : source.Quiet
  · obtain ⟨d, r', hedit, hstep⟩ := inStep_onEdit hm h hq
    exact Or.inr (by rw [hedit]; exact hstep)
  cases hs : r.stale with
  | true =>
    obtain ⟨expected, found, hrebuild⟩ := rebuild_of_not_quiet (r := r) hq
    exact Or.inl (by rw [onEdit_of_stale hs, hrebuild]; exact hs)
  | false =>
    have hc : r.states.entries = r.expectedStates old := h.resolve_left (by simp [hs])
    rcases onEdit_cases hm hs hc with ⟨d, r', hedit, hstep⟩ | ⟨-, hstale⟩
    · exact Or.inr (by rw [hedit]; exact hstep)
    · exact Or.inl hstale

end OnEdit

end Retokenizer

end Linewise
