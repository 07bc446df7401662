import Linewise.Proofs.EditReports
import Linewise.Proofs.Passes

/-!
# Switches of language

A switch of language that succeeds should *bind* the states to the text (`Retokenizer.Bound`): they are
those of a full pass, they can be trusted, and every line has tokens. A switch makes a full pass for that,
unless the language is in use already and the states can be trusted. But states that can be trusted need
not be those of this text. Above all, those of a new retokenizer are one state for a text of one line, and
plain text is in use from the start; so a switch to plain text *overlooks* each longer text
(`overlooks_ofRegistry`).

* `setLanguage_binds_iff`: **a switch binds the states to the text just if it does not overlook it**, and
  one that fails changes nothing.
-/

namespace Linewise

namespace Registry
variable {registry : Registry} {id : String}

theorem contains_of_get {scanner : Scanner} (h : registry.get id = .ok scanner) :
    registry.contains id = true := by
  unfold get at h
  unfold contains
  cases hfind : registry.find? id with
  | none =>
    rw [hfind] at h
    cases h
  | some scanner => rfl

/-- An identifier that is not registered is unknown, and in no other way can its scanner not be had. -/
theorem get_eq_error {e : Failure} (h : registry.get id = .error e) :
    e = .unknownLanguage id ∧ registry.contains id = false := by
  unfold get at h
  unfold contains
  cases hfind : registry.find? id with
  | none =>
    rw [hfind] at h
    exact ⟨(Except.error.inj h).symm, rfl⟩
  | some scanner =>
    rw [hfind] at h
    cases h

end Registry

namespace Retokenizer

/-- **The states are those of a text**, in the language of a given identifier. -/
structure Bound (r : Retokenizer) (id : String) (source : Source) : Prop where
  languageId_eq : r.languageId = id
  stale_eq : r.stale = false
  states_eq : r.fullPass source = .ok r.states.entries
  exists_tokens : ∀ line < source.lineCount, ∃ tokens, r.lineTokens source line = .ok tokens

/-- The language is in use already, and the states can be trusted, but they are not those of the text. -/
def Overlooks (r : Retokenizer) (id : String) (source : Source) : Prop :=
  r.languageId = id ∧ r.stale = false ∧ r.fullPass source ≠ .ok r.states.entries

section Switch
variable {r : Retokenizer} {id : String} {source : Source}

theorem exists_lineTokens {line : Nat} (hl : line < source.lineCount)
    (hs : source.lineCount ≤ r.states.length) : ∃ tokens, r.lineTokens source line = .ok tokens := by
  obtain ⟨l, hline, -⟩ := source.exists_line hl
  have hle : line ≤ r.states.length := by omega
  exact ⟨_, lineTokens_eq hline (LineStates.before_eq hle)⟩

theorem InStep.bound (h : r.InStep source) (hq : source.Quiet) (hid : r.languageId = id)
    (hs : r.stale = false) : r.Bound id source := by
  constructor
  · exact hid
  · exact hs
  · exact (inStep_iff hq).mp h
  · intro line hline
    exact exists_lineTokens hline (Nat.le_of_eq h.length_states.symm)

/-- States that are not built anew are bound to the text if they are those of the text already. -/
theorem bound_iff_of_current (hq : source.Quiet) (hid : r.languageId = id) (hs : r.stale = false) :
    r.Bound id source ↔ ¬ r.Overlooks id source := by
  constructor
  · intro hbound hoverlooks
    exact hoverlooks.2.2 hbound.states_eq
  · intro hseen
    have hpass : r.fullPass source = .ok r.states.entries := by
      by_contra hdiffer
      exact hseen ⟨hid, hs, hdiffer⟩
    exact ((inStep_iff hq).mpr hpass).bound hq hid hs

theorem setLanguage_of_current (hid : r.languageId = id) (hs : r.stale = false) :
    r.setLanguage id source = (.ok (), r) := by
  unfold setLanguage
  rw [if_pos ⟨hid, by rw [hs]; rfl⟩]

/-- **A switch binds the states to the text just if it does not overlook it.** It succeeds if the language
is registered, or in use with states that can be trusted. If it fails nothing has changed. -/
theorem setLanguage_binds_iff (hq : source.Quiet) (hpos : 0 < source.lineCount) :
    ((r.setLanguage id source).1 = .ok () ↔
      (r.languageId = id ∧ r.stale = false) ∨ r.registry.contains id = true) ∧
    (∀ r', r.setLanguage id source = (.ok (), r') →
      r'.languageId = id ∧ r'.stale = false ∧ (r'.Bound id source ↔ ¬ r.Overlooks id source)) ∧
    (∀ e r', r.setLanguage id source = (.error e, r') → e = .unknownLanguage id ∧ r' = r) := by
  have hne : source.texts ≠ [] := List.length_pos_iff.mp (by rwa [source.length_texts])
  rcases r.setLanguage_cases id source with ⟨hid, hs, he⟩ | ⟨e, hget, he⟩ | ⟨scanner, hget, hother, he⟩
  · -- The language is in use: whatever the states are, they stay.
    rw [he]
    refine ⟨⟨fun _ => Or.inl ⟨hid, hs⟩, fun _ => rfl⟩, ?_, fun e r' h => ?_⟩
    · rintro r' ⟨⟩
      exact ⟨hid, hs, bound_iff_of_current hq hid hs⟩
    · cases (Prod.mk.inj h).1
  · -- Nothing is known of the language.
    obtain ⟨rfl, hcontains⟩ := Registry.get_eq_error hget
    refine ⟨?_, fun r' h => ?_, fun e r' h => ?_⟩
    · constructor
      · intro hok
        rw [he] at hok
        cases hok
      · rintro (⟨hid, hs⟩ | hknown)
        · rw [setLanguage_of_current hid hs]
        · rw [hcontains] at hknown
          cases hknown
    · rw [he] at h
      cases (Prod.mk.inj h).1
    · rw [he] at h
      obtain ⟨herror, rfl⟩ := Prod.mk.inj h
      exact ⟨(Except.error.inj herror).symm, rfl⟩
  · -- A pass is made with the new scanner.
    rw [he, rebuild_of_quiet hq]
    refine ⟨⟨fun _ => Or.inr (Registry.contains_of_get hget), fun _ => rfl⟩, fun r' h => ?_, fun e r' h => ?_⟩
    · obtain ⟨-, rfl⟩ := Prod.mk.inj h
      refine ⟨rfl, rfl, ?_⟩
      constructor
      · rintro - ⟨hid, hs, -⟩
        exact hother ⟨hid, hs⟩
      · intro _
        exact (inStep_adopt hne).bound hq rfl rfl
    · cases (Prod.mk.inj h).1

/-- A cut comment, and Java in the place of plain text. -/
theorem setLanguage_binds_iff_other_language :
    let r := ofSettings {}
    let source := (Buffer.ofString "/*\nb").source
    (source.Quiet ∧ 0 < source.lineCount) ∧
    ((r.setLanguage "text/java" source).1 = .ok () ↔
      (r.languageId = "text/java" ∧ r.stale = false) ∨ r.registry.contains "text/java" = true) ∧
    (∀ r', r.setLanguage "text/java" source = (.ok (), r') → r'.languageId = "text/java" ∧
      r'.stale = false ∧ (r'.Bound "text/java" source ↔ ¬ r.Overlooks "text/java" source)) ∧
    (∀ e r', r.setLanguage "text/java" source = (.error e, r') →
      e = .unknownLanguage "text/java" ∧ r' = r) := by
  intro r source
  have hq : source.Quiet := (Buffer.ofString "/*\nb").quiet_source
  have hpos : 0 < source.lineCount := by decide +kernel
  exact ⟨⟨hq, hpos⟩, setLanguage_binds_iff hq hpos⟩

/-- A new retokenizer is told to switch to plain text, for a text of three lines: it keeps its one state,
and the last line has no tokens. -/
theorem not_bound_first_switch :
    let r := ofSettings {}
    let source := (Buffer.ofString "a\nb\nc").source
    let r' := (r.setLanguage "text/plain" source).2
    source.Quiet ∧ (r.setLanguage "text/plain" source).1 = .ok () ∧ ¬ r'.Bound "text/plain" source ∧
      r'.fullPass source = .ok [.neutral, .neutral, .neutral] ∧ r'.states.entries = [.neutral] ∧
      r'.lineTokens source 2 = .error (.lineOutOfRange 1 1) := by
  intro r source r'
  have hpass : r'.fullPass source = .ok [.neutral, .neutral, .neutral] := by decide +kernel
  have hstates : r'.states.entries = [.neutral] := by decide +kernel
  refine ⟨Buffer.quiet_source _, by decide +kernel, ?_, hpass, hstates, by decide +kernel⟩
  intro hbound
  have hsame := hbound.states_eq
  rw [hpass, hstates] at hsame
  exact absurd hsame (by decide)

end Switch

/-! ### New retokenizers -/

/-- **A new retokenizer that is told to switch to plain text overlooks every text of more than one line**,
whatever the registry. -/
theorem overlooks_ofRegistry (registry : Registry) (settings : Settings) {source : Source}
    (hlines : source.lineCount ≠ 1) :
    (ofRegistry registry settings).Overlooks Language.plainText.id source := by
  refine ⟨rfl, rfl, ?_⟩
  intro hpass
  have hq : source.Quiet := by
    by_contra hq
    obtain ⟨expected, found, hfailed⟩ := fullPass_of_not_quiet (r := ofRegistry registry settings) hq
    rw [hfailed] at hpass
    cases hpass
  exact hlines ((inStep_iff hq).mpr hpass).length_states.symm

end Retokenizer

end Linewise
