import Linewise.Proofs.EditReports
import Linewise.Proofs.Passes
import Mathlib.Data.List.Induction

/-!
# Sources that change

The text can change behind the back of any operation, after any number of lines have been read. Then the
operation fails, and the states should be marked stale unless they are still those of a full pass
(`Session.Consistent`). An edit sees to that, and building the states anew and checking them touch nothing
if they fail. Switching to another language takes over its scanner first, though, and a pass that fails
then leaves the scanner with the states of the old language, unmarked. Where the two languages do not
have the same states for the text, this *derails* the session (`Session.Derails`).

* `consistent_call`, `consistent_run`: **a call keeps a session consistent unless it derails it**, and so
  does a run of calls.
* `consistent_run_iff`: a session stays consistent just if no call derails it.
-/

namespace Linewise

/-- What a pass reads of a buffer that changes once a number of lines have been read. -/
def Buffer.sourceUntil (b : Buffer) (stableReads : Option Nat) : Source :=
  { b.source with stableReads := stableReads }

/-- A buffer, and a retokenizer that is told of each of its changes. -/
structure Session where
  buffer : Buffer
  retokenizer : Retokenizer

namespace Session

/-- What can be called. -/
inductive Call where
  | edit (c : Buffer.Change)
  | setLanguage (id : String)
  | rebuild
  | verify

/-- The session behind a call during which a number of lines can be read before the text changes. -/
def call (s : Session) (stableReads : Option Nat) : Call → Session
  | .edit c =>
    let (buffer, edit) := s.buffer.change c
    ⟨buffer, (s.retokenizer.onEdit (buffer.sourceUntil stableReads) edit).2⟩
  | .setLanguage id =>
    ⟨s.buffer, (s.retokenizer.setLanguage id (s.buffer.sourceUntil stableReads)).2⟩
  | .rebuild => ⟨s.buffer, (s.retokenizer.rebuild (s.buffer.sourceUntil stableReads)).2⟩
  | .verify => ⟨s.buffer, (s.retokenizer.verify (s.buffer.sourceUntil stableReads)).2⟩

/-- One call after the other. -/
def run (s : Session) (calls : List (Option Nat × Call)) : Session :=
  calls.foldl (fun s c => s.call c.1 c.2) s

theorem run_concat (s : Session) (calls : List (Option Nat × Call)) (stableReads : Option Nat)
    (c : Call) : s.run (calls ++ [(stableReads, c)]) = (s.run calls).call stableReads c := by
  simp [run]

/-- **Nothing is wrong silently**: the states are marked stale, or are those of a full pass. -/
def Consistent (s : Session) : Prop :=
  s.retokenizer.stale = true ∨
    s.retokenizer.fullPass s.buffer.source = .ok s.retokenizer.states.entries

/-- **A switch to another language that fails too late**: the states are trusted, the scanner is found and
taken over, the text changes during the pass, and the new scanner would have had other states. -/
def Derails (s : Session) (stableReads : Option Nat) : Call → Prop
  | .setLanguage id =>
    s.retokenizer.stale = false ∧ s.retokenizer.languageId ≠ id ∧
      ¬ (s.buffer.sourceUntil stableReads).Quiet ∧
      ∃ scanner, s.retokenizer.registry.get id = .ok scanner ∧
        { s.retokenizer with scanner := scanner }.expectedStates s.buffer.source.texts ≠
          s.retokenizer.states.entries
  | _ => False

/-- A call that brings no carriage return into the text. -/
def Call.BringsNoReturn : Call → Prop
  | .edit c => c.BringsNoReturn
  | _ => True

theorem consistent_iff {s : Session} :
    s.Consistent ↔ s.retokenizer.stale = true ∨ s.retokenizer.InStep s.buffer.source := by
  rw [Consistent, Retokenizer.inStep_iff s.buffer.quiet_source]

/-! ### Calls -/

section Call
variable {s : Session} {stableReads : Option Nat} {c : Call}

theorem no_return_call (h : '\r' ∉ s.buffer.text) (hc : c.BringsNoReturn) :
    '\r' ∉ (s.call stableReads c).buffer.text := by
  cases c with
  | edit c => exact Buffer.no_return_change h hc
  | setLanguage id => exact h
  | rebuild => exact h
  | verify => exact h

theorem rebuild_cases (r : Retokenizer) (b : Buffer) (stableReads : Option Nat) :
    (r.rebuild (b.sourceUntil stableReads)).2.InStep b.source ∨
      (r.rebuild (b.sourceUntil stableReads)).2 = r := by
  by_cases hq : (b.sourceUntil stableReads).Quiet
  · left
    rw [Retokenizer.rebuild_of_quiet hq]
    exact Retokenizer.inStep_adopt (b.texts_source_ne_nil)
  · right
    obtain ⟨expected, found, he⟩ := Retokenizer.rebuild_of_not_quiet (r := r) hq
    rw [he]

/-- **A call keeps the session consistent, unless it derails it.** -/
theorem consistent_call (h : s.Consistent) (hr : '\r' ∉ s.buffer.text)
    (hd : ¬ s.Derails stableReads c) : (s.call stableReads c).Consistent := by
  rw [consistent_iff] at h ⊢
  have hne := s.buffer.texts_source_ne_nil
  cases c with
  | edit c => exact Retokenizer.stale_or_inStep_onEdit (Buffer.change_matches hr) h
  | rebuild =>
    show (s.retokenizer.rebuild _).2.stale = true ∨ (s.retokenizer.rebuild _).2.InStep _
    rcases rebuild_cases s.retokenizer s.buffer stableReads with hstep | he
    · exact Or.inr hstep
    · rwa [he]
  | verify =>
    show (s.retokenizer.verify _).2.stale = true ∨ (s.retokenizer.verify _).2.InStep _
    by_cases hq : (s.buffer.sourceUntil stableReads).Quiet
    · obtain ⟨well, -, hstep⟩ := Retokenizer.verify_of_quiet (r := s.retokenizer) hq hne
      exact Or.inr hstep
    · obtain ⟨expected, found, he⟩ := Retokenizer.verify_of_not_quiet (r := s.retokenizer) hq
      rwa [he]
  | setLanguage id =>
    show (s.retokenizer.setLanguage id _).2.stale = true ∨
      (s.retokenizer.setLanguage id _).2.InStep _
    rcases s.retokenizer.setLanguage_cases id (s.buffer.sourceUntil stableReads) with
      ⟨-, -, he⟩ | ⟨e, -, he⟩ | ⟨scanner, hget, hother, he⟩
    · rwa [he]
    · rwa [he]
    rw [he]
    by_cases hq : (s.buffer.sourceUntil stableReads).Quiet
    · rw [Retokenizer.rebuild_of_quiet hq]
      exact Or.inr (Retokenizer.inStep_adopt hne)
    obtain ⟨expected, found, hrebuild⟩ := Retokenizer.rebuild_of_not_quiet
      (r := { s.retokenizer with languageId := id, scanner := scanner }) hq
    rw [hrebuild]
    cases hs : s.retokenizer.stale with
    | true => exact Or.inl rfl
    | false =>
      right
      by_contra hdiffer
      exact hd ⟨hs, fun hid => hother ⟨hid, hs⟩, hq, scanner, hget, fun hsame => hdiffer hsame.symm⟩

theorem not_consistent_call (hd : s.Derails stableReads c) : ¬ (s.call stableReads c).Consistent := by
  rw [consistent_iff]
  cases c with
  | setLanguage id =>
    obtain ⟨hs, hid, hq, scanner, hget, hdiffer⟩ := hd
    show ¬ ((s.retokenizer.setLanguage id _).2.stale = true ∨
      (s.retokenizer.setLanguage id _).2.InStep _)
    rcases s.retokenizer.setLanguage_cases id (s.buffer.sourceUntil stableReads) with
      ⟨he, -, -⟩ | ⟨e, he, -⟩ | ⟨scanner', hget', -, he⟩
    · exact absurd he hid
    · rw [hget] at he
      cases he
    obtain rfl : scanner = scanner' := Except.ok.inj (hget.symm.trans hget')
    obtain ⟨expected, found, hrebuild⟩ := Retokenizer.rebuild_of_not_quiet
      (r := { s.retokenizer with languageId := id, scanner := scanner }) hq
    rw [he, hrebuild]
    rintro (hstale | hstep)
    · rw [show _ = _ from hs] at hstale
      cases hstale
    · exact hdiffer hstep.symm
  | _ => exact hd.elim

end Call

/-! ### Runs -/

section Run
variable {s : Session}

theorem no_return_run (h : '\r' ∉ s.buffer.text) (calls : List (Option Nat × Call))
    (hc : ∀ c ∈ calls, c.2.BringsNoReturn) : '\r' ∉ (s.run calls).buffer.text := by
  induction calls using List.reverseRecOn with
  | nil => exact h
  | append_singleton calls c ih =>
    rw [run_concat]
    exact no_return_call (ih fun c' hmem => hc c' (by simp [hmem])) (hc c (by simp))

/-- **A run of which no call derails the session keeps it consistent.** -/
theorem consistent_run (h : s.Consistent) (hr : '\r' ∉ s.buffer.text)
    (calls : List (Option Nat × Call)) (hc : ∀ c ∈ calls, c.2.BringsNoReturn)
    (hd : ∀ done stableReads c rest, calls = done ++ (stableReads, c) :: rest →
      ¬ (s.run done).Derails stableReads c) : (s.run calls).Consistent := by
  induction calls using List.reverseRecOn with
  | nil => exact h
  | append_singleton calls c ih =>
    have hc' : ∀ c' ∈ calls, c'.2.BringsNoReturn := fun c' hmem => hc c' (by simp [hmem])
    rw [run_concat]
    refine consistent_call (ih hc' fun done stableReads c' rest he => ?_) (no_return_run hr calls hc')
      (hd calls c.1 c.2 [] rfl)
    exact hd done stableReads c' (rest ++ [c]) (by rw [he, List.append_assoc]; rfl)

end Run

/-- **A session that starts from states built anew stays consistent just if no call derails it**,
whatever the languages and whenever the text changes. -/
theorem consistent_run_iff {r : Retokenizer} {b : Buffer} {stableReads : Option Nat}
    (hrebuild : (r.rebuild (b.sourceUntil stableReads)).1 = .ok ()) (hr : '\r' ∉ b.text)
    (calls : List (Option Nat × Call)) (hc : ∀ c ∈ calls, c.2.BringsNoReturn) :
    (∀ done rest, calls = done ++ rest →
      (run ⟨b, (r.rebuild (b.sourceUntil stableReads)).2⟩ done).Consistent) ↔
    ∀ done stable c rest, calls = done ++ (stable, c) :: rest →
      ¬ (run ⟨b, (r.rebuild (b.sourceUntil stableReads)).2⟩ done).Derails stable c := by
  have hstart : Consistent ⟨b, (r.rebuild (b.sourceUntil stableReads)).2⟩ := by
    rw [consistent_iff]
    by_cases hq : (b.sourceUntil stableReads).Quiet
    · rw [Retokenizer.rebuild_of_quiet hq]
      exact Or.inr (Retokenizer.inStep_adopt (b.texts_source_ne_nil))
    · obtain ⟨expected, found, he⟩ := Retokenizer.rebuild_of_not_quiet (r := r) hq
      rw [he] at hrebuild
      cases hrebuild
  constructor
  · intro h done stable c rest he hd
    have hafter := h (done ++ [(stable, c)]) rest (by rw [he, List.append_assoc]; rfl)
    rw [run_concat] at hafter
    exact not_consistent_call hd hafter
  · intro h done rest he
    refine consistent_run hstart hr done (fun c hmem => hc c (by rw [he]; simp [hmem]))
      fun done' stable c rest' he' => ?_
    exact h done' stable c (rest' ++ rest) (by rw [he, he', List.append_assoc]; rfl)

/-- A character comes into a text that holds the opening of a comment, the text changes meanwhile, and it
is checked whether all is well. -/
theorem consistent_run_iff_edit_and_check :
    let b := Buffer.ofString "/*\nb"
    let r := Retokenizer.ofSettings {}
    let calls := [(some 0, .edit (.insert 3 ['a'])), (none, .verify)]
    (r.rebuild (b.sourceUntil none)).1 = .ok () ∧ '\r' ∉ b.text ∧
    (∀ c ∈ calls, Call.BringsNoReturn c.2) ∧
    ((∀ done rest, calls = done ++ rest →
      (run ⟨b, (r.rebuild (b.sourceUntil none)).2⟩ done).Consistent) ↔
    ∀ done stable c rest, calls = done ++ (stable, c) :: rest →
      ¬ (run ⟨b, (r.rebuild (b.sourceUntil none)).2⟩ done).Derails stable c) := by
  intro b r calls
  have hrebuild : (r.rebuild (b.sourceUntil none)).1 = .ok () := by decide +kernel
  have hr : '\r' ∉ b.text := by decide +kernel
  have hc : ∀ c ∈ calls, Call.BringsNoReturn c.2 := by
    simp [calls, Call.BringsNoReturn, Buffer.Change.BringsNoReturn]
  exact ⟨hrebuild, hr, hc, consistent_run_iff hrebuild hr calls hc⟩

/-- The text changes before a line has been read for the new language: its scanner is left with the states
of plain text, to which the opening of a comment means nothing. -/
theorem not_consistent_late_failure :
    let b := Buffer.ofString "/*\nb"
    let r := Retokenizer.ofSettings {}
    (r.rebuild (b.sourceUntil none)).1 = .ok () ∧
    ¬ (run ⟨b, (r.rebuild (b.sourceUntil none)).2⟩
      [(some 0, .setLanguage "text/java")]).Consistent := by
  refine ⟨by decide +kernel, ?_⟩
  rintro (hstale | hstates)
  · exact absurd hstale (by decide +kernel)
  · exact absurd hstates (by decide +kernel)

end Session

end Linewise
