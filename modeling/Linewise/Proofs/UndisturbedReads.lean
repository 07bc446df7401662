import Linewise.Proofs.FoldPairs

/-!
# Reading does not disturb

What asks about a document, or notices things in it, does nothing but read lines, one after the other, and go
on with what it finds there (`Retokenizer.OnlyReads`). So do matching brackets and the parser that reports
errors. In a built-in language every line has tokens that tile it, so nothing of this ever marks the states
stale (`Retokenizer.OnlyReads.exists_result`).

* `Document.undisturbed_run`: a run whose questions and parsers do nothing but read leaves states that can be
  trusted.
-/

namespace Linewise

namespace Retokenizer

/-- Reads the tokens of a line, and hands out what came of it, also if that is a failure. -/
def attempt (r : Retokenizer) (source : Source) (line : Nat) : Reader (Except Failure Token.Sequence) :=
  ExceptT.lift (r.readTokens source line).run

/-- **The reader does nothing but read lines**: it gives an answer, or fails, or reads a line and goes on with
what came of it. -/
inductive OnlyReads (r : Retokenizer) (source : Source) {α : Type} : Reader α → Prop
  | answer (a : α) : OnlyReads r source (pure a)
  | fail (e : Failure) : OnlyReads r source (throw e)
  | read (line : Nat) (next : Except Failure Token.Sequence → Reader α)
      (h : ∀ found, OnlyReads r source (next found)) : OnlyReads r source (r.attempt source line >>= next)

section OnlyReads
variable {r : Retokenizer} {source : Source} {α β : Type} {x : Reader α} {f : α → Reader β}

theorem OnlyReads.bind (hx : OnlyReads r source x) (hf : ∀ a, OnlyReads r source (f a)) :
    OnlyReads r source (x >>= f) := by
  induction hx with
  | answer a =>
    rw [pure_bind]
    exact hf a
  | fail e => exact .fail e
  | read line next _ ih =>
    rw [bind_assoc]
    exact .read line _ ih

theorem run_attempt (r : Retokenizer) (source : Source) (line : Nat) (stale : Bool) :
    (r.attempt source line).run stale =
      (.ok ((r.readTokens source line).run stale).1, ((r.readTokens source line).run stale).2) := rfl

theorem onlyReads_readTokens (r : Retokenizer) (source : Source) (line : Nat) :
    OnlyReads r source (r.readTokens source line) := by
  have heq : r.readTokens source line = r.attempt source line >>= fun
      | .ok tokens => pure tokens
      | .error e => throw e := by
    refine ExceptT.ext (funext fun stale => ?_)
    rw [run_bind, run_attempt]
    rcases (r.readTokens source line).run stale with ⟨_ | _, _⟩ <;> rfl
  rw [heq]
  refine .read line _ fun found => ?_
  cases found with
  | ok tokens => exact .answer tokens
  | error e => exact .fail e

/-- Reading a line leaves the note alone, whether or not there is such a line. -/
theorem BuiltIn.exists_found (h : r.BuiltIn) (hs : source.lineCount ≤ r.states.length) (line : Nat) :
    ∃ found, ∀ stale, (r.readTokens source line).run stale = (found, stale) := by
  cases hl : source.line? line with
  | none =>
    have hline : r.lineTokens source line = .error (.lineOutOfRange line source.lineCount) := by
      simp only [lineTokens, hl]
    refine ⟨.error (.lineOutOfRange line source.lineCount), fun stale => ?_⟩
    simp only [readTokens, hline]
    rfl
  | some l =>
    have hcount : line < source.lineCount := (List.getElem?_eq_some_iff.mp hl).1
    obtain ⟨tokens, hline, -⟩ := h.exists_lineTokens hl (by omega)
    exact ⟨.ok tokens, returns_readTokens hline⟩

/-- **What does nothing but read leaves the note alone**, and does not depend on it, as every line has tokens
that tile it. -/
theorem OnlyReads.exists_result (hx : OnlyReads r source x) (h : r.BuiltIn)
    (hs : source.lineCount ≤ r.states.length) : ∃ result, ∀ stale, x.run stale = (result, stale) := by
  induction hx with
  | answer a => exact ⟨.ok a, fun _ => rfl⟩
  | fail e => exact ⟨.error e, fun _ => rfl⟩
  | read line next _ ih =>
    -- What is found does not depend on the note, so neither does how the reader goes on.
    obtain ⟨found, hfound⟩ := h.exists_found hs line
    obtain ⟨result, hresult⟩ := ih found
    refine ⟨result, fun stale => ?_⟩
    rw [run_bind, run_attempt, hfound]
    exact hresult stale

end OnlyReads

end Retokenizer

namespace BracketMatcher

open Retokenizer (OnlyReads)

/-! ### Questions and parsers -/

theorem onlyReads_structural (m : BracketMatcher) (line start : Nat) (candidates : List Cell) :
    OnlyReads m.retokenizer m.source (m.structural line start candidates) := by
  unfold structural
  split_ifs
  · exact .answer []
  · exact (Retokenizer.onlyReads_readTokens _ _ line).bind fun tokens => .answer _

theorem onlyReads_search (m : BracketMatcher) (cellsOf : List Char → List Cell) (same : Char) (depth : Nat)
    (first : List Cell) (lines : List (SourceLine × Nat)) :
    OnlyReads m.retokenizer m.source (m.search cellsOf same depth first lines) := by
  induction lines generalizing depth first with
  | nil => exact .answer none
  | cons x rest ih =>
    refine (m.onlyReads_structural x.2 x.1.start first).bind fun here => ?_
    split
    · exact .answer _
    · exact ih _ _

/-- **Matching a bracket does nothing but read lines.** -/
theorem onlyReads_match? (m : BracketMatcher) (offset : Nat) :
    OnlyReads m.retokenizer m.source (m.match? offset) := by
  unfold match?
  dsimp only
  split
  · split
    · split
      · refine (m.onlyReads_structural _ _ _).bind fun here => ?_
        split_ifs
        · exact .answer none
        all_goals
          refine (m.onlyReads_search _ _ _ _ _).bind fun found => ?_
          split
          · split_ifs
            · exact .answer none
            · exact .answer _
          · exact .answer none
      · exact .answer none
    · exact .answer none
  · exact .answer none

end BracketMatcher

namespace BackgroundParser

/-- **The parser does nothing but read** the document. -/
def OnlyReads (p : BackgroundParser) : Prop :=
  ∀ earlierRuns s, Retokenizer.OnlyReads s.retokenizer s.source (p.parse earlierRuns s)

theorem onlyReads_errorsOfLines (s : Snapshot) (lines : List Nat) :
    Retokenizer.OnlyReads s.retokenizer s.source (errorsOfLines s lines) := by
  induction lines with
  | nil => exact .answer []
  | cons line below ih =>
    refine (Retokenizer.onlyReads_readTokens _ _ line).bind fun here => ?_
    exact ih.bind fun rest => .answer _

theorem onlyReads_tokenErrors : tokenErrors.OnlyReads := fun _ s => onlyReads_errorsOfLines s _

end BackgroundParser

namespace Schedule

/-- All registered parsers do nothing but read. -/
def OnlyReads (s : Schedule) : Prop := ∀ e ∈ s.entries, e.parser.OnlyReads

section Runs
variable {s : Schedule} {snapshot : Snapshot}

theorem parser_runEntry (snapshot : Snapshot) (e : ParserEntry) : (runEntry snapshot e).2.1.parser = e.parser := by
  unfold runEntry
  split_ifs
  · rfl
  · rcases (e.parser.parse e.runs snapshot).run false with ⟨_ | _, malformed⟩ <;> rfl

theorem OnlyReads.runAll (h : s.OnlyReads) (snapshot : Snapshot) : (s.runAll snapshot).2.1.OnlyReads := by
  intro e he
  simp only [Schedule.runAll, List.map_map] at he
  obtain ⟨e', he', rfl⟩ := List.mem_map.mp he
  rw [Function.comp_apply, parser_runEntry]
  exact h e' he'

theorem OnlyReads.poll (h : s.OnlyReads) (now : Nat) (snapshot : Snapshot) :
    (s.poll now snapshot).2.1.OnlyReads := by
  unfold Schedule.poll
  split_ifs
  · exact runAll (s := s.cancel) h snapshot
  · exact h

theorem OnlyReads.not_malformed_runAll (h : s.OnlyReads) (hr : snapshot.retokenizer.BuiltIn)
    (hs : snapshot.source.lineCount ≤ snapshot.retokenizer.states.length) :
    (s.runAll snapshot).2.2 = false := by
  simp only [Schedule.runAll, List.any_map, List.any_eq_false, Function.comp_apply]
  intro e he
  unfold runEntry
  split_ifs
  · exact not_false
  · obtain ⟨result, hresult⟩ := (h e he e.runs snapshot).exists_result hr hs
    dsimp only
    rw [hresult false]
    cases result <;> exact Bool.false_ne_true

theorem OnlyReads.not_malformed_poll (h : s.OnlyReads) (hr : snapshot.retokenizer.BuiltIn)
    (hs : snapshot.source.lineCount ≤ snapshot.retokenizer.states.length) (now : Nat) :
    (s.poll now snapshot).2.2 = false := by
  unfold Schedule.poll
  split_ifs
  · exact not_malformed_runAll (s := s.cancel) h hr hs
  · rfl

end Runs

end Schedule

namespace Document

/-! ### Documents that nothing disturbs -/

/-- A step whose question or parser, if it has one, does nothing but read. -/
def Op.OnlyReads : Op → Prop
  | .ask question => ∀ d : Document, Retokenizer.OnlyReads d.retokenizer d.buffer.source (question d)
  | .registerParser parser => parser.OnlyReads
  | _ => True

/-- **A document whose states can be trusted**, and whose parsers do nothing but read. -/
structure Undisturbed (d : Document) : Prop where
  readable : d.Readable
  fresh : d.retokenizer.stale = false
  parsers : d.schedule.OnlyReads

section Undisturbed
variable {d : Document}

theorem Readable.lineCount_le (h : d.Readable) :
    d.snapshot.source.lineCount ≤ d.snapshot.retokenizer.states.length := by
  show d.buffer.source.lineCount ≤ d.retokenizer.states.length
  rw [h.ready.sized, d.buffer.lineCount_source]

theorem Readable.exists_reading {α : Type} {x : Retokenizer.Reader α} (h : d.Readable)
    (hx : Retokenizer.OnlyReads d.retokenizer d.buffer.source x) : ∃ result, d.reading x = (result, d) := by
  obtain ⟨result, hresult⟩ := hx.exists_result h.builtIn h.lineCount_le
  refine ⟨result, ?_⟩
  simp only [reading, Retokenizer.reading, hresult]

theorem Readable.retokenizer_detectFolds (h : d.Readable) : d.detectFolds.2.retokenizer = d.retokenizer := by
  cases hbraces : d.retokenizer.scanner.usesBraces with
  | true => rw [h.detectFolds_eq hbraces]
  | false => rw [detectFolds_of_no_braces hbraces]

section Parsers
variable (h : d.Readable) (hs : d.schedule.OnlyReads)
include h hs

/-- Parsers that do nothing but read leave the retokenizer alone. -/
theorem Readable.retokenizer_pollParsers (now : Nat) : (d.pollParsers now).2.retokenizer = d.retokenizer := by
  show { d.retokenizer with stale := d.retokenizer.stale || (d.schedule.poll now d.snapshot).2.2 } = _
  rw [hs.not_malformed_poll h.builtIn h.lineCount_le, Bool.or_false]

theorem Readable.retokenizer_runParsers : d.runParsers.2.retokenizer = d.retokenizer := by
  have hcancel : d.schedule.cancel.OnlyReads := hs
  show { d.retokenizer with stale := d.retokenizer.stale || (d.schedule.cancel.runAll d.snapshot).2.2 } = _
  rw [hcancel.not_malformed_runAll h.builtIn h.lineCount_le, Bool.or_false]

end Parsers

theorem fresh_perform (h : d.Undisturbed) (now : Nat) {op : Op} (hop : op.OnlyReads) :
    (d.perform now op).retokenizer.stale = false := by
  have hrebuild := fun r : Retokenizer => r.rebuild_of_quiet d.buffer.quiet_source
  cases op with
  | change c =>
    obtain ⟨damage, -, -, -, hfresh⟩ := change_spec h.readable.ready now c
    exact hfresh h.fresh
  | setLanguage id =>
    show (d.setLanguage id now).2.retokenizer.stale = false
    rw [retokenizer_setLanguage]
    rcases d.retokenizer.setLanguage_cases id d.buffer.source with ⟨-, -, he⟩ | ⟨e, -, he⟩ | ⟨scanner, -, -, he⟩
    · rw [he]
      exact h.fresh
    · rw [he]
      exact h.fresh
    · rw [he, hrebuild]
      rfl
  | verify =>
    show (d.retokenizer.verify d.buffer.source).2.stale = false
    simp only [Retokenizer.verify, Retokenizer.fullPass_of_quiet d.buffer.quiet_source]
    split_ifs
    · exact h.fresh
    · rfl
  | takeDamage => exact h.fresh
  | detectFolds =>
    show d.detectFolds.2.retokenizer.stale = false
    rw [h.readable.retokenizer_detectFolds]
    exact h.fresh
  | withFolds f => exact h.fresh
  | ask question =>
    obtain ⟨result, hresult⟩ := h.readable.exists_reading (hop d)
    show (d.reading (question d)).2.retokenizer.stale = false
    rw [hresult]
    exact h.fresh
  | registerParser parser => exact h.fresh
  | pollParsers =>
    show (d.pollParsers now).2.retokenizer.stale = false
    rw [h.readable.retokenizer_pollParsers h.parsers]
    exact h.fresh
  | runParsers =>
    show d.runParsers.2.retokenizer.stale = false
    rw [h.readable.retokenizer_runParsers h.parsers]
    exact h.fresh

theorem parsers_perform (h : d.schedule.OnlyReads) (now : Nat) {op : Op} (hop : op.OnlyReads) :
    (d.perform now op).schedule.OnlyReads := by
  cases op with
  | change c =>
    show (d.change now c).2.schedule.OnlyReads
    cases c with
    | insert offset inserted => exact h
    | remove start stop =>
      simp only [change, remove]
      split_ifs
      · exact h
      · exact h
  | setLanguage id =>
    show (d.setLanguage id now).2.schedule.OnlyReads
    simp only [setLanguage]
    cases (d.retokenizer.setLanguage id d.buffer.source).1 <;> exact h
  | registerParser parser =>
    intro e he
    rcases List.mem_append.mp he with he | he
    · exact h e he
    · obtain rfl := List.mem_singleton.mp he
      exact hop
  | pollParsers => exact h.poll now d.snapshot
  | runParsers => exact Schedule.OnlyReads.runAll (s := d.schedule.cancel) h d.snapshot
  | verify => exact h
  | takeDamage => exact h
  | detectFolds => exact h
  | withFolds f => exact h
  | ask question => exact h

/-- **A step that does nothing but read, beside what it is for, leaves states that can be trusted.** -/
theorem undisturbed_perform (h : d.Undisturbed) (now : Nat) {op : Op} (hop : op.OnlyReads) :
    (d.perform now op).Undisturbed where
  readable := readable_run h.readable [(now, op)]
  fresh := fresh_perform h now hop
  parsers := parsers_perform h.parsers now hop

theorem undisturbed_run (h : d.Undisturbed) {steps : List (Nat × Op)} (hsteps : ∀ step ∈ steps, step.2.OnlyReads) :
    (d.run steps).Undisturbed := by
  induction steps using List.reverseRecOn with
  | nil => exact h
  | append_singleton steps step ih =>
    rw [run_concat]
    refine undisturbed_perform (ih fun step hstep => ?_) step.1 (hsteps step ?_)
    · exact hsteps step (List.mem_append_left _ hstep)
    · exact List.mem_append_right _ List.mem_cons_self

theorem undisturbed_ofBuffer (buffer : Buffer) (filePath : Option String) (settings : Settings) :
    (ofBuffer buffer filePath settings).Undisturbed where
  readable := readable_ofBuffer buffer filePath settings
  fresh := by
    obtain ⟨-, r, -, -, he⟩ := ofBuffer_cases buffer filePath settings
    rw [he, Retokenizer.rebuild_of_quiet buffer.quiet_source]
    rfl
  parsers := nofun

end Undisturbed

end Document

end Linewise
