import Linewise.Document
import Linewise.Proofs.EditReports
import Linewise.Proofs.MovedLines
import Linewise.Proofs.TrustedScanners
import Mathlib.Data.List.Induction

/-!
# Runs of documents

A document goes through changes, questions and all else that can be asked of it, in any order
(`Document.run`). After each step its states should be those of a full pass, and the tokens of each line
should end in the state that is remembered behind the line (`Document.InStep`). They are, whatever the
text and the settings, with one exception: a removal that tears a pair of carriage return and line feed
is reported on the wrong line (`Buffer.TearsPair`), so the states stay as they are. If a full pass finds
others in the new text, the document is *blind* to the change (`Document.Blinds`).

* `inStep_perform`, `inStep_run`: **a step keeps a document in step unless it blinds it**, and so does a
  run.
* `inStep_run_of_no_return`: a text without carriage returns stays in step with its states.
* `inStep_run_iff`: a run keeps a document in step just if no step of it blinds the document.
-/

namespace Linewise

namespace Retokenizer

theorem InStep.endState_lineTokens {r : Retokenizer} {source : Source} (h : r.InStep source)
    (hs : r.scanner.Lawful) {i : Nat} (hi : i < source.lineCount) :
    ∃ tokens malformed, r.lineTokens source i = .ok (tokens, malformed) ∧
      r.stateBehind i = .ok tokens.endState := by
  obtain ⟨l, hl, htext⟩ := source.exists_line hi
  have hlen : r.states.entries.length = source.lineCount := by
    rw [h, length_expectedStates, Source.length_texts]
  have hchain : Chained (r.lineEffect source.texts) r.states.entries :=
    h ▸ r.chained_expectedStates source.texts
  have hbefore : r.states.before i = .ok (stateInFront .neutral r.states.entries i) :=
    LineStates.before_eq (show i ≤ r.states.entries.length by omega)
  have htokens := lineTokens_eq hl hbefore
  have hend := r.endState_finishTokens l.text (.ofNat l.start) (r.scanner.tokenizeCapped l.text
    (stateInFront .neutral r.states.entries i) (.ofNat l.start) r.settings.scanLimit)
  rw [Scanner.endState_tokenizeCapped hs] at hend
  rcases hfinish : r.finishTokens l.text _ _ with ⟨tokens, malformed⟩
  rw [hfinish] at htokens hend
  refine ⟨tokens, malformed, htokens, ?_⟩
  simp only [stateBehind, LineStates.get, hchain i (by omega), lineEffect, List.getD_eq_getElem?_getD,
    htext, Option.getD_some]
  exact congrArg _ hend.symm

/-- **What is done when a pair is torn**: the line that the report names is lexed anew, nothing has
changed there, and no state is touched. -/
theorem onEdit_of_tearsPair {r : Retokenizer} {b : Buffer} {start stop : Nat}
    (h : r.InStep b.source) (hs : r.stale = false) (htears : b.TearsPair start stop) :
    ∃ d r', r.onEdit (b.remove start stop).1.source (b.remove start stop).2 = (.ok d, r') ∧
      r'.states = r.states := by
  obtain ⟨e, he⟩ : ∃ e, e = (b.remove start stop).2 := ⟨_, rfl⟩
  obtain ⟨source, hsource⟩ : ∃ source, source = (b.remove start stop).1.source := ⟨_, rfl⟩
  obtain ⟨above, part, first, below, -, hstart, hadded, hremoved, -, hold, hnew⟩ := htears.report
  rw [← he] at hstart hadded hremoved ⊢
  rw [← hsource] at hnew ⊢
  have hquiet : source.Quiet := hsource ▸ Buffer.quiet_source _
  have hlen : r.states.entries.length = source.texts.length := by
    rw [h, length_expectedStates, hold, hnew, List.length_append, List.length_append]
    rfl
  have hline : e.startLine < source.texts.length := by
    rw [hnew, List.length_append]
    omega
  have hm : e.Matches e.reach source.texts source.texts := Edit.matches_self hadded hremoved hline _
  rcases happly : r.applyEdit source e with ⟨x | d, r'⟩
  · exact absurd hquiet (applyEdit_error hm hlen happly).2
  obtain ⟨states, visits, p, rfl, rfl, hp⟩ := applyEdit_ok hm hlen happly
  refine ⟨_, _, onEdit_of_ok hs happly, ?_⟩
  have hshift : shifted e r.states.entries = r.states.entries := by
    simp [shifted, hadded, hremoved]
  rw [hshift] at hp
  -- The line that the report names stands above the torn pair.
  have hsame : states.entries[e.startLine]? = r.states.entries[e.startLine]? := by
    have hchain : Chained (r.lineEffect b.source.texts) r.states.entries :=
      h ▸ r.chained_expectedStates _
    have htext : source.texts[e.startLine]? = b.source.texts[e.startLine]? := by
      rw [hold, hnew, List.getElem?_append_left (by omega), List.getElem?_append_left (by omega)]
    rw [hp.lexed _ (Nat.le_refl _) hp.first_le, hchain _ (by omega), lineEffect_congr htext]
    congr 2
    exact stateInFront_congr fun j hj => hp.above j (by omega)
  have hreach : e.reach = e.startLine := by
    simp [Edit.reach, Edit.isSingleLine, Edit.lastChangedLine, hadded, hremoved]
  have hlast := (hp.least _ (Nat.le_refl _) hp.first_le (by omega) hsame).1
  have hentries : states.entries = r.states.entries := by
    refine List.ext_getElem? fun i => ?_
    rcases Nat.lt_trichotomy i e.startLine with hi | rfl | hi
    · exact hp.above i hi
    · exact hsame
    · exact hp.below i (by omega)
  show states = r.states
  cases states
  exact congrArg LineStates.mk hentries

theorem inStep_onEdit_of_tearsPair_iff {r : Retokenizer} {b : Buffer} {c : Buffer.Change}
    (h : r.InStep b.source) (hs : r.stale = false) (htears : b.TearsPairBy c) :
    (r.onEdit (b.change c).1.source (b.change c).2).2.InStep (b.change c).1.source ↔
      r.expectedStates (b.change c).1.source.texts = r.expectedStates b.source.texts := by
  cases c with
  | insert offset inserted => exact htears.elim
  | remove start stop =>
    have hlang := r.sameLanguage_onEdit (b.remove start stop).1.source (b.remove start stop).2
    obtain ⟨d, r', hedit, hstates⟩ := onEdit_of_tearsPair h hs htears
    show (r.onEdit (b.remove start stop).1.source (b.remove start stop).2).2.InStep
      (b.remove start stop).1.source ↔ r.expectedStates (b.remove start stop).1.source.texts = _
    rw [hedit] at hlang ⊢
    unfold InStep at h ⊢
    rw [hlang.expectedStates_eq, hstates, h]
    exact eq_comm

end Retokenizer

namespace Document

/-- What can be asked of a document. -/
inductive Op where
  | change (c : Buffer.Change)
  | setLanguage (id : String)
  | verify
  | takeDamage
  | detectFolds
  | withFolds (f : Folds → Folds)
  | ask (question : Document → Retokenizer.Reader Unit)
  | registerParser (parser : BackgroundParser)
  | pollParsers
  | runParsers

/-- Changes a document at a moment. The answer is the range of lines whose tokens may have changed. -/
def change (d : Document) (now : Nat) : Buffer.Change → Except Failure Damage × Document
  | .insert offset inserted => d.insert offset inserted now
  | .remove start stop => d.remove start stop now

/-- The document once something has been asked of it at a moment. -/
def perform (d : Document) (now : Nat) : Op → Document
  | .change c => (d.change now c).2
  | .setLanguage id => (d.setLanguage id now).2
  | .verify => d.verify.2
  | .takeDamage => d.takeDamage.2
  | .detectFolds => d.detectFolds.2
  | .withFolds f => { d with folds := f d.folds }
  | .ask question => (d.reading (question d)).2
  | .registerParser parser => d.registerParser parser now
  | .pollParsers => (d.pollParsers now).2
  | .runParsers => d.runParsers.2

/-- One thing after the other, each with its moment. -/
def run (d : Document) (steps : List (Nat × Op)) : Document :=
  steps.foldl (fun d step => d.perform step.1 step.2) d

theorem run_concat (d : Document) (steps : List (Nat × Op)) (now : Nat) (op : Op) :
    d.run (steps ++ [(now, op)]) = (d.run steps).perform now op := by
  simp [run]

/-- **The document and what it remembers fit.** The states are those of a full pass, and the tokens of
every line end in the state that is remembered behind it. -/
structure InStep (d : Document) : Prop where
  states : d.retokenizer.fullPass d.buffer.source = .ok d.retokenizer.states.entries
  tokens : ∀ line < d.buffer.lineCount, ∃ tokens malformed,
    d.retokenizer.lineTokens d.buffer.source line = .ok (tokens, malformed) ∧
      d.stateBehind line = .ok tokens.endState

/-- **A change that the document does not see**: it tears a pair of carriage return and line feed, the
states are trusted, and a full pass over the new text finds other ones. -/
def Blinds (d : Document) : Op → Prop
  | .change c => d.retokenizer.stale = false ∧ d.buffer.TearsPairBy c ∧
      d.retokenizer.expectedStates (d.buffer.change c).1.source.texts ≠
        d.retokenizer.expectedStates d.buffer.source.texts
  | _ => False

/-! ### What a step can do -/

/-- A step that brings no carriage return into the text. -/
def Op.BringsNoReturn : Op → Prop
  | .change c => c.BringsNoReturn
  | _ => True

/-- A step that leaves alone what the states depend on, and the states. -/
structure Keeps (d d' : Document) : Prop where
  buffer_eq : d'.buffer = d.buffer
  language : d.retokenizer.SameLanguage d'.retokenizer
  states_eq : d'.retokenizer.states = d.retokenizer.states

theorem keeps_detectFolds (d : Document) : d.Keeps d.detectFolds.2 := by
  unfold detectFolds Folds.detect
  dsimp only
  split_ifs
  · exact ⟨rfl, ⟨rfl, rfl, rfl, rfl⟩, rfl⟩
  · cases (Folds.readBraces d.retokenizer d.buffer.source 0 d.buffer.source.lines).failure <;>
      exact ⟨rfl, ⟨rfl, rfl, rfl, rfl⟩, rfl⟩

/-- A step after which the states are those of a full pass over the same text. -/
structure Refreshes (d d' : Document) : Prop where
  buffer_eq : d'.buffer = d.buffer
  trusted : d.retokenizer.Trusted → d'.retokenizer.Trusted
  inStep : d'.retokenizer.InStep d.buffer.source

theorem retokenizer_setLanguage (d : Document) (id : String) (now : Nat) :
    (d.setLanguage id now).2.retokenizer = (d.retokenizer.setLanguage id d.buffer.source).2 := by
  simp only [setLanguage]
  cases (d.retokenizer.setLanguage id d.buffer.source).1 <;> rfl

theorem setLanguage_cases (d : Document) (id : String) (now : Nat) :
    d.Keeps (d.setLanguage id now).2 ∨ d.Refreshes (d.setLanguage id now).2 := by
  have hbuffer : (d.setLanguage id now).2.buffer = d.buffer := by
    simp only [setLanguage]
    cases (d.retokenizer.setLanguage id d.buffer.source).1 <;> rfl
  have hretokenizer := d.retokenizer_setLanguage id now
  have htrusted := fun h => hretokenizer ▸ Retokenizer.trusted_setLanguage h id d.buffer.source
  rcases d.retokenizer.setLanguage_cases id d.buffer.source with
    ⟨-, -, he⟩ | ⟨e, -, he⟩ | ⟨scanner, -, -, he⟩
  · rw [he] at hretokenizer
    exact Or.inl ⟨hbuffer, hretokenizer ▸ .refl _, by rw [hretokenizer]⟩
  · rw [he] at hretokenizer
    exact Or.inl ⟨hbuffer, hretokenizer ▸ .refl _, by rw [hretokenizer]⟩
  · refine Or.inr ⟨hbuffer, htrusted, ?_⟩
    rw [hretokenizer, he, Retokenizer.rebuild_of_quiet d.buffer.quiet_source]
    exact Retokenizer.inStep_adopt d.buffer.texts_source_ne_nil

theorem refreshes_verify (d : Document) : d.Refreshes d.verify.2 where
  buffer_eq := rfl
  trusted h := h.of_sameLanguage (Retokenizer.sameLanguage_verify _ _)
  inStep := by
    obtain ⟨well, -, hstep⟩ := Retokenizer.verify_of_quiet (r := d.retokenizer) d.buffer.quiet_source
      d.buffer.texts_source_ne_nil
    exact hstep

/-- **What a step can do**: it changes the text, or keeps the states, or builds them anew. -/
theorem perform_cases (d : Document) (now : Nat) (op : Op) :
    (∃ c, op = .change c) ∨ d.Keeps (d.perform now op) ∨ d.Refreshes (d.perform now op) := by
  cases op with
  | change c => exact Or.inl ⟨c, rfl⟩
  | setLanguage id => exact Or.inr (d.setLanguage_cases id now)
  | verify => exact Or.inr (Or.inr d.refreshes_verify)
  | detectFolds => exact Or.inr (Or.inl d.keeps_detectFolds)
  | takeDamage => exact Or.inr (Or.inl ⟨rfl, ⟨rfl, rfl, rfl, rfl⟩, rfl⟩)
  | withFolds f => exact Or.inr (Or.inl ⟨rfl, ⟨rfl, rfl, rfl, rfl⟩, rfl⟩)
  | ask question => exact Or.inr (Or.inl ⟨rfl, ⟨rfl, rfl, rfl, rfl⟩, rfl⟩)
  | registerParser parser => exact Or.inr (Or.inl ⟨rfl, ⟨rfl, rfl, rfl, rfl⟩, rfl⟩)
  | pollParsers => exact Or.inr (Or.inl ⟨rfl, ⟨rfl, rfl, rfl, rfl⟩, rfl⟩)
  | runParsers => exact Or.inr (Or.inl ⟨rfl, ⟨rfl, rfl, rfl, rfl⟩, rfl⟩)

theorem change_cases (d : Document) (now : Nat) (c : Buffer.Change) :
    (∃ start stop, c = .remove start stop ∧ (d.buffer.remove start stop).2.length = 0 ∧
      (d.change now c).2 = d) ∨
      ((d.change now c).2.buffer = (d.buffer.change c).1 ∧
        (d.change now c).2.retokenizer =
          (d.retokenizer.onEdit (d.buffer.change c).1.source (d.buffer.change c).2).2 ∧
        (d.change now c).1 =
          (d.retokenizer.onEdit (d.buffer.change c).1.source (d.buffer.change c).2).1) := by
  cases c with
  | insert offset inserted => exact Or.inr ⟨rfl, rfl, rfl⟩
  | remove start stop =>
    simp only [change, remove, Buffer.change]
    split_ifs with hempty
    · exact Or.inl ⟨start, stop, rfl, hempty, rfl⟩
    · exact Or.inr ⟨rfl, rfl, rfl⟩

theorem buffer_change (d : Document) (now : Nat) (c : Buffer.Change) :
    (d.change now c).2.buffer = (d.buffer.change c).1 := by
  rcases d.change_cases now c with ⟨start, stop, rfl, hempty, he⟩ | ⟨hbuffer, -, -⟩
  · rw [he]
    exact (Buffer.remove_of_length_eq_zero hempty).1.symm
  · exact hbuffer

/-! ### Steps -/

section Perform
variable {d : Document} {now : Nat} {op : Op}

theorem trusted_perform (h : d.retokenizer.Trusted) (now : Nat) (op : Op) :
    (d.perform now op).retokenizer.Trusted := by
  rcases d.perform_cases now op with ⟨c, rfl⟩ | hkeeps | hrefreshes
  · show (d.change now c).2.retokenizer.Trusted
    rcases d.change_cases now c with ⟨start, stop, -, -, he⟩ | ⟨-, he, -⟩
    · rw [he]; exact h
    · rw [he]; exact h.of_sameLanguage (Retokenizer.sameLanguage_onEdit _ _ _)
  · exact h.of_sameLanguage hkeeps.language
  · exact hrefreshes.trusted h

/-- **A step keeps the states in step with the text, unless it blinds the document.** -/
theorem inStep_perform (h : d.retokenizer.InStep d.buffer.source) (hb : ¬ d.Blinds op) :
    (d.perform now op).retokenizer.InStep (d.perform now op).buffer.source := by
  rcases d.perform_cases now op with ⟨c, rfl⟩ | hkeeps | hrefreshes
  · show (d.change now c).2.retokenizer.InStep (d.change now c).2.buffer.source
    rcases d.change_cases now c with ⟨start, stop, -, -, he⟩ | ⟨hbuffer, he, -⟩
    · rw [he]; exact h
    rw [hbuffer, he]
    have hq := (d.buffer.change c).1.quiet_source
    rcases d.buffer.change_matches_or_tears c with hm | htears
    · obtain ⟨damage, r, hedit, hstep⟩ := Retokenizer.inStep_onEdit hm (Or.inr h) hq
      rw [hedit]; exact hstep
    cases hs : d.retokenizer.stale with
    | true =>
      rw [Retokenizer.onEdit_of_stale hs, Retokenizer.rebuild_of_quiet hq]
      exact Retokenizer.inStep_adopt (Buffer.texts_source_ne_nil _)
    | false =>
      rw [Retokenizer.inStep_onEdit_of_tearsPair_iff h hs htears]
      by_contra hdiffer
      exact hb ⟨hs, htears, hdiffer⟩
  · unfold Retokenizer.InStep
    rw [hkeeps.buffer_eq, hkeeps.states_eq, hkeeps.language.expectedStates_eq]
    exact h
  · rw [hrefreshes.buffer_eq]
    exact hrefreshes.inStep

/-- After a step that blinds the document, the states are no longer in step. -/
theorem not_inStep_perform (h : d.retokenizer.InStep d.buffer.source) (hb : d.Blinds op) :
    ¬ (d.perform now op).retokenizer.InStep (d.perform now op).buffer.source := by
  cases op with
  | change c =>
    obtain ⟨hs, htears, hdiffer⟩ := hb
    show ¬ (d.change now c).2.retokenizer.InStep (d.change now c).2.buffer.source
    rcases d.change_cases now c with ⟨start, stop, rfl, hempty, -⟩ | ⟨hbuffer, he, -⟩
    · obtain ⟨-, -, -, -, -, -, -, -, hlength, -, -⟩ := htears.report
      exact absurd hempty hlength
    · rw [hbuffer, he, Retokenizer.inStep_onEdit_of_tearsPair_iff h hs htears]
      exact hdiffer
  | _ => exact hb.elim

theorem inStep_iff (h : d.retokenizer.Trusted) :
    d.InStep ↔ d.retokenizer.InStep d.buffer.source := by
  have hq := d.buffer.quiet_source
  refine ⟨fun hd => (Retokenizer.inStep_iff hq).mpr hd.states, fun hstep => ?_⟩
  refine ⟨(Retokenizer.inStep_iff hq).mp hstep, fun line hline => ?_⟩
  exact hstep.endState_lineTokens h.scanner (by rwa [d.buffer.lineCount_source])

end Perform

/-! ### Runs -/

/-- **A run of which no step blinds the document keeps the states in step.** -/
theorem inStep_run {d : Document} (h : d.retokenizer.InStep d.buffer.source) (steps : List (Nat × Op))
    (hb : ∀ done now op rest, steps = done ++ (now, op) :: rest → ¬ (d.run done).Blinds op) :
    (d.run steps).retokenizer.InStep (d.run steps).buffer.source := by
  induction steps using List.reverseRecOn with
  | nil => exact h
  | append_singleton steps step ih =>
    obtain ⟨now, op⟩ := step
    rw [run_concat]
    refine inStep_perform (ih fun done now' op' rest he => hb done now' op' (rest ++ [(now, op)]) ?_) ?_
    · rw [he, List.append_assoc, List.cons_append]
    · exact hb steps now op [] rfl

theorem no_return_perform {d : Document} {op : Op} (h : '\r' ∉ d.buffer.text) (now : Nat)
    (hop : op.BringsNoReturn) : '\r' ∉ (d.perform now op).buffer.text := by
  rcases d.perform_cases now op with ⟨c, rfl⟩ | hkeeps | hrefreshes
  · show '\r' ∉ (d.change now c).2.buffer.text
    rw [buffer_change]
    exact Buffer.no_return_change h hop
  · rwa [hkeeps.buffer_eq]
  · rwa [hrefreshes.buffer_eq]

theorem no_return_run {d : Document} (h : '\r' ∉ d.buffer.text) (steps : List (Nat × Op))
    (hs : ∀ step ∈ steps, step.2.BringsNoReturn) : '\r' ∉ (d.run steps).buffer.text := by
  induction steps using List.reverseRecOn with
  | nil => exact h
  | append_singleton steps step ih =>
    rw [run_concat]
    exact no_return_perform (ih fun s hmem => hs s (by simp [hmem])) _ (hs step (by simp))

/-- **Without carriage returns nothing is missed**: there is no pair that a change could tear. -/
theorem inStep_run_of_no_return {d : Document} (h : d.retokenizer.InStep d.buffer.source)
    (hr : '\r' ∉ d.buffer.text) (steps : List (Nat × Op))
    (hs : ∀ step ∈ steps, step.2.BringsNoReturn) :
    (d.run steps).retokenizer.InStep (d.run steps).buffer.source := by
  refine inStep_run h steps fun done now op rest he hblind => ?_
  have hdone := no_return_run hr done fun s hmem => hs s (by rw [he]; simp [hmem])
  cases op with
  | change c => exact Buffer.not_tearsPairBy hdone hblind.2.1
  | _ => exact hblind.elim

theorem trusted_run {d : Document} (h : d.retokenizer.Trusted) (steps : List (Nat × Op)) :
    (d.run steps).retokenizer.Trusted := by
  induction steps using List.reverseRecOn with
  | nil => exact h
  | append_singleton steps step ih =>
    rw [run_concat]
    exact trusted_perform ih _ _

theorem settings_perform (d : Document) (now : Nat) (op : Op) :
    (d.perform now op).retokenizer.settings = d.retokenizer.settings := by
  cases op with
  | change c =>
    show (d.change now c).2.retokenizer.settings = _
    rcases d.change_cases now c with ⟨start, stop, -, -, he⟩ | ⟨-, he, -⟩
    · rw [he]
    · rw [he]
      exact (Retokenizer.sameLanguage_onEdit _ _ _).settings_eq
  | setLanguage id =>
    show (d.setLanguage id now).2.retokenizer.settings = _
    rw [retokenizer_setLanguage]
    exact Retokenizer.settings_setLanguage _ _ _
  | verify => exact (Retokenizer.sameLanguage_verify _ _).settings_eq
  | detectFolds => exact d.keeps_detectFolds.language.settings_eq
  | takeDamage => rfl
  | withFolds f => rfl
  | ask question => rfl
  | registerParser parser => rfl
  | pollParsers => rfl
  | runParsers => rfl

theorem settings_run (d : Document) (steps : List (Nat × Op)) :
    (d.run steps).retokenizer.settings = d.retokenizer.settings := by
  induction steps using List.reverseRecOn with
  | nil => rfl
  | append_singleton steps step ih =>
    rw [run_concat, settings_perform, ih]

/-! ### New documents -/

section OfBuffer
variable (buffer : Buffer) (filePath : Option String) (settings : Settings)

/-- A new document has gone through a pass over its whole text, in a built-in language. -/
theorem ofBuffer_cases :
    (ofBuffer buffer filePath settings).buffer = buffer ∧
      ∃ r : Retokenizer, (∃ l : Language, l.scanner = r.scanner) ∧ r.registry = .builtin ∧
        (ofBuffer buffer filePath settings).retokenizer = (r.rebuild buffer.source).2 := by
  refine ⟨rfl, ?_⟩
  have hlanguage := Retokenizer.exists_language_ofSettings settings
  have hrebuild (r : Retokenizer) :
      (r.rebuild buffer.source).1 = .ok () :=
    congrArg Prod.fst (Retokenizer.rebuild_of_quiet buffer.quiet_source)
  simp only [ofBuffer]
  generalize (Option.map Language.id _).getD settings.defaultLanguage = id
  split_ifs with hid
  · exact ⟨_, hlanguage, rfl, by simp only [hrebuild]⟩
  · rcases Retokenizer.setLanguage_cases (.ofSettings settings) _ buffer.source with
      ⟨he, -, -⟩ | ⟨e, -, he⟩ | ⟨scanner, hget, -, he⟩
    · exact absurd he hid
    · exact ⟨_, hlanguage, rfl, by simp only [he]⟩
    · exact ⟨{ Retokenizer.ofSettings settings with languageId := id, scanner := scanner },
        Retokenizer.exists_language_of_get hget, rfl, by simp only [he, hrebuild]⟩

theorem trusted_ofBuffer : (ofBuffer buffer filePath settings).retokenizer.Trusted := by
  obtain ⟨-, r, ⟨l, hl⟩, hregistry, he⟩ := ofBuffer_cases buffer filePath settings
  have hr : r.Trusted := ⟨hl ▸ l.scanner_lawful, hregistry ▸ Retokenizer.lawful_builtin⟩
  rw [he]
  exact hr.of_sameLanguage (r.sameLanguage_rebuild _)

theorem inStep_ofBuffer : (ofBuffer buffer filePath settings).retokenizer.InStep
    (ofBuffer buffer filePath settings).buffer.source := by
  obtain ⟨hbuffer, r, -, -, he⟩ := ofBuffer_cases buffer filePath settings
  rw [he, hbuffer, Retokenizer.rebuild_of_quiet buffer.quiet_source]
  exact Retokenizer.inStep_adopt buffer.texts_source_ne_nil

theorem settings_ofBuffer :
    (ofBuffer buffer filePath settings).retokenizer.settings = settings := by
  have hrebuild (r : Retokenizer) : (r.rebuild buffer.source).2.settings = r.settings :=
    (r.sameLanguage_rebuild buffer.source).settings_eq
  simp only [ofBuffer]
  split_ifs
  · split
    · exact hrebuild _
    · rw [hrebuild, hrebuild]
      rfl
  · split
    · exact Retokenizer.settings_setLanguage _ _ _
    · rw [hrebuild]
      exact Retokenizer.settings_setLanguage _ _ _

end OfBuffer

/-- **A document stays in step through a run just if no step of it blinds the document**, whatever its
text, its file and its settings. -/
theorem inStep_run_iff (buffer : Buffer) (filePath : Option String) (settings : Settings)
    (steps : List (Nat × Op)) :
    (∀ done rest, steps = done ++ rest → ((ofBuffer buffer filePath settings).run done).InStep) ↔
      ∀ done now op rest, steps = done ++ (now, op) :: rest →
        ¬ ((ofBuffer buffer filePath settings).run done).Blinds op := by
  have htrusted (done : List (Nat × Op)) :=
    trusted_run (trusted_ofBuffer buffer filePath settings) done
  constructor
  · intro h done now op rest he hblind
    have hbefore := (inStep_iff (htrusted done)).mp (h done _ he)
    have hafter := h (done ++ [(now, op)]) rest (by rw [he, List.append_assoc]; rfl)
    rw [inStep_iff (htrusted _), run_concat] at hafter
    exact not_inStep_perform hbefore hblind hafter
  · intro h done rest he
    refine (inStep_iff (htrusted done)).mpr
      (inStep_run (inStep_ofBuffer buffer filePath settings) done fun done' now op rest' he' => ?_)
    exact h done' now op (rest' ++ rest) (by rw [he, he', List.append_assoc]; rfl)

/-- A comment starts behind a torn pair: with the feed, its opening goes, and the line that it stood on
is still taken to leave a comment open. -/
theorem not_inStep_torn_pair :
    ¬ ((ofString "a\r\n/*b\nc" { defaultLanguage := "text/java" }).run
      [(0, .change (.remove 2 5))]).InStep := fun h =>
  absurd h.states (by decide +kernel)

end Document

end Linewise
