import Linewise.Proofs.UnfailingEdits

/-!
# Documents that differ in their links

Two settings say what is done with tokens once the scanner has made them: whether links are marked, and whether
the tokens are checked. The states do not depend on either: every operation of the retokenizer does the same
with other settings (`Retokenizer.withSettings`), as long as the scan limit is the same. The tokens of a line do
depend on them, but they say the same of each character (`Document.Alike.exists_tokens`), and brackets and folds
ask for no more.

* `Document.alike_run`: documents that differ in these settings stay alike through all that does nothing but
  read beside what it is for.
* `Document.sameViews_run`: **what is reported of damage, the states, the folds and the matches are the same
  with and without links and checks**, and so is what the tokens say of each character.
-/

namespace Linewise

namespace Retokenizer

/-! ### Other settings -/

/-- The retokenizer with other settings. -/
def withSettings (r : Retokenizer) (settings : Settings) : Retokenizer := { r with settings := settings }

section Fields
variable (r : Retokenizer) (settings : Settings)

@[simp] theorem states_withSettings : (r.withSettings settings).states = r.states := rfl

@[simp] theorem stale_withSettings : (r.withSettings settings).stale = r.stale := rfl

end Fields

section WithSettings
variable {r : Retokenizer} {settings : Settings} (hlimit : settings.scanLimit = r.settings.scanLimit)
include hlimit

theorem fullPass_withSettings (source : Source) :
    (r.withSettings settings).fullPass source = r.fullPass source := by
  have hexpected : (r.withSettings settings).expectedStates source.texts = r.expectedStates source.texts := by
    simp only [expectedStates, withSettings, hlimit]
  rw [fullPass, hexpected, fullPass]

theorem rebuild_withSettings (source : Source) :
    (r.withSettings settings).rebuild source = (r.rebuild source).map id (·.withSettings settings) := by
  rw [rebuild, fullPass_withSettings hlimit, rebuild]
  cases r.fullPass source <;> rfl

theorem setLanguage_withSettings (id' : String) (source : Source) :
    (r.withSettings settings).setLanguage id' source =
      (r.setLanguage id' source).map id (·.withSettings settings) := by
  unfold setLanguage
  by_cases hsame : r.languageId = id' ∧ !r.stale
  · rw [if_pos hsame]
    exact if_pos hsame
  · rw [if_neg hsame]
    refine Eq.trans (if_neg hsame) ?_
    have hget : (r.withSettings settings).registry.get id' = r.registry.get id' := rfl
    rw [hget]
    cases r.registry.get id' with
    | error e => rfl
    | ok scanner => exact rebuild_withSettings (r := { r with languageId := id', scanner := scanner }) hlimit source

theorem verify_withSettings (source : Source) :
    (r.withSettings settings).verify source = (r.verify source).map id (·.withSettings settings) := by
  rw [verify, fullPass_withSettings hlimit, verify]
  cases r.fullPass source with
  | error e => rfl
  | ok states =>
    by_cases hwell : states = r.states.entries ∧ !r.stale
    · refine Eq.trans (if_pos hwell) ?_
      dsimp only
      rw [if_pos hwell]
      rfl
    · refine Eq.trans (if_neg hwell) ?_
      dsimp only
      rw [if_neg hwell]
      rfl

theorem relex_withSettings (source : Source) (first : Nat) :
    (r.withSettings settings).relex source first = r.relex source first := by
  funext line before
  simp only [relex, withSettings, hlimit]

theorem applyEdit_withSettings (source : Source) (e : Edit) :
    (r.withSettings settings).applyEdit source e = (r.applyEdit source e).map id (·.withSettings settings) := by
  unfold applyEdit
  rw [states_withSettings]
  rcases shiftStates r.states e with ⟨x | _, states⟩
  · rfl
  · have hrelex : { r.withSettings settings with states := states }.relex source e.startLine =
        { r with states := states }.relex source e.startLine :=
      relex_withSettings (r := { r with states := states }) hlimit source e.startLine
    dsimp only
    rw [hrelex]
    split_ifs <;> rfl

theorem onEdit_withSettings (source : Source) (e : Edit) :
    (r.withSettings settings).onEdit source e = (r.onEdit source e).map id (·.withSettings settings) := by
  have hrebuild {r' : Retokenizer} (hr' : settings.scanLimit = r'.settings.scanLimit) :
      (Except.map (fun _ => allLines source) ((r'.withSettings settings).rebuild source).1,
        ((r'.withSettings settings).rebuild source).2) =
      Prod.map id (·.withSettings settings)
        (Except.map (fun _ => allLines source) (r'.rebuild source).1, (r'.rebuild source).2) := by
    rw [rebuild_withSettings hr']
    rfl
  unfold onEdit
  dsimp only
  rw [stale_withSettings, applyEdit_withSettings hlimit]
  split_ifs
  · exact hrebuild hlimit
  · rcases happly : r.applyEdit source e with ⟨x | damage, r'⟩
    · have hsettings := (r.sameLanguage_applyEdit source e).settings_eq
      rw [happly] at hsettings
      have hlimit' : settings.scanLimit = r'.settings.scanLimit := by rw [hsettings, hlimit]
      cases x with
      | lineOutOfRange line lineCount => exact @hrebuild { r' with repairs := r'.repairs + 1 } hlimit'
      | malformedTokens line reason => exact @hrebuild { r' with repairs := r'.repairs + 1 } hlimit'
      | bufferChanged expected found => rfl
      | unknownLanguage id => rfl
      | configuration => rfl
      | unreadableFile => rfl
    · rfl

end WithSettings

/-- **Retokenizers that differ in their settings**, but not in the scan limit. -/
def Alike (r r' : Retokenizer) : Prop :=
  ∃ settings, settings.scanLimit = r.settings.scanLimit ∧ r' = r.withSettings settings

section Alike
variable {r r' : Retokenizer} (h : r.Alike r') (source : Source)
include h

theorem Alike.rebuild : (r'.rebuild source).1 = (r.rebuild source).1 ∧
    (r.rebuild source).2.Alike (r'.rebuild source).2 := by
  obtain ⟨settings, hlimit, rfl⟩ := h
  rw [rebuild_withSettings hlimit]
  exact ⟨rfl, settings, by rw [(r.sameLanguage_rebuild source).settings_eq, hlimit], rfl⟩

theorem Alike.setLanguage (id' : String) : (r'.setLanguage id' source).1 = (r.setLanguage id' source).1 ∧
    (r.setLanguage id' source).2.Alike (r'.setLanguage id' source).2 := by
  obtain ⟨settings, hlimit, rfl⟩ := h
  rw [setLanguage_withSettings hlimit]
  exact ⟨rfl, settings, by rw [settings_setLanguage, hlimit], rfl⟩

theorem Alike.verify : (r.verify source).2.Alike (r'.verify source).2 := by
  obtain ⟨settings, hlimit, rfl⟩ := h
  rw [verify_withSettings hlimit]
  exact ⟨settings, by rw [(sameLanguage_verify r source).settings_eq, hlimit], rfl⟩

theorem Alike.onEdit (e : Edit) : (r'.onEdit source e).1 = (r.onEdit source e).1 ∧
    (r.onEdit source e).2.Alike (r'.onEdit source e).2 := by
  obtain ⟨settings, hlimit, rfl⟩ := h
  rw [onEdit_withSettings hlimit]
  exact ⟨rfl, settings, by rw [(r.sameLanguage_onEdit source e).settings_eq, hlimit], rfl⟩

theorem Alike.takeDamage : r'.takeDamage.1 = r.takeDamage.1 ∧ r.takeDamage.2.Alike r'.takeDamage.2 := by
  obtain ⟨settings, hlimit, rfl⟩ := h
  exact ⟨rfl, settings, hlimit, rfl⟩

theorem Alike.scanned?_eq (line : Nat) : r'.scanned? source line = r.scanned? source line := by
  obtain ⟨settings, hlimit, rfl⟩ := h
  simp only [scanned?, withSettings, hlimit]

end Alike

/-- Links change nothing of what tokens say of their characters. -/
theorem labelAt?_withLinks {text : List Char} {start : UInt64} {scanned : Token.Sequence}
    (h : scanned.Tiles start text.length) (r : Retokenizer) (column : Nat) :
    (r.withLinks text scanned).labelAt? column = scanned.labelAt? column := by
  unfold withLinks
  split_ifs
  · exact Hyperlink.labelAt?_mark text h column
  · rfl

end Retokenizer

namespace Document

/-! ### Documents alike -/

/-- **Documents that differ in what is done with tokens that have been made**, if at all, and in what came of
parsers. -/
structure Alike (d d' : Document) : Prop where
  buffer_eq : d'.buffer = d.buffer
  folds_eq : d'.folds = d.folds
  retokenizer : d.retokenizer.Alike d'.retokenizer

section Alike
variable {d d' : Document}

/-- **A line has tokens in both**, which tile it and say the same of each character. -/
theorem Alike.exists_tokens (h : d.Alike d') (hd : d.Readable) (hd' : d'.Readable) {line : Nat} {l : SourceLine}
    (hl : d.buffer.source.line? line = some l) :
    ∃ tokens tokens', d.retokenizer.lineTokens d.buffer.source line = .ok (tokens, false) ∧
      d'.retokenizer.lineTokens d'.buffer.source line = .ok (tokens', false) ∧
      tokens.Tiles (.ofNat l.start) l.text.length ∧ tokens'.Tiles (.ofNat l.start) l.text.length ∧
      ∀ column, tokens.labelAt? column = tokens'.labelAt? column := by
  have hl' : d'.buffer.source.line? line = some l := by rwa [h.buffer_eq]
  obtain ⟨scanned, hscanned, htiles, -, hline⟩ := hd.builtIn.exists_scanned hl (hd.le_states hl)
  obtain ⟨scanned', hscanned', -, -, hline'⟩ := hd'.builtIn.exists_scanned hl' (hd'.le_states hl')
  rw [h.buffer_eq, h.retokenizer.scanned?_eq, hscanned] at hscanned'
  obtain rfl := Option.some.inj hscanned'
  refine ⟨_, _, hline, hline', (Retokenizer.finishTokens_of_tiles htiles _).2,
    (Retokenizer.finishTokens_of_tiles htiles _).2, fun column => ?_⟩
  rw [Retokenizer.labelAt?_withLinks htiles, Retokenizer.labelAt?_withLinks htiles]

theorem Alike.kindAt?_eq (h : d.Alike d') (hd : d.Readable) (hd' : d'.Readable) : d'.kindAt? = d.kindAt? := by
  funext offset
  obtain ⟨l, hl, -⟩ := d.buffer.exists_line_source offset
  obtain ⟨tokens, tokens', hline, hline', -, -, hlabels⟩ := h.exists_tokens hd hd' hl
  rw [Buffer.lineOf_eq] at hline hline'
  simp only [kindAt?, h.buffer_eq]
  rw [kindOn?_eq_of_tokens hline, kindOn?_eq_of_tokens hline', hlabels]

theorem Alike.folds_detectFolds (h : d.Alike d') (hd : d.Readable) (hd' : d'.Readable) :
    d'.detectFolds.2.folds = d.detectFolds.2.folds := by
  obtain ⟨settings, hlimit, hr⟩ := h.retokenizer
  have hscanner : d'.retokenizer.scanner.usesBraces = d.retokenizer.scanner.usesBraces := by rw [hr]; rfl
  cases hbraces : d.retokenizer.scanner.usesBraces with
  | false =>
    rw [hbraces] at hscanner
    rw [detectFolds_of_no_braces hbraces, detectFolds_of_no_braces hscanner]
  | true =>
    rw [hbraces] at hscanner
    rw [hd.detectFolds_eq hbraces, hd'.detectFolds_eq hscanner]
    -- The regions depend on the braces of all lines in a row, and these on the kinds of their offsets.
    obtain ⟨-, -, hlines⟩ := hd.flatMap_braces
    obtain ⟨-, -, hlines'⟩ := hd'.flatMap_braces
    rw [h.buffer_eq, h.kindAt?_eq hd hd', ← hlines] at hlines'
    simp only [Folds.ofBraces_eq, h.buffer_eq, hlines', h.folds_eq]

end Alike

/-! ### Steps -/

/-- What is learnt of damage. -/
inductive DamageReport where
  /-- A change says what may look different. -/
  | changed (answer : Except Failure Damage)
  /-- What has gathered is handed out. -/
  | taken (damage : Option Damage)

/-- What a step reports of damage. -/
def report? (d : Document) (now : Nat) : Op → Option DamageReport
  | .change c => some (.changed (d.change now c).1)
  | .takeDamage => some (.taken d.takeDamage.1)
  | _ => none

/-- What the steps of a run report of damage, one after the other. -/
def reports (d : Document) : List (Nat × Op) → List DamageReport
  | [] => []
  | (now, op) :: steps => (d.report? now op).toList ++ (d.perform now op).reports steps

section Steps
variable {d d' : Document} {now : Nat}

theorem Alike.change (h : d.Alike d') (now : Nat) (c : Buffer.Change) :
    (d'.change now c).1 = (d.change now c).1 ∧ (d.change now c).2.Alike (d'.change now c).2 := by
  cases c with
  | insert offset inserted =>
    obtain ⟨hanswer, hr⟩ := h.retokenizer.onEdit (d.buffer.insert offset inserted).1.source
      (d.buffer.insert offset inserted).2
    simp only [Document.change, insert, afterEdit, h.buffer_eq, h.folds_eq]
    exact ⟨hanswer, rfl, rfl, hr⟩
  | remove start stop =>
    obtain ⟨hanswer, hr⟩ := h.retokenizer.onEdit (d.buffer.remove start stop).1.source
      (d.buffer.remove start stop).2
    simp only [Document.change, remove, afterEdit, h.buffer_eq, h.folds_eq]
    split_ifs
    · exact ⟨rfl, h⟩
    · exact ⟨hanswer, rfl, rfl, hr⟩

theorem Alike.setLanguage (h : d.Alike d') (id : String) (now : Nat) :
    (d.setLanguage id now).2.Alike (d'.setLanguage id now).2 := by
  obtain ⟨hanswer, hr⟩ := h.retokenizer.setLanguage d.buffer.source id
  simp only [Document.setLanguage, h.buffer_eq, hanswer]
  cases (d.retokenizer.setLanguage id d.buffer.source).1 with
  | error e => exact ⟨rfl, h.folds_eq, hr⟩
  | ok _ => exact ⟨rfl, h.folds_eq, hr⟩

/-- **A step reports the same of both, and leaves them alike.** -/
theorem Alike.perform (h : d.Alike d') (hd : d.Undisturbed) (hd' : d'.Undisturbed) (now : Nat) {op : Op}
    (hop : op.OnlyReads) :
    d'.report? now op = d.report? now op ∧ (d.perform now op).Alike (d'.perform now op) := by
  cases op with
  | change c =>
    obtain ⟨hanswer, halike⟩ := h.change now c
    exact ⟨by rw [report?, report?, hanswer], halike⟩
  | setLanguage id => exact ⟨rfl, h.setLanguage id now⟩
  | verify =>
    refine ⟨rfl, h.buffer_eq, h.folds_eq, ?_⟩
    show (d.retokenizer.verify d.buffer.source).2.Alike (d'.retokenizer.verify d'.buffer.source).2
    rw [h.buffer_eq]
    exact h.retokenizer.verify d.buffer.source
  | takeDamage =>
    obtain ⟨hdamage, hr⟩ := h.retokenizer.takeDamage
    exact ⟨congrArg (fun damage => some (DamageReport.taken damage)) hdamage, h.buffer_eq, h.folds_eq, hr⟩
  | detectFolds =>
    refine ⟨rfl, h.buffer_eq, h.folds_detectFolds hd.readable hd'.readable, ?_⟩
    show d.detectFolds.2.retokenizer.Alike d'.detectFolds.2.retokenizer
    rw [hd.readable.retokenizer_detectFolds, hd'.readable.retokenizer_detectFolds]
    exact h.retokenizer
  | withFolds f => exact ⟨rfl, h.buffer_eq, congrArg f h.folds_eq, h.retokenizer⟩
  | ask question =>
    -- The answers may differ, as tokens say which of them are links, but neither document is touched.
    obtain ⟨result, hresult⟩ := hd.readable.exists_reading (hop d)
    obtain ⟨result', hresult'⟩ := hd'.readable.exists_reading (hop d')
    refine ⟨rfl, ?_⟩
    show (d.reading (question d)).2.Alike (d'.reading (question d')).2
    rw [hresult, hresult']
    exact h
  | registerParser parser => exact ⟨rfl, h.buffer_eq, h.folds_eq, h.retokenizer⟩
  | pollParsers =>
    refine ⟨rfl, h.buffer_eq, h.folds_eq, ?_⟩
    show (d.pollParsers now).2.retokenizer.Alike (d'.pollParsers now).2.retokenizer
    rw [hd.readable.retokenizer_pollParsers hd.parsers, hd'.readable.retokenizer_pollParsers hd'.parsers]
    exact h.retokenizer
  | runParsers =>
    refine ⟨rfl, h.buffer_eq, h.folds_eq, ?_⟩
    show d.runParsers.2.retokenizer.Alike d'.runParsers.2.retokenizer
    rw [hd.readable.retokenizer_runParsers hd.parsers, hd'.readable.retokenizer_runParsers hd'.parsers]
    exact h.retokenizer

/-- **A run reports the same of both, and leaves them alike.** -/
theorem alike_run (h : d.Alike d') (hd : d.Undisturbed) (hd' : d'.Undisturbed) {steps : List (Nat × Op)}
    (hsteps : ∀ step ∈ steps, step.2.OnlyReads) :
    d'.reports steps = d.reports steps ∧ (d.run steps).Alike (d'.run steps) := by
  induction steps generalizing d d' with
  | nil => exact ⟨rfl, h⟩
  | cons step steps ih =>
    obtain ⟨now, op⟩ := step
    rw [List.forall_mem_cons] at hsteps
    obtain ⟨hreport, halike⟩ := h.perform hd hd' now hsteps.1
    obtain ⟨hreports, hrun⟩ := ih halike (undisturbed_perform hd now hsteps.1)
      (undisturbed_perform hd' now hsteps.1) hsteps.2
    refine ⟨?_, hrun⟩
    rw [reports, reports, hreport, hreports]

theorem alike_ofBuffer (buffer : Buffer) (filePath : Option String) {settings settings' : Settings}
    (hlimit : settings'.scanLimit = settings.scanLimit)
    (hdefault : settings'.defaultLanguage = settings.defaultLanguage) :
    (ofBuffer buffer filePath settings).Alike (ofBuffer buffer filePath settings') where
  buffer_eq := rfl
  folds_eq := rfl
  retokenizer := by
    have hfresh : (Retokenizer.ofSettings settings).Alike (.ofSettings settings') := ⟨settings', hlimit, rfl⟩
    have hid : (Retokenizer.ofSettings settings').languageId = (Retokenizer.ofSettings settings).languageId := rfl
    simp only [ofBuffer, hdefault, hid]
    split_ifs
    · obtain ⟨hanswer, hr⟩ := hfresh.rebuild buffer.source
      rw [hanswer]
      split
      · exact hr
      · exact (hr.rebuild buffer.source).2
    · have hswitch := hfresh.setLanguage buffer.source
      rw [(hswitch _).1]
      split
      · exact (hswitch _).2
      · exact ((hswitch _).2.rebuild buffer.source).2

end Steps

/-! ### Views -/

/-- **The tokens of a line in two documents say the same.** In both they can be made, and asking for them leaves
the document as it is. They pass the check for the length of the line, and start at its offset, and what they
say of a character is the same in both. -/
def SameLabels (d d' : Document) (line : Nat) (l : SourceLine) : Prop :=
  ∃ tokens tokens', d.reading (d.tokens line) = (.ok tokens, d) ∧ d'.reading (d'.tokens line) = (.ok tokens', d') ∧
    (tokens.flaw? l.text.length = none ∧ tokens'.flaw? l.text.length = none) ∧
    (tokens.startOffset = .ofNat l.start ∧ tokens'.startOffset = .ofNat l.start) ∧
    ∀ column < l.text.length, ∃ label, tokens.labelAt? column = some label ∧ tokens'.labelAt? column = some label

/-- **An offset has the same match in two documents**, and so has a caret there. Asking for it leaves the
documents as they are. -/
def SameMatches (d d' : Document) (offset : Nat) : Prop :=
  (∃ found, d.reading (d.matcher.match? offset) = (.ok found, d) ∧
    d'.reading (d'.matcher.match? offset) = (.ok found, d')) ∧
  ∃ found, d.reading (d.matcher.matchNear? offset) = (.ok found, d) ∧
    d'.reading (d'.matcher.matchNear? offset) = (.ok found, d')

section Views
variable {d d' : Document}

theorem Alike.sameLabels (h : d.Alike d') (hd : d.Readable) (hd' : d'.Readable) {line : Nat} {l : SourceLine}
    (hl : d.buffer.source.line? line = some l) : d.SameLabels d' line l := by
  obtain ⟨tokens, tokens', hline, hline', htiles, htiles', hlabels⟩ := h.exists_tokens hd hd' hl
  refine ⟨tokens, tokens', reading_of_returns (Retokenizer.returns_readTokens hline),
    reading_of_returns (Retokenizer.returns_readTokens hline'), ⟨htiles.flaw?_eq_none, htiles'.flaw?_eq_none⟩,
    ⟨htiles.startOffset_eq, htiles'.startOffset_eq⟩, ?_⟩
  intro column hcolumn
  obtain ⟨label, hlabel⟩ := Option.isSome_iff_exists.mp (htiles.isSome_labelAt? hcolumn)
  exact ⟨label, hlabel, hlabels column ▸ hlabel⟩

theorem Alike.exists_match (h : d.Alike d') (hd : d.Readable) (hd' : d'.Readable)
    (hsize : d.buffer.length < UInt64.size) (offset : Nat) : ∃ found,
    Retokenizer.Returns (d.matcher.match? offset) found ∧ Retokenizer.Returns (d'.matcher.match? offset) found := by
  have hhidden : d'.matcher.isHidden = d.matcher.isHidden := by
    simp only [matcher, h.folds_eq]
  obtain ⟨found, hfound, hiff⟩ := (hd.reads_matcher hsize d.matcher.isHidden).returns_match? offset
  have hreads' := hd'.reads_matcher (h.buffer_eq ▸ hsize) d'.matcher.isHidden
  obtain ⟨found', hfound', hiff'⟩ := hreads'.returns_match? offset
  have hsame : found' = found := by
    refine Option.ext fun x => ?_
    rw [hiff, hiff', h.buffer_eq, h.kindAt?_eq hd hd']
    show _ ∧ _ ∧ d'.matcher.isHidden _ = false ↔ _ ∧ _ ∧ d.matcher.isHidden _ = false
    rw [hhidden]
  exact ⟨found, hfound, hsame ▸ hfound'⟩

theorem Alike.sameMatches (h : d.Alike d') (hd : d.Readable) (hd' : d'.Readable)
    (hsize : d.buffer.length < UInt64.size) (offset : Nat) : d.SameMatches d' offset := by
  obtain ⟨front, hfront, hfront'⟩ := h.exists_match hd hd' hsize (offset - 1)
  obtain ⟨back, hback, hback'⟩ := h.exists_match hd hd' hsize offset
  have hnear := BracketMatcher.returns_matchNear? hfront hback
  have hnear' := BracketMatcher.returns_matchNear? hfront' hback'
  exact ⟨⟨back, reading_of_returns hback, reading_of_returns hback'⟩,
    ⟨_, reading_of_returns hnear, reading_of_returns hnear'⟩⟩

end Views

/-- **Two documents show the same**: their lines have the same states and tokens that say the same, the same
regions are folded and would be found, and brackets match alike. The states of neither are stale. -/
structure SameViews (d d' : Document) : Prop where
  states : d'.retokenizer.states = d.retokenizer.states
  folds : d'.folds = d.folds
  found : d'.detectFolds.2.folds = d.detectFolds.2.folds
  fresh : d.retokenizer.stale = false ∧ d'.retokenizer.stale = false
  labels : ∀ line l, d.buffer.source.line? line = some l → d.SameLabels d' line l
  partners : d.buffer.length < UInt64.size → ∀ offset, d.SameMatches d' offset

/-- **What is done with tokens that have been made does not leak.** With and without links, with and without
checks, a run reports the same damage, and what comes of it shows the same, up to the links themselves. -/
theorem sameViews_run (buffer : Buffer) (filePath : Option String) (settings : Settings) (links validate : Bool)
    {steps : List (Nat × Op)} (hsteps : ∀ step ∈ steps, step.2.OnlyReads) :
    let d := ofBuffer buffer filePath settings
    let d' := ofBuffer buffer filePath { settings with detectLinks := links, validateTokens := validate }
    d'.reports steps = d.reports steps ∧ (d.run steps).SameViews (d'.run steps) := by
  intro d d'
  have hd : d.Undisturbed := undisturbed_ofBuffer _ _ _
  have hd' : d'.Undisturbed := undisturbed_ofBuffer _ _ _
  have halike : d.Alike d' := alike_ofBuffer buffer filePath rfl rfl
  obtain ⟨hreports, hrun⟩ := alike_run halike hd hd' hsteps
  have hafter := undisturbed_run hd hsteps
  have hafter' := undisturbed_run hd' hsteps
  refine ⟨hreports, ?_, hrun.folds_eq, hrun.folds_detectFolds hafter.readable hafter'.readable,
    ⟨hafter.fresh, hafter'.fresh⟩, ?_, hrun.sameMatches hafter.readable hafter'.readable⟩
  · obtain ⟨other, -, hr⟩ := hrun.retokenizer
    rw [hr, Retokenizer.states_withSettings]
  · intro line l hl
    exact hrun.sameLabels hafter.readable hafter'.readable hl

/-- A brace is typed in front of an address in a comment of Java, and a string is left open. Then brackets are
matched, and parsers run. -/
theorem sameViews_run_address :
    let settings : Settings := { defaultLanguage := "text/java" }
    let steps : List (Nat × Op) := [(0, .registerParser .tokenErrors), (0, .change (.insert 0 ['\x7b', '\n'])),
      (1, .detectFolds), (1, .ask fun d => d.matcher.match? 0 >>= fun _ => pure ()), (2, .runParsers),
      (3, .takeDamage)]
    (∀ step ∈ steps, step.2.OnlyReads) ∧
    let buffer := Buffer.ofString "// see http://a.b\n\x7d \x22www.c"
    let d := ofBuffer buffer none settings
    let d' := ofBuffer buffer none { settings with detectLinks := false, validateTokens := true }
    d'.reports steps = d.reports steps ∧ (d.run steps).SameViews (d'.run steps) := by
  intro settings steps
  have hask (d : Document) : Retokenizer.OnlyReads d.retokenizer d.buffer.source
      (d.matcher.match? 0 >>= fun _ => pure ()) :=
    (d.matcher.onlyReads_match? 0).bind fun _ => .answer ()
  have hsteps : ∀ step ∈ steps, step.2.OnlyReads := by
    simp only [steps, List.forall_mem_cons]
    exact ⟨BackgroundParser.onlyReads_tokenErrors, trivial, trivial, hask, trivial, trivial, nofun⟩
  exact ⟨hsteps, sameViews_run _ _ settings false true hsteps⟩

end Document

end Linewise
