import Linewise.Damage
import Linewise.Hyperlink
import Linewise.LineStates
import Linewise.Registry
import Linewise.Settings.Basic
import Linewise.Source

/-!
# The retokenizer

The retokenizer keeps the states of all lines in step with a text that is edited. It never stores
tokens: those of a line are made when asked for, from the line's text and the state behind the line
above (`lineTokens`). After an edit it shifts the states along with the lines and propagates from the
edited line (`onEdit`); the answer is the range of lines whose tokens may have changed.

Three things can go wrong, and each leads to a pass over the whole text. The states may not fit the
text, since an edit was not reported: then they are built anew at once, and the repair is counted. The
text may change while it is read: then the states are marked *stale* and built anew at the next edit. And
the tokens of a line may not tile it: then the line is shown as one error, and the states are stale.

An operation that can fail returns the retokenizer as well, since it keeps what it did before it failed.
-/

namespace Linewise

/-- The states of a text, and what is needed to keep them. -/
structure Retokenizer where
  /-- The languages that can be chosen. -/
  registry : Registry
  /-- The identifier of the language in use. -/
  languageId : String
  /-- The scanner of the language in use. -/
  scanner : Scanner
  /-- The state behind each line. -/
  states : LineStates
  settings : Settings
  /-- The lines to be drawn again that nobody has asked for yet. -/
  pending : Option Damage
  /-- Whether the states cannot be trusted. -/
  stale : Bool
  /-- Number of times that the states were built anew because they did not fit the text. -/
  repairs : Nat

namespace Retokenizer

/-- A retokenizer for plain text of one line, with the languages of a registry to choose from. -/
def ofRegistry (registry : Registry) (settings : Settings) : Retokenizer where
  registry := registry
  languageId := Language.plainText.id
  scanner := (registry.find? Language.plainText.id).getD Language.plainText.scanner
  states := .ofLineCount 1
  settings := settings
  pending := none
  stale := false
  repairs := 0

/-- A retokenizer for plain text of one line, with the built-in languages to choose from. -/
def ofSettings (settings : Settings) : Retokenizer := ofRegistry .builtin settings

/-- Adds to the damage that has not been asked for yet. -/
def addDamage (r : Retokenizer) (d : Damage) : Retokenizer :=
  { r with pending := some (match r.pending with
      | some p => p.union d
      | none => d) }

/-- Hands out the damage that has gathered, and forgets it. -/
def takeDamage (r : Retokenizer) : Option Damage × Retokenizer :=
  (r.pending, { r with pending := none })

/-! ### Passes over the whole text -/

/-- The states behind lines that follow each other, from the state in front of the first. -/
def statesFrom (scanner : Scanner) (limit : Nat) (before : LineState) :
    List (List Char) → List LineState
  | [] => []
  | line :: below =>
    let behind := scanner.stateAfterCapped line before limit
    behind :: statesFrom scanner limit behind below

/-- The states that a pass over the whole text finds. -/
def expectedStates (r : Retokenizer) (lines : List (List Char)) : List LineState :=
  statesFrom r.scanner r.settings.scanLimit .neutral lines

/-- Lexes the whole text, and fails if the text has changed meanwhile. -/
def fullPass (r : Retokenizer) (source : Source) : Except Failure (List LineState) :=
  let found := source.revisionAfter source.lineCount
  if found ≠ source.revisionAfter 0 then .error (.bufferChanged (source.revisionAfter 0) found)
  else .ok (r.expectedStates source.texts)

/-- Takes over states that a full pass has found: they can be trusted, and every line may look
different. -/
def adopt (r : Retokenizer) (states : List LineState) : Retokenizer :=
  { r with states := .ofList states, stale := false }.addDamage ⟨0, states.length - 1⟩

/-- Builds the states anew. -/
def rebuild (r : Retokenizer) (source : Source) : Except Failure Unit × Retokenizer :=
  match r.fullPass source with
  | .error e => (.error e, r)
  | .ok states => (.ok (), r.adopt states)

/-- Switches to another language and builds the states anew. -/
def setLanguage (r : Retokenizer) (id : String) (source : Source) :
    Except Failure Unit × Retokenizer :=
  if r.languageId = id ∧ !r.stale then (.ok (), r)
  else
    match r.registry.get id with
    | .error e => (.error e, r)
    | .ok scanner => { r with languageId := id, scanner := scanner }.rebuild source

/-- Compares the states with those of a full pass, and takes over the latter if they differ. The answer
is whether all was well. -/
def verify (r : Retokenizer) (source : Source) : Except Failure Bool × Retokenizer :=
  match r.fullPass source with
  | .error e => (.error e, r)
  | .ok states =>
    if states = r.states.entries ∧ !r.stale then (.ok true, r)
    else (.ok false, { r with repairs := r.repairs + 1 }.adopt states)

/-! ### Edits -/

/-- Every line of a source. -/
def allLines (source : Source) : Damage := ⟨0, source.lineCount - 1⟩

/-- Moves the states along with their lines: those of removed lines are dropped, and room is made for
those of added ones. If the second step fails, the first has been taken. The lines come and go behind the
edited one. If it has no state its number is taken as a 64-bit word, and behind the greatest of these
comes line 0. -/
def shiftStates (states : LineStates) (edit : Edit) : Except Failure Unit × LineStates :=
  let position :=
    if edit.startLine < states.length then edit.startLine + 1
    else (edit.startLine + 1) % UInt64.size
  let dropped := if edit.linesRemoved = 0 then .ok states
    else states.removeLines position edit.linesRemoved
  match dropped with
  | .error e => (.error e, states)
  | .ok states =>
    if edit.linesAdded = 0 then (.ok (), states)
    else
      match states.insertLines position edit.linesAdded with
      | .error e => (.error e, states)
      | .ok states => (.ok (), states)

/-- The last line that has to be lexed anew after an edit. When lines have come or gone, the line behind
the last changed one has to be too: the state remembered for it may belong to no line at all. -/
def touchThrough (edit : Edit) (lineCount : Nat) : Nat :=
  min (if edit.isSingleLine then edit.lastChangedLine else edit.lastChangedLine + 1) (lineCount - 1)

/-- How a line of a source is lexed anew in a pass that reads line after line from `first` on. -/
def relex (r : Retokenizer) (source : Source) (first : Nat) : LineStates.Relex :=
  fun line before =>
    match source.line? line with
    | none => .error (.lineOutOfRange line source.lineCount)
    | some l =>
      let found := source.revisionAfter (line + 1 - first)
      if found ≠ source.revisionAfter 0 then .error (.bufferChanged (source.revisionAfter 0) found)
      else .ok (r.scanner.stateAfterCapped l.text before r.settings.scanLimit)

/-- Brings the states in step with a text that has been edited, if they were in step before. -/
def applyEdit (r : Retokenizer) (source : Source) (edit : Edit) :
    Except Failure Damage × Retokenizer :=
  match shiftStates r.states edit with
  | (.error e, states) => (.error e, { r with states := states })
  | (.ok (), states) =>
    let r := { r with states := states }
    if states.length ≠ source.lineCount then
      (.error (.lineOutOfRange source.lineCount states.length), r)
    else
      let pass := states.propagate (r.relex source edit.startLine) edit.startLine
        (touchThrough edit source.lineCount)
      (pass.result.map fun p => ⟨p.first, p.last⟩, { r with states := pass.states })

/-- Brings the states in step with a text that has been edited. The answer is the range of lines whose
tokens may have changed, which also counts as damage. -/
def onEdit (r : Retokenizer) (source : Source) (edit : Edit) :
    Except Failure Damage × Retokenizer :=
  let rebuilt (r : Retokenizer) : Except Failure Damage × Retokenizer :=
    let (result, r) := r.rebuild source
    (result.map fun _ => allLines source, r)
  if r.stale then rebuilt r
  else
    match r.applyEdit source edit with
    | (.ok damage, r) => (.ok damage, r.addDamage damage)
    | (.error (.bufferChanged expected found), r) =>
      (.error (.bufferChanged expected found), { r with stale := true })
    | (.error e, r) =>
      if e.isRepairable then rebuilt { r with repairs := r.repairs + 1 } else (.error e, r)

/-! ### Tokens -/

/-- The tokens of a line with links marked, if the settings want that. -/
def withLinks (r : Retokenizer) (text : List Char) (scanned : Token.Sequence) : Token.Sequence :=
  if r.settings.detectLinks then (Hyperlink.mark text scanned).2 else scanned

/-- What the tokens that a scanner has made become: links are marked, and tokens that do not tile the
line give way to one error token. The second component says whether that happened. -/
def finishTokens (r : Retokenizer) (text : List Char) (start : UInt64) (scanned : Token.Sequence) :
    Token.Sequence × Bool :=
  let tokens := r.withLinks text scanned
  if r.settings.validateTokens && (tokens.flaw? text.length).isSome then
    let whole := (Token.Builder.empty start).push .errorWord 0 text.length
    (whole.finish text.length tokens.endState, true)
  else (tokens, false)

/-- Makes the tokens of a line. The second component says whether they do not tile the line, in which
case one error token stands for all of it. -/
def lineTokens (r : Retokenizer) (source : Source) (line : Nat) :
    Except Failure (Token.Sequence × Bool) :=
  match source.line? line with
  | none => .error (.lineOutOfRange line source.lineCount)
  | some l =>
    match r.states.before line with
    | .error e => .error e
    | .ok before =>
      let start := UInt64.ofNat l.start
      .ok (r.finishTokens l.text start
        (r.scanner.tokenizeCapped l.text before start r.settings.scanLimit))

/-- Reading tokens, one line after the other, with a note whether any did not tile their line. -/
abbrev Reader (α : Type) := ExceptT Failure (StateM Bool) α

/-- Reads the tokens of a line. -/
def readTokens (r : Retokenizer) (source : Source) (line : Nat) : Reader Token.Sequence :=
  match r.lineTokens source line with
  | .error e => throw e
  | .ok (tokens, malformed) => do
    modify (· || malformed)
    return tokens

/-- Runs something that reads tokens. If any did not tile their line, the states are stale. -/
def reading {α : Type} (r : Retokenizer) (m : Reader α) : Except Failure α × Retokenizer :=
  let (result, stale) := m.run r.stale
  (result, { r with stale := stale })

/-- The state behind a line. -/
def stateBehind (r : Retokenizer) (line : Nat) : Except Failure LineState := r.states.get line

end Retokenizer

end Linewise
