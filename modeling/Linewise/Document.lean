import Linewise.Background.Schedule
import Linewise.Brackets
import Linewise.Folds.Detect

/-!
# Documents

A document is a text together with all that is derived from it: the states of its lines, its folds, and
the notices of background parsers. Every edit goes through all of them in turn. Moments are
milliseconds after a fixed start, and are given by the caller.
-/

namespace Linewise

/-- A text and what is derived from it. -/
structure Document where
  buffer : Buffer
  retokenizer : Retokenizer
  folds : Folds
  schedule : Schedule
  /-- The file that the text comes from. -/
  filePath : Option String
  /-- Whether the text has been edited. -/
  isModified : Bool

namespace Document

/-- The document of a buffer, in the language that its file's name tells or, failing that, in the
language of the settings. If that one is unknown, the document is plain text. -/
def ofBuffer (buffer : Buffer) (filePath : Option String) (settings : Settings) : Document :=
  let detected := (filePath.map Language.ofPath).filter (· != .plainText)
  let languageId := (detected.map Language.id).getD settings.defaultLanguage
  let fresh := Retokenizer.ofSettings settings
  let source := buffer.source
  let (result, r) :=
    if fresh.languageId = languageId then fresh.rebuild source
    else fresh.setLanguage languageId source
  let r := match result with
    | .ok () => r
    | .error _ => (r.rebuild source).2
  { buffer := buffer
    retokenizer := r
    folds := .empty
    schedule := .ofDelay settings.parserDelay
    filePath := filePath
    isModified := false }

/-- A document without text. -/
def empty (settings : Settings) : Document := ofBuffer (.ofString "") none settings

/-- The document of a text. -/
def ofString (text : String) (settings : Settings) : Document :=
  ofBuffer (.ofString text) none settings

/-- The document of a file, of which the path and, if it is there, the content are given. -/
def ofFile (path : String) (content : Option ByteArray) (settings : Settings) :
    Except Failure Document :=
  match content with
  | none => .error .unreadableFile
  | some bytes => (Buffer.ofBytes bytes).map fun buffer => ofBuffer buffer (some path) settings

/-- The identifier of the language in use. -/
def languageId (d : Document) : String := d.retokenizer.languageId

/-! ### Changes -/

/-- Passes an edit on to all that is derived from the text. -/
def afterEdit (d : Document) (edit : Edit) (now : Nat) : Except Failure Damage × Document :=
  let (result, r) := d.retokenizer.onEdit d.buffer.source edit
  (result, { d with
    isModified := true
    folds := d.folds.adjust edit
    schedule := d.schedule.restart now
    retokenizer := r })

/-- Inserts a text at an offset. The answer is the range of lines whose tokens may have changed. -/
def insert (d : Document) (offset : Nat) (text : List Char) (now : Nat) :
    Except Failure Damage × Document :=
  let (buffer, edit) := d.buffer.insert offset text
  { d with buffer := buffer }.afterEdit edit now

/-- Removes the characters from `start` to just before `stop`. Where there are none, nothing happens. -/
def remove (d : Document) (start stop : Nat) (now : Nat) : Except Failure Damage × Document :=
  let (buffer, edit) := d.buffer.remove start stop
  if edit.length = 0 then (.ok ⟨edit.startLine, edit.startLine⟩, d)
  else { d with buffer := buffer }.afterEdit edit now

/-- Switches to another language. -/
def setLanguage (d : Document) (id : String) (now : Nat) : Except Failure Unit × Document :=
  let (result, r) := d.retokenizer.setLanguage id d.buffer.source
  match result with
  | .error e => (.error e, { d with retokenizer := r })
  | .ok () => (.ok (), { d with retokenizer := r, schedule := d.schedule.restart now })

/-- Compares the states of the lines with those of a full pass, and mends them if they differ. -/
def verify (d : Document) : Except Failure Bool × Document :=
  let (result, r) := d.retokenizer.verify d.buffer.source
  (result, { d with retokenizer := r })

/-- Hands out the lines to be drawn again that have gathered since the last time. -/
def takeDamage (d : Document) : Option Damage × Document :=
  let (damage, r) := d.retokenizer.takeDamage
  (damage, { d with retokenizer := r })

/-- Finds the folds anew. -/
def detectFolds (d : Document) : Except Failure Unit × Document :=
  let (result, folds, r) := d.folds.detect d.retokenizer d.buffer.source
  (result, { d with folds := folds, retokenizer := r })

/-! ### Questions -/

/-- Answers a question about the tokens. -/
def reading {α : Type} (d : Document) (m : Retokenizer.Reader α) : Except Failure α × Document :=
  let (result, r) := d.retokenizer.reading m
  (result, { d with retokenizer := r })

/-- The tokens of a line. -/
def tokens (d : Document) (line : Nat) : Retokenizer.Reader Token.Sequence :=
  d.retokenizer.readTokens d.buffer.source line

/-- Matches brackets, other than those on lines that are folded away. -/
def matcher (d : Document) : BracketMatcher :=
  ⟨d.retokenizer, d.buffer.source, fun line => d.folds.isHidden (.ofNat line)⟩

/-- The state behind a line. -/
def stateBehind (d : Document) (line : Nat) : Except Failure LineState :=
  d.retokenizer.stateBehind line

/-! ### Background parsers -/

/-- The document as parsers read it. -/
def snapshot (d : Document) : Snapshot := ⟨d.buffer.source, d.retokenizer⟩

/-- Takes in what came of running parsers. -/
def withRun (d : Document) (run : Nat × Schedule × Bool) : Nat × Document :=
  let (count, schedule, malformed) := run
  (count, { d with
    schedule := schedule
    retokenizer := { d.retokenizer with stale := d.retokenizer.stale || malformed } })

/-- Registers a background parser. -/
def registerParser (d : Document) (parser : BackgroundParser) (now : Nat) : Document :=
  { d with schedule := (d.schedule.register parser).restart now }

/-- Runs the background parsers if that is due. The answer is the number of those that ran. -/
def pollParsers (d : Document) (now : Nat) : Nat × Document :=
  d.withRun (d.schedule.poll now d.snapshot)

/-- Runs the background parsers at once. The answer is the number of those that ran. -/
def runParsers (d : Document) : Nat × Document := d.withRun (d.schedule.cancel.runAll d.snapshot)

end Document

end Linewise
