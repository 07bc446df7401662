import Linewise.CommandLine.Arguments
import Linewise.Document
import Linewise.Settings.Reader
import Linewise.Text.Quoted

/-!
# Carrying out an invocation

What the program prints and the status it ends with follow from its arguments and from the files they
name. An invocation that cannot be understood ends with status 2; one that fails ends with status 1.
-/

namespace Linewise.CommandLine

/-- How a run of the program ends. -/
structure Outcome where
  status : Nat
  output : String
  deriving DecidableEq, Repr

/-- A text filled up with blanks behind it. -/
def padRight (width : Nat) (s : String) : String :=
  s ++ String.ofList (List.replicate (width - s.length) ' ')

/-- A text filled up with blanks in front of it. -/
def padLeft (width : Nat) (s : String) : String :=
  String.ofList (List.replicate (width - s.length) ' ') ++ s

/-- The document of a file, in a language that may be given. -/
def openDocument (read : String → Option ByteArray) (file : String) (language : Option String)
    (settings : Settings) : Except Failure Document := do
  let d ← Document.ofFile file (read file) settings
  match language with
  | none => return d
  | some id =>
    match d.setLanguage id 0 with
    | (.ok (), d) => return d
    | (.error e, _) => throw e

/-- A line of a document as it is printed: its number and the state behind it, then its tokens. -/
def dumpLine (number : Nat) (text : List Char) (tokens : Token.Sequence) (behind : LineState) :
    List String :=
  s!"{padLeft 5 (toString number)} [{behind.code.toNat}]" :: tokens.tokens.map fun t =>
    "      " ++ padRight 28 t.kind.name ++ " " ++ String.ofList (Text.quote (t.text text)) ++
      (if t.isLink then " (link)" else "")

/-- The lines of a document as they are printed, from a given one on. -/
def dumpFrom (d : Document) (line : Nat) : List (List Char) → Except Failure (List String)
  | [] => return []
  | text :: below => do
    let tokens ← (d.reading (d.tokens line)).1
    let behind ← d.stateBehind line
    return dumpLine (line + 1) text tokens behind ++ (← dumpFrom d (line + 1) below)

/-- The errors of a document as they are printed. -/
def errorLines (d : Document) : List String :=
  let (_, d) := (d.registerParser .tokenErrors 0).runParsers
  d.schedule.allNotices.map fun (name, n) =>
    s!"{name}: line {n.line + 1} offset {n.offset}: {n.message}"

/-- The lines that a command prints. -/
def print (read : String → Option ByteArray) (settings : Settings) :
    Command → Except Failure (List String)
  | .dump file language errors => do
    let d ← openDocument read file language settings
    let tokens ← dumpFrom d 0 (d.buffer.lines.map (·.text))
    return tokens ++ if errors then errorLines d else []
  | .findPartner file offset language caret => do
    let d ← openDocument read file language settings
    let found ← (d.reading (if caret then d.matcher.matchNear? offset else d.matcher.match? offset)).1
    match found with
    | some m => return [s!"{m.origin} -> {m.target}"]
    | none => return ["no match"]
  | .languages =>
    return Registry.builtin.ids.map fun id =>
      padRight 18 id ++ " " ++ ((Language.ofId? id).map Language.name).getD id

/-- Carries out an invocation, with a way to read files. -/
def Invocation.print (i : Invocation) (read : String → Option ByteArray) :
    Except Failure (List String) := do
  let settings ← match i.settingsFile with
    | none => .ok {}
    | some file => Settings.ofFile (read file)
  CommandLine.print read settings i.command

/-- Runs the program. -/
def run (read : String → Option ByteArray) (arguments : List String) : Outcome :=
  match invocation? arguments with
  | none => ⟨2, ""⟩
  | some i =>
    match i.print read with
    | .error _ => ⟨1, ""⟩
    | .ok lines => ⟨0, String.join (lines.map (· ++ "\n"))⟩

/-- The files that an invocation reads. -/
def Invocation.files (i : Invocation) : List String :=
  i.settingsFile.toList ++
    match i.command with
    | .dump file .. | .findPartner file .. => [file]
    | .languages => []

end Linewise.CommandLine
