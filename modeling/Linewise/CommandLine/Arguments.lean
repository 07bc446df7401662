/-!
# Arguments of the command line

An invocation names a command, its file and its options. Options may stand in front of the file or
behind it, with their value as the next argument or behind an equals sign, and each at most once; the
file of settings can be given in front of the command too, where a second one behind the command
counts instead. Behind two dashes nothing is an option.
-/

namespace Linewise.CommandLine

/-- What is to be done. -/
inductive Command where
  /-- Print the tokens of a file, and on request the errors among them. -/
  | dump (file : String) (language : Option String) (errors : Bool)
  /-- Print the partner of a bracket in a file, at an offset or next to a caret. -/
  | findPartner (file : String) (offset : Nat) (language : Option String) (caret : Bool)
  /-- Print the languages that are known. -/
  | languages
  deriving DecidableEq, Repr

/-- A command, and the file of settings it is carried out with. -/
structure Invocation where
  settingsFile : Option String
  command : Command
  deriving DecidableEq, Repr

/-- What an argument is. -/
inductive Argument where
  /-- Two dashes: from here on nothing is an option. -/
  | endOfOptions
  /-- An option, with the value behind its equals sign if it has one. -/
  | option (name : String) (value : Option String)
  /-- An option of one dash, of which there are none. -/
  | short
  | plain (text : String)
  deriving DecidableEq, Repr

/-- Tells what an argument is. -/
def Argument.ofString (s : String) : Argument :=
  match s.toList with
  | ['-', '-'] => .endOfOptions
  | '-' :: '-' :: body =>
    let name := String.ofList (body.takeWhile (· != '='))
    match body.dropWhile (· != '=') with
    | [] => .option name none
    | _ :: value => .option name (some (String.ofList value))
  | ['-'] => .plain s
  | '-' :: _ => .short
  | _ => .plain s

/-- The arguments of a command, sorted. -/
structure Sorted where
  /-- The options that were given a value. -/
  values : List (String × String)
  /-- The options that were given without one. -/
  flags : List String
  /-- What is no option. -/
  plain : List String
  deriving DecidableEq, Repr

namespace Sorted

/-- Adds an option with a value, which must not have been given before. -/
def addValue (s : Sorted) (name value : String) : Option Sorted :=
  if s.values.any (·.1 == name) then none else some { s with values := s.values ++ [(name, value)] }

/-- Adds an option without a value, which must not have been given before. -/
def addFlag (s : Sorted) (name : String) : Option Sorted :=
  if s.flags.contains name then none else some { s with flags := s.flags ++ [name] }

/-- Adds what is no option. -/
def addPlain (s : Sorted) (text : String) : Sorted := { s with plain := s.plain ++ [text] }

/-- The value of an option. -/
def value? (s : Sorted) (name : String) : Option String := List.lookup name s.values

end Sorted

/-- Sorts the arguments of a command that has the given options, with values and without. -/
def sort (valued flags : List String) (s : Sorted) : List String → Option Sorted
  | [] => some s
  | a :: rest =>
    match Argument.ofString a with
    | .endOfOptions => some (rest.foldl Sorted.addPlain s)
    | .short => none
    | .plain text => sort valued flags (s.addPlain text) rest
    | .option name value =>
      if flags.contains name then
        match value with
        | none => do sort valued flags (← s.addFlag name) rest
        | some _ => none
      else if valued.contains name then
        match value, rest with
        | some v, rest => do sort valued flags (← s.addValue name v) rest
        | none, [] => none
        | none, v :: rest =>
          match Argument.ofString v with
          | .plain text => do sort valued flags (← s.addValue name text) rest
          | _ => none
      else none

/-- A file name, which must not be empty. -/
def fileName (s : String) : Option String := if s.isEmpty then none else some s

/-- The number that digits stand for, if it fits in 64 bits. A plus may stand in front of them. -/
def offset? (s : String) : Option Nat :=
  let digits := match s.toList with
    | '+' :: rest => rest
    | cs => cs
  if digits.isEmpty ∨ !digits.all Char.isDigit then none
  else
    let n := digits.foldl (fun n c => 10 * n + (c.toNat - '0'.toNat)) 0
    if n < UInt64.size then some n else none

/-- The file of settings that an option names, if it is given. -/
def settingsFile? (s : Sorted) : Option (Option String) :=
  match s.value? "config" with
  | none => some none
  | some v => (fileName v).map some

/-- The command of a name and its arguments, and the file of settings named among these. -/
def command? (name : String) (arguments : List String) : Option Invocation := do
  let sortAs (valued flags : List String) : Option Sorted :=
    sort ("config" :: valued) flags ⟨[], [], []⟩ arguments
  match name with
  | "dump" =>
    let s ← sortAs ["language"] ["errors"]
    let [file] := s.plain | none
    return ⟨← settingsFile? s, .dump (← fileName file) (s.value? "language") (s.flags.contains "errors")⟩
  | "match" =>
    let s ← sortAs ["offset", "language"] ["caret"]
    let [file] := s.plain | none
    let offset ← offset? (← s.value? "offset")
    return ⟨← settingsFile? s,
      .findPartner (← fileName file) offset (s.value? "language") (s.flags.contains "caret")⟩
  | "languages" =>
    let s ← sortAs [] []
    let [] := s.plain | none
    return ⟨← settingsFile? s, .languages⟩
  | _ => none

/-- The file of settings named in front of a command, and what follows. -/
def leadingSettings? (arguments : List String) : Option (Option String × List String) :=
  match arguments with
  | [] => some (none, [])
  | a :: rest =>
    match Argument.ofString a, rest with
    | .option "config" (some v), rest => (fileName v).map fun file => (some file, rest)
    | .option "config" none, v :: rest =>
      match Argument.ofString v with
      | .plain text => (fileName text).map fun file => (some file, rest)
      | _ => none
    | _, _ => some (none, arguments)

/-- The invocation that arguments make, if they make one. -/
def invocation? (arguments : List String) : Option Invocation := do
  let (settingsFile, rest) ← leadingSettings? arguments
  let name :: rest := rest | none
  match Argument.ofString name with
  | .plain name =>
    let i ← command? name rest
    return { i with settingsFile := i.settingsFile.or settingsFile }
  | _ => none

end Linewise.CommandLine
