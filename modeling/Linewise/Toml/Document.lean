import Linewise.Toml.Number
import Linewise.Toml.Quoted

/-!
# Reading TOML

A document is read line by line: each line is empty but for a comment, a header, or a key and its value.
Anything else makes the whole document unreadable, and so does a key or a header that clashes with
what came before. Arrays and inline tables may be nested in each other up to a fixed depth.
-/

namespace Linewise.Toml

/-- Nesting of values at which reading gives up, and number of parts at which it gives up a key. -/
def nestingLimit : Nat := 80

/-- The text behind spaces and tabs. -/
def skipBlanks (cs : List Char) : List Char := cs.dropWhile fun c => c == ' ' || c == '\t'

/-- The text behind a comment, if one starts here. A comment holds no control characters. -/
def skipComment : List Char → List Char
  | '#' :: cs => cs.dropWhile isPlain
  | cs => cs

/-- The text behind the rest of a line, which may hold blanks and a comment only. -/
def endLine? (cs : List Char) : Option (List Char) :=
  let rest := skipComment (skipBlanks cs)
  match rest with
  | [] => some []
  | _ => (breakLength? rest).map rest.drop

/-- The text behind blanks, line breaks and comments inside an array. -/
def skipLines : (fuel : Nat) → List Char → List Char
  | 0, cs => cs
  | fuel + 1, cs =>
    let rest := skipComment (skipBlanks cs)
    match breakLength? rest with
    | some n => skipLines fuel (rest.drop n)
    | none => rest

/-- Reads a key: its parts before the last, and the last. -/
def keyFrom? : (fuel : Nat) → List Char → Option ((List String × String) × List Char)
  | 0, _ => none
  | fuel + 1, cs => do
    let (part, rest) ← keyPart? (skipBlanks cs)
    let part := String.ofList part
    match skipBlanks rest with
    | '.' :: rest =>
      let ((path, last), rest) ← keyFrom? fuel rest
      return ((part :: path, last), rest)
    | rest => return (([], part), rest)

/-- Reads a key. -/
def key? (cs : List Char) : Option ((List String × String) × List Char) :=
  keyFrom? (nestingLimit - 1) cs

mutual

/-- Reads a value, inside a number of other ones. -/
def value? (fuel depth : Nat) (cs : List Char) : Option (Value × List Char) :=
  match fuel, cs with
  | fuel + 1, '[' :: rest =>
    if nestingLimit ≤ depth + 1 then none
    else do
      let behind ← items? fuel (depth + 1) (skipLines rest.length rest)
      return (.array, behind)
  | fuel + 1, '\x7b' :: rest =>
    if nestingLimit ≤ depth + 1 then none
    else
      match skipBlanks rest with
      | '\x7d' :: behind => some (.inlineTable, behind)
      | rest => do
        let behind ← pairs? fuel (depth + 1) [] rest
        return (.inlineTable, behind)
  | _, 't' :: 'r' :: 'u' :: 'e' :: rest => some (.boolean true, rest)
  | _, 'f' :: 'a' :: 'l' :: 's' :: 'e' :: rest => some (.boolean false, rest)
  | _, cs =>
    match string? cs with
    | some (text, rest) => some (.string (String.ofList text), rest)
    | none =>
      match moment? cs with
      | some rest => some (.moment, rest)
      | none => number? cs

/-- Reads the items of an array up to its closing bracket, and the bracket. -/
def items? (fuel depth : Nat) (cs : List Char) : Option (List Char) :=
  match fuel, cs with
  | _, ']' :: rest => some rest
  | 0, _ => none
  | fuel + 1, cs => do
    let (_, rest) ← value? fuel depth cs
    match skipLines rest.length rest with
    | ',' :: rest => items? fuel depth (skipLines rest.length rest)
    | ']' :: rest => return rest
    | _ => none

/-- Reads the keys and values of an inline table up to its closing brace, and the brace. -/
def pairs? (fuel depth : Nat) (entries : Entries) (cs : List Char) : Option (List Char) :=
  match fuel with
  | 0 => none
  | fuel + 1 => do
    let ((path, last), rest) ← key? cs
    let rest ← mark? '=' rest
    let (v, rest) ← value? fuel depth (skipBlanks rest)
    let entries ← entries.putValue path last v true
    match skipBlanks rest with
    | ',' :: rest => pairs? fuel depth entries rest
    | '\x7d' :: rest => return rest
    | _ => none

end

/-- Reads a header from behind its opening brackets, up to the end of its line. -/
def header? (isArray : Bool) (d : Draft) (cs : List Char) : Option (Draft × List Char) := do
  let ((path, last), rest) ← key? cs
  let rest ← mark? ']' rest
  if isArray then
    let rest ← endLine? (← mark? ']' rest)
    return (← d.openArrayTable path last, rest)
  else
    let rest ← endLine? rest
    return (← d.openTable path last, rest)

/-- Reads a line that starts with no blank. -/
def line? (d : Draft) (cs : List Char) : Option (Draft × List Char) :=
  match cs with
  | '[' :: '[' :: rest => header? true d rest
  | '[' :: rest => header? false d rest
  | '#' :: _ | '\n' :: _ | '\r' :: _ => (endLine? cs).map fun rest => (d, rest)
  | _ => do
    let ((path, last), rest) ← key? cs
    let rest ← mark? '=' rest
    let (v, rest) ← value? cs.length 0 (skipBlanks rest)
    let rest ← endLine? rest
    return (← d.putValue path last v, rest)

/-- Reads the lines of a document. -/
def lines? : (fuel : Nat) → Draft → List Char → Option Draft
  | 0, d, _ => some d
  | fuel + 1, d, cs =>
    match skipBlanks cs with
    | [] => some d
    | cs => do
      let (d, rest) ← line? d cs
      lines? fuel d rest

/-- Reads a document: the keys of its outermost table, and what they stand for. A byte order mark at its
start does not count. -/
def document? (cs : List Char) : Option Entries := do
  let body := if cs.head? = some '\ufeff' then cs.drop 1 else cs
  let d ← lines? (body.length + 1) .start body
  d.close

end Linewise.Toml
