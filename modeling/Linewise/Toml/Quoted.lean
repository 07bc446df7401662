import Linewise.Text.Class

/-!
# Quoted text in TOML

There are four forms of strings: basic ones, in which a backslash introduces an escape, and literal ones,
in which it does not; and each of them on one line or, between triple quotes, on several. A line break
in a string reads as a line feed. Each reader is given the text behind the opening quotes; its answer
is the string and the text behind the closing ones.
-/

namespace Linewise.Toml

/-- Whether a character may stand for itself: tabs may, but no other control character. -/
def isPlain (c : Char) : Bool := c == '\t' || (0x20 ≤ c.toNat && c.toNat != 0x7f)

/-- Length of the line break at the front of a text. -/
def breakLength? : List Char → Option Nat
  | '\n' :: _ => some 1
  | '\r' :: '\n' :: _ => some 2
  | _ => none

/-- The value of a hexadecimal digit. -/
def hexValue (c : Char) : Nat :=
  if c.isDigit then c.toNat - '0'.toNat else c.toLower.toNat - 'a'.toNat + 10

/-- The character whose code point is given by the next `count` hexadecimal digits. -/
def codePoint? (count : Nat) (cs : List Char) : Option (Char × List Char) :=
  let digits := cs.take count
  if digits.length = count ∧ digits.all Text.isHexDigit then
    let n := digits.foldl (fun n c => 16 * n + hexValue c) 0
    if n.isValidChar then some (Char.ofNat n, cs.drop count) else none
  else none

/-- The character that an escape stands for, from behind its backslash. -/
def escape? : List Char → Option (Char × List Char)
  | 'b' :: cs => some ('\x08', cs)
  | 't' :: cs => some ('\t', cs)
  | 'n' :: cs => some ('\n', cs)
  | 'f' :: cs => some ('\x0c', cs)
  | 'r' :: cs => some ('\r', cs)
  | '\x22' :: cs => some ('\x22', cs)
  | '\x5c' :: cs => some ('\x5c', cs)
  | 'u' :: cs => codePoint? 4 cs
  | 'U' :: cs => codePoint? 8 cs
  | _ => none

/-- Reads a basic string on one line. -/
def basicFrom? : (fuel : Nat) → List Char → Option (List Char × List Char)
  | 0, _ => none
  | _, [] => none
  | fuel + 1, c :: cs =>
    if c = '\x22' then some ([], cs)
    else if c = '\x5c' then do
      let (e, rest) ← escape? cs
      let (text, rest) ← basicFrom? fuel rest
      return (e :: text, rest)
    else if isPlain c then do
      let (text, rest) ← basicFrom? fuel cs
      return (c :: text, rest)
    else none

/-- Reads a literal string on one line. -/
def literal? : List Char → Option (List Char × List Char)
  | [] => none
  | c :: cs =>
    if c = '\x27' then some ([], cs)
    else if isPlain c then (literal? cs).map fun (text, rest) => (c :: text, rest)
    else none

/-- The text behind a backslash at the end of a line, less the blanks and line breaks that follow. -/
def continuation? (cs : List Char) : Option (List Char) :=
  let rest := cs.dropWhile fun c => c == ' ' || c == '\t'
  (breakLength? rest).map fun n => skipBlankLines rest.length (rest.drop n)
where
  skipBlankLines : (fuel : Nat) → List Char → List Char
    | 0, cs => cs
    | fuel + 1, cs =>
      match cs with
      | ' ' :: cs | '\t' :: cs | '\n' :: cs | '\r' :: '\n' :: cs => skipBlankLines fuel cs
      | cs => cs

/-- What closing quotes leave of a run of them: up to two of them belong to the string, and the last three
close it. The answer is the number of those that belong to it, and the text behind all of them. -/
def closing? (quote : Char) (cs : List Char) : Option (Nat × List Char) :=
  let count := min ((cs.takeWhile (· == quote)).length) 5
  if 3 ≤ count then some (count - 3, cs.drop count) else none

/-- Reads a string on several lines, in which escapes have a meaning if `escapes` says so. -/
def multilineFrom? (quote : Char) (escapes : Bool) :
    (fuel : Nat) → List Char → Option (List Char × List Char)
  | 0, _ => none
  | _, [] => none
  | fuel + 1, c :: cs =>
    match closing? quote (c :: cs), breakLength? (c :: cs) with
    | some (count, rest), _ => some (List.replicate count quote, rest)
    | none, some n => do
      let (text, rest) ← multilineFrom? quote escapes fuel ((c :: cs).drop n)
      return ('\n' :: text, rest)
    | none, none =>
      if c = '\x5c' ∧ escapes then
        match continuation? cs with
        | some rest => multilineFrom? quote escapes fuel rest
        | none => do
          let (e, rest) ← escape? cs
          let (text, rest) ← multilineFrom? quote escapes fuel rest
          return (e :: text, rest)
      else if isPlain c then do
        let (text, rest) ← multilineFrom? quote escapes fuel cs
        return (c :: text, rest)
      else none

/-- Reads a string on several lines. A line break right behind the opening quotes does not count. -/
def multiline? (quote : Char) (escapes : Bool) (cs : List Char) : Option (List Char × List Char) :=
  let body := cs.drop ((breakLength? cs).getD 0)
  multilineFrom? quote escapes (body.length + 1) body

/-- Reads a string of any form, if the text starts with one. -/
def string? : List Char → Option (List Char × List Char)
  | '\x22' :: '\x22' :: '\x22' :: cs => multiline? '\x22' true cs
  | '\x27' :: '\x27' :: '\x27' :: cs => multiline? '\x27' false cs
  | '\x22' :: cs => basicFrom? (cs.length + 1) cs
  | '\x27' :: cs => literal? cs
  | _ => none

/-- Reads one part of a key: a bare word, or a string on one line. -/
def keyPart? (cs : List Char) : Option (List Char × List Char) :=
  match cs with
  | '\x22' :: rest => basicFrom? (rest.length + 1) rest
  | '\x27' :: rest => literal? rest
  | _ =>
    let isBare (c : Char) : Bool := c.isAlphanum || c == '-' || c == '_'
    let word := cs.takeWhile isBare
    if word.isEmpty then none else some (word, cs.dropWhile isBare)

end Linewise.Toml
