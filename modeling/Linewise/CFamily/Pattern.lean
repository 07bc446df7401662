import Linewise.Text.Class
import Linewise.Text.Search

/-!
# Regular expressions

A slash may divide, or it may open a regular expression. Which of the two is judged by the last
character in front of it that is no blank: behind an operand a slash divides, behind an operator, an
opening bracket, certain keywords or nothing at all it opens an expression. The expression must close
on its line; inside brackets a slash is an ordinary character.
-/

namespace Linewise.CFamily.Pattern

/-- Words behind which a slash opens a regular expression. -/
def openingWords : List String :=
  ["return", "typeof", "case", "else", "in", "of", "new", "delete", "void", "throw", "yield", "await"]

/-- Whether a character belongs to a word in front of a slash. -/
def isWordChar (c : Char) : Bool := Text.isAlphanumeric c || c == '_' || c == '$'

/-- Characters behind which a slash opens a regular expression. -/
def openingChars : List Char :=
  ['(', '[', '{', ',', ';', ':', '=', '!', '&', '|', '?', '+', '-', '*', '%', '<', '>', '~', '^', '/']

/-- Whether a slash opens a regular expression behind the given characters, nearest first. -/
def allowedBehind (seen : List Char) : Bool :=
  match seen.dropWhile Text.isBlank with
  | [] => true
  | c :: earlier =>
    if isWordChar c then
      openingWords.contains (String.ofList ((c :: earlier).takeWhile isWordChar).reverse)
    else openingChars.contains c

/-- Number of characters up to and with the slash that closes an expression, from inside it. -/
def close? (inClass : Bool) : List Char → Option Nat
  | [] => none
  | ['\x5c'] => none
  | '\x5c' :: _ :: cs => (close? inClass cs).map (· + 2)
  | c :: cs =>
    if c = '[' then (close? true cs).map (· + 1)
    else if c = ']' then (close? false cs).map (· + 1)
    else if c = '/' ∧ !inClass then some 1
    else (close? inClass cs).map (· + 1)

/-- Number of characters behind the opening slash that belong to an expression, its flags among them. -/
def length? (cs : List Char) : Option Nat :=
  (close? false cs).map fun n => n + Text.run Char.isAlpha (cs.drop n)

end Linewise.CFamily.Pattern
