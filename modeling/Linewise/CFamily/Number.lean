import Linewise.Text.Class
import Linewise.Text.Search
import Linewise.Token.Kind

/-!
# Numbers

A number is read from the left: digits, then in turn a fraction, an exponent and a type suffix, each of
which may be missing. Hexadecimal digits leave no room for a fraction or an exponent. If the
characters of a word follow directly, they and the number are one malformed number.
-/

namespace Linewise.CFamily

open Token (Kind)

/-- A number as far as it has been read. -/
structure Number where
  kind : Kind
  /-- Number of characters read. -/
  length : Nat
  deriving DecidableEq, Repr

namespace Number

/-- Length of a run of digits that underscores may divide. -/
def digits (isDigit : Char → Bool) (cs : List Char) : Nat :=
  Text.run (fun c => isDigit c || c == '_') cs

/-- Letters that a type suffix is made of. -/
def isSuffixLetter (c : Char) : Bool :=
  ['u', 'U', 'l', 'L', 'f', 'F', 'd', 'D', 'i'].contains c

/-- Letters that make the number in front of them a fraction. -/
def isFloatSuffix (c : Char) : Bool := ['f', 'F', 'd', 'D'].contains c

/-- Whether a point is that of a fraction, judged by the character behind it: not in front of another
point, and of letters only in front of those that can follow a fraction. -/
def pointAllowed : Option Char → Bool
  | none => true
  | some c =>
    c != '.' && (!Text.isAlphabetic c || ['e', 'E', 'f', 'F', 'd', 'D'].contains c)

/-- Reads a point and the digits behind it. -/
def withFraction (cs : List Char) (n : Number) : Number :=
  match cs.drop n.length with
  | '.' :: rest =>
    if pointAllowed rest.head? then ⟨.float, n.length + 1 + digits Char.isDigit rest⟩ else n
  | _ => n

/-- Reads an exponent, if it has digits. -/
def withExponent (cs : List Char) (n : Number) : Number :=
  match cs.drop n.length with
  | e :: rest =>
    if e = 'e' ∨ e = 'E' then
      let sign := match rest.head? with
        | some '+' | some '-' => 1
        | _ => 0
      let count := digits Char.isDigit (rest.drop sign)
      if count = 0 then n else ⟨.float, n.length + 1 + sign + count⟩
    else n
  | [] => n

/-- Reads a decimal number up to its suffix. -/
def decimal (cs : List Char) : Number :=
  withExponent cs (withFraction cs ⟨.decimal, digits Char.isDigit cs⟩)

/-- Reads a number up to its suffix. -/
def unsuffixed : List Char → Number
  | '0' :: x :: rest =>
    if x = 'x' ∨ x = 'X' then
      let count := digits Text.isHexDigit rest
      ⟨if count = 0 then .errorNumber else .hexadecimal, 2 + count⟩
    else decimal ('0' :: x :: rest)
  | cs => decimal cs

/-- Reads a type suffix: letters of a small set, then a width. -/
def withSuffix (cs : List Char) (n : Number) : Number :=
  if n.kind = .errorNumber then n
  else
    let rest := cs.drop n.length
    let letters := Text.run isSuffixLetter rest
    let width := Text.run Char.isDigit (rest.drop letters)
    ⟨if n.kind = .decimal ∧ rest.head?.any isFloatSuffix then .float else n.kind,
      n.length + letters + width⟩

/-- Reads what is glued to the number and spoils it. -/
def withGlued (isWordChar : Char → Bool) (cs : List Char) (n : Number) : Number :=
  let glued := Text.run isWordChar (cs.drop n.length)
  if glued = 0 then n else ⟨.errorNumber, n.length + glued⟩

/-- Reads the number at the front of a text. -/
def scan (isWordChar : Char → Bool) (cs : List Char) : Number :=
  withGlued isWordChar cs (withSuffix cs (unsuffixed cs))

end Number

end Linewise.CFamily
