import Linewise.Text.Class
import Linewise.Toml.Value

/-!
# Numbers and moments in TOML

Numbers are whole, in one of four bases, or have a fraction or an exponent; underscores may stand between
digits. Whole numbers have to fit in 64 bits, with a sign. Moments are dates, times of day, or both,
with or without an offset; their parts have to be in range, down to the length of the month. Each
reader's answer is what it read and the text behind it.
-/

namespace Linewise.Toml

/-- Goes on reading digits, each of which an underscore may precede. -/
def moreDigits (isDigit : Char → Bool) : List Char → List Char × List Char
  | '_' :: c :: cs =>
    if isDigit c then
      let (digits, rest) := moreDigits isDigit cs
      (c :: digits, rest)
    else ([], '_' :: c :: cs)
  | c :: cs =>
    if isDigit c then
      let (digits, rest) := moreDigits isDigit cs
      (c :: digits, rest)
    else ([], c :: cs)
  | [] => ([], [])

/-- Reads digits, of which there has to be one. -/
def digits? (isDigit : Char → Bool) : List Char → Option (List Char × List Char)
  | c :: cs =>
    if isDigit c then
      let (digits, rest) := moreDigits isDigit cs
      some (c :: digits, rest)
    else none
  | [] => none

/-- The number that digits stand for. -/
def ofDigits (base : Nat) (digits : List Char) : Nat :=
  digits.foldl (fun n c =>
    base * n + (if c.isDigit then c.toNat - '0'.toNat else c.toLower.toNat - 'a'.toNat + 10)) 0

/-- A whole number, if it fits in 64 bits with a sign. -/
def integer? (n : Int) : Option Value :=
  if -0x8000000000000000 ≤ n ∧ n < 0x8000000000000000 then some (.integer n) else none

/-- Reads a whole number in base 16, 8 or 2, from behind its mark. -/
def based? (base : Nat) (isDigit : Char → Bool) (cs : List Char) : Option (Value × List Char) := do
  let (digits, rest) ← digits? isDigit cs
  return (← integer? (ofDigits base digits), rest)

/-- Reads a sign, if there is one. The answer is whether it is a minus. -/
def sign : List Char → Bool × List Char
  | '-' :: cs => (true, cs)
  | '+' :: cs => (false, cs)
  | cs => (false, cs)

/-- Reads a fraction, if there is one. -/
def fraction? : List Char → Option (List Char × List Char)
  | '.' :: cs => digits? Char.isDigit cs
  | cs => some ([], cs)

/-- Reads an exponent, if there is one. -/
def exponent? : List Char → Option (Int × List Char)
  | c :: cs =>
    if c = 'e' ∨ c = 'E' then do
      let (isNegative, rest) := sign cs
      let (digits, rest) ← digits? Char.isDigit rest
      let n : Int := ofDigits 10 digits
      return (if isNegative then -n else n, rest)
    else some (0, c :: cs)
  | [] => some (0, [])

/-- Whether `digits · 10 ^ exponent` is beyond all finite binary numbers of double precision. -/
def overflows (digits : List Char) (exponent : Int) : Bool :=
  let m := ofDigits 10 digits
  let magnitude := exponent + (Nat.toDigits 10 m).length
  if m = 0 ∨ magnitude < 300 then false
  else if 400 < magnitude then true
  else
    let bound := Nat.pow 2 1024 - Nat.pow 2 970
    decide (bound * Nat.pow 10 (-exponent).toNat ≤ m * Nat.pow 10 exponent.toNat)

/-- Reads a decimal number behind its sign. -/
def decimal? (isNegative : Bool) (cs : List Char) : Option (Value × List Char) := do
  let (whole, rest) ← match cs with
    | '0' :: rest => some (['0'], rest)
    | cs => digits? Char.isDigit cs
  if rest.head?.any fun c => c == '.' || c == 'e' || c == 'E' then
    let (fraction, rest) ← fraction? rest
    let (exponent, rest) ← exponent? rest
    if !isNegative && overflows (whole ++ fraction) (exponent - fraction.length) then none
    else return (.float, rest)
  else
    let n : Int := ofDigits 10 whole
    return (← integer? (if isNegative then -n else n), rest)

/-- Reads a number. -/
def number? : List Char → Option (Value × List Char)
  | '0' :: 'x' :: cs => based? 16 Text.isHexDigit cs
  | '0' :: 'o' :: cs => based? 8 Text.isOctalDigit cs
  | '0' :: 'b' :: cs => based? 2 (fun c => c == '0' || c == '1') cs
  | cs =>
    match sign cs with
    | (_, 'i' :: 'n' :: 'f' :: rest) => some (.float, rest)
    | (_, 'n' :: 'a' :: 'n' :: rest) => some (.float, rest)
    | (isNegative, rest) => decimal? isNegative rest

/-! ### Moments -/

/-- Reads a number of exactly `count` digits that lies in a range. -/
def field? (count low high : Nat) (cs : List Char) : Option (Nat × List Char) :=
  let digits := cs.take count
  let n := ofDigits 10 digits
  if digits.length = count ∧ digits.all Char.isDigit ∧ low ≤ n ∧ n ≤ high then some (n, cs.drop count)
  else none

/-- Reads one given character. -/
def mark? (c : Char) : List Char → Option (List Char)
  | d :: cs => if c = d then some cs else none
  | [] => none

/-- Number of days of a month. -/
def daysInMonth (year month : Nat) : Nat :=
  let isLeap := year % 4 = 0 ∧ (year % 100 ≠ 0 ∨ year % 400 = 0)
  if month = 2 then (if isLeap then 29 else 28)
  else if [4, 6, 9, 11].contains month then 30 else 31

/-- Reads a date. -/
def date? (cs : List Char) : Option (List Char) := do
  let (year, cs) ← field? 4 0 9999 cs
  let (month, cs) ← field? 2 1 12 (← mark? '-' cs)
  let (_, cs) ← field? 2 1 (daysInMonth year month) (← mark? '-' cs)
  return cs

/-- Reads a time of day. -/
def time? (cs : List Char) : Option (List Char) := do
  let (_, cs) ← field? 2 0 23 cs
  let (_, cs) ← field? 2 0 59 (← mark? ':' cs)
  let (_, cs) ← field? 2 0 60 (← mark? ':' cs)
  match cs with
  | '.' :: rest =>
    let fraction := rest.takeWhile Char.isDigit
    if fraction.isEmpty then none else return rest.drop fraction.length
  | _ => return cs

/-- Reads an offset from universal time, if there is one. -/
def offset? (cs : List Char) : Option (List Char) :=
  match cs with
  | 'Z' :: rest | 'z' :: rest => some rest
  | '+' :: rest | '-' :: rest => do
    let (_, rest) ← field? 2 0 23 rest
    let (_, rest) ← field? 2 0 59 (← mark? ':' rest)
    return rest
  | _ => some cs

/-- Reads a date, a time of day, or both. A blank may stand between them. -/
def moment? (cs : List Char) : Option (List Char) :=
  match date? cs with
  | none => time? cs
  | some rest =>
    match rest with
    | c :: more =>
      if c = 'T' ∨ c = 't' ∨ c = ' ' then
        match time? more with
        | some behind => offset? behind
        | none => some rest
      else some rest
    | [] => some []

end Linewise.Toml
