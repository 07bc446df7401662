import Linewise.CFamily.Comment
import Linewise.CFamily.Number
import Linewise.CFamily.Pattern
import Linewise.CFamily.Quote
import Linewise.Scanner

/-!
# Scanning a line of the C family

A line is read from the left. A construct left open by the line before comes first (`resume`); from
there on each character decides, with those behind it, what starts at it and how far that reaches
(`next`). Every step takes at least the character it looks at, so the scan ends, and what it takes it
turns into one lexeme, so nothing is lost.

What stands in front of a character counts in two places only: whether a slash may open a regular
expression, and whether a hash is the first thing on its line. The scan therefore keeps the characters
it has read, nearest first. Both look no further than the start of the scan, which is why the lexemes
of a part of a line do not depend on the rest of it.
-/

namespace Linewise.CFamily

open Token (Kind Lexeme Reading)

/-- Whether a character is a bracket or divides items. -/
def isSeparator (c : Char) : Bool := ['(', ')', '[', ']', '{', '}', ';', ','].contains c

/-- Whether an operator may hold a character. -/
def isOperatorChar (c : Char) : Bool :=
  ['+', '-', '*', '/', '%', '=', '!', '<', '>', '&', '|', '^', '~', '?', ':', '.'].contains c

/-- Whether a comment starts at the front of a text. -/
def opensComment (cs : List Char) : Bool :=
  ['/', '/'].isPrefixOf cs || ['/', '*'].isPrefixOf cs

/-- Number of characters that belong to an operator behind its first one: it ends in front of a
comment. -/
def operatorRest : List Char → Nat
  | [] => 0
  | c :: cs => if isOperatorChar c && !opensComment (c :: cs) then operatorRest cs + 1 else 0

/-- The kind of a word that stands in front of a given character. -/
def wordKind (d : Dialect) (word : List Char) (behind : Option Char) : Kind :=
  let w := String.ofList word
  if w = "true" ∨ w = "false" then .boolean
  else if d.keywords.contains w then .reservedWord
  else if d.controlWords.contains w then .controlWord
  else if d.typeNames.contains w then .dataType
  else if behind = some '(' then .function
  else .identifier

/-! ### What can start at a character

Each of these looks at a character `c` and the characters `cs` behind it, and some also at the characters
`seen` in front of it, nearest first. The length of an extent counts the characters behind `c`. -/

/-- A run of blanks. -/
def blank? (c : Char) (cs : List Char) : Option Extent :=
  if Text.isBlank c then some (.upTo .whitespace (Text.run Text.isBlank cs)) else none

/-- A comment. A block comment documents if a further star follows its opening mark and does not at once
close it. -/
def comment? (d : Dialect) (c : Char) (cs : List Char) : Option Extent :=
  if c = '/' then
    match cs with
    | '/' :: _ => some (.toEnd .commentEol none)
    | '*' :: body =>
      let doc := body.head? == some '*' && body[1]? != some '/'
      some ((commentExtent d 1 doc body).shift 1)
    | _ => none
  else none

/-- A regular expression. -/
def pattern? (d : Dialect) (seen : List Char) (c : Char) (cs : List Char) : Option Extent :=
  if c = '/' ∧ d.patterns ∧ Pattern.allowedBehind seen then
    (Pattern.length? cs).map (.upTo .pattern ·)
  else none

/-- A quoted literal, or the lifetime that a single quote introduces. -/
def quoted? (d : Dialect) (c : Char) (cs : List Char) : Option Extent :=
  if c = '\x22' then some (stringExtent d cs)
  else if c = '\x60' ∧ d.templateStrings then some (templateExtent cs)
  else if c = '\x27' then
    if d.lifetimes && cs.head?.any d.isWordStart && cs[1]? != some '\x27' then
      some (.upTo .identifier (Text.run d.isWordChar cs))
    else some (singleQuoteExtent d cs)
  else none

/-- A number, which starts with a digit or with a point in front of one. -/
def number? (d : Dialect) (c : Char) (cs : List Char) : Option Extent :=
  if c.isDigit || (c == '.' && cs.head?.any Char.isDigit) then
    let number := Number.scan d.isWordChar (c :: cs)
    some (.upTo number.kind (number.length - 1))
  else none

/-- A word. -/
def word? (d : Dialect) (c : Char) (cs : List Char) : Option Extent :=
  if d.isWordStart c then
    let more := Text.run d.isWordChar cs
    some (.upTo (wordKind d (c :: cs.take more) (cs.drop more).head?) more)
  else none

/-- A directive, in front of which the line is blank. -/
def directive? (d : Dialect) (seen : List Char) (c : Char) (cs : List Char) : Option Extent :=
  if c = '#' ∧ d.directives ∧ seen.all Text.isBlank then
    some (.upTo .preprocessor (Text.run (fun x => Text.isAlphanumeric x || x == '_') cs))
  else none

/-- An annotation. -/
def annotated? (d : Dialect) (c : Char) (cs : List Char) : Option Extent :=
  if d.annotationMark = some c then some (.upTo .attribute (Text.run d.isWordChar cs)) else none

/-- A separator, an operator, or a character that starts nothing. -/
def punctuation (c : Char) (cs : List Char) : Extent :=
  if isSeparator c then .upTo .separator 0
  else if isOperatorChar c then .upTo .operator (operatorRest cs)
  else .upTo .errorWord 0

/-- What starts at a character: the first of the constructs above that can. -/
def next (d : Dialect) (seen : List Char) (c : Char) (cs : List Char) : Extent :=
  (blank? c cs <|> comment? d c cs <|> pattern? d seen c cs <|> quoted? d c cs <|> number? d c cs <|>
    word? d c cs <|> directive? d seen c cs <|> annotated? d c cs).getD (punctuation c cs)

/-! ### The scan -/

/-- Reads on behind the characters `seen`, nearest first. -/
def scanFrom (d : Dialect) (seen : List Char) : List Char → Reading
  | [] => ⟨[], .neutral⟩
  | c :: cs =>
    match next d seen c cs with
    | .upTo kind length =>
      (scanFrom d ((cs.take length).reverse ++ c :: seen) (cs.drop length)).cons
        ⟨kind, c :: cs.take length, 0⟩
    | .toEnd kind left => ⟨[⟨kind, c :: cs, 0⟩], Construct.carried left⟩
termination_by cs => cs.length
decreasing_by simp only [List.length_drop, List.length_cons]; omega

theorem text_scanFrom (d : Dialect) (seen cs : List Char) : (scanFrom d seen cs).text = cs := by
  fun_induction scanFrom d seen cs with
  | case1 => rfl
  | case2 seen c cs kind length _ ih => simp [ih]
  | case3 seen c cs kind left _ => simp [Reading.text]

/-- How far a construct reaches that the line before has left open. -/
def resume (d : Dialect) (open? : Construct) (cs : List Char) : Extent :=
  match open? with
  | .comment depth doc => commentExtent d depth doc cs
  | .string => stringExtent d cs
  | .template => templateExtent cs

/-- Reads a text that starts in a given state. -/
def scan (d : Dialect) (initial : LineState) (cs : List Char) : Reading :=
  match Construct.ofState? d initial with
  | none => scanFrom d [] cs
  | some construct =>
    match resume d construct cs with
    | .upTo kind length =>
      (scanFrom d (cs.take length).reverse (cs.drop length)).after (Lexeme.cut kind (cs.take length))
    | .toEnd kind left => ⟨Lexeme.cut kind cs, Construct.carried left⟩

/-- **Nothing is lost**: the lexemes of a text, put together, are the text. -/
theorem text_scan (d : Dialect) (initial : LineState) (cs : List Char) :
    (scan d initial cs).text = cs := by
  unfold scan
  split
  · exact text_scanFrom d [] cs
  · split
    · rw [Reading.text_after, Lexeme.flatten_text_cut, text_scanFrom, List.take_append_drop]
    · exact Lexeme.flatten_text_cut _ cs

/-- The scanner of a dialect. -/
def scanner (d : Dialect) : Scanner where
  name := d.name
  tokenize := fun line initial lineStart =>
    (scan d initial line).toSequence lineStart 0 line.length
  stateAfter := fun line initial => (scan d initial line).state
  isWordChar := d.isWordChar
  usesBraces := true
  lineComment := some ⟨"//", none⟩

theorem scanner_lawful (d : Dialect) : (scanner d).Lawful where
  endState_eq _ _ _ := rfl
  tokenize_moved line initial lineStart :=
    (scan d initial line).toSequence_moved lineStart 0 line.length

end Linewise.CFamily
