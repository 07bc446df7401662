import Linewise.CFamily.Construct
import Linewise.CFamily.Extent

/-!
# Where a quoted literal ends

Behind an opening quote, the literal ends at the first quote that no backslash takes away its meaning.
A backslash stands for itself together with the character behind it; at the very end of a line it says
that the literal goes on in the next one.
-/

namespace Linewise.CFamily

/-- How far a quoted literal reaches. -/
inductive QuoteEnd where
  /-- It ends on the line, `length` characters from here, the closing quote counted. -/
  | closed (length : Nat)
  /-- The line ends with a backslash that asks for more. -/
  | continued
  /-- The line ends inside the literal. -/
  | unterminated
  deriving DecidableEq, Repr

/-- The same end, seen from `n` characters earlier. -/
def QuoteEnd.shift (n : Nat) : QuoteEnd → QuoteEnd
  | .closed length => .closed (n + length)
  | other => other

/-- The end of a literal from inside it. Only where `continuable` holds does a last backslash carry the
literal over. -/
def quoteEnd (quote : Char) (continuable : Bool) : List Char → QuoteEnd
  | [] => .unterminated
  | ['\x5c'] => if continuable then .continued else .unterminated
  | '\x5c' :: _ :: cs => (quoteEnd quote continuable cs).shift 2
  | c :: cs => if c = quote then .closed 1 else (quoteEnd quote continuable cs).shift 1

/-- Whether the text between the quotes of a character literal is one character or one escape. -/
def isCharBody : List Char → Bool
  | [c] => c != '\x5c'
  | ['\x5c', _] => true
  | '\x5c' :: c :: digits =>
    if c == 'u' || c == 'x' then digits.all fun h => Text.isHexDigit h || h == '{' || h == '}'
    else Text.isOctalDigit c && digits.all Text.isOctalDigit
  | _ => false

/-- The extent of a double-quoted string, from inside it. -/
def stringExtent (d : Dialect) (cs : List Char) : Extent :=
  match quoteEnd '\x22' true cs with
  | .closed length => .upTo .string length
  | .continued => .toEnd .string (some .string)
  | .unterminated =>
    if d.multilineStrings then .toEnd .string (some .string)
    else .toEnd .errorString none

/-- The extent of a template string, from inside it. -/
def templateExtent (cs : List Char) : Extent :=
  match quoteEnd '\x60' false cs with
  | .closed length => .upTo .template length
  | _ => .toEnd .template (some .template)

/-- The extent of a single-quoted literal, from inside it. It never goes on in the next line. -/
def singleQuoteExtent (d : Dialect) (cs : List Char) : Extent :=
  match quoteEnd '\x27' false cs with
  | .closed length =>
    if !d.charLiterals then .upTo .string length
    else if isCharBody (cs.take (length - 1)) then .upTo .char length
    else .upTo .errorChar length
  | _ => .toEnd (if d.charLiterals then .errorChar else .errorString) none

end Linewise.CFamily
