import Linewise.CFamily.Construct
import Linewise.CFamily.Extent
import Linewise.Text.Search

/-!
# Where a block comment ends

The text behind the opening mark is searched for the closing one. Where comments nest, each further
opening mark asks for one more closing mark.
-/

namespace Linewise.CFamily

/-- How far a block comment reaches. -/
inductive CommentEnd where
  /-- It ends on the line, `length` characters from here, the closing mark counted. -/
  | closed (length : Nat)
  /-- It is still open, `depth` levels deep, at the end of the line. -/
  | stillOpen (depth : Nat)
  deriving DecidableEq, Repr

namespace CommentEnd

/-- The same end, seen from `n` characters earlier. -/
def shift (n : Nat) : CommentEnd → CommentEnd
  | .closed length => .closed (n + length)
  | .stillOpen depth => .stillOpen depth

end CommentEnd

/-- The end of a comment in which others may nest, from inside `depth` of them. -/
def nestedEnd (depth : Nat) : List Char → CommentEnd
  | [] => .stillOpen depth
  | '*' :: '/' :: cs => if depth ≤ 1 then .closed 2 else (nestedEnd (depth - 1) cs).shift 2
  | '/' :: '*' :: cs => (nestedEnd (depth + 1) cs).shift 2
  | _ :: cs => (nestedEnd depth cs).shift 1

/-- The end of a comment that the first closing mark ends. -/
def flatEnd (depth : Nat) (cs : List Char) : CommentEnd :=
  match Text.find? ['*', '/'] cs with
  | some n => .closed (n + 2)
  | none => .stillOpen depth

/-- The end of a comment in a dialect, from inside `depth` levels. -/
def commentEnd (d : Dialect) (depth : Nat) (cs : List Char) : CommentEnd :=
  if d.nestedComments then nestedEnd depth cs else flatEnd depth cs

/-- The kind of a block comment. -/
def commentKind (doc : Bool) : Token.Kind :=
  if doc then .commentDocumentation else .commentMultiline

/-- The extent of a block comment, from inside `depth` levels of it. -/
def commentExtent (d : Dialect) (depth : Nat) (doc : Bool) (cs : List Char) : Extent :=
  match commentEnd d depth cs with
  | .closed length => .upTo (commentKind doc) length
  | .stillOpen left => .toEnd (commentKind doc) (some (.comment left doc))

end Linewise.CFamily
