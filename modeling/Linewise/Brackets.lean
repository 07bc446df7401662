import Linewise.Retokenizer

/-!
# Matching brackets

The partner of a bracket is searched for forwards or backwards, depending on the bracket, with a count of
the brackets of the same form that want a partner of their own first. Only *structural* brackets take
part: those that a separator token covers, so brackets in comments, literals and words do not. The
tokens of a line are made only if it holds a bracket of the kind in question.
-/

namespace Linewise

/-- The partner of a bracket, and whether it stands behind it. -/
def bracketPartner? : Char → Option (Char × Bool)
  | '(' => some (')', true)
  | '[' => some (']', true)
  | '{' => some ('}', true)
  | ')' => some ('(', false)
  | ']' => some ('[', false)
  | '}' => some ('{', false)
  | _ => none

/-- The offsets of a bracket and of its partner. -/
structure BracketMatch where
  origin : Nat
  target : Nat
  deriving DecidableEq, Repr

/-- A document in which brackets are matched. -/
structure BracketMatcher where
  retokenizer : Retokenizer
  source : Source
  /-- Whether a line is folded away. -/
  isHidden : Nat → Bool

namespace BracketMatcher

open Retokenizer (Reader)

/-- A character of a line, with its column. -/
abbrev Cell := Nat × Char

/-- The characters of a line that are one of two brackets. -/
def cells (a b : Char) (text : List Char) : List Cell :=
  (text.zipIdx.map fun (c, column) => (column, c)).filter fun (_, c) => c == a || c == b

/-- Whether the character at a document offset is a separator. -/
def isSeparatorAt (tokens : Token.Sequence) (offset : UInt64) : Bool :=
  (tokens.tokenAt? offset).any fun t => t.kind == .separator

/-- Of characters of a line, those that are structural. Without any, no tokens are made. -/
def structural (m : BracketMatcher) (line start : Nat) (candidates : List Cell) :
    Reader (List Cell) :=
  if candidates.isEmpty then return []
  else do
    let tokens ← m.retokenizer.readTokens m.source line
    return candidates.filter fun (column, _) => isSeparatorAt tokens (.ofNat (start + column))

/-- Goes along structural brackets, of which `depth` want a partner before the one in question. The
answer is the column of the partner, or how many want one at the end. -/
def walk (same : Char) (depth : Nat) : List Cell → Nat ⊕ Nat
  | [] => .inl depth
  | (column, c) :: rest =>
    if c = same then walk same (depth + 1) rest
    else
      match depth with
      | 0 => .inr column
      | above + 1 => walk same above rest

/-- Searches lines, which are given with their numbers, for the partner of a bracket. In the first of
them only the given characters count. -/
def search (m : BracketMatcher) (cellsOf : List Char → List Cell) (same : Char) (depth : Nat)
    (first : List Cell) : List (SourceLine × Nat) → Reader (Option (Nat × Nat))
  | [] => return none
  | (l, line) :: rest => do
    match walk same depth (← m.structural line l.start first) with
    | .inr column => return some (line, l.start + column)
    | .inl depth =>
      let below := (rest.head?.map fun (l, _) => cellsOf l.text).getD []
      m.search cellsOf same depth below rest

/-- The partner of the bracket at a document offset. There is none if the character there is no
structural bracket, if no partner is found, or if it is on a line that is folded away. -/
def match? (m : BracketMatcher) (offset : Nat) : Reader (Option BracketMatch) := do
  let line := m.source.lineOf offset
  let some l := m.source.line? line | return none
  let column := offset - l.start
  let some c := l.text[column]? | return none
  let some (target, forward) := bracketPartner? c | return none
  if (← m.structural line l.start [(column, c)]).isEmpty then return none
  let numbered := m.source.lines.zipIdx
  let here := cells c target l.text
  let found ←
    if forward then
      m.search (cells c target) c 0 (here.filter fun cell => column < cell.1) (numbered.drop line)
    else
      m.search (fun text => (cells c target text).reverse) c 0
        (here.filter fun cell => cell.1 < column).reverse (numbered.take (line + 1)).reverse
  let some (targetLine, targetOffset) := found | return none
  if m.isHidden targetLine then return none
  return some ⟨offset, targetOffset⟩

/-- The partner of the bracket in front of a caret or, failing that, of the one behind it. -/
def matchNear? (m : BracketMatcher) (caret : Nat) : Reader (Option BracketMatch) := do
  if 0 < caret then
    if let some found ← m.match? (caret - 1) then return some found
  m.match? caret

end BracketMatcher

end Linewise
