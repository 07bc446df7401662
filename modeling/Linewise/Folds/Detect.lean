import Linewise.Folds.Basic
import Linewise.Retokenizer

/-!
# Finding folds

In a language that puts blocks between curly braces, the braces that are separators pair up: each
closing brace ends the block of the last opening brace that is still without a partner. A pair on two
lines makes a region. Braces in comments and literals are no separators and do not count.
-/

namespace Linewise.Folds

/-- The braces of a line that are tokens of their own, from left to right. -/
def structuralBraces (text : List Char) (tokens : List Token) : List Char :=
  tokens.filterMap fun t =>
    if t.kind = .separator ∧ t.isSingleChar then text[t.start]?.filter fun c => c == '{' || c == '}'
    else none

/-- Takes in a brace. The lines of opening braces without a partner are known, the last one first, and
so are the regions found. -/
def pairBrace (line : Nat) (found : List Nat × Folds) (brace : Char) : List Nat × Folds :=
  match brace, found with
  | '{', (opened, folds) => (line :: opened, folds)
  | _, (first :: opened, folds) => (opened, folds.add ⟨.ofNat first, .ofNat line, false⟩)
  | _, ([], folds) => ([], folds)

/-- The regions of the braces of lines. -/
def ofBraces (lines : List (Nat × List Char)) : Folds :=
  (lines.foldl (fun found (line, braces) => braces.foldl (pairBrace line) found) ([], empty)).2

/-- What has been read of the braces of a document. -/
structure Braces where
  /-- The lines with braces, up to the first whose tokens could not be made. -/
  lines : List (Nat × List Char)
  failure : Option Failure
  /-- Whether the tokens of a line did not tile it. -/
  malformed : Bool

/-- Reads the braces of lines that follow each other. Tokens are made only of lines with a brace. -/
def readBraces (r : Retokenizer) (source : Source) (number : Nat) : List SourceLine → Braces
  | [] => ⟨[], none, false⟩
  | l :: ls =>
    if !l.text.any fun c => c == '{' || c == '}' then readBraces r source (number + 1) ls
    else
      match r.lineTokens source number with
      | .error e => ⟨[], some e, false⟩
      | .ok (tokens, malformed) =>
        let rest := readBraces r source (number + 1) ls
        ⟨(number, structuralBraces l.text tokens.tokens) :: rest.lines, rest.failure,
          malformed || rest.malformed⟩

/-- Finds the regions of a document anew. A region is folded if one that started on its first line was. If
the tokens of a line cannot be made, the regions above it are kept, and none is folded. -/
def detect (f : Folds) (r : Retokenizer) (source : Source) : Except Failure Unit × Folds × Retokenizer :=
  if !r.scanner.usesBraces then (.ok (), empty, r)
  else
    let braces := readBraces r source 0 source.lines
    let found := ofBraces braces.lines
    let r := { r with stale := r.stale || braces.malformed }
    match braces.failure with
    | some e => (.error e, found, r)
    | none =>
      (.ok (), ⟨found.regions.map fun x => { x with isFolded := f.isFoldedAt x.first }⟩, r)

end Linewise.Folds
