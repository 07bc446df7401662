import Linewise.Text.Class
import Linewise.Text.Search
import Linewise.Token.Sequence

/-!
# Hyperlinks

No scanner looks for addresses. This pass goes over the tokens of a line and cuts those of comments and
literals so that each address in them is a token of its own, of the same kind and marked as a link. An
address starts with one of a few openings, in small or capital letters, that no letter or digit
precedes; it goes on to the first character that addresses do not hold, less the punctuation at its
end.
-/

namespace Linewise.Hyperlink

/-- How an address may start. -/
def openings : List (List Char) :=
  ["https://".toList, "http://".toList, "ftp://".toList, "www.".toList]

/-- Length of the opening at the front of a text. -/
def opening? (cs : List Char) : Option Nat :=
  (openings.find? fun o => Text.startsWithFolded o cs).map List.length

/-- Whether an address may hold a character. -/
def isAddressChar (c : Char) : Bool :=
  !(Text.isBlank c || ['\x22', '\x27', '<', '>', '\x60', '*'].contains c)

/-- Whether a character is left out at the end of an address. -/
def isTrailing (c : Char) : Bool := ['.', ',', ';', ':', ')', '!', '?'].contains c

/-- Number of characters that belong to an address behind its opening. -/
def tailLength (cs : List Char) : Nat :=
  ((cs.takeWhile isAddressChar).reverse.dropWhile isTrailing).length

/-- Length of the address at the front of a text, in front of which `before` stands. -/
def address? (before : Option Char) (cs : List Char) : Option Nat :=
  match opening? cs with
  | none => none
  | some n =>
    let tail := tailLength (cs.drop n)
    if before.any Text.isAlphanumeric ∨ tail = 0 then none else some (n + tail)

/-- A part of a token: its length, and whether it is a link. -/
structure Piece where
  length : Nat
  isLink : Bool
  deriving DecidableEq, Repr

/-- Cuts a text into links and what lies between them. In front of it stand `before` and `plain`
characters that belong to no link. The last piece, which holds no link, may be empty. -/
def pieces (before : Option Char) (plain : Nat) (cs : List Char) : List Piece :=
  match cs with
  | [] => [⟨plain, false⟩]
  | c :: rest =>
    match address? before (c :: rest) with
    | none => pieces (some c) (plain + 1) rest
    | some n =>
      ⟨plain, false⟩ :: ⟨n, true⟩ ::
        pieces (rest.take (n - 1)).getLast? 0 (rest.drop (n - 1))
termination_by cs.length
decreasing_by
  · simp only [List.length_cons]; omega
  · simp only [List.length_drop, List.length_cons]; omega

/-- Turns the parts of a token into tokens, leaving out those without characters. -/
def placePieces (t : Token) : (start : Nat) → List Piece → List Token
  | _, [] => []
  | start, p :: ps =>
    let rest := placePieces t (start + p.length) ps
    if p.length = 0 then rest
    else
      { t with
        start := start
        length := p.length
        offset := t.offset + .ofNat (start - t.start)
        isLink := p.isLink } :: rest

/-- The parts of a token of a line. What of the token lies behind the line's end holds no links. -/
def tokenPieces (line : List Char) (t : Token) : List Piece :=
  let text := t.text line
  let ps := pieces none 0 text
  match ps.getLast? with
  | none => []
  | some last => ps.dropLast ++ [{ last with length := last.length + (t.length - text.length) }]

/-- Whether links are looked for in a token. -/
def isCandidate (t : Token) : Bool := t.kind.isComment || t.kind.isStringLike

/-- Cuts a token at its links. -/
def cut (line : List Char) (t : Token) : List Token :=
  if isCandidate t then placePieces t t.start (tokenPieces line t) else [t]

/-- The number of links in tokens of a line. -/
def linkCount (line : List Char) (ts : List Token) : Nat :=
  ((ts.filter isCandidate).flatMap (tokenPieces line)).countP (·.isLink)

/-- Marks the links in the tokens of a line. The answer holds their number; without any, nothing is
changed. -/
def mark (line : List Char) (s : Token.Sequence) : Nat × Token.Sequence :=
  let found := linkCount line s.tokens
  if found = 0 then (0, s) else (found, { s with tokens := s.tokens.flatMap (cut line) })

end Linewise.Hyperlink
