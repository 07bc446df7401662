import Linewise.Bisect
import Linewise.Buffer

/-!
# Folds

A region of lines can be folded, so that of its lines only the first is shown. Regions may be nested,
overlap, or start on the same line; they are kept in the order of their first lines. The lines that are
shown are numbered anew, without the hidden ones (`toVisual`, `ofVisual`).

Whoever adds a region chooses its lines freely, whether or not the document has them. Their numbers are
64-bit words, so sums and differences of them wrap around. Only a region that wraps around can leave the
order of first lines.
-/

namespace Linewise

/-- A range of lines that can be folded, both ends included. -/
structure FoldRegion where
  first : UInt64
  last : UInt64
  isFolded : Bool
  deriving DecidableEq, Repr

namespace FoldRegion

/-- Number of lines of the region. -/
def lineCount (r : FoldRegion) : UInt64 := r.last - r.first + 1

/-- Number of lines that the region hides. -/
def hiddenLines (r : FoldRegion) : UInt64 := if r.isFolded then r.last - r.first else 0

/-- Whether the region hides a line. -/
def hides (r : FoldRegion) (line : UInt64) : Bool :=
  r.isFolded && decide (r.first < line) && decide (line ≤ r.last)

/-- Whether the region starts on a line. -/
def startsAt (r : FoldRegion) (line : UInt64) : Bool := r.first == line

end FoldRegion

/-- The regions of a document. -/
structure Folds where
  regions : List FoldRegion
  deriving DecidableEq, Repr, Inhabited

namespace Folds

/-- No regions. -/
def empty : Folds := ⟨[]⟩

/-- Adds a region in front of those that start on the same line. A region of one line is left out. -/
def add (f : Folds) (r : FoldRegion) : Folds :=
  if r.last ≤ r.first then f
  else
    let position := bisect (fun x => decide (x.first < r.first)) f.regions.toArray
    ⟨f.regions.take position ++ r :: f.regions.drop position⟩

/-- Changes whether the first region that starts on a line is folded. -/
def toggleFirst (line : UInt64) : List FoldRegion → List FoldRegion
  | [] => []
  | r :: rs =>
    if r.startsAt line then { r with isFolded := !r.isFolded } :: rs else r :: toggleFirst line rs

/-- Folds or unfolds the first region that starts on a line. The answer is whether there is one. -/
def toggle (f : Folds) (line : UInt64) : Bool × Folds :=
  (f.regions.any (·.startsAt line), ⟨toggleFirst line f.regions⟩)

/-- Folds every region. -/
def foldAll (f : Folds) : Folds := ⟨f.regions.map fun r => { r with isFolded := true }⟩

/-- Whether a folded region starts on a line. -/
def isFoldedAt (f : Folds) (line : UInt64) : Bool :=
  f.regions.any fun r => r.startsAt line && r.isFolded

/-- Whether a line is not shown. -/
def isHidden (f : Folds) (line : UInt64) : Bool := f.regions.any (·.hides line)

/-! ### Edits -/

/-- Where a line goes when lines are added behind `pivot`. -/
def pushDown (pivot count line : UInt64) : UInt64 :=
  if pivot < line then line + count else line

/-- Where a line goes when lines behind `pivot` are removed, if it is not one of them. -/
def pullUp (pivot count line : UInt64) : UInt64 :=
  if pivot < line then line - count else line

/-- Whether a line is one of those removed behind `pivot`. -/
def isGone (pivot count line : UInt64) : Bool :=
  decide (pivot < line) && decide (line ≤ pivot + count)

/-- Moves the regions along with their lines. A region that loses its first or its last line, or comes
to lie on one line, is dropped. -/
def adjust (f : Folds) (e : Edit) : Folds :=
  let pivot := UInt64.ofNat e.startLine
  match e.kind with
  | .insert =>
    let move := pushDown pivot (.ofNat e.linesAdded)
    ⟨f.regions.map fun r => { r with first := move r.first, last := move r.last }⟩
  | .remove =>
    if e.linesRemoved = 0 then f
    else
      let gone := isGone pivot (.ofNat e.linesRemoved)
      let move := pullUp pivot (.ofNat e.linesRemoved)
      let kept := f.regions.filter fun r => !gone r.first && !gone r.last
      let moved := kept.map fun r => { r with first := move r.first, last := move r.last }
      ⟨moved.filter fun r => r.first < r.last⟩

/-! ### Numbers of the lines that are shown -/

/-- Number of lines up to `line` that regions hide, of which those before `covered` do not count. -/
def countHidden (line covered : UInt64) : List FoldRegion → UInt64
  | [] => 0
  | r :: rs =>
    if r.isFolded then
      let start := max (r.first + 1) covered
      let stop := min r.last line
      (if start ≤ stop then stop - start + 1 else 0) + countHidden line (max covered (r.last + 1)) rs
    else countHidden line covered rs

/-- Number of hidden lines up to a line, and with it. A line that several regions hide counts once. -/
def hiddenThrough (f : Folds) (line : UInt64) : UInt64 := countHidden line 0 f.regions

/-- The number at which a line is shown: for a hidden line, that of the line which its region starts
on. -/
def toVisual (f : Folds) (line : UInt64) : UInt64 :=
  let shown := ((f.regions.find? (·.hides line)).map (·.first)).getD line
  shown - f.hiddenThrough shown

/-- Applies a function until nothing changes, at most `fuel` times. -/
def settle (g : UInt64 → UInt64) : (fuel : Nat) → (line : UInt64) → UInt64
  | 0, line => line
  | fuel + 1, line =>
    let next := g line
    if next = line then line else settle g fuel next

/-- The line that is shown at a number. Each round adds the hidden lines that the one before has brought
into view. There are no more rounds than line numbers: a line that came back would come back forever. -/
def ofVisual (f : Folds) (visual : UInt64) : UInt64 :=
  settle (fun line => visual + f.hiddenThrough line) UInt64.size visual

/-- Number of lines that are shown of a document, which is never none. -/
def visibleCount (f : Folds) (total : UInt64) : UInt64 :=
  let hidden := if total = 0 then 0 else f.hiddenThrough (total - 1)
  if hidden < total then total - hidden else 1

end Folds

end Linewise
