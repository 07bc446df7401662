import Linewise.CFamily.Dialect
import Linewise.LineState

/-!
# Constructs that stay open at a line's end

A block comment, a string or a template string can run on in the next line. The carried state says
which of them is open: 1 and 2 are a block comment and a documentation comment, 3 a string, 4 a
template string. Comments nested two levels deep and deeper are `8 + 2 · depth`, one more if the
outermost comment is documentation; depths past `maxDepth` are not told apart.
-/

namespace Linewise.CFamily

/-- Deepest nesting of comments that is carried exactly. -/
def maxDepth : Nat := 11

/-- A construct that goes on in the next line. -/
inductive Construct where
  /-- A block comment, `depth` levels deep, with a documentation comment outermost or not. -/
  | comment (depth : Nat) (doc : Bool)
  | string
  | template
  deriving DecidableEq, Repr

namespace Construct

/-- The state that carries an open construct. A comment of depth 0 is closed. -/
def toState : Construct → LineState
  | .comment 0 _ => .neutral
  | .comment 1 doc => ⟨if doc then 2 else 1⟩
  | .comment depth doc => ⟨UInt32.ofNat (8 + 2 * min depth maxDepth + if doc then 1 else 0)⟩
  | .string => ⟨3⟩
  | .template => ⟨4⟩

/-- The state that carries what a line leaves open. -/
def carried : Option Construct → LineState
  | none => .neutral
  | some construct => construct.toState

/-- The comment that a state carries. -/
def openComment? (s : LineState) : Option (Nat × Bool) :=
  let n := s.code.toNat
  if n = 1 then some (1, false)
  else if n = 2 then some (1, true)
  else if 12 ≤ n ∧ n ≤ 9 + 2 * maxDepth then some ((n - 8) / 2, n % 2 == 1)
  else none

/-- The construct that a state carries in a dialect. A state that means nothing there is neutral. -/
def ofState? (d : Dialect) (s : LineState) : Option Construct :=
  match openComment? s with
  | some (depth, doc) => some (.comment depth doc)
  | none =>
    if s = ⟨3⟩ then some .string
    else if s = ⟨4⟩ ∧ d.templateStrings then some .template
    else none

/-- A carried comment is read back as it was, up to the deepest level that is told apart. -/
theorem openComment?_toState {depth : Nat} (h : 1 ≤ depth) (doc : Bool) :
    openComment? (toState (.comment depth doc)) = some (min depth maxDepth, doc) := by
  have hsmall : ∀ n ∈ List.range 12, 1 ≤ n → ∀ b : Bool,
      openComment? (toState (.comment n b)) = some (n, b) := by decide
  by_cases hd : depth ≤ maxDepth
  · rw [Nat.min_eq_left hd]
    exact hsmall depth (by simp [maxDepth] at hd ⊢; omega) h doc
  · have hd' : maxDepth ≤ depth := by omega
    have hsame : toState (.comment depth doc) = toState (.comment maxDepth doc) := by
      obtain ⟨n, rfl⟩ : ∃ n, depth = n + 2 := ⟨depth - 2, by simp [maxDepth] at hd; omega⟩
      simp only [toState, maxDepth] at hd' ⊢
      rw [Nat.min_eq_right hd']
      rfl
    rw [hsame, Nat.min_eq_right hd']
    exact hsmall maxDepth (by decide) (by decide) doc

end Construct

end Linewise.CFamily
