import Linewise.CFamily.Scan

/-!
# What a line leaves open

The state behind a line says which construct the line leaves open, and of a comment how deep, up to the
deepest level that is told apart. `CFamily.leftOpen?` follows the scan and says it exactly.

* `CFamily.state_scan`: **the state behind a text is the one that carries what the text leaves open**.
* `CFamily.Construct.code_carried_lt`: such a state is a small number, below those of an embedding scanner.
* `CFamily.Construct.ofState?_carried`: a construct that a state can carry is read back from it.
-/

namespace Linewise.CFamily

/-! ### States that carry a construct -/

namespace Construct

theorem code_toState_nested (more : Nat) (doc : Bool) :
    (toState (.comment (more + 2) doc)).code.toNat = 8 + 2 * min (more + 2) maxDepth + if doc then 1 else 0 := by
  have hdepth : min (more + 2) maxDepth ≤ 11 := Nat.min_le_right ..
  have hdoc : (if doc then 1 else 0) ≤ 1 := by split <;> decide
  show (UInt32.ofNat (8 + 2 * min (more + 2) maxDepth + if doc then 1 else 0)).toNat = _
  rw [UInt32.toNat_ofNat', Nat.mod_eq_of_lt (by omega)]

theorem code_toState_nested_bounds (more : Nat) (doc : Bool) :
    12 ≤ (toState (.comment (more + 2) doc)).code.toNat ∧
      (toState (.comment (more + 2) doc)).code.toNat ≤ 31 := by
  have hmax : maxDepth = 11 := rfl
  have hdoc : (if doc then 1 else 0) ≤ 1 := by split <;> decide
  rw [code_toState_nested]
  omega

theorem code_carried_lt (left : Option Construct) : (carried left).code.toNat < 32 := by
  cases left with
  | none => decide
  | some construct =>
    cases construct with
    | string => exact show 3 < 32 by decide
    | template => exact show 4 < 32 by decide
    | comment depth doc =>
      match depth with
      | 0 => exact show 0 < 32 by decide
      | 1 => cases doc <;> decide
      | more + 2 => exact Nat.lt_succ_of_le (code_toState_nested_bounds more doc).2

/-- A construct that a dialect has. -/
def KnownTo (d : Dialect) : Construct → Prop
  | .template => d.templateStrings = true
  | _ => True

theorem knownTo_of_ofState? {d : Dialect} {s : LineState} {construct : Construct}
    (h : ofState? d s = some construct) : construct.KnownTo d := by
  unfold ofState? at h
  split at h
  · obtain rfl := Option.some.inj h
    trivial
  · split at h
    · obtain rfl := Option.some.inj h
      trivial
    · split at h
      · next htemplate =>
        obtain rfl := Option.some.inj h
        exact htemplate.2
      · cases h

/-- The depth of a comment is told apart from all others. -/
def Exact : Construct → Prop
  | .comment depth _ => depth ≤ maxDepth
  | _ => True

/-- What is carried is read back, unless the depth of a comment is past those that are told apart. -/
theorem ofState?_carried {d : Dialect} {left : Option Construct} (hcarried : carried left ≠ .neutral)
    (hknown : ∀ construct ∈ left, construct.KnownTo d) (hexact : ∀ construct ∈ left, construct.Exact) :
    ofState? d (carried left) = left := by
  cases left with
  | none => exact absurd rfl hcarried
  | some construct =>
    have hknown := hknown construct rfl
    have hexact := hexact construct rfl
    cases construct with
    | string => rfl
    | template => exact if_pos ⟨rfl, hknown⟩
    | comment depth doc =>
      have hdepth : 1 ≤ depth := by
        refine Nat.one_le_iff_ne_zero.2 ?_
        rintro rfl
        exact hcarried rfl
      have hopen := openComment?_toState hdepth doc
      rw [Nat.min_eq_left hexact] at hopen
      unfold ofState?
      rw [carried, hopen]

end Construct

/-! ### What a scan leaves open -/

/-- What is open at the end of a text that is read on behind the characters `seen`, nearest first. -/
def leftOpenFrom (d : Dialect) (seen : List Char) : List Char → Option Construct
  | [] => none
  | c :: cs =>
    match next d seen c cs with
    | .upTo _ length => leftOpenFrom d ((cs.take length).reverse ++ c :: seen) (cs.drop length)
    | .toEnd _ left => left
termination_by cs => cs.length
decreasing_by simp only [List.length_drop, List.length_cons]; omega

/-- What is open at the end of a text that starts with an extent. -/
def leftBehind (d : Dialect) (seen cs : List Char) : Extent → Option Construct
  | .upTo _ length => leftOpenFrom d ((cs.take length).reverse ++ seen) (cs.drop length)
  | .toEnd _ left => left

/-- What is open at the end of a text that starts in a given state. -/
def leftOpen? (d : Dialect) (initial : LineState) (cs : List Char) : Option Construct :=
  match Construct.ofState? d initial with
  | none => leftOpenFrom d [] cs
  | some construct => leftBehind d [] cs (resume d construct cs)

theorem leftOpenFrom_nil (d : Dialect) (seen : List Char) : leftOpenFrom d seen [] = none := by
  rw [leftOpenFrom]

theorem leftOpenFrom_cons (d : Dialect) (seen : List Char) (c : Char) (cs : List Char) :
    leftOpenFrom d seen (c :: cs) = leftBehind d (c :: seen) cs (next d seen c cs) := by
  rw [leftOpenFrom]
  cases next d seen c cs <;> rfl

theorem state_scanFrom (d : Dialect) (seen cs : List Char) :
    (scanFrom d seen cs).state = Construct.carried (leftOpenFrom d seen cs) := by
  fun_induction scanFrom d seen cs with
  | case1 => rw [leftOpenFrom_nil]; rfl
  | case2 seen c cs kind length h ih => rw [leftOpenFrom_cons, h]; exact ih
  | case3 seen c cs kind left h => rw [leftOpenFrom_cons, h]; rfl

/-- **The state behind a text** is the one that carries what the text leaves open. -/
theorem state_scan (d : Dialect) (initial : LineState) (cs : List Char) :
    (scan d initial cs).state = Construct.carried (leftOpen? d initial cs) := by
  unfold scan leftOpen?
  cases Construct.ofState? d initial with
  | none => exact state_scanFrom d [] cs
  | some construct =>
    dsimp only
    cases resume d construct cs with
    | upTo kind length =>
      rw [leftBehind, List.append_nil]
      exact state_scanFrom ..
    | toEnd kind left => rfl

theorem code_state_scan_lt (d : Dialect) (initial : LineState) (cs : List Char) :
    (scan d initial cs).state.code.toNat < 32 := by
  rw [state_scan]
  exact Construct.code_carried_lt _

end Linewise.CFamily
