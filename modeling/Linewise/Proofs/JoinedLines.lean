import Linewise.Proofs.ClosedConstructs
import Linewise.Proofs.JoinedMarkup
import Mathlib.Data.List.Basic

/-!
# Joined lines

The state that a line ends in says all about what is open there that the next line needs: the two lines, joined
with a line end, end in the same state as the second one does from the state of the first. For the scanners of
the C family this rests on what joined lines leave open (`CFamily.leftOpen?_joined`). What stands in front of a
construct does not count behind it, since without regular expressions all that is asked is whether it is blank
(`leftOpenFrom_congr`), and no construct is closed by blanks (`not_blank_of_resume`).

* `Scanner.stateAfter_joined`: **the carried state is all that an open construct needs**.
-/

namespace Linewise

open Text (joined joined_cons drop_joined take_joined drop_joined_add take_joined_add)

namespace CFamily

/-! ### What closes a construct is not blank -/

theorem not_blank_of_resume {d : Dialect} {construct : Construct} {kind : Token.Kind} {n : Nat}
    {cs : List Char} (h : resume d construct cs = .upTo kind n) : (cs.take n).all Text.isBlank = false := by
  obtain ⟨x, hx, hclosed⟩ := exists_closedBy_resume d cs construct
  rw [h] at hclosed
  have hmarks : ∀ x ∈ ['/', '\x22', '\x60'], ¬Text.isBlank x = true := List.forall_iff_forall_mem.mp (by decide)
  exact List.all_eq_false.2 ⟨x, List.mem_of_getLast? hclosed, hmarks x hx⟩

/-! ### What the joined lines leave open -/

theorem lt_length_of_leftOpenFrom {d : Dialect} {seen cs : List Char} {n : Nat} {construct : Construct}
    (h : leftOpenFrom d seen (cs.drop n) = some construct) : n < cs.length := by
  refine Nat.lt_of_not_le fun hle => ?_
  rw [List.drop_eq_nil_of_le hle, leftOpenFrom_nil] at h
  cases h

section Left
variable {d : Dialect} (hpatterns : d.patterns = false)
include hpatterns

/-- Without regular expressions, all that counts of what stands in front is whether it is blank. -/
theorem leftOpenFrom_congr {seen other : List Char} (h : seen.all Text.isBlank = other.all Text.isBlank)
    (cs : List Char) : leftOpenFrom d seen cs = leftOpenFrom d other cs := by
  have hnext {seen other : List Char} (h : seen.all Text.isBlank = other.all Text.isBlank) (c : Char)
      (cs : List Char) : next d seen c cs = next d other c cs := by
    unfold next
    rw [pattern?_eq_none hpatterns, pattern?_eq_none hpatterns, directive?, directive?, h]
  fun_induction leftOpenFrom d seen cs generalizing other with
  | case1 => rw [leftOpenFrom_nil]
  | case2 seen c cs kind length hextent ih =>
    rw [leftOpenFrom_cons, ← hnext h, hextent]
    exact ih (by simp [h])
  | case3 seen c cs kind left hextent =>
    rw [leftOpenFrom_cons, ← hnext h, hextent]
    rfl

/-- A construct that goes on behind the line end leaves open what it does as the start of the second line. -/
theorem leftBehind_shift (seen cs rest : List Char) (construct : Construct) :
    leftBehind d seen (joined cs rest) ((resume d construct rest).shift (cs.length + 1)) =
      leftBehind d [] rest (resume d construct rest) := by
  cases hextent : resume d construct rest with
  | toEnd kind left => rfl
  | upTo kind n =>
    have hblank := not_blank_of_resume hextent
    rw [Extent.shift, leftBehind, leftBehind, drop_joined_add, take_joined_add]
    exact leftOpenFrom_congr hpatterns (by simp [hblank]) _

theorem leftOpenFrom_joined {construct : Construct} (seen cs rest : List Char)
    (h : leftOpenFrom d seen cs = some construct) :
    construct.KnownTo d ∧
      leftOpenFrom d seen (joined cs rest) = leftBehind d [] rest (resume d construct rest) := by
  fun_induction leftOpenFrom d seen cs with
  | case1 => cases h
  | case2 seen c cs kind length hextent ih =>
    have hlt := lt_length_of_leftOpenFrom h
    have hcontinues := next_continues hpatterns seen c cs rest
    rw [hextent] at hcontinues
    obtain ⟨hknown, hleft⟩ := ih h
    refine ⟨hknown, ?_⟩
    rw [joined_cons, leftOpenFrom_cons, hcontinues hlt, leftBehind, take_joined (Nat.le_of_lt hlt),
      drop_joined (Nat.le_of_lt hlt), hleft]
  | case3 seen c cs kind left hextent =>
    subst h
    have hcontinues := next_continues hpatterns seen c cs rest
    rw [hextent] at hcontinues
    refine ⟨hcontinues.1, ?_⟩
    rw [joined_cons, leftOpenFrom_cons, hcontinues.2]
    exact leftBehind_shift hpatterns ..

/-- **What the joined lines leave open** is what the second one does that starts in the construct that the
first leaves open. -/
theorem leftOpen?_joined {construct : Construct} (s : LineState) (cs rest : List Char)
    (h : leftOpen? d s cs = some construct) :
    construct.KnownTo d ∧ leftOpen? d s (joined cs rest) = leftBehind d [] rest (resume d construct rest) := by
  unfold leftOpen? at h ⊢
  cases hinitial : Construct.ofState? d s with
  | none =>
    rw [hinitial] at h
    exact leftOpenFrom_joined hpatterns [] cs rest h
  | some initial =>
    rw [hinitial] at h
    have hcontinues := resume_continues (Construct.knownTo_of_ofState? hinitial) cs rest
    dsimp only at h ⊢
    cases hextent : resume d initial cs with
    | upTo kind n =>
      rw [hextent] at h hcontinues
      rw [leftBehind, List.append_nil] at h
      have hlt := lt_length_of_leftOpenFrom h
      rw [hcontinues hlt, leftBehind, take_joined (Nat.le_of_lt hlt), drop_joined (Nat.le_of_lt hlt),
        List.append_nil]
      exact leftOpenFrom_joined hpatterns _ _ rest h
    | toEnd kind left =>
      rw [hextent] at h hcontinues
      obtain rfl : left = some construct := h
      rw [hcontinues.2]
      exact ⟨hcontinues.1, leftBehind_shift hpatterns ..⟩

/-- The second line, read from the state that the first ends in, ends as the joined lines do. -/
theorem state_scan_joined (s : LineState) (cs rest : List Char) (hopen : (scan d s cs).state ≠ .neutral)
    (hexact : ∀ construct ∈ leftOpen? d s cs, construct.Exact) :
    (scan d s (joined cs rest)).state = (scan d (scan d s cs).state rest).state := by
  rw [state_scan d s cs] at hopen ⊢
  obtain ⟨construct, hleft⟩ : ∃ construct, leftOpen? d s cs = some construct := by
    cases hleft : leftOpen? d s cs with
    | none => rw [hleft] at hopen; exact absurd rfl hopen
    | some construct => exact ⟨construct, rfl⟩
  obtain ⟨hknown, hjoined⟩ := leftOpen?_joined hpatterns s cs rest hleft
  have hstate : Construct.ofState? d (Construct.carried (leftOpen? d s cs)) = some construct := by
    rw [Construct.ofState?_carried hopen _ hexact, hleft]
    rw [hleft]
    intro _ h
    obtain rfl := Option.some.inj h
    exact hknown
  rw [state_scan, state_scan, hjoined, leftOpen?, hstate]

end Left

end CFamily

/-- **The carried state is all that an open construct needs.** For a scanner of the C family without regular
expressions, whatever the state in front of two lines, let the first end in a state that is not neutral. If a
comment is open there, let it be no deeper than the deepest level that is told apart. Then the two lines, joined
with a line end, end in the same state as the second one does from the state of the first. For the scanner of
markup the same holds if the state of the first line says that it ends in a tag, in a comment or in an attribute
value. -/
theorem Scanner.stateAfter_joined :
    (∀ (d : CFamily.Dialect) (s : LineState) (first second : List Char),
      d.patterns = false →
      (CFamily.scanner d).stateAfter first s ≠ .neutral →
      (∀ depth doc, CFamily.leftOpen? d s first = some (.comment depth doc) → depth ≤ CFamily.maxDepth) →
      (CFamily.scanner d).stateAfter (first ++ '\n' :: second) s =
        (CFamily.scanner d).stateAfter second ((CFamily.scanner d).stateAfter first s)) ∧
    ∀ (s : LineState) (first second : List Char),
      (Markup.scanner.stateAfter first s).code ∈ [1, 2, 3, 4, 9, 11, 12] →
      Markup.scanner.stateAfter (first ++ '\n' :: second) s =
        Markup.scanner.stateAfter second (Markup.scanner.stateAfter first s) := by
  refine ⟨fun d s first second hpatterns hopen hdepth => ?_, Markup.state_scan_joined⟩
  refine CFamily.state_scan_joined hpatterns s first second hopen fun construct hleft => ?_
  cases construct with
  | comment depth doc => exact hdepth depth doc hleft
  | string => trivial
  | template => trivial

/-- A comment of Rust, two levels deep, whose first line ends inside a closing mark, and an attribute of a
script tag, with a line end in its value. -/
theorem Scanner.stateAfter_joined_nested_comment :
    let rust := CFamily.scanner .rust
    let first := "/* /*/ *".toList
    let second := "/ */ \"".toList
    let tag := "<script src='a".toList
    let value := "b' /x>".toList
    rust.stateAfter first .neutral ≠ .neutral ∧
      rust.stateAfter (first ++ '\n' :: second) .neutral =
        rust.stateAfter second (rust.stateAfter first .neutral) ∧
      Markup.scanner.stateAfter (tag ++ '\n' :: value) .neutral =
        Markup.scanner.stateAfter value (Markup.scanner.stateAfter tag .neutral) := by
  intro rust first second tag value
  have hopen : rust.stateAfter first .neutral ≠ .neutral := by decide +kernel
  have hleft : CFamily.leftOpen? .rust .neutral first = some (.comment 2 false) := by decide +kernel
  have hvalue : (Markup.scanner.stateAfter tag .neutral).code ∈ [1, 2, 3, 4, 9, 11, 12] := by decide +kernel
  refine ⟨hopen, Scanner.stateAfter_joined.1 .rust .neutral first second (by decide) hopen ?_,
    Scanner.stateAfter_joined.2 .neutral tag value hvalue⟩
  intro depth doc h
  rw [hleft] at h
  cases h
  decide

end Linewise
