import Linewise.CFamily.Bounds
import Linewise.Proofs.OpenConstructs
import Mathlib.Data.List.Induction
import Mathlib.Data.Nat.Init

/-!
# Carried states

A state is a bare number, and the scanner that reads the next line must find in it what the line before meant.
For the scanners of the C family, this module says which numbers occur behind lines that follow each other from
the start of a text on (`Scanner.stateBehind`). A line of a dialect leaves open only what the dialect has
(`CFamily.Construct.LeftBy`), if it starts in a state that carries no more than that (`CFamily.IsCarried`).

* `CFamily.Construct.openComment?_eq_some_iff`: comments up to the deepest level and the states that carry one
  are told by each other.
* `CFamily.isCarried_scan`, `CFamily.isCarried_stateBehind`: what one line preserves, and so all lines.
* `CFamily.exists_stateBehind`: **every state that carries what a dialect can leave open occurs**.
-/

namespace Linewise

theorem LineState.eq_of_toNat_eq {s t : LineState} (h : s.code.toNat = t.code.toNat) : s = t :=
  congrArg LineState.mk (UInt32.toNat_inj.mp h)

/-- The state behind lines that follow each other from the start of a text on. -/
def Scanner.stateBehind (s : Scanner) (lines : List (List Char)) : LineState :=
  lines.foldl (fun before line => s.stateAfter line before) .neutral

theorem Scanner.stateBehind_concat (s : Scanner) (lines : List (List Char)) (line : List Char) :
    s.stateBehind (lines ++ [line]) = s.stateAfter line (s.stateBehind lines) := by
  simp [stateBehind]

namespace CFamily

/-! ### States of comments -/

namespace Construct

/-- **A comment is told by its state**, and a state by the comment that it carries, up to the deepest level. -/
theorem openComment?_eq_some_iff {s : LineState} {depth : Nat} {doc : Bool} :
    openComment? s = some (depth, doc) ↔
      (1 ≤ depth ∧ depth ≤ maxDepth) ∧ toState (.comment depth doc) = s := by
  constructor
  · intro h
    unfold openComment? at h
    dsimp only at h
    split_ifs at h with hblock hdoc hnested
    · obtain ⟨rfl, rfl⟩ := Prod.mk.inj (Option.some.inj h)
      exact ⟨by decide, LineState.eq_of_toNat_eq hblock.symm⟩
    · obtain ⟨rfl, rfl⟩ := Prod.mk.inj (Option.some.inj h)
      exact ⟨by decide, LineState.eq_of_toNat_eq hdoc.symm⟩
    · obtain ⟨hdepth, hdoc⟩ := Prod.mk.inj (Option.some.inj h)
      have hmax : maxDepth = 11 := rfl
      obtain ⟨more, rfl⟩ : ∃ more, depth = more + 2 := ⟨depth - 2, by omega⟩
      refine ⟨by omega, LineState.eq_of_toNat_eq ?_⟩
      rw [code_toState_nested, Nat.min_eq_left (by omega), ← hdoc]
      by_cases hodd : s.code.toNat % 2 = 1
      · rw [beq_iff_eq.mpr hodd, if_pos rfl]
        omega
      · rw [beq_false_of_ne hodd, if_neg Bool.false_ne_true]
        omega
  · rintro ⟨⟨hpos, hmax⟩, rfl⟩
    rw [openComment?_toState hpos, Nat.min_eq_left hmax]

end Construct

/-! ### What a dialect can leave open -/

/-- A construct that a line of a dialect can leave open: template strings only where there are any, and a comment
inside another one only where comments nest. -/
def Construct.LeftBy (d : Dialect) : Construct → Prop
  | .comment depth _ => depth ≤ 1 ∨ d.nestedComments = true
  | .string => True
  | .template => d.templateStrings = true

/-- A state that carries what a line of a dialect can leave open. -/
def IsCarried (d : Dialect) (s : LineState) : Prop :=
  s.code.toNat ≤ 3 ∨ s.code.toNat = 4 ∧ d.templateStrings = true ∨
    (12 ≤ s.code.toNat ∧ s.code.toNat ≤ 31) ∧ d.nestedComments = true

section Dialect
variable {d : Dialect}

theorem isCarried_neutral (d : Dialect) : IsCarried d .neutral := Or.inl (Nat.zero_le 3)

theorem isCarried_carried {left : Option Construct} (h : ∀ construct ∈ left, construct.LeftBy d) :
    IsCarried d (Construct.carried left) := by
  cases left with
  | none => exact isCarried_neutral d
  | some construct =>
    have hleft := h construct rfl
    cases construct with
    | string => exact Or.inl (Nat.le_refl 3)
    | template => exact Or.inr (Or.inl ⟨rfl, hleft⟩)
    | comment depth doc =>
      match depth, hleft with
      | 0, _ => exact isCarried_neutral d
      | 1, _ => cases doc <;> exact Or.inl (by decide)
      | more + 2, hleft =>
        have hnested : d.nestedComments = true := hleft.resolve_left (by omega)
        exact Or.inr (Or.inr ⟨Construct.code_toState_nested_bounds more doc, hnested⟩)

theorem leftBy_of_ofState? {s : LineState} {construct : Construct} (hs : IsCarried d s)
    (h : Construct.ofState? d s = some construct) : construct.LeftBy d := by
  unfold Construct.ofState? at h
  cases hopen : Construct.openComment? s with
  | some comment =>
    rw [hopen] at h
    obtain rfl := Option.some.inj h
    obtain ⟨⟨hpos, -⟩, rfl⟩ := Construct.openComment?_eq_some_iff.mp hopen
    by_cases hdepth : comment.1 ≤ 1
    · exact Or.inl hdepth
    · obtain ⟨more, hmore⟩ : ∃ more, comment.1 = more + 2 := ⟨comment.1 - 2, by omega⟩
      have hcode := (Construct.code_toState_nested_bounds more comment.2).1
      rw [hmore] at hs
      rcases hs with hs | ⟨hs, -⟩ | ⟨-, hnested⟩
      · omega
      · omega
      · exact Or.inr hnested
  | none =>
    rw [hopen] at h
    dsimp only at h
    split_ifs at h with hstring htemplate
    · obtain rfl := Option.some.inj h
      trivial
    · obtain rfl := Option.some.inj h
      exact htemplate.2

/-- An extent that leaves open only what a dialect can leave open. -/
def Extent.LeavesOnly (d : Dialect) : Extent → Prop
  | .upTo _ _ => True
  | .toEnd _ left => ∀ construct ∈ left, construct.LeftBy d

theorem Extent.LeavesOnly.shift {e : Extent} (h : e.LeavesOnly d) (n : Nat) : (e.shift n).LeavesOnly d := by
  cases e with
  | upTo kind length => trivial
  | toEnd kind left => exact h

theorem leavesOnly_toEnd (construct : Construct) (h : construct.LeftBy d) (kind : Token.Kind) :
    (Extent.toEnd kind (some construct)).LeavesOnly d := by
  intro left hleft
  obtain rfl := Option.some.inj hleft
  exact h

theorem leavesOnly_toEnd_none (d : Dialect) (kind : Token.Kind) : (Extent.toEnd kind none).LeavesOnly d :=
  nofun

theorem leavesOnly_commentExtent {depth : Nat} (h : depth ≤ 1 ∨ d.nestedComments = true) (doc : Bool)
    (cs : List Char) : (commentExtent d depth doc cs).LeavesOnly d := by
  unfold commentExtent
  cases hend : commentEnd d depth cs with
  | closed length => trivial
  | stillOpen left =>
    refine leavesOnly_toEnd _ ?_ _
    by_cases hnested : d.nestedComments = true
    · exact Or.inr hnested
    · -- Where comments do not nest, the depth stays what it was.
      rw [commentEnd, if_neg hnested, flatEnd] at hend
      split at hend
      · cases hend
      · obtain rfl := CommentEnd.stillOpen.inj hend
        exact h

theorem leavesOnly_stringExtent (d : Dialect) (cs : List Char) : (stringExtent d cs).LeavesOnly d := by
  unfold stringExtent
  split
  · trivial
  · exact leavesOnly_toEnd .string trivial _
  · split
    · exact leavesOnly_toEnd .string trivial _
    · exact leavesOnly_toEnd_none d _

theorem leavesOnly_templateExtent (h : d.templateStrings = true) (cs : List Char) :
    (templateExtent cs).LeavesOnly d := by
  unfold templateExtent
  split
  · trivial
  · exact leavesOnly_toEnd .template h _

theorem leavesOnly_singleQuoteExtent (d : Dialect) (cs : List Char) : (singleQuoteExtent d cs).LeavesOnly d := by
  unfold singleQuoteExtent
  split
  · split_ifs <;> trivial
  · exact leavesOnly_toEnd_none d _

section Next
variable {seen : List Char} {c : Char} {cs : List Char}

theorem leavesOnly_of_upTo {p : Prop} [Decidable p] {kind : Token.Kind} {length : Nat} :
    ∀ e ∈ (if p then some (Extent.upTo kind length) else none), e.LeavesOnly d := by
  intro e he
  split_ifs at he
  · obtain rfl := Option.some.inj he
    trivial
  · cases he

theorem leavesOnly_comment? : ∀ e ∈ comment? d c cs, e.LeavesOnly d := by
  intro e he
  unfold comment? at he
  split_ifs at he
  · split at he
    · obtain rfl := Option.some.inj he
      exact leavesOnly_toEnd_none d _
    · obtain rfl := Option.some.inj he
      exact (leavesOnly_commentExtent (Or.inl (Nat.le_refl 1)) _ _).shift 1
    · cases he
  · cases he

theorem leavesOnly_pattern? : ∀ e ∈ pattern? d seen c cs, e.LeavesOnly d := by
  intro e he
  unfold pattern? at he
  split_ifs at he
  · obtain ⟨n, -, rfl⟩ := Option.map_eq_some_iff.mp he
    trivial
  · cases he

theorem leavesOnly_quoted? : ∀ e ∈ quoted? d c cs, e.LeavesOnly d := by
  intro e he
  unfold quoted? at he
  split_ifs at he with hstring htemplate hsingle hlifetime
  · obtain rfl := Option.some.inj he
    exact leavesOnly_stringExtent d cs
  · obtain rfl := Option.some.inj he
    exact leavesOnly_templateExtent htemplate.2 cs
  · obtain rfl := Option.some.inj he
    trivial
  · obtain rfl := Option.some.inj he
    exact leavesOnly_singleQuoteExtent d cs
  · cases he

theorem leavesOnly_punctuation : (punctuation c cs).LeavesOnly d := by
  unfold punctuation
  split_ifs <;> trivial

theorem leavesOnly_next (d : Dialect) (seen : List Char) (c : Char) (cs : List Char) :
    (next d seen c cs).LeavesOnly d := by
  have hfound : ∀ e ∈ (blank? c cs <|> comment? d c cs <|> pattern? d seen c cs <|> quoted? d c cs <|>
      number? d c cs <|> word? d c cs <|> directive? d seen c cs <|> annotated? d c cs), e.LeavesOnly d :=
    forall_mem_orElse leavesOnly_of_upTo <| forall_mem_orElse leavesOnly_comment? <|
      forall_mem_orElse leavesOnly_pattern? <| forall_mem_orElse leavesOnly_quoted? <|
      forall_mem_orElse leavesOnly_of_upTo <| forall_mem_orElse leavesOnly_of_upTo <|
      forall_mem_orElse leavesOnly_of_upTo leavesOnly_of_upTo
  unfold next
  generalize (blank? c cs <|> _ : Option Extent) = found at hfound ⊢
  cases found with
  | none => exact leavesOnly_punctuation
  | some e => exact hfound e rfl

end Next

/-! ### What a line preserves -/

theorem leavesOnly_resume {construct : Construct} (h : construct.LeftBy d) (cs : List Char) :
    (resume d construct cs).LeavesOnly d := by
  cases construct with
  | comment depth doc => exact leavesOnly_commentExtent h doc cs
  | string => exact leavesOnly_stringExtent d cs
  | template => exact leavesOnly_templateExtent h cs

theorem leftBy_leftOpenFrom (d : Dialect) (seen cs : List Char) :
    ∀ construct ∈ leftOpenFrom d seen cs, construct.LeftBy d := by
  fun_induction leftOpenFrom d seen cs with
  | case1 => nofun
  | case2 seen c cs kind length h ih => exact ih
  | case3 seen c cs kind left h =>
    have hleaves := leavesOnly_next d seen c cs
    rwa [h] at hleaves

theorem leftBy_leftOpen? {s : LineState} (hs : IsCarried d s) (cs : List Char) :
    ∀ construct ∈ leftOpen? d s cs, construct.LeftBy d := by
  unfold leftOpen?
  cases hopen : Construct.ofState? d s with
  | none => exact leftBy_leftOpenFrom d [] cs
  | some construct =>
    have hleaves := leavesOnly_resume (leftBy_of_ofState? hs hopen) cs
    dsimp only
    cases hextent : resume d construct cs with
    | upTo kind length => exact leftBy_leftOpenFrom d _ _
    | toEnd kind left =>
      rw [hextent] at hleaves
      exact hleaves

/-- **A line carries on** only what its dialect can leave open. -/
theorem isCarried_scan {s : LineState} (hs : IsCarried d s) (cs : List Char) :
    IsCarried d (scan d s cs).state := by
  rw [state_scan]
  exact isCarried_carried (leftBy_leftOpen? hs cs)

/-- **So do all lines** that follow each other from the start of a text on. -/
theorem isCarried_stateBehind (d : Dialect) (lines : List (List Char)) :
    IsCarried d ((scanner d).stateBehind lines) := by
  induction lines using List.reverseRecOn with
  | nil => exact isCarried_neutral d
  | append_singleton lines line ih =>
    rw [Scanner.stateBehind_concat]
    exact isCarried_scan ih line

/-- Fifteen comments inside one another, each opened on a line of its own: the state stays at the deepest level that
is told apart. -/
example : (scanner .rust).stateBehind (List.replicate 15 ['/', '*']) = ⟨30⟩ := by decide +kernel

/-! ### Every such state occurs -/

theorem stateBehind_singleton {line : List Char} {left : Option Construct} (h : leftOpenFrom d [] line = left) :
    (scanner d).stateBehind [line] = Construct.carried left := by
  have hstate := state_scan d .neutral line
  rw [leftOpen?, show Construct.ofState? d .neutral = none from rfl] at hstate
  exact hstate.trans (congrArg Construct.carried h)

theorem leftOpenFrom_block (d : Dialect) (doc : Bool) :
    leftOpenFrom d [] ('/' :: '*' :: if doc then ['*'] else []) = some (.comment 1 doc) := by
  have hend : commentEnd d 1 (if doc then ['*'] else []) = .stillOpen 1 := by
    unfold commentEnd
    split <;> cases doc <;> rfl
  have hnext : next d [] '/' ('*' :: if doc then ['*'] else []) =
      (commentExtent d 1 doc (if doc then ['*'] else [])).shift 1 := by
    cases doc <;> rfl
  rw [leftOpenFrom_cons, hnext, commentExtent, hend]
  rfl

theorem leftOpenFrom_string (d : Dialect) : leftOpenFrom d [] ['\x22', '\x5c'] = some .string := by
  rw [leftOpenFrom_cons]
  rfl

theorem leftOpenFrom_template (h : d.templateStrings = true) : leftOpenFrom d [] ['\x60'] = some .template := by
  have hquoted : quoted? d '\x60' [] = some (.toEnd .template (some .template)) := by
    rw [quoted?, if_neg (by decide), if_pos ⟨rfl, h⟩]
    rfl
  have hnext : next d [] '\x60' [] = .toEnd .template (some .template) := by
    unfold next
    rw [hquoted]
    rfl
  rw [leftOpenFrom_cons, hnext]
  rfl

/-- Each level of a comment is opened by a line of its own. -/
theorem exists_stateBehind_comment {depth : Nat} {doc : Bool} (hpos : 1 ≤ depth) (hmax : depth ≤ maxDepth)
    (h : (Construct.comment depth doc).LeftBy d) :
    ∃ lines, (scanner d).stateBehind lines = Construct.toState (.comment depth doc) := by
  induction depth, hpos using Nat.le_induction with
  | base => exact ⟨[_], stateBehind_singleton (leftOpenFrom_block d doc)⟩
  | succ depth hpos ih =>
    have hnested : d.nestedComments = true := h.resolve_left (by omega)
    obtain ⟨lines, hlines⟩ := ih (Nat.le_of_succ_le hmax) (Or.inr hnested)
    have hopen : Construct.openComment? (Construct.toState (.comment depth doc)) = some (depth, doc) :=
      Construct.openComment?_eq_some_iff.mpr ⟨⟨hpos, Nat.le_of_succ_le hmax⟩, rfl⟩
    have hleft : leftOpen? d (Construct.toState (.comment depth doc)) ['/', '*'] =
        some (.comment (depth + 1) doc) := by
      rw [leftOpen?, Construct.ofState?, hopen]
      dsimp only
      rw [resume, commentExtent, commentEnd, if_pos hnested]
      rfl
    refine ⟨lines ++ [['/', '*']], ?_⟩
    rw [Scanner.stateBehind_concat, hlines]
    exact (state_scan ..).trans (congrArg Construct.carried hleft)

/-- **Every state that a dialect can leave** is left by lines that follow each other from the start of a text
on. -/
theorem exists_stateBehind {s : LineState} (hs : IsCarried d s) :
    ∃ lines, (scanner d).stateBehind lines = s := by
  cases hopen : Construct.openComment? s with
  | some comment =>
    obtain ⟨⟨hpos, hmax⟩, hstate⟩ := Construct.openComment?_eq_some_iff.mp hopen
    have hleft : (Construct.comment comment.1 comment.2).LeftBy d := by
      refine leftBy_of_ofState? hs ?_
      rw [Construct.ofState?, hopen]
    rw [← hstate]
    exact exists_stateBehind_comment hpos hmax hleft
  | none =>
    -- What carries no comment is neutral, a string or a template string.
    have hcode : s.code.toNat = 0 ∨ s.code.toNat = 3 ∨ s.code.toNat = 4 ∧ d.templateStrings = true := by
      have hmax : maxDepth = 11 := rfl
      unfold Construct.openComment? at hopen
      dsimp only at hopen
      split_ifs at hopen
      rcases hs with hs | hs | ⟨hs, -⟩
      · omega
      · exact Or.inr (Or.inr hs)
      · omega
    rcases hcode with hcode | hcode | ⟨hcode, htemplate⟩
    · exact ⟨[], LineState.eq_of_toNat_eq hcode.symm⟩
    · exact ⟨[_], (stateBehind_singleton (leftOpenFrom_string d)).trans (LineState.eq_of_toNat_eq hcode.symm)⟩
    · exact ⟨[_], (stateBehind_singleton (leftOpenFrom_template htemplate)).trans
        (LineState.eq_of_toNat_eq hcode.symm)⟩

end Dialect

end CFamily

end Linewise
