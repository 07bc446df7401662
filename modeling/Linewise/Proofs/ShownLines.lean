import Linewise.Proofs.FoldStates
import Mathlib.Data.Nat.Count
import Mathlib.Logic.Function.Iterate
import Mathlib.Order.Interval.Finset.Nat

/-!
# Lines that are shown

The lines that are shown are numbered one by one, so the number of a line is the count of the shown lines
above it. Hidden lines are counted by a sweep over the folded regions, which leaves out what regions before
have covered already; that is right because the regions are in the order of their first lines
(`Folds.toNat_countHidden`). The number of a hidden line is that of the last line shown above it
(`Folds.toNat_toVisual`). The line that has a number is found by going down as many lines as are hidden
until no more come into view: every round leads further down, and never past the line
(`Folds.climbs`), so the search ends there.

* `numbersLines_changes`: **the two maps between lines and their numbers**, over every state of folds.
-/

namespace Linewise.Folds

/-! ### Counting lines -/

/-- The line of a number is shown. -/
def Shows (f : Folds) (i : Nat) : Prop := f.isHidden (.ofNat i) = false

instance (f : Folds) : DecidablePred f.Shows := fun i => decEq (f.isHidden (.ofNat i)) false

/-- The last lines of folded regions have a line number behind them. -/
def WithinWords (f : Folds) : Prop := ∀ r ∈ f.regions, r.isFolded = true → r.last.toNat + 1 < UInt64.size

theorem hides_ofNat_iff {r : FoldRegion} {i : Nat} (hi : i < UInt64.size) : r.hides (.ofNat i) = true ↔
    r.isFolded = true ∧ r.first.toNat < i ∧ i ≤ r.last.toNat := by
  rw [FoldRegion.hides_iff, UInt64.toNat_ofNat_of_lt' hi]

theorem shows_iff {f : Folds} {i : Nat} : f.Shows i ↔ ∀ r ∈ f.regions, r.hides (.ofNat i) = false := by
  simp only [Shows, isHidden, List.any_eq_false, Bool.not_eq_true]

theorem shows_zero (f : Folds) : f.Shows 0 := by
  rw [shows_iff]
  intro r _
  have hnot := (hides_ofNat_iff (r := r) (i := 0) (by decide)).not.mpr (by omega)
  exact Bool.eq_false_iff.mpr hnot

/-- The lines from `covered` to `line` that regions hide. -/
def hiddenLines (rs : List FoldRegion) (covered line : Nat) : Finset Nat :=
  (Finset.Icc covered line).filter fun i => rs.any (·.hides (.ofNat i)) = true

section Sweep
variable {rs : List FoldRegion} {r : FoldRegion} {covered : Nat} {line : UInt64}

theorem mem_hiddenLines {i : Nat} : i ∈ hiddenLines rs covered line.toNat ↔
    (covered ≤ i ∧ i ≤ line.toNat) ∧ ∃ r ∈ rs, r.isFolded = true ∧ r.first.toNat < i ∧ i ≤ r.last.toNat := by
  rw [hiddenLines, Finset.mem_filter, Finset.mem_Icc, List.any_eq_true]
  refine and_congr_right fun hi => ?_
  have hlt : i < UInt64.size := Nat.lt_of_le_of_lt hi.2 line.toNat_lt_size
  simp only [hides_ofNat_iff hlt]

theorem card_hiddenLines_le (rs : List FoldRegion) (covered : Nat) (line : UInt64) :
    (hiddenLines rs covered line.toNat).card ≤ line.toNat := by
  have hsub : hiddenLines rs covered line.toNat ⊆ Finset.Icc 1 line.toNat := by
    intro i hi
    obtain ⟨⟨-, hle⟩, r, -, -, hlt, -⟩ := mem_hiddenLines.mp hi
    exact Finset.mem_Icc.mpr ⟨by omega, hle⟩
  have hcard := Finset.card_le_card hsub
  rwa [Nat.card_Icc, Nat.add_sub_cancel] at hcard

theorem hiddenLines_cons_of_not_folded (h : r.isFolded = false) :
    hiddenLines (r :: rs) covered line.toNat = hiddenLines rs covered line.toNat := by
  ext i
  simp [mem_hiddenLines, h]

/-- The lines that the first region hides come first; what it has not covered of the others comes behind it. -/
theorem card_hiddenLines_cons (hsorted : ∀ r' ∈ rs, r.first ≤ r'.first) (h : r.isFolded = true) (covered : Nat)
    (line : UInt64) :
    (hiddenLines (r :: rs) covered line.toNat).card =
      (min r.last.toNat line.toNat + 1 - max (r.first.toNat + 1) covered) +
        (hiddenLines rs (max covered (r.last.toNat + 1)) line.toNat).card := by
  have hsplit : hiddenLines (r :: rs) covered line.toNat =
      Finset.Icc (max (r.first.toNat + 1) covered) (min r.last.toNat line.toNat) ∪
        hiddenLines rs (max covered (r.last.toNat + 1)) line.toNat := by
    ext i
    simp only [Finset.mem_union, Finset.mem_Icc, mem_hiddenLines, List.exists_mem_cons_iff, h, true_and]
    constructor
    · rintro ⟨hi, hr | ⟨r', hr', hfolded, hlt, hle⟩⟩
      · left; omega
      · have hfirst := UInt64.le_iff_toNat_le.mp (hsorted r' hr')
        by_cases hcovered : i ≤ r.last.toNat
        · left; omega
        · right
          exact ⟨by omega, r', hr', hfolded, hlt, hle⟩
    · rintro (hi | ⟨hi, r', hr', hfolded, hlt, hle⟩)
      · exact ⟨by omega, Or.inl (by omega)⟩
      · exact ⟨by omega, Or.inr ⟨r', hr', hfolded, hlt, hle⟩⟩
  have hdisjoint : Disjoint (Finset.Icc (max (r.first.toNat + 1) covered) (min r.last.toNat line.toNat))
      (hiddenLines rs (max covered (r.last.toNat + 1)) line.toNat) := by
    rw [Finset.disjoint_left]
    intro i hi hi'
    have hbehind := (mem_hiddenLines.mp hi').1
    rw [Finset.mem_Icc] at hi
    omega
  rw [hsplit, Finset.card_union_of_disjoint hdisjoint, Nat.card_Icc]

theorem toNat_add_one {x : UInt64} (h : x.toNat + 1 < UInt64.size) : (x + 1).toNat = x.toNat + 1 := by
  rw [UInt64.toNat_add, UInt64.toNat_one]
  exact Nat.mod_eq_of_lt h

/-- **The sweep counts each hidden line once.** -/
theorem toNat_countHidden (hsorted : rs.Pairwise fun r r' => r.first ≤ r'.first)
    (hproper : ∀ r ∈ rs, r.first < r.last)
    (hwords : ∀ r ∈ rs, r.isFolded = true → r.last.toNat + 1 < UInt64.size) (covered line : UInt64) :
    (countHidden line covered rs).toNat = (hiddenLines rs covered.toNat line.toNat).card := by
  induction rs generalizing covered with
  | nil => simp [countHidden, hiddenLines]
  | cons r rs ih =>
    rw [List.pairwise_cons] at hsorted
    rw [List.forall_mem_cons] at hproper hwords
    rw [countHidden]
    cases hfolded : r.isFolded with
    | false =>
      rw [hiddenLines_cons_of_not_folded hfolded]
      exact ih hsorted.2 hproper.2 hwords.2 covered
    | true =>
      have hlt := UInt64.lt_iff_toNat_lt.mp hproper.1
      have hlast := hwords.1 hfolded
      have hrest := ih hsorted.2 hproper.2 hwords.2 (max covered (r.last + 1))
      have hcard := card_hiddenLines_cons hsorted.1 hfolded covered.toNat line
      have hbound := card_hiddenLines_le (r :: rs) covered.toNat line
      have hline := line.toNat_lt_size
      have hstart : (max (r.first + 1) covered).toNat = max (r.first.toNat + 1) covered.toNat := by
        rw [UInt64.toNat_max, toNat_add_one (by omega)]
      have hstop : (min r.last line).toNat = min r.last.toNat line.toNat := UInt64.toNat_min _ _
      rw [UInt64.toNat_max, toNat_add_one hlast] at hrest
      have hhere : (if max (r.first + 1) covered ≤ min r.last line then
          min r.last line - max (r.first + 1) covered + 1 else 0).toNat =
          min r.last.toNat line.toNat + 1 - max (r.first.toNat + 1) covered.toNat := by
        split_ifs with hle
        · have hle' := UInt64.le_iff_toNat_le.mp hle
          rw [hstart, hstop] at hle'
          have hdiff := UInt64.toNat_sub_of_le _ _ hle
          rw [hstart, hstop] at hdiff
          rw [toNat_add_one (by omega), hdiff]
          omega
        · have hgt := UInt64.lt_iff_toNat_lt.mp (UInt64.not_le.mp hle)
          rw [hstart, hstop] at hgt
          rw [UInt64.toNat_zero]
          omega
      rw [hcard, ← hhere, ← hrest] at hbound ⊢
      exact (UInt64.toNat_add _ _).trans (Nat.mod_eq_of_lt (Nat.lt_of_le_of_lt hbound hline))

end Sweep

theorem count_add_count_not (p : Nat → Prop) [DecidablePred p] (n : Nat) :
    Nat.count p n + Nat.count (fun i => ¬ p i) n = n := by
  rw [Nat.count_eq_card_filter_range, Nat.count_eq_card_filter_range, Finset.card_filter_add_card_filter_not,
    Finset.card_range]

theorem count_eq_of_forall_not {p : Nat → Prop} [DecidablePred p] {m n : Nat} (hle : m ≤ n)
    (h : ∀ i, m ≤ i → i < n → ¬ p i) : Nat.count p n = Nat.count p m := by
  induction n, hle using Nat.le_induction with
  | base => rfl
  | succ n hle ih =>
    rw [Nat.count_succ, if_neg (h n hle (Nat.lt_succ_self n)), Nat.add_zero]
    exact ih fun i hm hi => h i hm (by omega)

theorem exists_count_eq {p : Nat → Prop} [DecidablePred p] {v n : Nat} (h : v < Nat.count p n) :
    ∃ x < n, p x ∧ Nat.count p x = v := by
  induction n with
  | zero => simp at h
  | succ n ih =>
    by_cases hlt : v < Nat.count p n
    · obtain ⟨x, hx, hp⟩ := ih hlt
      exact ⟨x, by omega, hp⟩
    · rw [Nat.count_succ] at h
      split_ifs at h with hn
      · exact ⟨n, by omega, hn, by omega⟩
      · omega

/-! ### The number of a line -/

section Number
variable {f : Folds}

theorem toNat_hiddenThrough (hf : f.Sound) (hw : f.WithinWords) (line : UInt64) :
    (f.hiddenThrough line).toNat = Nat.count (fun i => ¬ f.Shows i) (line.toNat + 1) := by
  rw [hiddenThrough, toNat_countHidden hf.ordered hf.proper hw, Nat.count_eq_card_filter_range, hiddenLines,
    UInt64.toNat_zero, ← Nat.range_succ_eq_Icc_zero]
  congr 1
  refine Finset.filter_congr fun i _ => ?_
  rw [Shows, isHidden, Bool.not_eq_false]

theorem count_add_hiddenThrough (hf : f.Sound) (hw : f.WithinWords) (line : UInt64) :
    Nat.count f.Shows (line.toNat + 1) + (f.hiddenThrough line).toNat = line.toNat + 1 := by
  rw [toNat_hiddenThrough hf hw]
  exact count_add_count_not _ _

theorem count_pos {n : Nat} (hn : 0 < n) : 0 < Nat.count f.Shows n := by
  have hmono := Nat.count_monotone f.Shows hn
  rw [Nat.count_succ, Nat.count_zero, if_pos f.shows_zero] at hmono
  exact hmono

theorem hiddenThrough_le (hf : f.Sound) (hw : f.WithinWords) (line : UInt64) :
    (f.hiddenThrough line).toNat ≤ line.toNat := by
  have hcount := count_add_hiddenThrough hf hw line
  have hpos : 0 < Nat.count f.Shows (line.toNat + 1) := count_pos (by omega)
  omega

/-- **The number of a line** is one less than the count of the lines shown down to it. -/
theorem toNat_toVisual (hf : f.Sound) (hw : f.WithinWords) (line : UInt64) :
    (f.toVisual line).toNat + 1 = Nat.count f.Shows (line.toNat + 1) := by
  have hnumber (l : UInt64) : (l - f.hiddenThrough l).toNat + 1 = Nat.count f.Shows (l.toNat + 1) := by
    have hle := f.hiddenThrough_le hf hw l
    have hcount := f.count_add_hiddenThrough hf hw l
    rw [UInt64.toNat_sub_of_le _ _ (UInt64.le_iff_toNat_le.mpr hle)]
    omega
  unfold toVisual
  cases hfind : f.regions.find? (·.hides line) with
  | none => exact hnumber line
  | some r =>
    -- Between the first line of the region and the line, all lines are hidden.
    have hhides := List.find?_some hfind
    obtain ⟨hfolded, hlt, hle⟩ := FoldRegion.hides_iff.mp hhides
    refine (hnumber r.first).trans (count_eq_of_forall_not (by omega) fun i hi hi' hshows => ?_).symm
    have hsize : i < UInt64.size := Nat.lt_of_lt_of_le hi' line.toNat_lt_size
    have hnot := shows_iff.mp hshows r (List.mem_of_find?_eq_some hfind)
    rw [(hides_ofNat_iff hsize).mpr ⟨hfolded, by omega, by omega⟩] at hnot
    cases hnot

theorem toVisual_mono (hf : f.Sound) (hw : f.WithinWords) {l m : UInt64} (h : l ≤ m) :
    f.toVisual l ≤ f.toVisual m := by
  have hl := f.toNat_toVisual hf hw l
  have hm := f.toNat_toVisual hf hw m
  rw [UInt64.le_iff_toNat_le] at h
  have hmono := Nat.count_monotone f.Shows (show l.toNat + 1 ≤ m.toNat + 1 by omega)
  exact UInt64.le_iff_toNat_le.mpr (by omega)

/-- **The number of shown lines** of a document with lines. -/
theorem toNat_visibleCount (hf : f.Sound) (hw : f.WithinWords) {total : UInt64} (htotal : total ≠ 0) :
    (f.visibleCount total).toNat = Nat.count f.Shows total.toNat := by
  have hpos : 0 < total.toNat := by
    rw [Nat.pos_iff_ne_zero]
    exact fun h => htotal (UInt64.toNat_inj.mp h)
  have hone : (total - 1).toNat + 1 = total.toNat := by
    have hsub := UInt64.toNat_sub_of_le total 1 (UInt64.le_iff_toNat_le.mpr hpos)
    rw [UInt64.toNat_one] at hsub
    omega
  have hcount := f.count_add_hiddenThrough hf hw (total - 1)
  rw [hone] at hcount
  have hshown : 0 < Nat.count f.Shows total.toNat := count_pos hpos
  have hlt : f.hiddenThrough (total - 1) < total := UInt64.lt_iff_toNat_lt.mpr (by omega)
  rw [visibleCount, if_neg htotal, if_pos hlt, UInt64.toNat_sub_of_le _ _ (UInt64.le_of_lt hlt)]
  omega

end Number

/-! ### The line of a number -/

/-- No sum of a number and a count of hidden lines goes past a word. -/
def SumsFit (f : Folds) (visual : UInt64) : Prop :=
  visual.toNat + (f.hiddenThrough (.ofNat (UInt64.size - 1))).toNat < UInt64.size

instance (f : Folds) (visual : UInt64) : Decidable (f.SumsFit visual) := Nat.decLt _ _

theorem exists_iterate_settle (g : UInt64 → UInt64) (fuel : Nat) (line : UInt64) :
    ∃ rounds, g^[rounds] line = settle g fuel line := by
  induction fuel generalizing line with
  | zero => exact ⟨0, rfl⟩
  | succ fuel ih =>
    rw [settle]
    split_ifs
    · exact ⟨0, rfl⟩
    · obtain ⟨rounds, hrounds⟩ := ih (g line)
      exact ⟨rounds + 1, hrounds⟩

/-- A function that leads every line above `x` further down, but not past `x`, settles there. -/
theorem settle_eq {g : UInt64 → UInt64} {x : UInt64} (hx : g x = x) (hclimbs : ∀ y < x, y < g y ∧ g y ≤ x)
    {fuel : Nat} {line : UInt64} (hle : line ≤ x) (hfuel : x.toNat - line.toNat < fuel) :
    settle g fuel line = x := by
  induction fuel generalizing line with
  | zero => omega
  | succ fuel ih =>
    rw [settle]
    rcases UInt64.lt_or_eq_of_le hle with hlt | rfl
    · obtain ⟨hnext, hstays⟩ := hclimbs line hlt
      have hnext' := UInt64.lt_iff_toNat_lt.mp hnext
      have hstays' := UInt64.le_iff_toNat_le.mp hstays
      rw [if_neg (UInt64.ne_of_lt hnext).symm]
      exact ih hstays (by omega)
    · rw [if_pos hx]

section Line
variable {f : Folds} {visual : UInt64}

theorem count_add_last (hf : f.Sound) (hw : f.WithinWords) : Nat.count f.Shows UInt64.size +
    (f.hiddenThrough (.ofNat (UInt64.size - 1))).toNat = UInt64.size := by
  have hcount := f.count_add_hiddenThrough hf hw (.ofNat (UInt64.size - 1))
  rwa [UInt64.toNat_ofNat_of_lt' (by decide), Nat.sub_add_cancel (by decide)] at hcount

/-- The numbers below the count of all shown lines are those for which no sum goes past a word. -/
theorem sumsFit_iff (hf : f.Sound) (hw : f.WithinWords) :
    f.SumsFit visual ↔ visual.toNat < Nat.count f.Shows UInt64.size := by
  have hcount := f.count_add_last hf hw
  rw [SumsFit]
  omega

theorem SumsFit.of_le {visual' : UInt64} (h : f.SumsFit visual') (hle : visual ≤ visual') : f.SumsFit visual :=
  Nat.lt_of_le_of_lt (Nat.add_le_add_right (UInt64.le_iff_toNat_le.mp hle) _) h

/-- A round of the search leads from every line above the one with the number further down, and not past it;
from that line it leads nowhere else. -/
theorem climbs (hf : f.Sound) (hw : f.WithinWords) {x : UInt64} (hcount : Nat.count f.Shows x.toNat = visual.toNat)
    (hshows : f.Shows x.toNat) : visual + f.hiddenThrough x = x ∧
      ∀ y < x, y < visual + f.hiddenThrough y ∧ visual + f.hiddenThrough y ≤ x := by
  have hx := f.count_add_hiddenThrough hf hw x
  rw [Nat.count_succ, if_pos hshows, hcount] at hx
  have hsize := x.toNat_lt_size
  constructor
  · refine UInt64.toNat_inj.mp ?_
    rw [UInt64.toNat_add, Nat.mod_eq_of_lt (Nat.lt_of_le_of_lt (by omega) hsize)]
    omega
  · intro y hy
    have hlt := UInt64.lt_iff_toNat_lt.mp hy
    have hcounty := f.count_add_hiddenThrough hf hw y
    have hmono := Nat.count_monotone f.Shows (show y.toNat + 1 ≤ x.toNat by omega)
    rw [hcount] at hmono
    have hhidden : (f.hiddenThrough y).toNat ≤ (f.hiddenThrough x).toNat := by
      rw [f.toNat_hiddenThrough hf hw, f.toNat_hiddenThrough hf hw]
      exact Nat.count_monotone _ (by omega)
    have hsum : (visual + f.hiddenThrough y).toNat = visual.toNat + (f.hiddenThrough y).toNat := by
      rw [UInt64.toNat_add, Nat.mod_eq_of_lt (Nat.lt_of_le_of_lt (by omega) hsize)]
    rw [UInt64.lt_iff_toNat_lt, UInt64.le_iff_toNat_le, hsum]
    omega

/-- **The line of a number** is the shown line with so many shown lines above it, and there the search ends. -/
theorem ofVisual_spec (hf : f.Sound) (hw : f.WithinWords) (hfit : f.SumsFit visual) :
    f.Shows (f.ofVisual visual).toNat ∧ Nat.count f.Shows (f.ofVisual visual).toNat = visual.toNat ∧
      visual + f.hiddenThrough (f.ofVisual visual) = f.ofVisual visual := by
  obtain ⟨n, hn, hshows, hcount⟩ := exists_count_eq ((f.sumsFit_iff hf hw).mp hfit)
  obtain ⟨x, rfl⟩ : ∃ x : UInt64, n = x.toNat := ⟨.ofNat n, (UInt64.toNat_ofNat_of_lt' hn).symm⟩
  obtain ⟨hfixed, hclimbs⟩ := f.climbs hf hw hcount hshows
  have hle : visual ≤ x := by
    rw [UInt64.le_iff_toNat_le, ← hcount]
    exact Nat.count_le f.Shows
  have hend : f.ofVisual visual = x := settle_eq hfixed hclimbs hle (by omega)
  rw [hend]
  exact ⟨hshows, hcount, hfixed⟩

theorem shows_toNat {line : UInt64} : f.Shows line.toNat ↔ f.isHidden line = false := by
  rw [Shows, UInt64.ofNat_toNat]

/-- **The line of a line's number** is the last shown line down to it. -/
theorem ofVisual_toVisual (hf : f.Sound) (hw : f.WithinWords) (line : UInt64) :
    let shown := f.ofVisual (f.toVisual line)
    f.Shows shown.toNat ∧ shown ≤ line ∧ ∀ m, shown < m → m ≤ line → ¬ f.Shows m.toNat := by
  intro shown
  have hnumber := f.toNat_toVisual hf hw line
  have hline := line.toNat_lt_size
  have hfit : f.SumsFit (f.toVisual line) := by
    have hmono := Nat.count_monotone f.Shows (show line.toNat + 1 ≤ UInt64.size by omega)
    rw [f.sumsFit_iff hf hw]
    omega
  obtain ⟨hshows, hcount, -⟩ := f.ofVisual_spec hf hw hfit
  have hnext : Nat.count f.Shows (shown.toNat + 1) = Nat.count f.Shows (line.toNat + 1) := by
    rw [Nat.count_succ, if_pos hshows, ← hnumber]
    exact congrArg (· + 1) hcount
  refine ⟨hshows, ?_, fun m hm hle hmshows => ?_⟩
  · rw [UInt64.le_iff_toNat_le]
    by_contra hlt
    have hless := Nat.count_monotone f.Shows (show line.toNat + 1 ≤ shown.toNat by omega)
    rw [Nat.count_succ, if_pos hshows] at hnext
    omega
  · rw [UInt64.lt_iff_toNat_lt] at hm
    rw [UInt64.le_iff_toNat_le] at hle
    have habove := Nat.count_monotone f.Shows (show shown.toNat + 1 ≤ m.toNat by omega)
    have hbelow := Nat.count_monotone f.Shows (show m.toNat + 1 ≤ line.toNat + 1 by omega)
    rw [Nat.count_succ, if_pos hmshows] at hbelow
    omega

end Line

/-! ### Both maps -/

/-- **The lines that are shown are numbered one by one.** -/
structure NumbersLines (f : Folds) : Prop where
  /-- The search for the line of a number ends, and it ends there. -/
  search_ends : ∀ visual, f.SumsFit visual →
    (∃ rounds, (fun line => visual + f.hiddenThrough line)^[rounds] visual = f.ofVisual visual) ∧
      visual + f.hiddenThrough (f.ofVisual visual) = f.ofVisual visual
  /-- The line of a number is shown. -/
  ofVisual_shown : ∀ visual, f.SumsFit visual → f.isHidden (f.ofVisual visual) = false
  /-- It has that number. -/
  toVisual_ofVisual : ∀ visual, f.SumsFit visual → f.toVisual (f.ofVisual visual) = visual
  /-- A shown line is the line of its number. -/
  ofVisual_of_shown : ∀ line, f.isHidden line = false → f.ofVisual (f.toVisual line) = line
  /-- A hidden line has the number of the last line shown above it. -/
  ofVisual_of_hidden : ∀ line, f.isHidden line = true →
    let shown := f.ofVisual (f.toVisual line)
    shown < line ∧ f.isHidden shown = false ∧ ∀ m, shown < m → m ≤ line → f.isHidden m = true
  toVisual_mono : ∀ l m, l ≤ m → f.toVisual l ≤ f.toVisual m
  ofVisual_mono : ∀ v w, v ≤ w → f.SumsFit w → f.ofVisual v ≤ f.ofVisual w
  /-- The count of hidden lines is never greater than the line that it is taken from. -/
  hiddenThrough_le : ∀ line, f.hiddenThrough line ≤ line
  /-- No region ends above its first line. -/
  first_le_last : ∀ r ∈ f.regions, r.first ≤ r.last
  /-- Of the first lines of a document, those are counted that are shown. -/
  visibleCount_eq : ∀ total, total ≠ 0 →
    (f.visibleCount total).toNat = Nat.count (fun i => f.isHidden (.ofNat i) = false) total.toNat

theorem Sound.numbersLines {f : Folds} (hf : f.Sound) (hw : f.WithinWords) : f.NumbersLines where
  search_ends visual hfit := ⟨exists_iterate_settle _ _ _, (f.ofVisual_spec hf hw hfit).2.2⟩
  ofVisual_shown visual hfit := shows_toNat.mp (f.ofVisual_spec hf hw hfit).1
  toVisual_ofVisual visual hfit := by
    obtain ⟨hshows, hcount, -⟩ := f.ofVisual_spec hf hw hfit
    have hnumber := f.toNat_toVisual hf hw (f.ofVisual visual)
    rw [Nat.count_succ, if_pos hshows, hcount] at hnumber
    exact UInt64.toNat_inj.mp (Nat.add_right_cancel hnumber)
  ofVisual_of_shown line hline := by
    obtain ⟨-, hle, hbetween⟩ := f.ofVisual_toVisual hf hw line
    rcases UInt64.lt_or_eq_of_le hle with hlt | heq
    · exact absurd (shows_toNat.mpr hline) (hbetween line hlt (UInt64.le_refl _))
    · exact heq
  ofVisual_of_hidden line hline := by
    obtain ⟨hshows, hle, hbetween⟩ := f.ofVisual_toVisual hf hw line
    have hshown := shows_toNat.mp hshows
    refine ⟨?_, hshown, fun m hm hm' => ?_⟩
    · rcases UInt64.lt_or_eq_of_le hle with hlt | heq
      · exact hlt
      · rw [heq, hline] at hshown
        cases hshown
    · have hnot := hbetween m hm hm'
      rwa [shows_toNat, Bool.not_eq_false] at hnot
  toVisual_mono l m h := f.toVisual_mono hf hw h
  ofVisual_mono v w h hfit := by
    obtain ⟨hv, hcountv, -⟩ := f.ofVisual_spec hf hw (hfit.of_le h)
    obtain ⟨hw', hcountw, -⟩ := f.ofVisual_spec hf hw hfit
    rw [UInt64.le_iff_toNat_le] at h ⊢
    by_contra hlt
    have hless := Nat.count_strict_mono (p := f.Shows) hw' (Nat.not_le.mp hlt)
    omega
  hiddenThrough_le line := UInt64.le_iff_toNat_le.mpr (f.hiddenThrough_le hf hw line)
  first_le_last r hr := UInt64.le_of_lt (hf.proper r hr)
  visibleCount_eq total htotal := f.toNat_visibleCount hf hw htotal

/-- **Whatever is done to folds, the lines that are shown are numbered one by one**, as long as no sum of line
numbers goes past a word. -/
theorem numbersLines_changes (cs : List Change) (hcs : empty.ChangesFit cs)
    (hwords : (empty.changes cs).WithinWords) : (empty.changes cs).NumbersLines :=
  (sound_changes sound_empty hcs).numbersLines hwords

/-- Regions that overlap, lie inside one another or start on the same line hide the lines 2 to 6 together. The one
below them has been unfolded again and hides none. -/
theorem numbersLines_changes_overlapping :
    let cs : List Change := [.add ⟨1, 4, false⟩, .add ⟨1, 2, false⟩, .add ⟨3, 5, false⟩, .add ⟨6, 8, false⟩,
      .adjust ⟨.insert, 0, 1, 1, 1, 0⟩, .foldAll, .toggle 7]
    let f := empty.changes cs
    empty.ChangesFit cs ∧ f.WithinWords ∧ f.NumbersLines ∧ f.SumsFit 2 ∧ f.ofVisual 2 = 7 ∧ f.toVisual 5 = 1 := by
  intro cs f
  have hcs : empty.ChangesFit cs :=
    ⟨trivial, trivial, trivial, trivial, ⟨by decide, by decide +kernel⟩, trivial, trivial, trivial⟩
  have hwords : f.WithinWords := by unfold WithinWords; decide +kernel
  exact ⟨hcs, hwords, numbersLines_changes cs hcs hwords, by decide +kernel, by decide +kernel, by decide +kernel⟩

end Linewise.Folds
