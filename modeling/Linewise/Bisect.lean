/-!
# Bisection

In a row whose first elements satisfy a test and whose others do not, the place where the change
happens is found by halving. On a row that is not of this form the result is some place at which the
last test went from success to failure.
-/

namespace Linewise

/-- Bisection of the `size` places from `base` on, of which the first is never past the answer. -/
def bisectFrom {α : Type} (p : α → Bool) (xs : Array α) (base size : Nat) : Nat :=
  if 1 < size then
    let half := size / 2
    let middle := base + half
    bisectFrom p xs (if xs[middle]?.any p then middle else base) (size - half)
  else
    if xs[base]?.any p then base + 1 else base
termination_by size

theorem bisectFrom_eq {α : Type} {p : α → Bool} {xs : Array α} {k : Nat}
    (h : ∀ i, xs[i]?.any p = decide (i < k)) {base size : Nat} (hbase : base ≤ k) (hsize : k ≤ base + size) :
    bisectFrom p xs base size = k := by
  fun_induction bisectFrom p xs base size with
  | case1 base size hlt half middle ih =>
    by_cases hk : middle < k
    · have hmiddle : xs[middle]?.any p = true := by rw [h, decide_eq_true_eq]; exact hk
      simp only [hmiddle, dite_true] at ih ⊢
      exact ih (Nat.le_of_lt hk) (by omega)
    · have hmiddle : xs[middle]?.any p = false := by rw [h, decide_eq_false_iff_not]; exact hk
      simp only [hmiddle, Bool.false_eq_true, dite_false] at ih ⊢
      exact ih hbase (by omega)
  | case2 base size hlt hp =>
    rw [h base, decide_eq_true_eq] at hp
    omega
  | case3 base size hlt hp =>
    rw [h base, decide_eq_true_eq] at hp
    omega

/-- Number of elements at the front that satisfy `p`, in a row where these come before all others. -/
def bisect {α : Type} (p : α → Bool) (xs : Array α) : Nat := bisectFrom p xs 0 xs.size

/-- **The number is the place at which the row goes from success to failure**, if there is just one. -/
theorem bisect_eq {α : Type} {p : α → Bool} {xs : Array α} {k : Nat}
    (h : ∀ i, xs[i]?.any p = decide (i < k)) : bisect p xs = k := by
  refine bisectFrom_eq h (Nat.zero_le k) ?_
  rw [Nat.zero_add, ← Nat.not_lt]
  intro hlt
  have hlast := h xs.size
  rw [Array.getElem?_eq_none (Nat.le_refl _), Option.any_none, decide_eq_true hlt] at hlast
  cases hlast

theorem any_getElem?_eq {α : Type} {p : α → Bool} {xs : List α}
    (h : xs.Pairwise fun x y => p y = true → p x = true) (i : Nat) :
    xs[i]?.any p = decide (i < (xs.takeWhile p).length) := by
  induction xs generalizing i with
  | nil => simp
  | cons x xs ih =>
    rw [List.pairwise_cons] at h
    cases hx : p x with
    | true =>
      rw [List.takeWhile_cons, if_pos hx]
      cases i with
      | zero => simp [hx]
      | succ i => simpa using ih h.2 i
    | false =>
      rw [List.takeWhile_cons, if_neg (by simp [hx])]
      cases i with
      | zero => simp [hx]
      | succ i =>
        cases hi : xs[i]? with
        | none => simp [hi]
        | some y =>
          have hy : p y = false := by
            cases hpy : p y with
            | false => rfl
            | true => exact absurd (h.1 y (List.mem_of_getElem? hi) hpy) (by simp [hx])
          simp [hi, hy]

/-- **Bisection counts the elements at the front that satisfy `p`**, where these come before all others. -/
theorem bisect_toArray {α : Type} {p : α → Bool} {xs : List α}
    (h : xs.Pairwise fun x y => p y = true → p x = true) :
    bisect p xs.toArray = (xs.takeWhile p).length :=
  bisect_eq fun i => by rw [List.getElem?_toArray, any_getElem?_eq h]

/-- A row is cut where its elements at the front that satisfy `p` end. -/
theorem take_drop_bisect {α : Type} {p : α → Bool} {xs : List α}
    (h : xs.Pairwise fun x y => p y = true → p x = true) :
    xs.take (bisect p xs.toArray) = xs.takeWhile p ∧ xs.drop (bisect p xs.toArray) = xs.dropWhile p := by
  rw [bisect_toArray h]
  constructor
  · exact (List.prefix_iff_eq_take.mp (List.takeWhile_prefix p)).symm
  · have hdrop : (xs.takeWhile p ++ xs.dropWhile p).drop (xs.takeWhile p).length = xs.dropWhile p :=
      List.drop_left
    rwa [List.takeWhile_append_dropWhile] at hdrop

theorem eq_false_of_mem_dropWhile {α : Type} {p : α → Bool} {xs : List α}
    (h : xs.Pairwise fun x y => p y = true → p x = true) : ∀ y ∈ xs.dropWhile p, p y = false := by
  induction xs with
  | nil => simp
  | cons x xs ih =>
    rw [List.pairwise_cons] at h
    cases hx : p x with
    | true =>
      rw [List.dropWhile_cons, if_pos hx]
      exact ih h.2
    | false =>
      rw [List.dropWhile_cons, if_neg (by simp [hx]), List.forall_mem_cons]
      refine ⟨hx, ?_⟩
      intro y hy
      refine Bool.eq_false_iff.mpr fun hpy => ?_
      rw [h.1 y hy hpy] at hx
      cases hx

end Linewise
