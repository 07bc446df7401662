import Linewise.Proofs.LineEnds
import Mathlib.Data.List.TakeWhile

/-!
# The texts of numbers

A number is its digits, with a fraction and an exponent, and then in turn the letters of its suffix, their
width and what is glued to it (`Number.take_scan`). In front of the suffix it holds letters, digits and a few
marks (`Number.isBodyChar`). If it is well formed, it ends there with a digit, an underscore or a point, or it is
hexadecimal and starts with a digit (`Number.exists_anchor`).
-/

namespace Linewise

theorem Text.of_mem_take_run {p : Char → Bool} {cs : List Char} {x : Char} (hx : x ∈ cs.take (run p cs)) :
    p x = true := by
  rw [take_run] at hx
  exact List.mem_takeWhile_imp hx

theorem Text.of_mem_head?_drop_run {p : Char → Bool} {cs : List Char} {x : Char}
    (hx : x ∈ (cs.drop (run p cs)).head?) : p x = false := by
  have hnot := List.head?_dropWhile_not p cs
  rw [drop_run] at hx
  rw [hx] at hnot
  exact hnot

namespace CFamily.Number

variable {cs : List Char} {n : Number}

/-! ### Characters in front of the suffix -/

/-- Whether a number may hold a character in front of its suffix. -/
def isBodyChar (c : Char) : Bool := Text.isAlphanumeric c || ['_', '.', '+', '-'].contains c

/-- Whether a character is a digit or divides digits. -/
def isDecimalChar (c : Char) : Bool := c.isDigit || c == '_'

theorem isBodyChar_of_isAlphanumeric {c : Char} (h : Text.isAlphanumeric c = true) : isBodyChar c = true := by
  rw [isBodyChar, h, Bool.true_or]

theorem isBodyChar_of_isDecimalChar {c : Char} (h : isDecimalChar c = true) : isBodyChar c = true := by
  rw [isDecimalChar, Bool.or_eq_true, beq_iff_eq] at h
  rcases h with h | rfl
  · exact isBodyChar_of_isAlphanumeric (Text.isAlphanumeric_of_isDigit h)
  · decide

theorem isDecimalChar_of_digits : ∀ x ∈ cs.take (digits Char.isDigit cs), isDecimalChar x = true :=
  fun _ hx => Text.of_mem_take_run hx

theorem isAlphanumeric_of_hexDigits :
    ∀ x ∈ cs.take (digits Text.isHexDigit cs), Text.isAlphanumeric x = true ∨ x = '_' := by
  intro x hx
  have hclass := Text.of_mem_take_run hx
  rw [Bool.or_eq_true, beq_iff_eq] at hclass
  exact hclass.imp_left Text.isAlphanumeric_of_isHexDigit

theorem take_withFraction {P : List Char → Prop} (h : P (cs.take n.length))
    (hpoint : ∀ front ds, P front → (∀ x ∈ ds, isDecimalChar x = true) → P (front ++ '.' :: ds)) :
    P (cs.take (withFraction cs n).length) := by
  by_cases hhead : (cs.drop n.length).head? = some '.'
  · obtain ⟨rest, hrest⟩ := List.head?_eq_some_iff.mp hhead
    rw [withFraction_of_point hrest]
    split_ifs
    · rw [Nat.add_assoc, List.take_add, hrest, Nat.add_comm 1, List.take_succ_cons]
      exact hpoint _ _ h isDecimalChar_of_digits
    · exact h
  · rwa [withFraction_of_ne hhead]

theorem take_withExponent {P : List Char → Prop} (h : P (cs.take n.length))
    (hexponent : ∀ front e sign ds, P front → (e = 'e' ∨ e = 'E') → (∀ x ∈ sign, x = '+' ∨ x = '-') →
      ds ≠ [] → (∀ x ∈ ds, isDecimalChar x = true) → P (front ++ e :: (sign ++ ds))) :
    P (cs.take (withExponent cs n).length) := by
  cases hrest : cs.drop n.length with
  | nil =>
    rw [withExponent, hrest]
    exact h
  | cons e rest =>
    by_cases he : e = 'e' ∨ e = 'E'
    · obtain ⟨sign, hsign⟩ : ∃ sign, sign = if rest.head?.any InPlace.isSign then 1 else 0 := ⟨_, rfl⟩
      rw [InPlace.withExponent_of_letter hrest he hsign]
      split_ifs with hcount
      · exact h
      · rw [Nat.add_assoc, Nat.add_assoc, List.take_add, hrest, Nat.add_comm 1, List.take_succ_cons,
          List.take_add]
        refine hexponent _ _ _ _ h he ?_ ?_ isDecimalChar_of_digits
        · intro x hx
          subst hsign
          split_ifs at hx with hhead
          · obtain ⟨y, hy, hclass⟩ := (Option.any_eq_true ..).mp hhead
            obtain ⟨rest', rfl⟩ := List.head?_eq_some_iff.mp hy
            obtain rfl : x = y := by simpa using hx
            simpa [InPlace.isSign] using hclass
          · simp at hx
        · refine List.ne_nil_of_length_pos ?_
          rw [List.length_take_of_le (digits_le ..)]
          exact Nat.pos_of_ne_zero hcount
    · rw [withExponent, hrest]
      dsimp only
      rwa [if_neg he]

theorem take_decimal {P : List Char → Prop} (hdigits : ∀ ds, (∀ x ∈ ds, isDecimalChar x = true) → P ds)
    (hpoint : ∀ front ds, P front → (∀ x ∈ ds, isDecimalChar x = true) → P (front ++ '.' :: ds))
    (hexponent : ∀ front e sign ds, P front → (e = 'e' ∨ e = 'E') → (∀ x ∈ sign, x = '+' ∨ x = '-') →
      ds ≠ [] → (∀ x ∈ ds, isDecimalChar x = true) → P (front ++ e :: (sign ++ ds))) :
    P (cs.take (decimal cs).length) :=
  take_withExponent (take_withFraction (hdigits _ isDecimalChar_of_digits) hpoint) hexponent

/-- In front of its suffix, a number is decimal, or hexadecimal digits behind their mark. -/
theorem unsuffixed_cases (cs : List Char) :
    unsuffixed cs = decimal cs ∨
      ∃ x rest, (x = 'x' ∨ x = 'X') ∧ cs = '0' :: x :: rest ∧
        (unsuffixed cs).length = 2 + digits Text.isHexDigit rest := by
  unfold unsuffixed
  split
  · next x rest =>
    split_ifs with hx
    · exact Or.inr ⟨x, rest, hx, rfl, rfl⟩
    · exact Or.inl rfl
  · exact Or.inl rfl

theorem isBodyChar_unsuffixed : ∀ x ∈ cs.take (unsuffixed cs).length, isBodyChar x = true := by
  rcases unsuffixed_cases cs with h | ⟨x, rest, hx, rfl, hlength⟩
  · rw [h]
    refine take_decimal (P := fun text => ∀ x ∈ text, isBodyChar x = true) ?_ ?_ ?_
    · exact fun ds hds x hx => isBodyChar_of_isDecimalChar (hds x hx)
    · intro front ds hfront hds
      rw [List.forall_mem_append, List.forall_mem_cons]
      exact ⟨hfront, by decide, fun x hx => isBodyChar_of_isDecimalChar (hds x hx)⟩
    · intro front e sign ds hfront he hsign _ hds
      rw [List.forall_mem_append, List.forall_mem_cons, List.forall_mem_append]
      refine ⟨hfront, ?_, fun x hx => ?_, fun x hx => isBodyChar_of_isDecimalChar (hds x hx)⟩
      · rcases he with rfl | rfl <;> decide
      · rcases hsign x hx with rfl | rfl <;> decide
  · rw [hlength, Nat.add_comm, List.take_succ_cons, List.take_succ_cons, List.forall_mem_cons,
      List.forall_mem_cons]
    refine ⟨by decide, ?_, fun y hy => ?_⟩
    · rcases hx with rfl | rfl <;> decide
    · rcases isAlphanumeric_of_hexDigits y hy with hy | rfl
      · exact isBodyChar_of_isAlphanumeric hy
      · decide

/-! ### How a number ends in front of its suffix -/

theorem forall_getLast?_append {P : Char → Prop} {xs ys : List Char} (hxs : ys = [] → ∀ x ∈ xs.getLast?, P x)
    (hys : ∀ y ∈ ys, P y) : ∀ x ∈ (xs ++ ys).getLast?, P x := by
  intro x hx
  rw [List.getLast?_append] at hx
  cases hlast : ys.getLast? with
  | none =>
    rw [hlast, Option.none_or] at hx
    exact hxs (List.getLast?_eq_none_iff.mp hlast) x hx
  | some y =>
    rw [hlast, Option.some_or] at hx
    obtain rfl := Option.some.inj hx
    exact hys y (List.mem_of_getLast? hlast)

theorem last_decimal : ∀ x ∈ (cs.take (decimal cs).length).getLast?, isDecimalChar x = true ∨ x = '.' := by
  refine take_decimal (P := fun text => ∀ x ∈ text.getLast?, isDecimalChar x = true ∨ x = '.') ?_ ?_ ?_
  · exact fun ds hds x hx => Or.inl (hds x (List.mem_of_getLast? hx))
  · intro front ds _ hds
    rw [List.append_cons]
    refine forall_getLast?_append (fun _ x hx => ?_) fun y hy => Or.inl (hds y hy)
    rw [List.getLast?_concat] at hx
    exact Or.inr (Option.some.inj hx).symm
  · intro front e sign ds _ _ _ hne hds
    rw [List.append_cons, ← List.append_assoc]
    exact forall_getLast?_append (fun h => absurd h hne) fun y hy => Or.inl (hds y hy)

/-- **In front of the suffix of a number there is a digit or an underscore**, behind which only characters of a
word follow, unless it ends there with a point. -/
theorem exists_anchor (hpos : 0 < (unsuffixed cs).length) (hle : (unsuffixed cs).length ≤ cs.length) :
    ∃ front x tail, cs.take (unsuffixed cs).length = front ++ x :: tail ∧
      (isDecimalChar x = true ∨ x = '.' ∧ tail = []) ∧
      ∀ y ∈ tail, Text.isAlphanumeric y = true ∨ y = '_' := by
  rcases unsuffixed_cases cs with h | ⟨x, rest, hx, rfl, hlength⟩
  · rw [h] at hpos hle ⊢
    have hne : cs.take (decimal cs).length ≠ [] := by
      refine List.ne_nil_of_length_pos ?_
      rwa [List.length_take_of_le hle]
    have hlast := last_decimal _ (List.getLast?_eq_some_getLast hne)
    refine ⟨_, _, [], (List.dropLast_concat_getLast hne).symm, ?_, nofun⟩
    exact hlast.imp_right fun hpoint => ⟨hpoint, rfl⟩
  · rw [hlength, Nat.add_comm, List.take_succ_cons, List.take_succ_cons]
    refine ⟨[], '0', _, rfl, Or.inl (by decide), ?_⟩
    rw [List.forall_mem_cons]
    refine ⟨Or.inl ?_, isAlphanumeric_of_hexDigits⟩
    rcases hx with rfl | rfl <;> decide

/-! ### The whole of a number -/

theorem take_withSuffix (cs : List Char) (n : Number) :
    ∃ letters width, cs.take (withSuffix cs n).length = cs.take n.length ++ letters ++ width ∧
      (∀ x ∈ letters, isSuffixLetter x = true) ∧ ∀ x ∈ width, x.isDigit = true := by
  unfold withSuffix
  split_ifs with hkind
  · exact ⟨[], [], by simp, nofun, nofun⟩
  · dsimp only
    exact ⟨_, _, by rw [List.take_add, List.take_add, ← List.drop_drop], fun x hx => Text.of_mem_take_run hx,
      fun x hx => Text.of_mem_take_run hx⟩

/-- **A number is its body, the letters of its suffix, their width and what is glued to it**, which is nothing if
the number is well formed. -/
theorem take_scan (isWordChar : Char → Bool) (cs : List Char) :
    ∃ letters width glued,
      cs.take (scan isWordChar cs).length = cs.take (unsuffixed cs).length ++ letters ++ width ++ glued ∧
      (∀ x ∈ letters, isSuffixLetter x = true) ∧ (∀ x ∈ width, x.isDigit = true) ∧
      (∀ x ∈ glued, isWordChar x = true) ∧ ((scan isWordChar cs).kind ≠ .errorNumber → glued = []) := by
  obtain ⟨letters, width, htake, hletters, hwidth⟩ := take_withSuffix cs (unsuffixed cs)
  unfold scan withGlued
  dsimp only
  split_ifs with hglued
  · exact ⟨letters, width, [], by rw [htake, List.append_nil], hletters, hwidth, nofun, fun _ => rfl⟩
  · refine ⟨letters, width, _, by rw [List.take_add, htake], hletters, hwidth,
      fun x hx => Text.of_mem_take_run hx, fun h => absurd rfl h⟩

theorem of_mem_head?_drop_scan {isWordChar : Char → Bool} {x : Char}
    (hx : x ∈ (cs.drop (scan isWordChar cs).length).head?) : isWordChar x = false := by
  unfold scan withGlued at hx
  dsimp only at hx
  split_ifs at hx with hglued
  · have hrun : x ∈ ((cs.drop (withSuffix cs (unsuffixed cs)).length).drop
        (Text.run isWordChar (cs.drop (withSuffix cs (unsuffixed cs)).length))).head? := by
      rwa [hglued, List.drop_zero]
    exact Text.of_mem_head?_drop_run hrun
  · rw [← List.drop_drop] at hx
    exact Text.of_mem_head?_drop_run hx

end CFamily.Number

end Linewise
