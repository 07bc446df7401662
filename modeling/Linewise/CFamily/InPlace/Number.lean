import Linewise.CFamily.Number
import Linewise.Text.Window

/-!
# Numbers, in place

A number is read in a window on a line: digits, fraction, exponent, suffix, and what is glued to it. As far
as it has been read, its length is the column behind it, that is, its length seen from the start of the
line (`Number.shift`).
-/

namespace Linewise.CFamily

/-- The same number, seen from `n` characters earlier. -/
def Number.shift (n : Nat) (number : Number) : Number := ⟨number.kind, n + number.length⟩

namespace InPlace

open Text (Window)

/-- The column behind a run of digits that underscores may divide. -/
def digitsEnd (w : Window) (isDigit : Char → Bool) (column : Nat) : Nat :=
  w.runEnd (fun c => isDigit c || c == '_') column

/-- Reads a point and the digits behind it. -/
def withFraction (w : Window) (n : Number) : Number :=
  if w.char? n.length = some '.' ∧ Number.pointAllowed (w.char? (n.length + 1)) then
    ⟨.float, digitsEnd w Char.isDigit (n.length + 1)⟩
  else n

/-- Whether a character starts an exponent. -/
def startsExponent (c : Char) : Bool := c == 'e' || c == 'E'

/-- Whether a character is a sign. -/
def isSign (c : Char) : Bool := c == '+' || c == '-'

/-- Reads an exponent, if it has digits. -/
def withExponent (w : Window) (n : Number) : Number :=
  if (w.char? n.length).any startsExponent then
    let first := if (w.char? (n.length + 1)).any isSign then n.length + 2 else n.length + 1
    let stop := digitsEnd w Char.isDigit first
    if stop = first then n else ⟨.float, stop⟩
  else n

/-- Reads a decimal number up to its suffix. -/
def decimal (w : Window) (column : Nat) : Number :=
  withExponent w (withFraction w ⟨.decimal, digitsEnd w Char.isDigit column⟩)

/-- Whether a character behind a zero makes a number hexadecimal. -/
def startsHexadecimal (c : Char) : Bool := c == 'x' || c == 'X'

/-- Reads a number up to its suffix. -/
def unsuffixed (w : Window) (column : Nat) : Number :=
  if w.char? column = some '0' ∧ (w.char? (column + 1)).any startsHexadecimal then
    let stop := digitsEnd w Text.isHexDigit (column + 2)
    ⟨if stop = column + 2 then .errorNumber else .hexadecimal, stop⟩
  else decimal w column

/-- Reads a type suffix: letters of a small set, then a width. -/
def withSuffix (w : Window) (n : Number) : Number :=
  if n.kind = .errorNumber then n
  else
    ⟨if n.kind = .decimal ∧ (w.char? n.length).any Number.isFloatSuffix then .float else n.kind,
      w.runEnd Char.isDigit (w.runEnd Number.isSuffixLetter n.length)⟩

/-- Reads what is glued to the number and spoils it. -/
def withGlued (isWordChar : Char → Bool) (w : Window) (n : Number) : Number :=
  if (w.char? n.length).any isWordChar then ⟨.errorNumber, w.runEnd isWordChar n.length⟩ else n

/-- Reads the number at a column. -/
def number (isWordChar : Char → Bool) (w : Window) (column : Nat) : Number :=
  withGlued isWordChar w (withSuffix w (unsuffixed w column))

/-! ### The number at a column is that of the text behind it -/

variable (w : Window) (column : Nat)

theorem digitsEnd_eq (isDigit : Char → Bool) :
    digitsEnd w isDigit column = column + Number.digits isDigit (w.behind column) :=
  w.runEnd_eq _ column

theorem withFraction_eq (n : Number) :
    withFraction w (n.shift column) = (Number.withFraction (w.behind column) n).shift column := by
  unfold withFraction Number.withFraction
  rw [Number.shift, w.drop_behind]
  cases h : w.char? (column + n.length) with
  | none =>
    rw [Window.behind_eq_nil h]
    rfl
  | some c =>
    rw [Window.behind_eq_cons h]
    by_cases hpoint : c = '.'
    · subst hpoint
      simp only [true_and, ← w.char?_eq, digitsEnd_eq]
      split
      · exact congrArg (Number.mk .float) (by dsimp only; omega)
      · rfl
    · rw [if_neg (fun hc => hpoint (Option.some.inj hc.1))]
      split
      · next hcons => exact absurd (List.cons.inj hcons).1 hpoint
      · rfl

theorem withExponent_of_letter {cs rest : List Char} {n : Number} {e : Char} {sign : Nat}
    (hcs : cs.drop n.length = e :: rest) (he : e = 'e' ∨ e = 'E')
    (hsign : sign = if rest.head?.any isSign then 1 else 0) :
    Number.withExponent cs n =
      if Number.digits Char.isDigit (rest.drop sign) = 0 then n
      else ⟨.float, n.length + 1 + sign + Number.digits Char.isDigit (rest.drop sign)⟩ := by
  unfold Number.withExponent
  rw [hcs]
  dsimp only
  rw [if_pos he, hsign]
  cases rest.head? with
  | none => rfl
  | some c =>
    by_cases hplus : c = '+'
    · subst hplus
      rfl
    · by_cases hminus : c = '-'
      · subst hminus
        rfl
      · have hnone : isSign c = false := by
          rw [isSign, beq_false_of_ne hplus, beq_false_of_ne hminus]
          rfl
        rw [Option.any_some, hnone]
        split
        · next h => exact absurd (Option.some.inj h) hplus
        · next h => exact absurd (Option.some.inj h) hminus
        · rfl

theorem withExponent_eq (n : Number) :
    withExponent w (n.shift column) = (Number.withExponent (w.behind column) n).shift column := by
  have hlength : (n.shift column).length = column + n.length := rfl
  have hdrop := w.drop_behind column n.length
  unfold withExponent
  rw [hlength]
  cases h : w.char? (column + n.length) with
  | none =>
    rw [Window.behind_eq_nil h] at hdrop
    rw [Number.withExponent, hdrop]
    rfl
  | some e =>
    rw [Window.behind_eq_cons h] at hdrop
    have hexponent : startsExponent e = true ↔ e = 'e' ∨ e = 'E' := by
      rw [startsExponent, Bool.or_eq_true, beq_iff_eq, beq_iff_eq]
    rw [Option.any_some]
    by_cases he : e = 'e' ∨ e = 'E'
    · have hread {sign : Nat}
          (hsign : sign = if (w.char? (column + n.length + 1)).any isSign then 1 else 0) :
          (if digitsEnd w Char.isDigit (column + n.length + 1 + sign) = column + n.length + 1 + sign then
              n.shift column
            else ⟨.float, digitsEnd w Char.isDigit (column + n.length + 1 + sign)⟩) =
          (Number.withExponent (w.behind column) n).shift column := by
        rw [w.char?_eq] at hsign
        rw [withExponent_of_letter hdrop he hsign, digitsEnd_eq, w.drop_behind]
        split
        · rw [if_pos (by omega)]
        · rw [if_neg (by omega)]
          exact congrArg (Number.mk .float) (by dsimp only; omega)
      rw [if_pos (hexponent.2 he)]
      by_cases hsign : (w.char? (column + n.length + 1)).any isSign = true
      · rw [if_pos hsign]
        exact hread (if_pos hsign).symm
      · rw [if_neg hsign]
        exact hread (if_neg hsign).symm
    · rw [if_neg (fun h => he (hexponent.1 h)), Number.withExponent, hdrop]
      dsimp only
      rw [if_neg he]

theorem decimal_eq : decimal w column = (Number.decimal (w.behind column)).shift column := by
  unfold decimal Number.decimal
  rw [digitsEnd_eq, ← withExponent_eq, ← withFraction_eq]
  rfl

theorem unsuffixed_eq : unsuffixed w column = (Number.unsuffixed (w.behind column)).shift column := by
  unfold unsuffixed
  split
  · next hhexadecimal =>
    obtain ⟨hzero, hx⟩ := hhexadecimal
    obtain ⟨x, hnext, hx⟩ := (Option.any_eq_true ..).1 hx
    rw [startsHexadecimal, Bool.or_eq_true, beq_iff_eq, beq_iff_eq] at hx
    rw [Window.behind_eq_cons hzero, Window.behind_eq_cons hnext, Number.unsuffixed, if_pos hx, digitsEnd_eq]
    simp only [Number.shift, Number.mk.injEq, Nat.add_eq_left]
    exact ⟨trivial, Nat.add_assoc ..⟩
  · next hdecimal =>
    rw [decimal_eq]
    unfold Number.unsuffixed
    split
    · next x rest hbehind =>
      have hzero : w.char? column = some '0' := by rw [w.char?_eq, hbehind]; rfl
      have hnext : w.char? (column + 1) = some x := by
        rw [w.char?_eq, ← w.drop_behind, hbehind]
        rfl
      have hx : ¬ (x = 'x' ∨ x = 'X') := by
        intro hx
        refine hdecimal ⟨hzero, ?_⟩
        rw [hnext, Option.any_some, startsHexadecimal, Bool.or_eq_true, beq_iff_eq, beq_iff_eq]
        exact hx
      rw [if_neg hx, hbehind]
    · rfl

theorem withSuffix_eq (n : Number) :
    withSuffix w (n.shift column) = (Number.withSuffix (w.behind column) n).shift column := by
  unfold withSuffix Number.withSuffix
  by_cases hkind : n.kind = .errorNumber
  · rw [if_pos hkind, if_pos (show (n.shift column).kind = .errorNumber from hkind)]
  · rw [if_neg hkind, if_neg (show ¬ (n.shift column).kind = .errorNumber from hkind)]
    simp only [Number.shift, w.drop_behind, Window.runEnd_eq, ← w.char?_eq]
    exact congrArg (Number.mk _) (by omega)

theorem withGlued_eq (isWordChar : Char → Bool) (n : Number) :
    withGlued isWordChar w (n.shift column) =
      (Number.withGlued isWordChar (w.behind column) n).shift column := by
  unfold withGlued Number.withGlued
  simp only [Number.shift, w.drop_behind, Window.runEnd_eq]
  cases h : w.char? (column + n.length) with
  | none =>
    rw [Window.behind_eq_nil h]
    rfl
  | some c =>
    rw [Window.behind_eq_cons h, Option.any_some, Text.run]
    by_cases hc : isWordChar c = true
    · rw [if_pos hc, List.takeWhile_cons_of_pos hc, if_neg (by simp)]
      exact congrArg (Number.mk .errorNumber) (by dsimp only; omega)
    · rw [if_neg hc, List.takeWhile_cons_of_neg hc]
      rfl

theorem number_eq (isWordChar : Char → Bool) :
    number isWordChar w column = (Number.scan isWordChar (w.behind column)).shift column := by
  unfold number Number.scan
  rw [unsuffixed_eq, withSuffix_eq, withGlued_eq]

end InPlace

end Linewise.CFamily
