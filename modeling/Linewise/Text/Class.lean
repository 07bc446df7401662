import Linewise.Text.Alphabetic
import Linewise.Text.Numeric

/-!
# Classes of characters

What a scanner asks of a single character: is it blank, is it a letter, can it stand in a word. The
answers follow the Unicode properties `White_Space` and `Alphabetic` and the general categories `N*`;
below code point 128 the letters and digits are those of ASCII and no table is consulted.
-/

namespace Linewise.Text

/-- The code points with the property `White_Space`. -/
def blankTable : RangeTable :=
  ⟨[(0x9, 0xd), (0x20, 0x20), (0x85, 0x85), (0xa0, 0xa0), (0x1680, 0x1680), (0x2000, 0x200a),
    (0x2028, 0x2029), (0x202f, 0x202f), (0x205f, 0x205f), (0x3000, 0x3000)]⟩

/-- Whether a character is white space. -/
def isBlank (c : Char) : Bool := blankTable.contains c.toNat

/-- Whether a character is a letter. -/
def isAlphabetic (c : Char) : Bool :=
  if c.toNat < 128 then c.isAlpha else alphabeticTable.contains c.toNat

/-- Whether a character is a digit or another number. -/
def isNumeric (c : Char) : Bool :=
  if c.toNat < 128 then c.isDigit else numericTable.contains c.toNat

/-- Whether a character is a letter or a number. -/
def isAlphanumeric (c : Char) : Bool := isAlphabetic c || isNumeric c

/-- Whether a character is an ASCII hexadecimal digit. -/
def isHexDigit (c : Char) : Bool :=
  c.isDigit || ('a' ≤ c && c ≤ 'f') || ('A' ≤ c && c ≤ 'F')

/-- Whether a character is an ASCII octal digit. -/
def isOctalDigit (c : Char) : Bool := '0' ≤ c && c ≤ '7'

theorem isAlphanumeric_of_isAlphabetic {c : Char} (h : isAlphabetic c = true) :
    isAlphanumeric c = true := by
  simp [isAlphanumeric, h]

/-! The letters and digits of ASCII are letters and numbers. -/

theorem isAlpha_iff {c : Char} : c.isAlpha = true ↔ 'A' ≤ c ∧ c ≤ 'Z' ∨ 'a' ≤ c ∧ c ≤ 'z' := by
  have hletters : c.isAlpha = (decide (c.val ≥ 'A'.val ∧ c.val ≤ 'Z'.val) ||
      decide (c.val ≥ 'a'.val) && decide (c.val ≤ 'z'.val)) := rfl
  rw [hletters, Bool.or_eq_true, Bool.and_eq_true, decide_eq_true_eq, decide_eq_true_eq, decide_eq_true_eq]
  rfl

theorem isAlphabetic_of_isAlpha {c : Char} (h : c.isAlpha = true) : isAlphabetic c = true := by
  have hascii : c.toNat < 128 := by
    rcases isAlpha_iff.1 h with ⟨-, hle⟩ | ⟨-, hle⟩
    · exact Nat.lt_of_le_of_lt hle (by decide)
    · exact Nat.lt_of_le_of_lt hle (by decide)
  rw [isAlphabetic, if_pos hascii, h]

theorem isAlphanumeric_of_isAlpha {c : Char} (h : c.isAlpha = true) : isAlphanumeric c = true :=
  isAlphanumeric_of_isAlphabetic (isAlphabetic_of_isAlpha h)

theorem lt_of_isDigit {c : Char} (h : c.isDigit = true) : c.toNat < 128 := by
  simp only [Char.isDigit, Bool.and_eq_true, decide_eq_true_eq, ge_iff_le, UInt32.le_iff_toNat_le] at h
  exact Nat.lt_of_le_of_lt h.2 (by decide)

theorem isNumeric_of_isDigit {c : Char} (h : c.isDigit = true) : isNumeric c = true := by
  rw [isNumeric, if_pos (lt_of_isDigit h), h]

theorem isAlphanumeric_of_isDigit {c : Char} (h : c.isDigit = true) : isAlphanumeric c = true := by
  rw [isAlphanumeric, isNumeric_of_isDigit h, Bool.or_true]

theorem isAlphanumeric_of_isHexDigit {c : Char} (h : isHexDigit c = true) : isAlphanumeric c = true := by
  have hletter (hc : 'a' ≤ c ∧ c ≤ 'f' ∨ 'A' ≤ c ∧ c ≤ 'F') : c.isAlpha = true := by
    rw [isAlpha_iff]
    rcases hc with hc | hc
    · exact Or.inr ⟨hc.1, UInt32.le_trans hc.2 (by decide)⟩
    · exact Or.inl ⟨hc.1, UInt32.le_trans hc.2 (by decide)⟩
  simp only [isHexDigit, Bool.or_eq_true, Bool.and_eq_true, decide_eq_true_eq, or_assoc] at h
  rcases h with h | h
  · exact isAlphanumeric_of_isDigit h
  · exact isAlphanumeric_of_isAlpha (hletter h)

theorem isAlpha_eq_false_of_isDigit {c : Char} (h : c.isDigit = true) : c.isAlpha = false := by
  have hdigit : 48 ≤ c.toNat ∧ c.toNat ≤ 57 := by
    simpa [Char.isDigit, UInt32.le_iff_toNat_le] using h
  refine Bool.eq_false_iff.2 fun hletter => ?_
  have hletters : (65 ≤ c.toNat ∧ c.toNat ≤ 90) ∨ (97 ≤ c.toNat ∧ c.toNat ≤ 122) := isAlpha_iff.1 hletter
  omega

theorem isAlpha_eq_false_of_isAlphanumeric {c : Char} (h : isAlphanumeric c = false) : c.isAlpha = false :=
  Bool.eq_false_iff.2 fun halpha => Bool.noConfusion (h.symm.trans (isAlphanumeric_of_isAlpha halpha))

theorem isAlphanumeric_eq_false_of_isBlank {c : Char} (h : isBlank c = true) : isAlphanumeric c = false := by
  have hall : ∀ r ∈ blankTable.ranges, ∀ n ∈ List.range' r.1 (r.2 + 1 - r.1),
      isAlphanumeric (Char.ofNat n) = false := by decide +kernel
  obtain ⟨r, hr, hle⟩ := (blankTable.contains_iff c.toNat).1 h
  have hc := hall r hr c.toNat (List.mem_range'_1.2 (by omega))
  rwa [Char.ofNat_toNat] at hc

end Linewise.Text
