import Linewise.Proofs.ClosedConstructs
import Linewise.Proofs.NumberTexts
import Mathlib.Data.List.DropRight

/-!
# What a slash may follow

Whether a slash may open a regular expression behind a text (`Pattern.allowedAfter`) is judged by how the text ends:
blanks at its end do not count, a mark there counts by itself, and of the word there all counts, so that a longer
word is none of those behind which an expression may start.
-/

namespace Linewise.CFamily.Pattern

/-- Whether a slash opens a regular expression behind a text. -/
def allowedAfter (text : List Char) : Bool := allowedBehind text.reverse

theorem isBlank_eq_false_of_isWordChar {c : Char} (h : isWordChar c = true) : Text.isBlank c = false := by
  refine Bool.eq_false_iff.mpr fun hblank => ?_
  rw [isWordChar, Text.isAlphanumeric_eq_false_of_isBlank hblank, Bool.false_or, Bool.or_eq_true, beq_iff_eq,
    beq_iff_eq] at h
  rcases h with rfl | rfl
  · exact absurd hblank (by decide)
  · exact absurd hblank (by decide)

theorem isWordChar_of_isAlphanumeric {c : Char} (h : Text.isAlphanumeric c = true) : isWordChar c = true := by
  rw [isWordChar, h, Bool.true_or, Bool.true_or]

theorem isWordChar_of_isDigit {c : Char} (h : c.isDigit = true) : isWordChar c = true :=
  isWordChar_of_isAlphanumeric (Text.isAlphanumeric_of_isDigit h)

theorem isWordChar_of_isSuffixLetter {c : Char} (h : Number.isSuffixLetter c = true) : isWordChar c = true := by
  have hall : ∀ c ∈ ['u', 'U', 'l', 'L', 'f', 'F', 'd', 'D', 'i'], isWordChar c = true :=
    List.forall_iff_forall_mem.mp (by decide)
  exact hall c (List.contains_iff_mem.mp h)

theorem isAlpha_of_mem_openingWords : ∀ w ∈ openingWords, ∀ y ∈ w.toList, y.isAlpha = true := by
  have hall : ∀ w ∈ openingWords, w.toList.all Char.isAlpha = true := by decide
  exact fun w hw => List.all_eq_true.mp (hall w hw)

section Texts
variable {before w : List Char} {x : Char}

theorem allowedAfter_blanks (hw : ∀ y ∈ w, Text.isBlank y = true) :
    allowedAfter (before ++ w) = allowedAfter before := by
  unfold allowedAfter allowedBehind
  rw [List.reverse_append, List.dropWhile_append_of_pos fun y hy => hw y (List.mem_reverse.mp hy)]

theorem allowedAfter_mark (hblank : Text.isBlank x = false) (hword : isWordChar x = false) :
    allowedAfter (before ++ [x]) = openingChars.contains x := by
  unfold allowedAfter allowedBehind
  rw [List.reverse_append, List.reverse_singleton, List.singleton_append,
    List.dropWhile_cons_of_neg (by rw [hblank]; exact Bool.noConfusion)]
  exact if_neg (by rw [hword]; exact Bool.noConfusion)

theorem allowedAfter_append_word (hw : w ≠ []) (hall : ∀ y ∈ w, isWordChar y = true) :
    allowedAfter (before ++ w) =
      openingWords.contains (String.ofList ((before.reverse.takeWhile isWordChar).reverse ++ w)) := by
  obtain ⟨front, y, rfl⟩ : ∃ front y, w = front ++ [y] := ⟨_, _, (List.dropLast_concat_getLast hw).symm⟩
  have hy : isWordChar y = true := hall y (List.mem_append_right front List.mem_cons_self)
  have hreverse : (before ++ (front ++ [y])).reverse = y :: ((front).reverse ++ before.reverse) := by
    simp
  have hfront : ∀ z ∈ front.reverse, isWordChar z = true := fun z hz =>
    hall z (List.mem_append_left [y] (List.mem_reverse.mp hz))
  unfold allowedAfter allowedBehind
  rw [hreverse, List.dropWhile_cons_of_neg (by rw [isBlank_eq_false_of_isWordChar hy]; exact Bool.noConfusion)]
  dsimp only
  rw [if_pos hy, List.takeWhile_cons_of_pos hy, List.takeWhile_append_of_pos hfront]
  simp

theorem allowedAfter_word (hbefore : ∀ y ∈ before.getLast?, isWordChar y = false) (hw : w ≠ [])
    (hall : ∀ y ∈ w, isWordChar y = true) :
    allowedAfter (before ++ w) = openingWords.contains (String.ofList w) := by
  have hnone : before.reverse.takeWhile isWordChar = [] := by
    cases hreverse : before.reverse with
    | nil => rfl
    | cons y rest =>
      have hy : before.getLast? = some y := by
        rw [List.getLast?_eq_head?_reverse, hreverse, List.head?_cons]
      rw [List.takeWhile_cons_of_neg (by rw [hbefore y hy]; exact Bool.noConfusion)]
  rw [allowedAfter_append_word hw hall, hnone]
  rfl

theorem allowedAfter_of_not_isAlpha (hx : isWordChar x = true) (halpha : x.isAlpha = false)
    (hall : ∀ y ∈ w, isWordChar y = true) : allowedAfter (before ++ x :: w) = false := by
  rw [allowedAfter_append_word (List.cons_ne_nil x w) (List.forall_mem_cons.mpr ⟨hx, hall⟩)]
  refine Bool.eq_false_iff.mpr fun hcontains => ?_
  have hletters := isAlpha_of_mem_openingWords _ (List.contains_iff_mem.mp hcontains) x
  rw [String.toList_ofList] at hletters
  rw [hletters (List.mem_append_right _ List.mem_cons_self)] at halpha
  cases halpha

/-- Behind a point and what may be the suffix of a number, no slash opens an expression. -/
theorem allowedAfter_point (hall : ∀ y ∈ w, Number.isSuffixLetter y = true ∨ y.isDigit = true) :
    allowedAfter (before ++ '.' :: w) = false := by
  rw [List.append_cons]
  by_cases hnil : w = []
  · rw [hnil, List.append_nil, allowedAfter_mark (by decide) (by decide)]
    decide
  · have hpoint : ∀ y ∈ (before ++ ['.']).getLast?, isWordChar y = false := by
      rw [List.getLast?_concat]
      rintro _ ⟨⟩
      decide
    rw [allowedAfter_word hpoint hnil fun y hy => (hall y hy).elim isWordChar_of_isSuffixLetter isWordChar_of_isDigit]
    have hother : ∀ v ∈ openingWords, v.toList.all (fun y => Number.isSuffixLetter y || y.isDigit) = false := by
      decide
    refine Bool.eq_false_iff.mpr fun hcontains => ?_
    have hneither := hother _ (List.contains_iff_mem.mp hcontains)
    rw [String.toList_ofList, List.all_eq_true.mpr fun y hy => Bool.or_eq_true_iff.mpr (hall y hy)] at hneither
    cases hneither

theorem allowedAfter_number {p : Char → Bool} {c : Char} {cs : List Char}
    (hstart : c.isDigit = true ∨ c = '.' ∧ cs.head?.any Char.isDigit = true)
    (hkind : (Number.scan p (c :: cs)).kind ≠ .errorNumber) :
    allowedAfter (before ++ (c :: cs).take (Number.scan p (c :: cs)).length) = false := by
  obtain ⟨letters, width, glued, htext, hletters, hwidth, -, hglued⟩ := Number.take_scan p (c :: cs)
  obtain ⟨front, x, tail, hbody, hanchor, htail⟩ :=
    Number.exists_anchor (Number.length_unsuffixed_pos hstart) (Number.length_unsuffixed_le (c :: cs))
  have hsuffix : ∀ y ∈ letters ++ width, Number.isSuffixLetter y = true ∨ y.isDigit = true :=
    List.forall_mem_append.mpr ⟨fun y hy => Or.inl (hletters y hy), fun y hy => Or.inr (hwidth y hy)⟩
  rw [htext, hglued hkind, hbody, List.append_nil, List.append_assoc _ letters, List.append_assoc front,
    List.cons_append, ← List.append_assoc]
  rcases hanchor with hx | ⟨rfl, rfl⟩
  · -- The word that ends the number holds a digit or an underscore.
    rw [Number.isDecimalChar, Bool.or_eq_true, beq_iff_eq] at hx
    have hword : isWordChar x = true ∧ x.isAlpha = false := by
      rcases hx with hx | rfl
      · exact ⟨isWordChar_of_isDigit hx, Text.isAlpha_eq_false_of_isDigit hx⟩
      · exact ⟨by decide, by decide⟩
    refine allowedAfter_of_not_isAlpha hword.1 hword.2 (List.forall_mem_append.mpr ⟨fun y hy => ?_, fun y hy => ?_⟩)
    · rcases htail y hy with hy | rfl
      · exact isWordChar_of_isAlphanumeric hy
      · decide
    · exact (hsuffix y hy).elim isWordChar_of_isSuffixLetter isWordChar_of_isDigit
  · exact allowedAfter_point hsuffix

/-- Behind a word of its own that is none of the opening words, no slash opens an expression. If letters of ASCII stand
on both sides of its start, it is not a word of its own. -/
theorem allowedAfter_other_word (hmeet : ∀ y ∈ before.getLast?, y.isAlpha = false ∨ x.isAlpha = false)
    (hall : ∀ y ∈ x :: w, isWordChar y = true) (hother : String.ofList (x :: w) ∉ openingWords) :
    allowedAfter (before ++ x :: w) = false := by
  have hx := hall x List.mem_cons_self
  by_cases hbefore : ∀ y ∈ before.getLast?, isWordChar y = false
  · rw [allowedAfter_word hbefore (List.cons_ne_nil x w) hall]
    exact Bool.eq_false_iff.mpr fun hcontains => hother (List.contains_iff_mem.mp hcontains)
  · -- The word goes on in front, with what is no letter on one of the sides.
    push Not at hbefore
    obtain ⟨y, hy, hword⟩ := hbefore
    rw [ne_eq, Bool.not_eq_false] at hword
    rcases hmeet y hy with halpha | halpha
    · obtain ⟨front, rfl⟩ := List.getLast?_eq_some_iff.mp hy
      rw [List.append_assoc]
      exact allowedAfter_of_not_isAlpha hword halpha hall
    · exact allowedAfter_of_not_isAlpha hx halpha fun z hz => hall z (List.mem_cons_of_mem x hz)

end Texts

/-! ### Behind a regular expression -/

/-- The letters at the end of a text, which are the flags of a regular expression. -/
def flags (text : List Char) : List Char := text.rtakeWhile Char.isAlpha

theorem flags_append {body w : List Char} (hw : ∀ y ∈ w, y.isAlpha = true) : flags (body ++ '/' :: w) = w := by
  have hreverse : (body ++ '/' :: w).reverse = w.reverse ++ '/' :: body.reverse := by
    simp
  rw [flags, List.rtakeWhile, hreverse, List.takeWhile_append_of_pos fun y hy => hw y (List.mem_reverse.mp hy),
    List.takeWhile_cons_of_neg (by decide), List.append_nil, List.reverse_reverse]

theorem exists_flags {cs : List Char} {n : Nat} (h : length? cs = some n) :
    ∃ body w, cs.take n = body ++ '/' :: w ∧ ∀ y ∈ w, y.isAlpha = true := by
  obtain ⟨m, hclose, rfl⟩ := Option.map_eq_some_iff.mp h
  obtain ⟨body, hbody⟩ := List.getLast?_eq_some_iff.mp (getLast?_take_of_close? hclose)
  exact ⟨body, _, by rw [List.take_add, hbody, List.append_assoc, List.singleton_append],
    fun y hy => Text.of_mem_take_run hy⟩

/-- **Behind a regular expression**, a slash opens a further one if the first has no flags, or if its flags are one of
the opening words. -/
theorem allowedAfter_pattern {before cs : List Char} {n : Nat} (h : length? cs = some n) :
    allowedAfter (before ++ '/' :: cs.take n) = true ↔
      flags ('/' :: cs.take n) = [] ∨ String.ofList (flags ('/' :: cs.take n)) ∈ openingWords := by
  obtain ⟨body, w, htext, hw⟩ := exists_flags h
  rw [htext, ← List.cons_append, flags_append hw, ← List.append_assoc, List.append_cons]
  by_cases hnil : w = []
  · rw [hnil, List.append_nil, allowedAfter_mark (by decide) (by decide)]
    simp only [true_or, iff_true]
    decide
  · have hslash : ∀ y ∈ (before ++ '/' :: body ++ ['/']).getLast?, isWordChar y = false := by
      rw [List.getLast?_concat]
      rintro _ ⟨⟩
      decide
    have hall : ∀ y ∈ w, isWordChar y = true := fun y hy =>
      isWordChar_of_isAlphanumeric (Text.isAlphanumeric_of_isAlpha (hw y hy))
    rw [allowedAfter_word hslash hnil hall, List.contains_iff_mem, or_iff_right hnil]

end Linewise.CFamily.Pattern
