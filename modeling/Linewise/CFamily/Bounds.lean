import Linewise.CFamily.Scan

/-!
# What is found lies in the text

Everything that can start at a character reaches at most to the end of the text (`fits_next`), and so does
what the line before has left open (`fits_resume`).
-/

namespace Linewise.CFamily

/-! ### Comments, quotes and patterns -/

theorem CommentEnd.shift_shift (m n : Nat) (e : CommentEnd) : (e.shift m).shift n = e.shift (n + m) := by
  cases e with
  | closed length => exact congrArg CommentEnd.closed (Nat.add_assoc n m length).symm
  | stillOpen depth => rfl

theorem CommentEnd.shift_eq_closed {e : CommentEnd} {m n : Nat} (h : e.shift m = .closed n) :
    ∃ length, e = .closed length ∧ n = m + length := by
  cases e with
  | closed length => exact ⟨length, rfl, (CommentEnd.closed.inj h).symm⟩
  | stillOpen depth => cases h

theorem le_length_of_nestedEnd {depth n : Nat} {cs : List Char} (h : nestedEnd depth cs = .closed n) :
    n ≤ cs.length := by
  fun_induction nestedEnd depth cs generalizing n with
  | case1 => cases h
  | case2 depth cs _ =>
    obtain rfl := CommentEnd.closed.inj h
    simp
  | case3 depth cs _ ih =>
    obtain ⟨length, hlength, rfl⟩ := CommentEnd.shift_eq_closed h
    have := ih hlength
    simp only [List.length_cons]
    omega
  | case4 depth cs ih =>
    obtain ⟨length, hlength, rfl⟩ := CommentEnd.shift_eq_closed h
    have := ih hlength
    simp only [List.length_cons]
    omega
  | case5 depth c cs _ _ ih =>
    obtain ⟨length, hlength, rfl⟩ := CommentEnd.shift_eq_closed h
    have := ih hlength
    simp only [List.length_cons]
    omega

theorem le_length_of_flatEnd {depth n : Nat} {cs : List Char} (h : flatEnd depth cs = .closed n) :
    n ≤ cs.length := by
  unfold flatEnd at h
  split at h
  · next i hfind =>
    obtain rfl := CommentEnd.closed.inj h
    exact Text.add_length_le_of_find? hfind
  · cases h

theorem le_length_of_commentEnd {d : Dialect} {depth n : Nat} {cs : List Char}
    (h : commentEnd d depth cs = .closed n) : n ≤ cs.length := by
  unfold commentEnd at h
  split at h
  · exact le_length_of_nestedEnd h
  · exact le_length_of_flatEnd h

theorem QuoteEnd.shift_shift (m n : Nat) (e : QuoteEnd) : (e.shift m).shift n = e.shift (n + m) := by
  cases e with
  | closed length => exact congrArg QuoteEnd.closed (Nat.add_assoc n m length).symm
  | continued => rfl
  | unterminated => rfl

theorem QuoteEnd.shift_eq_closed {e : QuoteEnd} {m n : Nat} (h : e.shift m = .closed n) :
    ∃ length, e = .closed length ∧ n = m + length := by
  cases e with
  | closed length => exact ⟨length, rfl, (QuoteEnd.closed.inj h).symm⟩
  | continued => cases h
  | unterminated => cases h

theorem quoteEnd_cons {quote c : Char} {continuable : Bool} {cs : List Char} (h : ¬c = '\x5c') :
    quoteEnd quote continuable (c :: cs) =
      if c = quote then .closed 1 else (quoteEnd quote continuable cs).shift 1 := by
  rw [quoteEnd]
  · exact fun hc => absurd hc h
  · exact fun _ _ hc => absurd hc h

theorem bounds_of_quoteEnd {quote : Char} {continuable : Bool} {n : Nat} {cs : List Char}
    (h : quoteEnd quote continuable cs = .closed n) : 0 < n ∧ n ≤ cs.length := by
  fun_induction quoteEnd quote continuable cs generalizing n with
  | case1 => cases h
  | case2 => cases h
  | case3 => cases h
  | case4 c cs ih =>
    obtain ⟨length, hlength, rfl⟩ := QuoteEnd.shift_eq_closed h
    have := ih hlength
    simp only [List.length_cons]
    omega
  | case5 cs _ _ =>
    obtain rfl := QuoteEnd.closed.inj h
    simp
  | case6 c cs _ _ _ ih =>
    obtain ⟨length, hlength, rfl⟩ := QuoteEnd.shift_eq_closed h
    have := ih hlength
    simp only [List.length_cons]
    omega

theorem Pattern.le_length_of_close? {inClass : Bool} {n : Nat} {cs : List Char}
    (h : close? inClass cs = some n) : n ≤ cs.length := by
  fun_induction close? inClass cs generalizing n with
  | case1 => cases h
  | case2 => cases h
  | case3 inClass c cs ih =>
    obtain ⟨m, hm, rfl⟩ := Option.map_eq_some_iff.1 h
    have := ih hm
    simp only [List.length_cons]
    omega
  | case4 inClass cs _ _ ih =>
    obtain ⟨m, hm, rfl⟩ := Option.map_eq_some_iff.1 h
    have := ih hm
    simp only [List.length_cons]
    omega
  | case5 inClass cs _ _ _ ih =>
    obtain ⟨m, hm, rfl⟩ := Option.map_eq_some_iff.1 h
    have := ih hm
    simp only [List.length_cons]
    omega
  | case6 =>
    obtain rfl := Option.some.inj h
    simp
  | case7 inClass c cs _ _ _ _ _ ih =>
    obtain ⟨m, hm, rfl⟩ := Option.map_eq_some_iff.1 h
    have := ih hm
    simp only [List.length_cons]
    omega

theorem Pattern.le_length_of_length? {n : Nat} {cs : List Char} (h : length? cs = some n) :
    n ≤ cs.length := by
  obtain ⟨m, hm, rfl⟩ := Option.map_eq_some_iff.1 h
  have hclose := le_length_of_close? hm
  have hflags := Text.run_le_length Char.isAlpha (cs.drop m)
  rw [List.length_drop] at hflags
  omega

/-! ### Numbers -/

namespace Number

variable {cs : List Char} {n : Number}

theorem digits_le (isDigit : Char → Bool) (cs : List Char) : digits isDigit cs ≤ cs.length :=
  Text.run_le_length _ cs

theorem length_withFraction_le (h : n.length ≤ cs.length) : (withFraction cs n).length ≤ cs.length := by
  unfold withFraction
  split
  · next rest hrest =>
    split
    · have hdigits := digits_le Char.isDigit rest
      have hlength := congrArg List.length hrest
      simp only [List.length_drop, List.length_cons] at hlength
      simp only
      omega
    · exact h
  · exact h

theorem length_withExponent_le (h : n.length ≤ cs.length) : (withExponent cs n).length ≤ cs.length := by
  unfold withExponent
  split
  · next e rest hrest =>
    have hlength := congrArg List.length hrest
    simp only [List.length_drop, List.length_cons] at hlength
    have hread (sign : Nat) : (if digits Char.isDigit (rest.drop sign) = 0 then n
        else ⟨.float, n.length + 1 + sign + digits Char.isDigit (rest.drop sign)⟩).length ≤ cs.length := by
      have hdigits := digits_le Char.isDigit (rest.drop sign)
      rw [List.length_drop] at hdigits
      split
      · exact h
      · simp only
        omega
    split
    · exact hread _
    · exact h
  · exact h

theorem length_decimal_le (cs : List Char) : (decimal cs).length ≤ cs.length :=
  length_withExponent_le (length_withFraction_le (digits_le _ cs))

theorem length_unsuffixed_le (cs : List Char) : (unsuffixed cs).length ≤ cs.length := by
  unfold unsuffixed
  split
  · next x rest =>
    split
    · have hdigits := digits_le Text.isHexDigit rest
      simp only [List.length_cons]
      omega
    · exact length_decimal_le _
  · exact length_decimal_le _

theorem length_withSuffix_le (h : n.length ≤ cs.length) : (withSuffix cs n).length ≤ cs.length := by
  unfold withSuffix
  split
  · exact h
  · have hletters := Text.run_le_length isSuffixLetter (cs.drop n.length)
    have hwidth := Text.run_le_length Char.isDigit
      ((cs.drop n.length).drop (Text.run isSuffixLetter (cs.drop n.length)))
    simp only [List.length_drop] at hletters hwidth ⊢
    omega

theorem length_withGlued_le {isWordChar : Char → Bool} (h : n.length ≤ cs.length) :
    (withGlued isWordChar cs n).length ≤ cs.length := by
  unfold withGlued
  have hglued := Text.run_le_length isWordChar (cs.drop n.length)
  rw [List.length_drop] at hglued
  dsimp only
  split
  · exact h
  · simp only
    omega

theorem length_scan_le (isWordChar : Char → Bool) (cs : List Char) :
    (scan isWordChar cs).length ≤ cs.length :=
  length_withGlued_le (length_withSuffix_le (length_unsuffixed_le cs))

/-! Reading on only adds to a number, so one that starts with a digit, or with a point in front of one, is
not empty. -/

theorem le_length_withFraction (cs : List Char) (n : Number) : n.length ≤ (withFraction cs n).length := by
  unfold withFraction
  split
  · split
    · simp only
      omega
    · exact Nat.le_refl _
  · exact Nat.le_refl _

theorem le_length_withExponent (cs : List Char) (n : Number) : n.length ≤ (withExponent cs n).length := by
  unfold withExponent
  split
  · next e rest _ =>
    have hread (sign : Nat) : n.length ≤ (if digits Char.isDigit (rest.drop sign) = 0 then n
        else ⟨.float, n.length + 1 + sign + digits Char.isDigit (rest.drop sign)⟩).length := by
      split
      · exact Nat.le_refl _
      · simp only
        omega
    split
    · exact hread _
    · exact Nat.le_refl _
  · exact Nat.le_refl _

theorem le_length_withSuffix (cs : List Char) (n : Number) : n.length ≤ (withSuffix cs n).length := by
  unfold withSuffix
  split
  · exact Nat.le_refl _
  · simp only
    omega

theorem le_length_withGlued (isWordChar : Char → Bool) (cs : List Char) (n : Number) :
    n.length ≤ (withGlued isWordChar cs n).length := by
  unfold withGlued
  dsimp only
  split
  · exact Nat.le_refl _
  · exact Nat.le_add_right ..

/-- A digit is no letter, so a point in front of it is that of a fraction. -/
theorem pointAllowed_of_isDigit {c : Char} (h : c.isDigit = true) : pointAllowed (some c) = true := by
  have hascii := Text.lt_of_isDigit h
  have hpoint : c ≠ '.' := by
    rintro rfl
    cases h
  simp [pointAllowed, Text.isAlphabetic, hascii, Text.isAlpha_eq_false_of_isDigit h, hpoint]

theorem length_decimal_pos {c : Char} {cs : List Char}
    (h : c.isDigit = true ∨ c = '.' ∧ cs.head?.any Char.isDigit = true) : 0 < (decimal (c :: cs)).length := by
  refine Nat.lt_of_lt_of_le ?_ (le_length_withExponent ..)
  rcases h with hc | ⟨rfl, hcs⟩
  · refine Nat.lt_of_lt_of_le ?_ (le_length_withFraction ..)
    show 0 < digits Char.isDigit (c :: cs)
    rw [digits, Text.run, List.takeWhile_cons_of_pos (by rw [hc]; rfl)]
    exact Nat.succ_pos _
  · obtain ⟨x, hhead, hx⟩ := (Option.any_eq_true ..).1 hcs
    have hfraction : withFraction ('.' :: cs) ⟨.decimal, 0⟩ = ⟨.float, 0 + 1 + digits Char.isDigit cs⟩ :=
      if_pos (by rw [hhead]; exact pointAllowed_of_isDigit hx)
    show 0 < (withFraction ('.' :: cs) ⟨.decimal, 0⟩).length
    rw [hfraction]
    simp only
    omega

theorem length_unsuffixed_pos {c : Char} {cs : List Char}
    (h : c.isDigit = true ∨ c = '.' ∧ cs.head?.any Char.isDigit = true) : 0 < (unsuffixed (c :: cs)).length := by
  unfold unsuffixed
  split
  · split
    · simp only
      omega
    · exact length_decimal_pos (.inl rfl)
  · exact length_decimal_pos h

theorem length_scan_pos (isWordChar : Char → Bool) {c : Char} {cs : List Char}
    (h : c.isDigit = true ∨ c = '.' ∧ cs.head?.any Char.isDigit = true) :
    0 < (scan isWordChar (c :: cs)).length := by
  refine Nat.lt_of_lt_of_le ?_ (le_length_withGlued ..)
  refine Nat.lt_of_lt_of_le ?_ (le_length_withSuffix ..)
  exact length_unsuffixed_pos h

end Number

/-! ### What can start at a character -/

theorem Extent.shift_shift (m n : Nat) (e : Extent) : (e.shift m).shift n = e.shift (n + m) := by
  cases e with
  | upTo kind length => exact congrArg (Extent.upTo kind) (Nat.add_assoc n m length).symm
  | toEnd kind left => rfl

/-- An extent does not reach past the end of a text. -/
def Extent.Fits (cs : List Char) : Extent → Prop
  | .upTo _ length => length ≤ cs.length
  | .toEnd _ _ => True

section Fits
variable {d : Dialect} {seen : List Char} {c : Char} {cs : List Char}

theorem Extent.Fits.shift {e : Extent} {n : Nat} {front : List Char} (h : e.Fits cs)
    (hfront : front.length = n) : (e.shift n).Fits (front ++ cs) := by
  cases e with
  | upTo kind length =>
    show n + length ≤ (front ++ cs).length
    rw [List.length_append, hfront]
    exact Nat.add_le_add_left h n
  | toEnd kind left => trivial

theorem fits_commentExtent (d : Dialect) (depth : Nat) (doc : Bool) (cs : List Char) :
    (commentExtent d depth doc cs).Fits cs := by
  unfold commentExtent
  split
  · next n h => exact le_length_of_commentEnd h
  · trivial

theorem fits_stringExtent (d : Dialect) (cs : List Char) : (stringExtent d cs).Fits cs := by
  unfold stringExtent
  split
  · next n h => exact (bounds_of_quoteEnd h).2
  · trivial
  · split <;> trivial

theorem fits_templateExtent (cs : List Char) : (templateExtent cs).Fits cs := by
  unfold templateExtent
  split
  · next n h => exact (bounds_of_quoteEnd h).2
  · trivial

theorem fits_singleQuoteExtent (d : Dialect) (cs : List Char) : (singleQuoteExtent d cs).Fits cs := by
  unfold singleQuoteExtent
  split
  · next n h =>
    have hle := (bounds_of_quoteEnd h).2
    split
    · exact hle
    · split <;> exact hle
  · trivial

theorem fits_blank? : ∀ e ∈ blank? c cs, e.Fits cs := by
  unfold blank?
  split
  · simpa [Extent.Fits] using Text.run_le_length _ cs
  · simp

theorem fits_comment? : ∀ e ∈ comment? d c cs, e.Fits cs := by
  unfold comment?
  split
  · split
    · simp [Extent.Fits]
    · next body =>
      simpa using (fits_commentExtent d 1 _ body).shift (show ['*'].length = 1 from rfl)
    · simp
  · simp

theorem fits_pattern? : ∀ e ∈ pattern? d seen c cs, e.Fits cs := by
  unfold pattern?
  split
  · intro e he
    obtain ⟨n, hn, rfl⟩ := Option.map_eq_some_iff.1 he
    exact Pattern.le_length_of_length? hn
  · simp

theorem fits_quoted? : ∀ e ∈ quoted? d c cs, e.Fits cs := by
  unfold quoted?
  split
  · simpa using fits_stringExtent d cs
  · split
    · simpa using fits_templateExtent cs
    · split
      · split
        · simpa [Extent.Fits] using Text.run_le_length _ cs
        · simpa using fits_singleQuoteExtent d cs
      · simp

theorem fits_number? : ∀ e ∈ number? d c cs, e.Fits cs := by
  unfold number?
  split
  · have hle := Number.length_scan_le d.isWordChar (c :: cs)
    rw [List.length_cons] at hle
    simpa [Extent.Fits] using hle
  · simp

theorem fits_word? : ∀ e ∈ word? d c cs, e.Fits cs := by
  unfold word?
  split
  · simpa [Extent.Fits] using Text.run_le_length _ cs
  · simp

theorem fits_directive? : ∀ e ∈ directive? d seen c cs, e.Fits cs := by
  unfold directive?
  split
  · simpa [Extent.Fits] using Text.run_le_length _ cs
  · simp

theorem fits_annotated? : ∀ e ∈ annotated? d c cs, e.Fits cs := by
  unfold annotated?
  split
  · simpa [Extent.Fits] using Text.run_le_length _ cs
  · simp

theorem operatorRest_le (cs : List Char) : operatorRest cs ≤ cs.length := by
  induction cs with
  | nil => exact Nat.le_refl _
  | cons c cs ih =>
    unfold operatorRest
    split
    · exact Nat.succ_le_succ ih
    · exact Nat.zero_le _

theorem fits_punctuation (c : Char) (cs : List Char) : (punctuation c cs).Fits cs := by
  unfold punctuation
  split
  · exact Nat.zero_le _
  · split
    · exact operatorRest_le cs
    · exact Nat.zero_le _

theorem forall_mem_orElse {p : Extent → Prop} {x y : Option Extent} (hx : ∀ e ∈ x, p e)
    (hy : ∀ e ∈ y, p e) : ∀ e ∈ (x <|> y), p e := by
  cases x with
  | none => exact hy
  | some e => exact hx

/-- **What starts at a character** reaches at most to the end of the text. -/
theorem fits_next (d : Dialect) (seen : List Char) (c : Char) (cs : List Char) :
    (next d seen c cs).Fits cs := by
  have hfits : ∀ e ∈ (blank? c cs <|> comment? d c cs <|> pattern? d seen c cs <|> quoted? d c cs <|>
      number? d c cs <|> word? d c cs <|> directive? d seen c cs <|> annotated? d c cs), e.Fits cs :=
    forall_mem_orElse fits_blank? <| forall_mem_orElse fits_comment? <| forall_mem_orElse fits_pattern? <|
      forall_mem_orElse fits_quoted? <| forall_mem_orElse fits_number? <| forall_mem_orElse fits_word? <|
      forall_mem_orElse fits_directive? fits_annotated?
  unfold next
  generalize (blank? c cs <|> _ : Option Extent) = found at hfits ⊢
  cases found with
  | none => exact fits_punctuation c cs
  | some e => exact hfits e rfl

theorem le_length_of_next {kind : Token.Kind} {n : Nat} (h : next d seen c cs = .upTo kind n) :
    n ≤ cs.length := by
  have hfits := fits_next d seen c cs
  rwa [h] at hfits

theorem fits_resume (d : Dialect) (open? : Construct) (cs : List Char) :
    (resume d open? cs).Fits cs := by
  cases open? with
  | comment depth doc => exact fits_commentExtent d depth doc cs
  | string => exact fits_stringExtent d cs
  | template => exact fits_templateExtent cs

theorem le_length_of_resume {open? : Construct} {kind : Token.Kind} {n : Nat}
    (h : resume d open? cs = .upTo kind n) : n ≤ cs.length := by
  have hfits := fits_resume d open? cs
  rwa [h] at hfits

end Fits

end Linewise.CFamily
