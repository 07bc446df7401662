import Linewise.Proofs.NumberTexts
import Linewise.Proofs.TokenOrigins
import Mathlib.Data.List.Basic

/-!
# Characters of structure

Brackets and the marks that open comments give a line of the C family its structure. Wherever one of them stands,
the token there shows it: a bracket is a separator by itself, and an opening mark starts a comment, unless they
are part of a comment or of a literal. Words and numbers hold neither brackets nor slashes
(`CFamily.behind_of_found`), and an operator stops in front of a comment (`CFamily.opensComment_operatorRest`).

* `CFamily.tokenize_keeps_structure`: **no bracket is lost, and no mark that opens a comment**.
-/

namespace Linewise.CFamily

open Token (Kind)

/-- Whether a character is a bracket. -/
def isBracket (c : Char) : Bool := ['(', ')', '[', ']', '{', '}'].contains c

/-- Whether a character may be one of structure: a bracket, or the first one of a mark that opens a comment. -/
def isStructural (c : Char) : Bool := isBracket c || c == '/'

/-! ### Kinds of comments and literals -/

/-- Whether a kind is that of a comment or of a literal. -/
def isCovering (k : Kind) : Bool := k.isComment || k.isStringLike

theorem isComment_commentExtent (d : Dialect) (depth : Nat) (doc : Bool) (cs : List Char) :
    (commentExtent d depth doc cs).kind.isComment = true := by
  rw [kind_commentExtent]
  cases doc <;> rfl

theorem isStringLike_stringExtent (d : Dialect) (cs : List Char) : (stringExtent d cs).kind.isStringLike = true :=
  (show ∀ k ∈ [Kind.string, .errorString], k.isStringLike = true by decide) _ (kind_stringExtent d cs)

theorem isStringLike_templateExtent (cs : List Char) : (templateExtent cs).kind.isStringLike = true := by
  rw [kind_templateExtent]
  rfl

theorem isStringLike_singleQuoteExtent (d : Dialect) (cs : List Char) :
    (singleQuoteExtent d cs).kind.isStringLike = true :=
  (show ∀ k ∈ [Kind.string, .char, .errorChar, .errorString], k.isStringLike = true by decide) _
    (kind_singleQuoteExtent d cs)

theorem isCovering_of_isComment {k : Kind} (h : k.isComment = true) : isCovering k = true := by
  rw [isCovering, h, Bool.true_or]

theorem isCovering_of_isStringLike {k : Kind} (h : k.isStringLike = true) : isCovering k = true := by
  rw [isCovering, h, Bool.or_true]

theorem isCovering_resume (d : Dialect) (construct : Construct) (cs : List Char) :
    isCovering (resume d construct cs).kind = true := by
  cases construct with
  | comment depth doc => exact isCovering_of_isComment (isComment_commentExtent ..)
  | string => exact isCovering_of_isStringLike (isStringLike_stringExtent ..)
  | template => exact isCovering_of_isStringLike (isStringLike_templateExtent _)

/-! ### What words, numbers and operators hold -/

/-- A character of structure stands in no word and in no number. -/
theorem class_of_isStructural {c : Char} (h : isStructural c = true) :
    Text.isBlank c = false ∧ Text.isAlphanumeric c = false ∧ Number.isBodyChar c = false ∧
      Number.isSuffixLetter c = false ∧ c.isDigit = false ∧ c ≠ '_' ∧ c ≠ '$' := by
  have hall : ∀ c ∈ ['(', ')', '[', ']', '{', '}', '/'], Text.isBlank c = false ∧
      Text.isAlphanumeric c = false ∧ Number.isBodyChar c = false ∧ Number.isSuffixLetter c = false ∧
      c.isDigit = false ∧ c ≠ '_' ∧ c ≠ '$' := List.forall_iff_forall_mem.mp (by decide)
  refine hall c ?_
  rw [isStructural, isBracket, Bool.or_eq_true, List.contains_iff_mem, beq_iff_eq] at h
  rcases h with h | rfl
  · exact List.mem_append_left ['/'] h
  · decide

theorem isWordChar_eq_false_of_isStructural {c : Char} (h : isStructural c = true) (d : Dialect) :
    d.isWordChar c = false := by
  obtain ⟨-, halnum, -, -, -, hunderscore, hdollar⟩ := class_of_isStructural h
  simp [Dialect.isWordChar, halnum, hunderscore, hdollar]

theorem isWordStart_eq_false_of_isStructural {c : Char} (h : isStructural c = true) (d : Dialect) :
    d.isWordStart c = false := by
  obtain ⟨-, halnum, -, -, -, hunderscore, hdollar⟩ := class_of_isStructural h
  rw [Text.isAlphanumeric, Bool.or_eq_false_iff] at halnum
  simp [Dialect.isWordStart, halnum.1, hunderscore, hdollar]

theorem not_structural_of_number (d : Dialect) (cs : List Char) :
    ∀ x ∈ cs.take (Number.scan d.isWordChar cs).length, isStructural x = false := by
  intro x hx
  refine Bool.eq_false_iff.mpr fun hstructural => ?_
  obtain ⟨-, -, hbody, hletter, hdigit, -, -⟩ := class_of_isStructural hstructural
  obtain ⟨letters, width, glued, htake, hletters, hwidth, hglued, -⟩ := Number.take_scan d.isWordChar cs
  rw [htake, List.mem_append, List.mem_append, List.mem_append] at hx
  rcases hx with ((hx | hx) | hx) | hx
  · exact Bool.noConfusion (hbody.symm.trans (Number.isBodyChar_unsuffixed x hx))
  · exact Bool.noConfusion (hletter.symm.trans (hletters x hx))
  · exact Bool.noConfusion (hdigit.symm.trans (hwidth x hx))
  · exact Bool.noConfusion ((isWordChar_eq_false_of_isStructural hstructural d).symm.trans (hglued x hx))

/-- An operator holds operator characters, none of which opens a comment behind the first. -/
theorem opensComment_operatorRest {cs : List Char} {k : Nat} (hk : k < operatorRest cs) :
    (∃ x ∈ cs[k]?, isOperatorChar x = true) ∧ opensComment (cs.drop k) = false := by
  induction cs generalizing k with
  | nil => cases hk
  | cons c cs ih =>
    rw [operatorRest] at hk
    split_ifs at hk with hc
    · rw [Bool.and_eq_true, Bool.not_eq_true'] at hc
      cases k with
      | zero => exact ⟨⟨c, rfl, hc.1⟩, hc.2⟩
      | succ k => exact ih (Nat.lt_of_succ_lt_succ hk)
    · cases hk

/-! ### What is found at a character -/

section Found
variable {d : Dialect} {seen : List Char} {c : Char} {cs : List Char} {e : Extent}

/-- **Behind its first character**, what is found at it holds no character of structure, unless it is a comment, a
literal or an operator. -/
theorem behind_of_found (h : Found d seen c cs e) :
    isCovering e.kind = true ∨ (∀ x ∈ cs.take (e.reach cs), isStructural x = false) ∨
      e = .upTo .operator (operatorRest cs) := by
  have hrun {p : Char → Bool} (hp : ∀ x, isStructural x = true → p x = false) :
      ∀ x ∈ cs.take (Text.run p cs), isStructural x = false := fun x hx => Bool.eq_false_iff.mpr fun hstructural =>
    Bool.noConfusion ((hp x hstructural).symm.trans (Text.of_mem_take_run hx))
  have hword : ∀ x ∈ cs.take (Text.run d.isWordChar cs), isStructural x = false :=
    hrun fun x hx => isWordChar_eq_false_of_isStructural hx d
  cases h with
  | blank hc => exact Or.inr (Or.inl (hrun fun x hx => (class_of_isStructural hx).1))
  | lineComment hc hcs => exact Or.inl rfl
  | blockComment doc hc hcs =>
    rw [Extent.kind_shift]
    exact Or.inl (isCovering_of_isComment (isComment_commentExtent ..))
  | pattern hc hopens hpatterns hallowed hlength => exact Or.inl rfl
  | string hc => exact Or.inl (isCovering_of_isStringLike (isStringLike_stringExtent ..))
  | template hc => exact Or.inl (isCovering_of_isStringLike (isStringLike_templateExtent _))
  | lifetime hc hlifetimes => exact Or.inr (Or.inl hword)
  | singleQuote hc => exact Or.inl (isCovering_of_isStringLike (isStringLike_singleQuoteExtent ..))
  | number hc =>
    refine Or.inr (Or.inl fun x hx => not_structural_of_number d (c :: cs) x ?_)
    have hlength := Number.length_scan_pos d.isWordChar hc
    rw [← Nat.sub_add_cancel hlength, List.take_succ_cons]
    exact List.mem_cons_of_mem c hx
  | word hc => exact Or.inr (Or.inl hword)
  | directive hc =>
    refine Or.inr (Or.inl (hrun fun x hx => ?_))
    obtain ⟨-, halnum, -, -, -, hunderscore, -⟩ := class_of_isStructural hx
    rw [halnum, beq_false_of_ne hunderscore]
    rfl
  | annotated hfree hc => exact Or.inr (Or.inl hword)
  | separator hc => exact Or.inr (Or.inl nofun)
  | operator hfree hc => exact Or.inr (Or.inr rfl)
  | stray hseparator hoperator hword => exact Or.inr (Or.inl nofun)

theorem eq_separator_of_found (h : Found d seen c cs e) (hbracket : isBracket c = true)
    (hmark : d.annotationMark ≠ some c) : e = .upTo .separator 0 := by
  have hstructural : isStructural c = true := by rw [isStructural, hbracket, Bool.true_or]
  obtain ⟨hblank, -, -, -, hdigit, -, -⟩ := class_of_isStructural hstructural
  have hpunctuation : ∀ c ∈ ['(', ')', '[', ']', '{', '}'], isSeparator c = true ∧ isOperatorChar c = false :=
    List.forall_iff_forall_mem.mp (by decide)
  have hc := hpunctuation c (List.contains_iff_mem.mp hbracket)
  have hne {x : Char} (hx : isBracket x = false) : c ≠ x := by
    rintro rfl
    exact Bool.noConfusion (hx.symm.trans hbracket)
  cases h with
  | blank h => exact absurd (hblank.symm.trans h) Bool.noConfusion
  | lineComment h hcs => exact absurd h (hne rfl)
  | blockComment doc h hcs => exact absurd h (hne rfl)
  | pattern h hopens hpatterns hallowed hlength => exact absurd h (hne rfl)
  | string h => exact absurd h (hne rfl)
  | template h => exact absurd h (hne rfl)
  | lifetime h hlifetimes => exact absurd h (hne rfl)
  | singleQuote h => exact absurd h (hne rfl)
  | number h =>
    rcases h with h | ⟨h, -⟩
    · exact absurd (hdigit.symm.trans h) Bool.noConfusion
    · exact absurd h (hne rfl)
  | word h => exact absurd ((isWordStart_eq_false_of_isStructural hstructural d).symm.trans h) Bool.noConfusion
  | directive h => exact absurd h (hne rfl)
  | annotated hfree h => exact absurd h hmark
  | separator h => rfl
  | operator hfree h => exact absurd (hc.2.symm.trans h) Bool.noConfusion
  | stray h hoperator hword => exact absurd (h.symm.trans hc.1) Bool.noConfusion

theorem isCovering_of_opensComment (h : Found d seen c cs e) (hopens : opensComment (c :: cs) = true) :
    isCovering e.kind = true := by
  obtain ⟨rfl, -⟩ := opensComment_cons_iff.mp hopens
  have hfree (hfree : Free d seen '/' cs) : False :=
    Bool.noConfusion (hfree.opensComment_eq.symm.trans hopens)
  cases h with
  | blank h => exact absurd h (by decide)
  | lineComment h hcs => rfl
  | blockComment doc h hcs =>
    rw [Extent.kind_shift]
    exact isCovering_of_isComment (isComment_commentExtent ..)
  | pattern h hopens hpatterns hallowed hlength => rfl
  | string h => exact absurd h (by decide)
  | template h => exact absurd h (by decide)
  | lifetime h hlifetimes => exact absurd h (by decide)
  | singleQuote h => exact absurd h (by decide)
  | number h =>
    rcases h with h | ⟨h, -⟩
    · exact absurd h (by decide)
    · exact absurd h (by decide)
  | word h => exact absurd ((isWordStart_eq_false_of_isStructural (by decide) d).symm.trans h) Bool.noConfusion
  | directive h => exact absurd h (by decide)
  | annotated h hc => exact (hfree h).elim
  | separator h => exact absurd h (by decide)
  | operator h hc => exact (hfree h).elim
  | stray hseparator h hword => exact absurd h (by decide)

end Found

/-! ### The characters of a line -/

section Line
variable {d : Dialect} {initial : LineState} {line : List Char} {lineStart : UInt64} {i : Nat}

/-- A character behind the first of its token is one of structure only in a comment, in a literal, or in an
operator that goes on there. -/
theorem Origin.isCovering_or_operator {t : Token} {c x : Char} {rest : List Char} (h : Origin d line t c rest)
    (hstart : t.start < i) (hstop : i < t.stop) (hx : (line)[i]? = some x) (hstructural : isStructural x = true) :
    isCovering t.kind = true ∨
      t.kind = .operator ∧ isOperatorChar x = true ∧ opensComment (line.drop i) = false := by
  obtain ⟨e, hfound, hkind, hlength⟩ := h.found
  obtain ⟨k, rfl⟩ : ∃ k, i = t.start + (k + 1) := ⟨i - t.start - 1, by omega⟩
  have hk : k < e.reach rest := by
    rw [Token.stop, hlength] at hstop
    omega
  rw [h.getElem?_add, List.getElem?_cons_succ] at hx
  rw [h.drop_add, List.drop_succ_cons, hkind]
  rcases behind_of_found hfound with hcovering | hbehind | rfl
  · exact Or.inl hcovering
  · have hmem : x ∈ rest.take (e.reach rest) := by
      refine List.mem_of_getElem? (i := k) ?_
      rwa [List.getElem?_take_of_lt hk]
    exact absurd ((hbehind x hmem).symm.trans hstructural) Bool.noConfusion
  · obtain ⟨⟨y, hy, hoperator⟩, hopens⟩ := opensComment_operatorRest hk
    obtain rfl := Option.some.inj (hx.symm.trans hy)
    exact Or.inr ⟨rfl, hoperator, hopens⟩

theorem Origin.separator_or_isCovering {t : Token} {c x : Char} {rest : List Char} (h : Origin d line t c rest)
    (hmark : ∀ c ∈ d.annotationMark, isBracket c = false) (hstart : t.start ≤ i) (hstop : i < t.stop)
    (hx : (line)[i]? = some x) (hbracket : isBracket x = true) :
    (t.kind = .separator ∧ t.length = 1) ∨ isCovering t.kind = true := by
  rcases Nat.lt_or_eq_of_le hstart with hlt | rfl
  · rcases h.isCovering_or_operator hlt hstop hx (by rw [isStructural, hbracket, Bool.true_or]) with
      hcovering | ⟨-, hoperator, -⟩
    · exact Or.inr hcovering
    · have hnone : ∀ c ∈ ['(', ')', '[', ']', '{', '}'], isOperatorChar c = false :=
        List.forall_iff_forall_mem.mp (by decide)
      exact absurd ((hnone x (List.contains_iff_mem.mp hbracket)).symm.trans hoperator) Bool.noConfusion
  · obtain ⟨e, hfound, hkind, hlength⟩ := h.found
    obtain rfl : c = x := Option.some.inj ((h.getElem?_add 0).symm.trans hx)
    have hnoMark : d.annotationMark ≠ some c := fun hmarked =>
      Bool.noConfusion ((hmark c hmarked).symm.trans hbracket)
    obtain rfl := eq_separator_of_found hfound hbracket hnoMark
    exact Or.inl ⟨hkind, hlength⟩

theorem Origin.isCovering_of_opensComment {t : Token} {c : Char} {rest : List Char} (h : Origin d line t c rest)
    (hstart : t.start ≤ i) (hstop : i < t.stop) (hopens : opensComment (line.drop i) = true) :
    isCovering t.kind = true := by
  rcases Nat.lt_or_eq_of_le hstart with hlt | rfl
  · obtain ⟨x, cs, hdrop⟩ : ∃ x cs, line.drop i = x :: cs := by
      cases hdrop : line.drop i with
      | nil => rw [hdrop] at hopens; cases hopens
      | cons x cs => exact ⟨x, cs, rfl⟩
    have hx : (line)[i]? = some x := by
      rw [← List.head?_drop, hdrop, List.head?_cons]
    rw [hdrop] at hopens
    obtain ⟨rfl, -⟩ := opensComment_cons_iff.mp hopens
    rcases h.isCovering_or_operator hlt hstop hx (by decide) with hcovering | ⟨-, -, hclosed⟩
    · exact hcovering
    · rw [hdrop, hopens] at hclosed
      cases hclosed
  · obtain ⟨e, hfound, hkind, -⟩ := h.found
    rw [h.drop_start] at hopens
    rw [hkind]
    exact CFamily.isCovering_of_opensComment hfound hopens

theorem Origin.text_of_separator {t : Token} {c : Char} {rest : List Char} (h : Origin d line t c rest)
    (hkind : t.kind = .separator) : isSeparator c = true ∧ t.text line = [c] := by
  obtain ⟨e, hshown, -, hlength⟩ := h.shown
  rw [hkind] at hshown
  obtain ⟨hc, hreach⟩ := hshown
  rw [hreach] at hlength
  exact ⟨hc, by rw [Token.text, h.drop_start, hlength]; rfl⟩

/-- The token that covers a column of a line is what the line before has left open, and then a comment or a literal,
or starts at its first character. -/
theorem exists_covering_origin (d : Dialect) (initial : LineState) (lineStart : UInt64) (hi : i < line.length) :
    ∃ t, ((scanner d).tokenize line initial lineStart).covering? i = some t ∧
      (isCovering t.kind = true ∨ t.start ≤ i ∧ i < t.stop ∧ ∃ c rest, Origin d line t c rest) := by
  obtain ⟨t, ht⟩ := ((Scanner.BuiltIn.cFamily d).tiling line initial lineStart).exists_covering?_eq hi
  obtain ⟨hmem, hstart, hstop⟩ := Token.Sequence.covering?_eq_some ht
  refine ⟨t, ht, ?_⟩
  rcases origin_of_mem hmem with ⟨construct, hresumed⟩ | horigin
  · rw [hresumed.kind_eq]
    exact Or.inl (isCovering_resume ..)
  · exact Or.inr ⟨hstart, hstop, horigin⟩

/-- **No character of structure is lost.** In a dialect whose annotations start with no bracket, whatever the line and
the state in front of it, the token at a bracket is a separator of one character, or a comment or a literal; a
separator is one of the characters that are separators; and the token at a mark that opens a comment is a comment or
a literal, so that no operator swallows the mark. -/
theorem tokenize_keeps_structure (d : Dialect) (hmark : ∀ c ∈ d.annotationMark, isBracket c = false)
    (line : List Char) (initial : LineState) (lineStart : UInt64) :
    let tokens := (scanner d).tokenize line initial lineStart
    (∀ i c, (line)[i]? = some c → isBracket c = true → ∃ t, tokens.covering? i = some t ∧
      (t.kind = .separator ∧ t.length = 1 ∨ t.kind.isComment = true ∨ t.kind.isStringLike = true)) ∧
    (∀ t ∈ tokens.tokens, t.kind = .separator →
      ∃ c ∈ ['(', ')', '[', ']', '{', '}', ';', ','], t.text line = [c]) ∧
    (∀ i, (line)[i]? = some '/' → (line)[i + 1]? = some '/' ∨ (line)[i + 1]? = some '*' →
      ∃ t, tokens.covering? i = some t ∧ (t.kind.isComment = true ∨ t.kind.isStringLike = true)) := by
  intro tokens
  have hlt {i : Nat} {c : Char} (hc : (line)[i]? = some c) : i < line.length := (List.getElem?_eq_some_iff.mp hc).1
  have hsplit {k : Kind} (h : isCovering k = true) : k.isComment = true ∨ k.isStringLike = true := by
    rwa [isCovering, Bool.or_eq_true] at h
  refine ⟨fun i c hc hbracket => ?_, fun t ht hkind => ?_, fun i hslash hnext => ?_⟩
  · obtain ⟨t, ht, hcovering | ⟨hstart, hstop, x, rest, horigin⟩⟩ :=
      exists_covering_origin d initial lineStart (hlt hc)
    · exact ⟨t, ht, Or.inr (hsplit hcovering)⟩
    · exact ⟨t, ht, (horigin.separator_or_isCovering hmark hstart hstop hc hbracket).imp_right hsplit⟩
  · rcases origin_of_mem ht with ⟨construct, hresumed⟩ | ⟨c, rest, horigin⟩
    · have hplain := plain_resume d construct line
      rw [← hresumed.kind_eq] at hplain
      exact absurd hkind hplain.2
    · obtain ⟨hc, htext⟩ := horigin.text_of_separator hkind
      exact ⟨c, List.contains_iff_mem.mp hc, htext⟩
  · obtain ⟨t, ht, hcovering | ⟨hstart, hstop, x, rest, horigin⟩⟩ :=
      exists_covering_origin d initial lineStart (hlt hslash)
    · exact ⟨t, ht, hsplit hcovering⟩
    · refine ⟨t, ht, hsplit (horigin.isCovering_of_opensComment hstart hstop ?_)⟩
      have hdrop : line.drop i = '/' :: line.drop (i + 1) := by
        rw [List.drop_eq_getElem_cons (hlt hslash), (List.getElem?_eq_some_iff.mp hslash).2]
      rw [hdrop]
      exact opensComment_cons_iff.mpr ⟨rfl, by rwa [List.head?_drop]⟩

/-- An operator ends in front of a comment, in which there is a bracket. -/
theorem tokenize_keeps_structure_operator :
    let line := "a[1]=/*]*/".toList
    let tokens := (scanner .rust).tokenize line .neutral 0
    (∀ c ∈ Dialect.rust.annotationMark, isBracket c = false) ∧ (line)[4]? = some '=' ∧
      (∃ t, tokens.covering? 3 = some t ∧
        (t.kind = .separator ∧ t.length = 1 ∨ t.kind.isComment = true ∨ t.kind.isStringLike = true)) ∧
      (∃ t, tokens.covering? 7 = some t ∧
        (t.kind = .separator ∧ t.length = 1 ∨ t.kind.isComment = true ∨ t.kind.isStringLike = true)) ∧
      ∃ t, tokens.covering? 5 = some t ∧ (t.kind.isComment = true ∨ t.kind.isStringLike = true) := by
  have hmark : ∀ c ∈ Dialect.rust.annotationMark, isBracket c = false := by
    rintro _ ⟨⟩
    rfl
  obtain ⟨hbrackets, -, hmarks⟩ := tokenize_keeps_structure .rust hmark "a[1]=/*]*/".toList .neutral 0
  exact ⟨hmark, by decide, hbrackets 3 ']' (by decide) (by decide), hbrackets 7 ']' (by decide) (by decide),
    hmarks 5 (by decide) (Or.inr (by decide))⟩

end Line

end Linewise.CFamily
