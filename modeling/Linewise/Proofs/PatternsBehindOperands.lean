import Linewise.Proofs.AllowedPatterns
import Linewise.Proofs.MissedPatterns

/-!
# Regular expressions behind operands

A slash behind an operand should divide. Whether it does is judged by the last character in front of it that is no
blank, so it depends on what the token there ends with. Behind a word, a number, a string or a closing bracket no
slash opens an expression (`allowedAfter_of_operand`); for a word this takes that letters never meet across the end
of a token (`letters_apart`), so that the word that is judged is the one that was read. But a comment ends with a
slash (`allowedAfter_of_comment`), and so does a regular expression without flags; behind these a slash is taken for
the start of an expression, whatever stands in front of them.

* `CFamily.pattern_behind_operand_iff`: **when a slash behind an operand is read as a regular expression**.
-/

namespace Linewise.CFamily

open Token (Kind Contiguous)
open Pattern (allowedAfter)

/-! ### Where tokens meet -/

theorem Extent.ClosedBy.getLast?_eq {x : Char} {cs : List Char} {e : Extent} (h : e.ClosedBy x cs)
    (hlt : e.reach cs < cs.length) (c : Char) : (c :: cs.take (e.reach cs)).getLast? = some x := by
  cases e with
  | upTo kind length => rw [Extent.reach, List.getLast?_cons, show (cs.take length).getLast? = some x from h]; rfl
  | toEnd kind left => exact absurd hlt (Nat.lt_irrefl _)

section Apart
variable {d : Dialect} {seen : List Char} {c y : Char} {cs : List Char} {e : Extent}

theorem isAlpha_eq_false_of_isWordChar (h : d.isWordChar y = false) : y.isAlpha = false := by
  rw [Dialect.isWordChar, Bool.or_eq_false_iff, Bool.or_eq_false_iff] at h
  exact Text.isAlpha_eq_false_of_isAlphanumeric h.1.1

theorem isOperatorChar_of_mem_take {x : Char} (h : x ∈ cs.take (operatorRest cs)) : isOperatorChar x = true := by
  obtain ⟨k, hk, rfl⟩ := List.mem_iff_getElem.mp h
  rw [List.length_take] at hk
  have hlt : k < operatorRest cs := by omega
  obtain ⟨⟨x, hx, hoperator⟩, -⟩ := opensComment_operatorRest hlt
  rw [List.getElem_take]
  rwa [(List.getElem?_eq_some_iff.mp hx).2]

/-- **Letters do not meet** where what is found ends: its last character is no letter, or the one behind it. -/
theorem apart_of_found (h : Found d seen c cs e) (hy : (cs.drop (e.reach cs)).head? = some y) :
    (∃ x, (c :: cs.take (e.reach cs)).getLast? = some x ∧ x.isAlpha = false) ∨ y.isAlpha = false := by
  have hlt : e.reach cs < cs.length := by
    by_contra hle
    rw [List.drop_eq_nil_of_le (Nat.le_of_not_lt hle)] at hy
    cases hy
  have hlast (hall : ∀ x ∈ c :: cs.take (e.reach cs), x.isAlpha = false) :
      ∃ x, (c :: cs.take (e.reach cs)).getLast? = some x ∧ x.isAlpha = false :=
    ⟨_, List.getLast?_eq_some_getLast (List.cons_ne_nil _ _), hall _ (List.getLast_mem _)⟩
  cases h with
  | blank hc =>
    refine Or.inl (hlast (List.forall_mem_cons.mpr ⟨?_, fun x hx => ?_⟩))
    · exact Text.isAlpha_eq_false_of_isAlphanumeric (Text.isAlphanumeric_eq_false_of_isBlank hc)
    · exact Text.isAlpha_eq_false_of_isAlphanumeric (Text.isAlphanumeric_eq_false_of_isBlank (Text.of_mem_take_run hx))
  | lineComment hc hcs => exact absurd hlt (Nat.lt_irrefl _)
  | blockComment doc hc hcs =>
    subst hcs
    exact Or.inl ⟨'/', ((closedBy_commentExtent d _ 1 doc).shift ['*']).getLast?_eq hlt c, by decide⟩
  | pattern hc hopens hpatterns hallowed hlength =>
    obtain ⟨m, -, rfl⟩ := Option.map_eq_some_iff.mp hlength
    rw [Extent.reach, ← List.drop_drop] at hy
    exact Or.inr (Text.of_mem_head?_drop_run hy)
  | string hc => exact Or.inl ⟨_, (closedBy_stringExtent d cs).getLast?_eq hlt c, by decide⟩
  | template hc => exact Or.inl ⟨_, (closedBy_templateExtent cs).getLast?_eq hlt c, by decide⟩
  | lifetime hc hlifetimes => exact Or.inr (isAlpha_eq_false_of_isWordChar (Text.of_mem_head?_drop_run hy))
  | singleQuote hc => exact Or.inl ⟨_, (closedBy_singleQuoteExtent d cs).getLast?_eq hlt c, by decide⟩
  | number hc =>
    have hnext : ((c :: cs).drop (Number.scan d.isWordChar (c :: cs)).length).head? = some y := by
      rw [← Nat.sub_add_cancel (Number.length_scan_pos d.isWordChar hc)]
      exact hy
    exact Or.inr (isAlpha_eq_false_of_isWordChar (Number.of_mem_head?_drop_scan hnext))
  | word hc => exact Or.inr (isAlpha_eq_false_of_isWordChar (Text.of_mem_head?_drop_run hy))
  | directive hc =>
    have hnext := Text.of_mem_head?_drop_run hy
    rw [Bool.or_eq_false_iff] at hnext
    exact Or.inr (Text.isAlpha_eq_false_of_isAlphanumeric hnext.1)
  | annotated hfree hc => exact Or.inr (isAlpha_eq_false_of_isWordChar (Text.of_mem_head?_drop_run hy))
  | separator hc =>
    have hall : ∀ c ∈ ['(', ')', '[', ']', '{', '}', ';', ','], c.isAlpha = false :=
      List.forall_iff_forall_mem.mp (by decide)
    exact Or.inl ⟨c, rfl, hall c (List.contains_iff_mem.mp hc)⟩
  | operator hfree hc =>
    have hall : ∀ x ∈ ['+', '-', '*', '/', '%', '=', '!', '<', '>', '&', '|', '^', '~', '?', ':', '.'],
        x.isAlpha = false := List.forall_iff_forall_mem.mp (by decide)
    refine Or.inl (hlast (List.forall_mem_cons.mpr ⟨hall c (List.contains_iff_mem.mp hc), fun x hx => ?_⟩))
    exact hall x (List.contains_iff_mem.mp (isOperatorChar_of_mem_take hx))
  | stray hseparator hoperator hstart =>
    rw [Dialect.isWordStart, Bool.or_eq_false_iff, Bool.or_eq_false_iff] at hstart
    refine Or.inl ⟨c, rfl, Bool.eq_false_iff.mpr fun halpha => ?_⟩
    exact Bool.noConfusion (hstart.1.1.symm.trans (Text.isAlphabetic_of_isAlpha halpha))

end Apart

section Origin
variable {d : Dialect} {line : List Char} {t : Token} {c x : Char} {rest : List Char} {e : Extent}

theorem Origin.take_stop (h : Origin d line t c rest) (hlength : t.length = e.reach rest + 1) :
    line.take t.stop = line.take t.start ++ c :: rest.take (e.reach rest) := by
  rw [Token.stop, List.take_add, h.drop_start, hlength, List.take_succ_cons]

theorem Origin.drop_stop (h : Origin d line t c rest) (hlength : t.length = e.reach rest + 1) :
    line.drop t.stop = rest.drop (e.reach rest) := by
  rw [Token.stop, h.drop_add, hlength, List.drop_succ_cons]

theorem Origin.text_eq (h : Origin d line t c rest) (hlength : t.length = e.reach rest + 1) :
    t.text line = c :: rest.take (e.reach rest) := by
  rw [Token.text, h.drop_start, hlength, List.take_succ_cons]

/-- What is closed on its line has its closing mark in front of what follows. -/
theorem Origin.getLast?_of_closedBy (h : Origin d line t c rest) (hlength : t.length = e.reach rest + 1)
    (hclosed : e.ClosedBy x rest) (hlt : t.stop < line.length) : (line.take t.stop).getLast? = some x := by
  have hreach : e.reach rest < rest.length := by
    have hdrop := congrArg List.length (h.drop_stop hlength)
    rw [List.length_drop, List.length_drop] at hdrop
    omega
  rw [h.take_stop hlength, List.getLast?_append, hclosed.getLast?_eq hreach]
  rfl

end Origin

section Line
variable {d : Dialect} {initial : LineState} {line : List Char} {lineStart : UInt64} {t u : Token}

theorem Resumed.getLast?_of_closedBy {construct : Construct} {x : Char} (h : Resumed d initial line t construct)
    (hclosed : (resume d construct line).ClosedBy x line) (hlt : t.stop < line.length) :
    (line.take t.stop).getLast? = some x := by
  have hstop : t.stop = (resume d construct line).reach line := by
    rw [Token.stop, h.start_eq, h.length_eq, Nat.zero_add]
  rw [hstop] at hlt ⊢
  cases hresume : resume d construct line with
  | upTo kind length =>
    rw [hresume] at hclosed
    exact hclosed
  | toEnd kind left =>
    rw [hresume] at hlt
    exact absurd hlt (Nat.lt_irrefl _)

theorem Resumed.kind_ne_pattern {construct : Construct} (h : Resumed d initial line t construct) :
    t.kind ≠ .pattern := by
  rw [h.kind_eq]
  cases construct with
  | comment depth doc =>
    rw [resume, kind_commentExtent]
    cases doc <;> decide
  | string =>
    have hall : ∀ k ∈ [Kind.string, .errorString], k ≠ .pattern := by decide
    exact hall _ (kind_stringExtent d line)
  | template =>
    rw [resume, kind_templateExtent]
    decide

/-- **Letters do not meet** where a token starts. -/
theorem letters_apart {x y : Char} (hu : u ∈ ((scanner d).tokenize line initial lineStart).tokens)
    (hx : (line.take u.start).getLast? = some x) (hy : (line)[u.start]? = some y) :
    x.isAlpha = false ∨ y.isAlpha = false := by
  have hstart : 0 < u.start := by
    refine Nat.pos_of_ne_zero fun hzero => ?_
    rw [hzero, List.take_zero] at hx
    cases hx
  have htiles := (Scanner.BuiltIn.cFamily d).tiling line initial lineStart
  obtain ⟨v, hv, hstop⟩ := htiles.contiguous.exists_stop_eq hu hstart
  rw [← hstop] at hx hy
  rcases origin_of_mem hv with ⟨construct, hresumed⟩ | ⟨c, rest, horigin⟩
  · obtain ⟨z, hz, hclosed⟩ := exists_closedBy_resume d line construct
    have hlast := hresumed.getLast?_of_closedBy hclosed (List.getElem?_eq_some_iff.mp hy).1
    obtain rfl := Option.some.inj (hx.symm.trans hlast)
    have hmarks : ∀ x ∈ ['/', '\x22', '\x60'], x.isAlpha = false := List.forall_iff_forall_mem.mp (by decide)
    exact Or.inl (hmarks x hz)
  · obtain ⟨e, hfound, -, hlength⟩ := horigin.found
    rw [← List.head?_drop, horigin.drop_stop hlength] at hy
    refine (apart_of_found hfound hy).imp_left fun ⟨z, hlast, hz⟩ => ?_
    rw [horigin.take_stop hlength, List.getLast?_append, hlast] at hx
    rwa [← Option.some.inj hx]

/-! ### Behind blanks and comments -/

theorem allowedAfter_of_getLast? {text : List Char} {x : Char} (h : text.getLast? = some x)
    (hblank : Text.isBlank x = false) (hword : Pattern.isWordChar x = false) :
    allowedAfter text = Pattern.openingChars.contains x := by
  obtain ⟨front, rfl⟩ := List.getLast?_eq_some_iff.mp h
  exact Pattern.allowedAfter_mark hblank hword

theorem allowedAfter_of_whitespace {c : Char} {rest : List Char} (h : Origin d line t c rest)
    (hkind : t.kind = .whitespace) : allowedAfter (line.take t.stop) = allowedAfter (line.take t.start) := by
  obtain ⟨e, hshown, -, hlength⟩ := h.shown
  rw [hkind] at hshown
  obtain ⟨hc, hreach⟩ := hshown
  rw [h.take_stop hlength, hreach]
  exact Pattern.allowedAfter_blanks (List.forall_mem_cons.mpr ⟨hc, fun x hx => Text.of_mem_take_run hx⟩)

/-- **Behind a comment a slash may open an expression**, whatever stands in front of the comment. -/
theorem allowedAfter_of_comment {c : Char} {rest : List Char} (h : Origin d line t c rest)
    (hkind : t.kind.isComment = true) (hlt : t.stop < line.length) : allowedAfter (line.take t.stop) = true := by
  obtain ⟨e, hshown, -, hlength⟩ := h.shown
  have hclosed : e.ClosedBy '/' rest := by
    cases hk : t.kind with
    | commentEol =>
      rw [hk] at hshown
      obtain rfl := hshown
      trivial
    | commentMultiline | commentDocumentation =>
      rw [hk] at hshown
      obtain ⟨doc, body, rfl, rfl⟩ := hshown
      exact (closedBy_commentExtent d body 1 doc).shift ['*']
    | commentKeyword | markupComment =>
      rw [hk] at hshown
      exact hshown.elim
    | _ => rw [hk] at hkind; cases hkind
  rw [allowedAfter_of_getLast? (h.getLast?_of_closedBy hlength hclosed hlt) (by decide) (by decide)]
  decide

/-- Behind blanks and comments a slash may open an expression if there is a comment among them, or if it may in
front of them. -/
theorem allowedAfter_skipped {first last : Nat} {skipped : List Token} (hlast : last < line.length)
    (hcontiguous : Contiguous first skipped last) (horigin : ∀ s ∈ skipped, ∃ c rest, Origin d line s c rest)
    (hskipped : ∀ s ∈ skipped, s.kind = .whitespace ∨ s.kind.isComment = true) :
    allowedAfter (line.take last) = true ↔
      (∃ s ∈ skipped, s.kind.isComment = true) ∨ allowedAfter (line.take first) = true := by
  induction skipped generalizing first with
  | nil =>
    obtain rfl := Token.contiguous_nil.mp hcontiguous
    simp
  | cons s skipped ih =>
    obtain ⟨rfl, hrest⟩ := Token.contiguous_cons.mp hcontiguous
    rw [List.forall_mem_cons] at horigin hskipped
    obtain ⟨c, rest, hs⟩ := horigin.1
    rw [ih hrest horigin.2 hskipped.2, List.exists_mem_cons_iff]
    rcases hskipped.1 with hkind | hkind
    · rw [allowedAfter_of_whitespace hs hkind, hkind]
      simp [Kind.isComment]
    · rw [allowedAfter_of_comment hs hkind (Nat.lt_of_le_of_lt hrest.le hlast), hkind]
      simp

end Line

/-! ### Behind operands -/

/-- **An operand** of a line: a word that is no keyword, a number, a string, a template string, a regular expression,
or a closing bracket. -/
def IsOperand (line : List Char) (t : Token) : Prop :=
  t.kind ∈ [Kind.identifier, .function, .boolean, .decimal, .float, .hexadecimal, .string, .template, .pattern] ∨
    t.kind = .separator ∧ t.text line ∈ [[')'], [']'], ['}']]

instance (line : List Char) (t : Token) : Decidable (IsOperand line t) := inferInstanceAs (Decidable (_ ∨ _))

theorem wordKind_of_mem_openingWords {w : List Char} (h : String.ofList w ∈ Pattern.openingWords)
    (behind : Option Char) :
    wordKind .javaScript w behind = .reservedWord ∨ wordKind .javaScript w behind = .controlWord := by
  have hall : ∀ s ∈ Pattern.openingWords, ¬(s = "true" ∨ s = "false") ∧
      (Dialect.javaScript.keywords.contains s = true ∨ Dialect.javaScript.controlWords.contains s = true) := by
    decide
  obtain ⟨hbool, hkeyword⟩ := hall _ h
  unfold wordKind
  dsimp only
  rw [if_neg hbool]
  by_cases hreserved : Dialect.javaScript.keywords.contains (String.ofList w) = true
  · exact Or.inl (if_pos hreserved)
  · rw [if_neg hreserved, if_pos (hkeyword.resolve_left hreserved)]
    exact Or.inr rfl

theorem isWordChar_of_isWordStart {d : Dialect} {c : Char} (h : d.isWordStart c = true) :
    d.isWordChar c = true := by
  simp only [Dialect.isWordStart, Dialect.isWordChar, Bool.or_eq_true, or_assoc] at h ⊢
  exact h.imp_left Text.isAlphanumeric_of_isAlphabetic

section Operands
variable {initial : LineState} {line : List Char} {lineStart : UInt64} {t u : Token} {c : Char} {rest : List Char}

theorem Origin.allowedAfter_word (h : Origin .javaScript line t c rest)
    (ht : t ∈ ((scanner .javaScript).tokenize line initial lineStart).tokens)
    (hkind : t.kind ∈ [Kind.identifier, .function, .boolean]) : allowedAfter (line.take t.stop) = false := by
  obtain ⟨e, hshown, hkind', hlength⟩ := h.shown
  have hword : Dialect.javaScript.lifetimes = true ∨ Dialect.javaScript.isWordStart c = true ∧
      e.reach rest = Text.run Dialect.javaScript.isWordChar rest ∧ wordKind .javaScript
        (c :: rest.take (Text.run Dialect.javaScript.isWordChar rest))
        (rest.drop (Text.run Dialect.javaScript.isWordChar rest)).head? = e.kind := by
    simp only [List.mem_cons, List.not_mem_nil, or_false] at hkind
    rcases hkind with hkind | hkind | hkind
    all_goals
      rw [hkind] at hshown
      exact hshown
  obtain ⟨hc, hreach, hwordKind⟩ := hword.resolve_left Bool.noConfusion
  rw [h.take_stop hlength, hreach]
  refine Pattern.allowedAfter_other_word (fun y hy => ?_) (List.forall_mem_cons.mpr ⟨?_, fun y hy => ?_⟩) ?_
  · exact letters_apart ht hy (h.getElem?_add 0)
  · exact isWordChar_of_isWordStart hc
  · exact Text.of_mem_take_run hy
  · intro hopening
    have hkeyword := wordKind_of_mem_openingWords hopening
      (rest.drop (Text.run Dialect.javaScript.isWordChar rest)).head?
    rw [hwordKind, ← hkind'] at hkeyword
    rcases hkeyword with hreserved | hcontrol
    · rw [hreserved] at hkind
      exact absurd hkind (by decide)
    · rw [hcontrol] at hkind
      exact absurd hkind (by decide)

theorem Origin.allowedAfter_number (h : Origin .javaScript line t c rest)
    (hkind : t.kind ∈ [Kind.decimal, .float, .hexadecimal]) : allowedAfter (line.take t.stop) = false := by
  obtain ⟨e, hshown, hkind', hlength⟩ := h.shown
  have hnumber : (c.isDigit = true ∨ c = '.' ∧ rest.head?.any Char.isDigit = true) ∧
      (Number.scan Dialect.javaScript.isWordChar (c :: rest)).kind = e.kind ∧
      (Number.scan Dialect.javaScript.isWordChar (c :: rest)).length = e.reach rest + 1 := by
    simp only [List.mem_cons, List.not_mem_nil, or_false] at hkind
    rcases hkind with hkind | hkind | hkind
    all_goals
      rw [hkind] at hshown
      exact hshown
  obtain ⟨hstart, hscan, hreach⟩ := hnumber
  rw [h.take_stop hlength, ← List.take_succ_cons, ← hreach]
  refine Pattern.allowedAfter_number hstart ?_
  rw [hscan, ← hkind']
  rintro herror
  rw [herror] at hkind
  exact absurd hkind (by decide)

theorem allowedAfter_of_quote {text : List Char} {x : Char} (hx : x ∈ ['\x22', '\x27', '\x60'])
    (h : text.getLast? = some x) : allowedAfter text = false := by
  have hall : ∀ x ∈ ['\x22', '\x27', '\x60'], Text.isBlank x = false ∧ Pattern.isWordChar x = false ∧
      Pattern.openingChars.contains x = false := List.forall_iff_forall_mem.mp (by decide)
  obtain ⟨hblank, hword, hopening⟩ := hall x hx
  rw [allowedAfter_of_getLast? h hblank hword, hopening]

/-- **Behind an operand no slash opens an expression**, unless the operand is itself an expression. -/
theorem allowedAfter_of_operand (ht : t ∈ ((scanner .javaScript).tokenize line initial lineStart).tokens)
    (hlt : t.stop < line.length) (hoperand : IsOperand line t) (hne : t.kind ≠ .pattern) :
    allowedAfter (line.take t.stop) = false := by
  rcases origin_of_mem ht with ⟨construct, hresumed⟩ | ⟨c, rest, horigin⟩
  · cases construct with
    | comment depth doc =>
      have hkind : t.kind = commentKind doc := hresumed.kind_eq.trans (kind_commentExtent ..)
      rw [IsOperand, hkind] at hoperand
      cases doc <;> simp [commentKind] at hoperand
    | string =>
      exact allowedAfter_of_quote (by decide) (hresumed.getLast?_of_closedBy (closedBy_stringExtent _ line) hlt)
    | template =>
      exact allowedAfter_of_quote (by decide) (hresumed.getLast?_of_closedBy (closedBy_templateExtent line) hlt)
  · obtain ⟨e, hshown, -, hlength⟩ := horigin.shown
    rcases hoperand with hkind | ⟨hkind, htext⟩
    · cases hk : t.kind with
      | identifier | function | boolean => exact horigin.allowedAfter_word ht (by rw [hk]; decide)
      | decimal | float | hexadecimal => exact horigin.allowedAfter_number (by rw [hk]; decide)
      | string =>
        rw [hk] at hshown
        rcases hshown with rfl | rfl
        · exact allowedAfter_of_quote (by decide)
            (horigin.getLast?_of_closedBy hlength (closedBy_stringExtent _ rest) hlt)
        · exact allowedAfter_of_quote (by decide)
            (horigin.getLast?_of_closedBy hlength (closedBy_singleQuoteExtent _ rest) hlt)
      | template =>
        rw [hk] at hshown
        obtain rfl := hshown
        exact allowedAfter_of_quote (by decide)
          (horigin.getLast?_of_closedBy hlength (closedBy_templateExtent rest) hlt)
      | pattern => exact absurd hk hne
      | _ => rw [hk] at hkind; exact absurd hkind (by decide)
    · rw [hkind] at hshown
      rw [horigin.text_eq hlength, hshown.2, List.take_zero] at htext
      rw [horigin.take_stop hlength, hshown.2, List.take_zero]
      have hall : ∀ x ∈ [')', ']', '}'], Text.isBlank x = false ∧ Pattern.isWordChar x = false ∧
          Pattern.openingChars.contains x = false := List.forall_iff_forall_mem.mp (by decide)
      obtain ⟨hblank, hword, hopening⟩ := hall c (by simpa using htext)
      rw [Pattern.allowedAfter_mark hblank hword, hopening]

/-- Behind a regular expression, a slash opens a further one by the flags of the first. -/
theorem Origin.allowedAfter_pattern (h : Origin .javaScript line t c rest) (hkind : t.kind = .pattern) :
    allowedAfter (line.take t.stop) = true ↔
      Pattern.flags (t.text line) = [] ∨ String.ofList (Pattern.flags (t.text line)) ∈ Pattern.openingWords := by
  obtain ⟨e, hshown, -, hlength⟩ := h.shown
  rw [hkind] at hshown
  obtain ⟨rfl, -, -, -, hreach⟩ := hshown
  rw [h.take_stop hlength, h.text_eq hlength]
  exact Pattern.allowedAfter_pattern hreach

/-- **When a slash behind an operand is read as a regular expression.** Whatever the line of the dialect and the state
in front of it, let a token stand behind an operand, with only blanks and comments in between. The token is a regular
expression exactly if one is closed there and either a comment stands in between, or the operand is itself a regular
expression and its flags are missing or are one of the words behind which an expression may start. -/
theorem pattern_behind_operand_iff {front skipped back : List Token}
    (htokens : ((scanner .javaScript).tokenize line initial lineStart).tokens = front ++ u :: (skipped ++ t :: back))
    (hoperand : IsOperand line u) (hskipped : ∀ s ∈ skipped, s.kind = .whitespace ∨ s.kind.isComment = true) :
    t.kind = .pattern ↔ Pattern.ClosesAt line line.length t.start ∧
      ((∃ s ∈ skipped, s.kind.isComment = true) ∨ u.kind = .pattern ∧
        (Pattern.flags (u.text line) = [] ∨ String.ofList (Pattern.flags (u.text line)) ∈ Pattern.openingWords)) := by
  have htiles := (Scanner.BuiltIn.cFamily .javaScript).tiling line initial lineStart
  have hmem {s : Token} (hs : s ∈ front ++ u :: (skipped ++ t :: back)) :
      s ∈ ((scanner .javaScript).tokenize line initial lineStart).tokens := htokens ▸ hs
  have hcontiguous := htiles.contiguous
  rw [htokens, Token.contiguous_append] at hcontiguous
  obtain ⟨_, -, hcontiguous⟩ := hcontiguous
  obtain ⟨-, hcontiguous⟩ := Token.contiguous_cons.mp hcontiguous
  obtain ⟨last, hbetween, hcontiguous⟩ := Token.contiguous_append.mp hcontiguous
  obtain ⟨rfl, hback⟩ := Token.contiguous_cons.mp hcontiguous
  have hu : u ∈ ((scanner .javaScript).tokenize line initial lineStart).tokens := hmem (by simp)
  have ht : t ∈ ((scanner .javaScript).tokenize line initial lineStart).tokens := hmem (by simp)
  have hstart : 0 < u.stop := Nat.add_pos_right _ (htiles.sound u hu).length_pos
  have hlt : t.start < line.length :=
    Nat.lt_of_lt_of_le (Nat.lt_add_of_pos_right (htiles.sound t ht).length_pos) hback.le
  have hstop : u.stop < line.length := Nat.lt_of_le_of_lt hbetween.le hlt
  obtain ⟨c, rest, htoken⟩ := exists_origin ht (Nat.lt_of_lt_of_le hstart hbetween.le)
  have horigins : ∀ s ∈ skipped, ∃ c rest, Origin .javaScript line s c rest := fun s hs =>
    exists_origin (hmem (by simp [hs])) (Nat.lt_of_lt_of_le hstart (hbetween.stop_le hs).1)
  rw [htoken.kind_eq_pattern_iff rfl, Pattern.startsAt_whole_iff,
    allowedAfter_skipped hlt hbetween horigins hskipped]
  refine and_congr_right fun _ => or_congr_right ?_
  by_cases hpattern : u.kind = .pattern
  · obtain ⟨c, rest, hexpression⟩ := (origin_of_mem hu).resolve_left fun ⟨_, hresumed⟩ =>
      hresumed.kind_ne_pattern hpattern
    rw [and_iff_right hpattern]
    exact hexpression.allowedAfter_pattern hpattern
  · rw [allowedAfter_of_operand hu hstop hoperand hpattern]
    simp [hpattern]

/-- A regular expression is read behind a name and a comment. -/
theorem pattern_behind_operand_iff_comment :
    let line := "x=a /**/ /b/".toList
    let front : List Token := [⟨.identifier, 0, 1, 0, 0, false⟩, ⟨.operator, 1, 1, 1, 0, false⟩]
    let u : Token := ⟨.identifier, 2, 1, 2, 0, false⟩
    let skipped : List Token := [⟨.whitespace, 3, 1, 3, 0, false⟩, ⟨.commentMultiline, 4, 4, 4, 0, false⟩,
      ⟨.whitespace, 8, 1, 8, 0, false⟩]
    let t : Token := ⟨.pattern, 9, 3, 9, 0, false⟩
    ((scanner .javaScript).tokenize line .neutral 0).tokens = front ++ u :: (skipped ++ t :: []) ∧
      IsOperand line u ∧ (∀ s ∈ skipped, s.kind = .whitespace ∨ s.kind.isComment = true) ∧
      (t.kind = .pattern ↔ Pattern.ClosesAt line line.length t.start ∧
        ((∃ s ∈ skipped, s.kind.isComment = true) ∨ u.kind = .pattern ∧
          (Pattern.flags (u.text line) = [] ∨
            String.ofList (Pattern.flags (u.text line)) ∈ Pattern.openingWords))) := by
  intro line front u skipped t
  have htokens : ((scanner .javaScript).tokenize line .neutral 0).tokens = front ++ u :: (skipped ++ t :: []) := by
    decide +kernel
  have hoperand : IsOperand line u := by decide
  have hskipped : ∀ s ∈ skipped, s.kind = .whitespace ∨ s.kind.isComment = true := by decide
  exact ⟨htokens, hoperand, hskipped, pattern_behind_operand_iff htokens hoperand hskipped⟩

/-- **A division is read as a regular expression**: behind a name and a comment, and behind an expression. -/
theorem division_read_as_pattern :
    (((scanner .javaScript).tokenize "a /**/ /b/".toList .neutral 0).tokens.map (·.kind) =
      [.identifier, .whitespace, .commentMultiline, .whitespace, .pattern]) ∧
    (((scanner .javaScript).tokenize "/a/ /b/".toList .neutral 0).tokens.map (·.kind) =
      [.pattern, .whitespace, .pattern]) := by
  decide +kernel

end Operands

end Linewise.CFamily
