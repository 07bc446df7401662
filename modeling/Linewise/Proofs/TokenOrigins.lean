import Linewise.Proofs.ScannedLines

/-!
# Where tokens come from

A token of a line of the C family is what starts at its first character (`CFamily.Origin`), unless it is the
one with which the line goes on with what the line before has left open (`CFamily.Resumed`). What can start at
a character is told by the construct that it is (`CFamily.Found`), with all that must hold for it to start there.

* `CFamily.found_next`: what a scan finds at a character, one case for each construct.
* `CFamily.shown_of_found`: what the kind of an extent shows of it, one case for each kind.
* `CFamily.origin_of_mem`: **each token of a line is resumed or starts at its first character**.
* `Token.Contiguous.exists_stop_eq`: a token that does not start its line stands behind another one.
-/

namespace Linewise

namespace Token

section Contiguous
variable {first last : Nat} {t : Token} {ts : List Token}

theorem Contiguous.exists_stop_eq (h : Contiguous first ts last) (ht : t ∈ ts) (hstart : first < t.start) :
    ∃ u ∈ ts, u.stop = t.start := by
  induction ts generalizing first with
  | nil => cases ht
  | cons u ts ih =>
    obtain ⟨rfl, hrest⟩ := contiguous_cons.mp h
    rcases List.mem_cons.mp ht with rfl | ht
    · exact absurd hstart (Nat.lt_irrefl _)
    · rcases Nat.lt_or_ge u.stop t.start with hlt | hle
      · obtain ⟨v, hv, hstop⟩ := ih hrest ht hlt
        exact ⟨v, List.mem_cons_of_mem _ hv, hstop⟩
      · exact ⟨u, List.mem_cons_self, Nat.le_antisymm (hrest.stop_le ht).1 hle⟩

end Contiguous

/-- The token that covers a column. -/
def Sequence.covering? (s : Sequence) (column : Nat) : Option Token := s.tokens.find? (·.covers column)

section Covering
variable {s : Sequence} {column : Nat} {t : Token}

theorem Sequence.covering?_eq_some (h : s.covering? column = some t) :
    t ∈ s.tokens ∧ t.start ≤ column ∧ column < t.stop := by
  have hcovers := List.find?_some h
  exact ⟨List.mem_of_find?_eq_some h, covers_iff.mp hcovers⟩

theorem Sequence.Tiles.exists_covering?_eq {lineStart : UInt64} {length : Nat} (h : s.Tiles lineStart length)
    (hcolumn : column < length) : ∃ t, s.covering? column = some t := by
  obtain ⟨-, t, -, hfind, -⟩ := h.contiguous.exists_covering (Nat.zero_le column) hcolumn
  exact ⟨t, hfind⟩

end Covering

end Token

namespace CFamily

open Token (Kind Lexeme)

/-! ### What is found at a character -/

/-- **Neither a comment nor a regular expression** starts at a character `c` behind `seen` and in front of
`cs`. -/
structure Free (d : Dialect) (seen : List Char) (c : Char) (cs : List Char) : Prop where
  opensComment_eq : opensComment (c :: cs) = false
  no_pattern : c = '/' → d.patterns = true → Pattern.allowedBehind seen = true → Pattern.length? cs = none

/-- **What is found at a character** `c` behind `seen` and in front of `cs`, by the construct that it is. -/
inductive Found (d : Dialect) (seen : List Char) (c : Char) (cs : List Char) : Extent → Prop
  | blank (hc : Text.isBlank c = true) : Found d seen c cs (.upTo .whitespace (Text.run Text.isBlank cs))
  | lineComment {body : List Char} (hc : c = '/') (hcs : cs = '/' :: body) :
      Found d seen c cs (.toEnd .commentEol none)
  | blockComment {body : List Char} (doc : Bool) (hc : c = '/') (hcs : cs = '*' :: body) :
      Found d seen c cs ((commentExtent d 1 doc body).shift 1)
  | pattern {n : Nat} (hc : c = '/') (hopens : opensComment (c :: cs) = false) (hpatterns : d.patterns = true)
      (hallowed : Pattern.allowedBehind seen = true) (hlength : Pattern.length? cs = some n) :
      Found d seen c cs (.upTo .pattern n)
  | string (hc : c = '\x22') : Found d seen c cs (stringExtent d cs)
  | template (hc : c = '\x60') : Found d seen c cs (templateExtent cs)
  | lifetime (hc : c = '\x27') (hlifetimes : d.lifetimes = true) :
      Found d seen c cs (.upTo .identifier (Text.run d.isWordChar cs))
  | singleQuote (hc : c = '\x27') : Found d seen c cs (singleQuoteExtent d cs)
  | number (hc : c.isDigit = true ∨ c = '.' ∧ cs.head?.any Char.isDigit = true) :
      Found d seen c cs (.upTo (Number.scan d.isWordChar (c :: cs)).kind
        ((Number.scan d.isWordChar (c :: cs)).length - 1))
  | word (hc : d.isWordStart c = true) :
      Found d seen c cs (.upTo (wordKind d (c :: cs.take (Text.run d.isWordChar cs))
        (cs.drop (Text.run d.isWordChar cs)).head?) (Text.run d.isWordChar cs))
  | directive (hc : c = '#') :
      Found d seen c cs (.upTo .preprocessor (Text.run (fun x => Text.isAlphanumeric x || x == '_') cs))
  | annotated (hfree : Free d seen c cs) (hc : d.annotationMark = some c) :
      Found d seen c cs (.upTo .attribute (Text.run d.isWordChar cs))
  | separator (hc : isSeparator c = true) : Found d seen c cs (.upTo .separator 0)
  | operator (hfree : Free d seen c cs) (hc : isOperatorChar c = true) :
      Found d seen c cs (.upTo .operator (operatorRest cs))
  | stray (hseparator : isSeparator c = false) (hoperator : isOperatorChar c = false)
      (hword : d.isWordStart c = false) : Found d seen c cs (.upTo .errorWord 0)

section Found
variable {d : Dialect} {seen : List Char} {c : Char} {cs : List Char}

theorem opensComment_cons_iff :
    opensComment (c :: cs) = true ↔ c = '/' ∧ (cs.head? = some '/' ∨ cs.head? = some '*') := by
  cases cs with
  | nil => simp [opensComment, List.isPrefixOf]
  | cons x cs =>
    simp only [opensComment, List.isPrefixOf, List.head?_cons, Bool.or_eq_true, Bool.and_eq_true, beq_iff_eq,
      Option.some.injEq, and_true]
    rw [← and_or_left, @eq_comm _ '/' c, @eq_comm _ '/' x, @eq_comm _ '*' x]

theorem opensComment_of_comment?_eq_none (h : comment? d c cs = none) : opensComment (c :: cs) = false := by
  refine Bool.eq_false_iff.mpr fun hopens => ?_
  obtain ⟨rfl, hhead⟩ := opensComment_cons_iff.mp hopens
  rcases hhead with hhead | hhead
  · obtain ⟨body, rfl⟩ := List.head?_eq_some_iff.mp hhead
    cases h
  · obtain ⟨body, rfl⟩ := List.head?_eq_some_iff.mp hhead
    cases h

theorem found_comment? : ∀ e ∈ comment? d c cs, Found d seen c cs e := by
  intro e he
  unfold comment? at he
  split_ifs at he with hc
  · split at he
    · obtain rfl := Option.some.inj he
      exact .lineComment hc rfl
    · obtain rfl := Option.some.inj he
      exact .blockComment _ hc rfl
    · cases he
  · cases he

theorem found_pattern? (hopens : opensComment (c :: cs) = false) :
    ∀ e ∈ pattern? d seen c cs, Found d seen c cs e := by
  intro e he
  unfold pattern? at he
  split_ifs at he with hc
  · obtain ⟨n, hn, rfl⟩ := Option.map_eq_some_iff.mp he
    exact .pattern hc.1 hopens hc.2.1 hc.2.2 hn
  · cases he

theorem found_quoted? : ∀ e ∈ quoted? d c cs, Found d seen c cs e := by
  intro e he
  unfold quoted? at he
  split_ifs at he with hstring htemplate hquote hlifetime
  · obtain rfl := Option.some.inj he
    exact .string hstring
  · obtain rfl := Option.some.inj he
    exact .template htemplate.1
  · obtain rfl := Option.some.inj he
    rw [Bool.and_eq_true, Bool.and_eq_true] at hlifetime
    exact .lifetime hquote hlifetime.1.1
  · obtain rfl := Option.some.inj he
    exact .singleQuote hquote
  · cases he

theorem found_number? : ∀ e ∈ number? d c cs, Found d seen c cs e := by
  intro e he
  unfold number? at he
  split_ifs at he with hc
  · obtain rfl := Option.some.inj he
    exact .number (by simpa using hc)
  · cases he

theorem free_of_none (hcomment : comment? d c cs = none) (hpattern : pattern? d seen c cs = none) :
    Free d seen c cs where
  opensComment_eq := opensComment_of_comment?_eq_none hcomment
  no_pattern hc hpatterns hallowed := by
    rw [pattern?, if_pos ⟨hc, hpatterns, hallowed⟩] at hpattern
    exact Option.map_eq_none_iff.mp hpattern

/-- **What starts at a character is found there**, for the reason that its construct needs. -/
theorem found_next (d : Dialect) (seen : List Char) (c : Char) (cs : List Char) :
    Found d seen c cs (next d seen c cs) := by
  unfold next
  cases hblank : blank? c cs with
  | some e =>
    unfold blank? at hblank
    split_ifs at hblank with hc
    obtain rfl := Option.some.inj hblank
    exact .blank hc
  | none =>
  cases hcomment : comment? d c cs with
  | some e => exact found_comment? e hcomment
  | none =>
  cases hpattern : pattern? d seen c cs with
  | some e => exact found_pattern? (opensComment_of_comment?_eq_none hcomment) e hpattern
  | none =>
  cases hquoted : quoted? d c cs with
  | some e => exact found_quoted? e hquoted
  | none =>
  cases hnumber : number? d c cs with
  | some e => exact found_number? e hnumber
  | none =>
  cases hword : word? d c cs with
  | some e =>
    unfold word? at hword
    split_ifs at hword with hc
    obtain rfl := Option.some.inj hword
    exact .word hc
  | none =>
  cases hdirective : directive? d seen c cs with
  | some e =>
    unfold directive? at hdirective
    split_ifs at hdirective with hc
    obtain rfl := Option.some.inj hdirective
    exact .directive hc.1
  | none =>
  have hfree := free_of_none hcomment hpattern
  cases hannotated : annotated? d c cs with
  | some e =>
    unfold annotated? at hannotated
    split_ifs at hannotated with hc
    obtain rfl := Option.some.inj hannotated
    exact .annotated hfree hc
  | none =>
    have hstart : d.isWordStart c = false := by
      unfold word? at hword
      split_ifs at hword with hc
      exact Bool.eq_false_iff.mpr hc
    show Found d seen c cs (punctuation c cs)
    unfold punctuation
    split_ifs with hseparator hoperator
    · exact .separator hseparator
    · exact .operator hfree hoperator
    · exact .stray (Bool.eq_false_iff.mpr hseparator) (Bool.eq_false_iff.mpr hoperator) hstart

theorem next_eq_pattern {n : Nat} (hopens : opensComment ('/' :: cs) = false) (hpatterns : d.patterns = true)
    (hallowed : Pattern.allowedBehind seen = true) (hlength : Pattern.length? cs = some n) :
    next d seen '/' cs = .upTo .pattern n := by
  have hblank : blank? '/' cs = none := if_neg (by decide)
  have hcomment : comment? d '/' cs = none := by
    unfold comment?
    rw [if_pos rfl]
    split
    · cases hopens
    · cases hopens
    · rfl
  have hpattern : pattern? d seen '/' cs = some (.upTo .pattern n) := by
    rw [pattern?, if_pos ⟨rfl, hpatterns, hallowed⟩, hlength, Option.map_some]
  rw [next, hblank, hcomment, hpattern]
  rfl

end Found

/-! ### Tokens and extents -/

/-- How many characters an extent takes of a text. -/
def Extent.reach (cs : List Char) : Extent → Nat
  | .upTo _ length => length
  | .toEnd _ _ => cs.length

/-- **What its kind shows** of an extent that is found at a character `c` behind `seen` and in front of `cs`. -/
def Shown (d : Dialect) (seen : List Char) (c : Char) (cs : List Char) (e : Extent) : Kind → Prop
  | .whitespace => Text.isBlank c = true ∧ e.reach cs = Text.run Text.isBlank cs
  | .commentEol => e = .toEnd .commentEol none
  | .commentMultiline | .commentDocumentation =>
    ∃ doc body, cs = '*' :: body ∧ e = (commentExtent d 1 doc body).shift 1
  | .pattern => c = '/' ∧ opensComment (c :: cs) = false ∧ d.patterns = true ∧
    Pattern.allowedBehind seen = true ∧ Pattern.length? cs = some (e.reach cs)
  | .string => e = stringExtent d cs ∨ e = singleQuoteExtent d cs
  | .template => e = templateExtent cs
  | .decimal | .float | .hexadecimal => (c.isDigit = true ∨ c = '.' ∧ cs.head?.any Char.isDigit = true) ∧
    (Number.scan d.isWordChar (c :: cs)).kind = e.kind ∧
    (Number.scan d.isWordChar (c :: cs)).length = e.reach cs + 1
  | .identifier | .function | .boolean => d.lifetimes = true ∨ d.isWordStart c = true ∧
    e.reach cs = Text.run d.isWordChar cs ∧
    wordKind d (c :: cs.take (Text.run d.isWordChar cs)) (cs.drop (Text.run d.isWordChar cs)).head? = e.kind
  | .separator => isSeparator c = true ∧ e.reach cs = 0
  | .operator => Free d seen c cs ∧ isOperatorChar c = true ∧ e.reach cs = operatorRest cs
  | .commentKeyword | .markupComment => False
  | _ => True

theorem shown_of_found {d : Dialect} {seen : List Char} {c : Char} {cs : List Char} {e : Extent}
    (h : Found d seen c cs e) : Shown d seen c cs e e.kind := by
  cases h with
  | blank hc => exact ⟨hc, rfl⟩
  | lineComment hc hcs => exact rfl
  | blockComment doc hc hcs =>
    rw [Extent.kind_shift, kind_commentExtent]
    cases doc with
    | false => exact ⟨false, _, hcs, rfl⟩
    | true => exact ⟨true, _, hcs, rfl⟩
  | pattern hc hopens hpatterns hallowed hlength => exact ⟨hc, hopens, hpatterns, hallowed, hlength⟩
  | string hc =>
    have hall : ∀ k ∈ [Kind.string, .errorString], Shown d seen c cs (stringExtent d cs) k := by
      simp [Shown]
    exact hall _ (kind_stringExtent d cs)
  | template hc =>
    rw [kind_templateExtent]
    exact rfl
  | lifetime hc hlifetimes => exact Or.inl hlifetimes
  | singleQuote hc =>
    have hall : ∀ k ∈ [Kind.string, .char, .errorChar, .errorString],
        Shown d seen c cs (singleQuoteExtent d cs) k := by
      simp [Shown]
    exact hall _ (kind_singleQuoteExtent d cs)
  | number hc =>
    have hlength := Nat.sub_add_cancel (Number.length_scan_pos d.isWordChar hc)
    have hall : ∀ k ∈ Number.kinds, Shown d seen c cs (.upTo (Number.scan d.isWordChar (c :: cs)).kind
        ((Number.scan d.isWordChar (c :: cs)).length - 1)) k := by
      simpa [Number.kinds, Shown, Extent.kind, Extent.reach, hlength] using hc
    exact hall _ (Number.kind_scan d.isWordChar (c :: cs))
  | word hc =>
    have hall : ∀ k ∈ [Kind.boolean, .reservedWord, .controlWord, .dataType, .function, .identifier],
        Shown d seen c cs (.upTo (wordKind d (c :: cs.take (Text.run d.isWordChar cs))
          (cs.drop (Text.run d.isWordChar cs)).head?) (Text.run d.isWordChar cs)) k := by
      simp [Shown, Extent.kind, Extent.reach, hc]
    exact hall _ (wordKind_mem ..)
  | directive hc => trivial
  | annotated hfree hc => trivial
  | separator hc => exact ⟨hc, rfl⟩
  | operator hfree hc => exact ⟨hfree, hc, rfl⟩
  | stray hseparator hoperator hword => trivial

/-- **A token is what starts at its first character** `c`, in front of which and behind which is the rest of its
line. -/
structure Origin (d : Dialect) (line : List Char) (t : Token) (c : Char) (rest : List Char) : Prop where
  drop_start : line.drop t.start = c :: rest
  kind_eq : t.kind = (next d (line.take t.start).reverse c rest).kind
  length_eq : t.length = (next d (line.take t.start).reverse c rest).reach rest + 1

section Origin
variable {d : Dialect} {line : List Char} {t : Token} {c : Char} {rest : List Char}

theorem Origin.found (h : Origin d line t c rest) :
    ∃ e, Found d (line.take t.start).reverse c rest e ∧ t.kind = e.kind ∧ t.length = e.reach rest + 1 :=
  ⟨_, found_next .., h.kind_eq, h.length_eq⟩

theorem Origin.shown (h : Origin d line t c rest) :
    ∃ e, Shown d (line.take t.start).reverse c rest e t.kind ∧ t.kind = e.kind ∧ t.length = e.reach rest + 1 := by
  obtain ⟨e, hfound, hkind, hlength⟩ := h.found
  exact ⟨e, hkind ▸ shown_of_found hfound, hkind, hlength⟩

theorem Origin.drop_add (h : Origin d line t c rest) (k : Nat) : line.drop (t.start + k) = (c :: rest).drop k := by
  rw [← List.drop_drop, h.drop_start]

-- The line stands in parentheses because Mathlib reads `line[` as the start of an affine span.
theorem Origin.getElem?_add (h : Origin d line t c rest) (k : Nat) : (line)[t.start + k]? = (c :: rest)[k]? := by
  rw [← List.getElem?_drop, h.drop_start]

end Origin

/-- **A token is what the line before has left open**, and starts the line. -/
structure Resumed (d : Dialect) (initial : LineState) (line : List Char) (t : Token) (construct : Construct) :
    Prop where
  ofState?_eq : Construct.ofState? d initial = some construct
  start_eq : t.start = 0
  kind_eq : t.kind = (resume d construct line).kind
  length_eq : t.length = (resume d construct line).reach line

section Tokens
variable {d : Dialect} {initial : LineState} {line : List Char} {lineStart : UInt64} {t : Token}

/-- What stands in front of the place up to which a line is read, and what stands behind it. -/
theorem take_drop_of_eq_append {seen cs : List Char} (hline : line = seen.reverse ++ cs) :
    line.take seen.length = seen.reverse ∧ line.drop seen.length = cs := by
  rw [hline]
  exact ⟨List.take_left' (List.length_reverse ..), List.drop_left' (List.length_reverse ..)⟩

/-- Each token that is read behind the characters `seen` starts at its first character. -/
theorem origin_of_mem_scanFrom {seen cs : List Char} (hline : line = seen.reverse ++ cs)
    (ht : t ∈ Lexeme.place lineStart seen.length (scanFrom d seen cs).lexemes) :
    ∃ c rest, Origin d line t c rest := by
  fun_induction scanFrom d seen cs with
  | case1 => cases ht
  | case2 seen c cs kind length hnext ih =>
    obtain ⟨htake, hdrop⟩ := take_drop_of_eq_append hline
    have hlength : (cs.take length).length = length := List.length_take_of_le (le_length_of_next hnext)
    rcases List.mem_cons.mp ht with rfl | ht
    · refine ⟨c, cs, hdrop, ?_, ?_⟩
      · rw [htake, List.reverse_reverse, hnext]
        rfl
      · rw [htake, List.reverse_reverse, hnext]
        exact congrArg (· + 1) hlength
    · have hseen : ((cs.take length).reverse ++ c :: seen).length = seen.length + (c :: cs.take length).length := by
        simp only [List.length_append, List.length_reverse, List.length_cons]
        omega
      refine ih ?_ (by rwa [hseen])
      rw [hline]
      simp
  | case3 seen c cs kind left hnext =>
    obtain ⟨htake, hdrop⟩ := take_drop_of_eq_append hline
    obtain rfl := List.mem_singleton.mp ht
    refine ⟨c, cs, hdrop, ?_, ?_⟩
    · rw [htake, List.reverse_reverse, hnext]
      rfl
    · rw [htake, List.reverse_reverse, hnext]
      rfl

/-- **Each token of a line is what the line before has left open, or what starts at its first character.** -/
theorem origin_of_mem (ht : t ∈ ((scanner d).tokenize line initial lineStart).tokens) :
    (∃ construct, Resumed d initial line t construct) ∨ ∃ c rest, Origin d line t c rest := by
  replace ht : t ∈ Lexeme.place lineStart 0 (scan d initial line).lexemes := ht
  unfold scan at ht
  split at ht
  · exact Or.inr (origin_of_mem_scanFrom (show line = [].reverse ++ line from rfl) ht)
  · next construct hstate =>
    split at ht
    · next kind length hresume =>
      have hlength := List.length_take_of_le (le_length_of_resume hresume)
      simp only [Token.Reading.after, Lexeme.cut] at ht
      have hrest : t ∈ Lexeme.place lineStart (line.take length).reverse.length
          (scanFrom d (line.take length).reverse (line.drop length)).lexemes → ∃ c rest, Origin d line t c rest :=
        origin_of_mem_scanFrom (by rw [List.reverse_reverse, List.take_append_drop])
      split_ifs at ht with hempty
      · refine Or.inr (hrest ?_)
        rw [List.isEmpty_iff.mp hempty] at ht ⊢
        exact ht
      · rcases List.mem_cons.mp ht with rfl | ht
        · exact Or.inl ⟨construct, hstate, rfl, by rw [hresume]; rfl, by rw [hresume]; exact hlength⟩
        · refine Or.inr (hrest ?_)
          rw [List.length_reverse]
          rwa [Nat.zero_add] at ht
    · next kind left hresume =>
      simp only [Lexeme.cut] at ht
      split_ifs at ht
      · cases ht
      · obtain rfl := List.mem_singleton.mp ht
        exact Or.inl ⟨construct, hstate, rfl, by rw [hresume]; rfl, by rw [hresume]; rfl⟩

/-- Behind the first column of a line each token is what starts at its first character. -/
theorem exists_origin (ht : t ∈ ((scanner d).tokenize line initial lineStart).tokens) (hpos : 0 < t.start) :
    ∃ c rest, Origin d line t c rest :=
  (origin_of_mem ht).resolve_left fun ⟨_, hresumed⟩ => Nat.ne_of_gt hpos hresumed.start_eq

end Tokens

end CFamily

end Linewise
