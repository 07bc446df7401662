import Linewise.Language
import Linewise.Proofs.MovedLines
import Linewise.Proofs.Tilings

/-!
# Scanned lines

Whatever a built-in scanner (`Scanner.BuiltIn`) is given, from whatever state, the tokens that it makes
tile the line. No step of a scan reaches past the end of the line (`CFamily.fits_next`, `Markup.more_step_le`),
so a lexeme is as long as its step says, which is one character at least: the one that the step looks at. It
never has the kind of the sentinel, which the kinds of all that can start at a character show
(`CFamily.plain_or_separator_next`, `Markup.plain_step`). They show as well that a separator is a single
character (`Lexeme.Proper`), of which the search for braces makes use.

* `BuiltIn.tokenizeCapped_tiles_and_agrees`: **the tokens of a line tile it and end in the state that the
  pass for states finds**, at any scan limit.
-/

namespace Linewise

namespace Token

/-- A kind of text that is no separator. -/
def Kind.Plain (k : Kind) : Prop := k ≠ .null ∧ k ≠ .separator

instance (k : Kind) : Decidable k.Plain := inferInstanceAs (Decidable (_ ∧ _))

/-- A lexeme that stands for text, and for one character if it is a separator. -/
structure Lexeme.Proper (l : Lexeme) : Prop extends l.Sound where
  single : l.kind = .separator → l.text.length = 1

theorem Lexeme.Proper.of_plain {l : Lexeme} (hkind : l.kind.Plain) (htext : l.text ≠ []) : l.Proper :=
  ⟨⟨hkind.1, htext⟩, fun h => absurd h hkind.2⟩

theorem Lexeme.proper_cut {kind : Kind} (h : kind.Plain) (text : List Char) : ∀ l ∈ cut kind text, l.Proper := by
  unfold cut
  split_ifs with htext
  · simp
  · simpa using Proper.of_plain (l := ⟨kind, text, 0⟩) h (by simpa using htext)

/-- Each token that is a separator is one character long. -/
def SingleSeparators (ts : List Token) : Prop := ∀ t ∈ ts, t.kind = .separator → t.length = 1

theorem Lexeme.singleSeparators_place {lineStart : UInt64} {column : Nat} {ls : List Lexeme}
    (h : ∀ l ∈ ls, l.Proper) : SingleSeparators (place lineStart column ls) := by
  unfold SingleSeparators
  induction ls generalizing column with
  | nil => simp [place]
  | cons l ls ih =>
    rw [List.forall_mem_cons] at h
    rw [place, List.forall_mem_cons]
    exact ⟨h.1.single, ih h.2⟩

end Token

open Token (Kind Lexeme Reading)

namespace CFamily

/-! ### The kinds of what can start at a character -/

/-- What an extent is of. -/
def Extent.kind : Extent → Kind
  | .upTo kind _ => kind
  | .toEnd kind _ => kind

@[simp] theorem Extent.kind_shift (n : Nat) (e : Extent) : (e.shift n).kind = e.kind := by
  cases e <;> rfl

/-! What each literal, comment or word can be. -/

theorem kind_commentExtent (d : Dialect) (depth : Nat) (doc : Bool) (cs : List Char) :
    (commentExtent d depth doc cs).kind = commentKind doc := by
  unfold commentExtent
  split <;> rfl

theorem kind_stringExtent (d : Dialect) (cs : List Char) :
    (stringExtent d cs).kind ∈ [Kind.string, .errorString] := by
  unfold stringExtent
  split
  · simp [Extent.kind]
  · simp [Extent.kind]
  · split_ifs <;> simp [Extent.kind]

theorem kind_templateExtent (cs : List Char) : (templateExtent cs).kind = .template := by
  unfold templateExtent
  split <;> rfl

theorem kind_singleQuoteExtent (d : Dialect) (cs : List Char) :
    (singleQuoteExtent d cs).kind ∈ [Kind.string, .char, .errorChar, .errorString] := by
  unfold singleQuoteExtent
  split
  · split_ifs <;> simp [Extent.kind]
  · show (if _ then _ else _) ∈ _
    split_ifs <;> simp

theorem wordKind_mem (d : Dialect) (word : List Char) (behind : Option Char) :
    wordKind d word behind ∈
      [Kind.boolean, .reservedWord, .controlWord, .dataType, .function, .identifier] := by
  unfold wordKind
  dsimp only
  split_ifs <;> simp

theorem plain_commentKind (doc : Bool) : (commentKind doc).Plain := by
  cases doc <;> decide

theorem plain_commentExtent (d : Dialect) (depth : Nat) (doc : Bool) (cs : List Char) :
    (commentExtent d depth doc cs).kind.Plain := by
  rw [kind_commentExtent]
  exact plain_commentKind doc

theorem plain_stringExtent (d : Dialect) (cs : List Char) : (stringExtent d cs).kind.Plain :=
  (show ∀ k ∈ [Kind.string, .errorString], k.Plain by decide) _ (kind_stringExtent d cs)

theorem plain_templateExtent (cs : List Char) : (templateExtent cs).kind.Plain := by
  rw [kind_templateExtent]
  decide

theorem plain_singleQuoteExtent (d : Dialect) (cs : List Char) : (singleQuoteExtent d cs).kind.Plain :=
  (show ∀ k ∈ [Kind.string, .char, .errorChar, .errorString], k.Plain by decide) _ (kind_singleQuoteExtent d cs)

theorem plain_wordKind (d : Dialect) (word : List Char) (behind : Option Char) :
    (wordKind d word behind).Plain :=
  (show ∀ k ∈ [Kind.boolean, .reservedWord, .controlWord, .dataType, .function, .identifier], k.Plain by decide) _
    (wordKind_mem d word behind)

namespace Number

/-- What a number can be. -/
def kinds : List Kind := [.decimal, .float, .hexadecimal, .errorNumber]

variable {n : Number}

theorem kind_withFraction (cs : List Char) (h : n.kind ∈ kinds) : (withFraction cs n).kind ∈ kinds := by
  unfold withFraction
  split
  · split_ifs
    · simp [kinds]
    · exact h
  · exact h

theorem kind_withExponent (cs : List Char) (h : n.kind ∈ kinds) : (withExponent cs n).kind ∈ kinds := by
  unfold withExponent
  split
  · dsimp only
    split_ifs
    · exact h
    · simp [kinds]
    · exact h
  · exact h

theorem kind_decimal (cs : List Char) : (decimal cs).kind ∈ kinds :=
  kind_withExponent cs (kind_withFraction cs (by simp [kinds]))

theorem kind_unsuffixed (cs : List Char) : (unsuffixed cs).kind ∈ kinds := by
  unfold unsuffixed
  split
  · split_ifs
    · dsimp only
      split_ifs <;> simp [kinds]
    · exact kind_decimal _
  · exact kind_decimal _

theorem kind_withSuffix (cs : List Char) (h : n.kind ∈ kinds) : (withSuffix cs n).kind ∈ kinds := by
  unfold withSuffix
  dsimp only
  split_ifs
  · exact h
  · simp [kinds]
  · exact h

theorem kind_withGlued (isWordChar : Char → Bool) (cs : List Char) (h : n.kind ∈ kinds) :
    (withGlued isWordChar cs n).kind ∈ kinds := by
  unfold withGlued
  dsimp only
  split_ifs
  · exact h
  · simp [kinds]

theorem kind_scan (isWordChar : Char → Bool) (cs : List Char) : (scan isWordChar cs).kind ∈ kinds :=
  kind_withGlued isWordChar cs (kind_withSuffix cs (kind_unsuffixed cs))

end Number

theorem plain_of_mem_kinds : ∀ k ∈ Number.kinds, k.Plain := by decide

section Next
variable {d : Dialect} {seen : List Char} {c : Char} {cs : List Char}

theorem plain_blank? : ∀ e ∈ blank? c cs, e.kind.Plain := by
  unfold blank?
  split_ifs <;> simp [Extent.kind]
  decide

theorem plain_comment? : ∀ e ∈ comment? d c cs, e.kind.Plain := by
  unfold comment?
  split_ifs
  · split
    · simp [Extent.kind]
      decide
    · simpa using plain_commentExtent d _ _ _
    · simp
  · simp

theorem plain_pattern? : ∀ e ∈ pattern? d seen c cs, e.kind.Plain := by
  unfold pattern?
  split_ifs
  · intro e he
    obtain ⟨n, -, rfl⟩ := Option.map_eq_some_iff.mp he
    exact ⟨nofun, nofun⟩
  · simp

theorem plain_quoted? : ∀ e ∈ quoted? d c cs, e.kind.Plain := by
  unfold quoted?
  split_ifs
  · simpa using plain_stringExtent d cs
  · simpa using plain_templateExtent cs
  · simp [Extent.kind]
    decide
  · simpa using plain_singleQuoteExtent d cs
  · simp

theorem plain_number? : ∀ e ∈ number? d c cs, e.kind.Plain := by
  unfold number?
  split_ifs
  · simpa [Extent.kind] using plain_of_mem_kinds _ (Number.kind_scan d.isWordChar (c :: cs))
  · simp

theorem plain_word? : ∀ e ∈ word? d c cs, e.kind.Plain := by
  unfold word?
  split_ifs
  · simpa [Extent.kind] using plain_wordKind d _ _
  · simp

theorem plain_directive? : ∀ e ∈ directive? d seen c cs, e.kind.Plain := by
  unfold directive?
  split_ifs <;> simp [Extent.kind]
  decide

theorem plain_annotated? : ∀ e ∈ annotated? d c cs, e.kind.Plain := by
  unfold annotated?
  split_ifs <;> simp [Extent.kind]
  decide

theorem plain_or_separator_punctuation (c : Char) (cs : List Char) :
    (punctuation c cs).kind.Plain ∨ punctuation c cs = .upTo .separator 0 := by
  unfold punctuation
  split_ifs
  · exact Or.inr rfl
  · exact Or.inl ⟨nofun, nofun⟩
  · exact Or.inl ⟨nofun, nofun⟩

theorem plain_orElse {x y : Option Extent} (hx : ∀ e ∈ x, e.kind.Plain) (hy : ∀ e ∈ y, e.kind.Plain) :
    ∀ e ∈ (x <|> y), e.kind.Plain := by
  cases x with
  | none => exact hy
  | some e => exact hx

/-- **What starts at a character** is never of the sentinel's kind, and a separator only if it is that
character alone. -/
theorem plain_or_separator_next (d : Dialect) (seen : List Char) (c : Char) (cs : List Char) :
    (next d seen c cs).kind.Plain ∨ next d seen c cs = .upTo .separator 0 := by
  have hplain : ∀ e ∈ (blank? c cs <|> comment? d c cs <|> pattern? d seen c cs <|> quoted? d c cs <|>
      number? d c cs <|> word? d c cs <|> directive? d seen c cs <|> annotated? d c cs), e.kind.Plain :=
    plain_orElse plain_blank? <| plain_orElse plain_comment? <| plain_orElse plain_pattern? <|
      plain_orElse plain_quoted? <| plain_orElse plain_number? <| plain_orElse plain_word? <|
      plain_orElse plain_directive? plain_annotated?
  unfold next
  generalize (blank? c cs <|> _ : Option Extent) = found at hplain ⊢
  cases found with
  | none => exact plain_or_separator_punctuation c cs
  | some e => exact Or.inl (hplain e rfl)

end Next

/-! ### Lines of the C family -/

theorem proper_scanFrom (d : Dialect) (seen cs : List Char) :
    ∀ l ∈ (scanFrom d seen cs).lexemes, l.Proper := by
  fun_induction scanFrom d seen cs with
  | case1 => simp
  | case2 seen c cs kind length hnext ih =>
    refine List.forall_mem_cons.mpr ⟨?_, ih⟩
    have hlength : (c :: cs.take length).length = length + 1 := by
      rw [List.length_cons, List.length_take_of_le (le_length_of_next hnext)]
    have htext : c :: cs.take length ≠ [] := List.ne_nil_of_length_eq_add_one hlength
    have hkinds := plain_or_separator_next d seen c cs
    rw [hnext] at hkinds
    rcases hkinds with hplain | hseparator
    · exact .of_plain hplain htext
    · obtain ⟨rfl, rfl⟩ := Extent.upTo.inj hseparator
      have hkind : Kind.separator ≠ .null := by decide
      exact ⟨⟨hkind, htext⟩, fun _ => hlength⟩
  | case3 seen c cs kind state hnext =>
    have hkinds := plain_or_separator_next d seen c cs
    rw [hnext] at hkinds
    rcases hkinds with hplain | hseparator
    · simpa using Lexeme.Proper.of_plain (l := ⟨kind, c :: cs, 0⟩) hplain (List.cons_ne_nil _ _)
    · cases hseparator

theorem plain_resume (d : Dialect) (open? : Construct) (cs : List Char) :
    (resume d open? cs).kind.Plain := by
  cases open? with
  | comment depth doc => exact plain_commentExtent d depth doc cs
  | string => exact plain_stringExtent d cs
  | template => exact plain_templateExtent cs

theorem proper_scan (d : Dialect) (initial : LineState) (cs : List Char) :
    ∀ l ∈ (scan d initial cs).lexemes, l.Proper := by
  unfold scan
  split
  · exact proper_scanFrom d [] cs
  · next construct _ =>
    have hplain := plain_resume d construct cs
    split
    · next kind length hresume =>
      rw [hresume] at hplain
      intro l hl
      rcases List.mem_append.mp hl with hl | hl
      · exact Lexeme.proper_cut hplain _ l hl
      · exact proper_scanFrom d _ _ l hl
    · next kind state hresume =>
      rw [hresume] at hplain
      exact Lexeme.proper_cut hplain cs

end CFamily

/-! ### Lines of markup and of plain text -/

namespace Markup

theorem plain_tagStart? (cs : List Char) : ∀ s ∈ tagStart? cs, s.kind.Plain := by
  unfold tagStart?
  intro s hs
  split at hs
  next closing rest _ =>
  by_cases hname : rest.head?.any Text.isAlphabetic = true
  · rw [if_pos hname] at hs
    obtain rfl := Option.some.inj hs
    exact ⟨nofun, nofun⟩
  · rw [if_neg hname] at hs
    cases hs

theorem plain_angle (cs : List Char) : (angle cs).kind.Plain := by
  unfold angle
  split
  · decide
  · exact ⟨nofun, nofun⟩
  · exact ⟨nofun, nofun⟩
  · have htag := plain_tagStart? cs
    cases h : tagStart? cs with
    | none => decide
    | some s => exact htag s h

theorem plain_content (c : Char) (cs : List Char) : (content c cs).kind.Plain := by
  unfold content
  split_ifs
  · exact plain_angle cs
  · unfold ampersand
    dsimp only
    split_ifs <;> exact ⟨nofun, nofun⟩
  · exact ⟨nofun, nofun⟩
  · exact ⟨nofun, nofun⟩

theorem plain_insideTag (ofScript : Bool) (c : Char) (cs : List Char) :
    (insideTag ofScript c cs).kind.Plain := by
  unfold insideTag
  split_ifs <;> exact ⟨nofun, nofun⟩

theorem plain_step (mode : Mode) (c : Char) (cs : List Char) : (step mode c cs).kind.Plain := by
  cases mode with
  | content => exact plain_content c cs
  | script inner => exact plain_content c cs
  | name ofScript =>
    show Kind.Plain .tagName
    decide
  | tag ofScript => exact plain_insideTag ofScript c cs
  | comment =>
    have hkind : (step .comment c cs).kind = .markupComment := by
      unfold step
      dsimp only
      split <;> rfl
    rw [hkind]
    decide
  | value quote ofScript =>
    show Kind.Plain .tagValue
    decide

theorem proper_embedded (inner : LineState) (cs : List Char) : ∀ l ∈ (embedded inner cs).lexemes, l.Proper := by
  intro embedded hembedded
  obtain ⟨l, hl, rfl⟩ := List.mem_map.mp hembedded
  have hproper := CFamily.proper_scan .javaScript inner cs l hl
  exact ⟨⟨hproper.kind_ne, hproper.text_ne⟩, hproper.single⟩

theorem proper_scanFrom {line : Array Char} {cs : List Char} (hline : cs <:+ line.toList) (mode : Mode) :
    ∀ l ∈ (scanFrom line mode cs).lexemes, l.Proper := by
  fun_induction scanFrom line mode cs with
  | case1 inner cs _ n hn ih =>
    intro l hl
    rcases List.mem_append.mp hl with hl | hl
    · rw [handOver_eq hline (length_le_of_scriptLength? hn)] at hl
      exact proper_embedded inner _ l hl
    · exact ih ((List.drop_suffix n cs).trans hline) l hl
  | case2 inner cs _ _ r =>
    have hr : r = embedded inner cs := handOver_end hline inner
    rw [hr]
    exact proper_embedded inner cs
  | case3 => simp
  | case4 mode c cs _ s ih =>
    have hrest : cs.drop s.more <:+ line.toList :=
      ((List.drop_suffix s.more cs).trans (List.suffix_cons c cs)).trans hline
    have htext : c :: cs.take s.more ≠ [] := List.ne_nil_of_length_eq_add_one (length_take_step mode c cs)
    exact List.forall_mem_cons.mpr ⟨.of_plain (plain_step mode c cs) htext, ih hrest⟩

theorem proper_scan (initial : LineState) (cs : List Char) : ∀ l ∈ (scan initial cs).lexemes, l.Proper := by
  unfold scan
  split
  · simp
  · exact proper_scanFrom (List.suffix_refl cs) _

end Markup

theorem PlainText.proper_lexemes (cs : List Char) : ∀ l ∈ lexemes cs, l.Proper := by
  fun_induction lexemes cs with
  | case1 => simp
  | case2 c cs more ih =>
    refine List.forall_mem_cons.mpr ⟨.of_plain ?_ (List.cons_ne_nil _ _), ih⟩
    show Kind.Plain (if _ then _ else _)
    split_ifs <;> decide

/-! ### Built-in scanners -/

namespace Scanner

/-- **The built-in scanners**: that of plain text, that of markup, and one of the C family for each
dialect. -/
inductive BuiltIn : Scanner → Prop
  | plainText : BuiltIn PlainText.scanner
  | markup : BuiltIn Markup.scanner
  | cFamily (d : CFamily.Dialect) : BuiltIn (CFamily.scanner d)

namespace BuiltIn

variable {s : Scanner}

theorem lawful (h : s.BuiltIn) : s.Lawful := by
  cases h with
  | plainText => exact PlainText.scanner_lawful
  | markup => exact Markup.scanner_lawful
  | cFamily d => exact CFamily.scanner_lawful d

theorem exists_reading (h : s.BuiltIn) (line : List Char) (initial : LineState) :
    ∃ r : Reading, r.text = line ∧ (∀ l ∈ r.lexemes, l.Proper) ∧
      ∀ lineStart, s.tokenize line initial lineStart = r.toSequence lineStart 0 line.length := by
  cases h with
  | plainText =>
    exact ⟨⟨PlainText.lexemes line, .neutral⟩, PlainText.flatten_lexemes line,
      PlainText.proper_lexemes line, fun _ => rfl⟩
  | markup => exact ⟨_, Markup.text_scan initial line, Markup.proper_scan initial line, fun _ => rfl⟩
  | cFamily d => exact ⟨_, CFamily.text_scan d initial line, CFamily.proper_scan d initial line, fun _ => rfl⟩

/-- Whatever the line and the state, the tokens of a built-in scanner tile the line. -/
theorem tiling (h : s.BuiltIn) : s.Tiling := by
  intro line initial lineStart
  obtain ⟨r, htext, hproper, htokens⟩ := h.exists_reading line initial
  rw [htokens]
  exact Reading.tiles_toSequence (fun l hl => (hproper l hl).toSound) lineStart htext

theorem singleSeparators_tokenizeCapped (h : s.BuiltIn) (line : List Char) (initial : LineState)
    (lineStart : UInt64) (limit : Nat) :
    Token.SingleSeparators (s.tokenizeCapped line initial lineStart limit).tokens := by
  have hscan (text : List Char) : Token.SingleSeparators (s.tokenize text initial lineStart).tokens := by
    obtain ⟨r, -, hproper, htokens⟩ := h.exists_reading text initial
    rw [htokens]
    exact Lexeme.singleSeparators_place hproper
  by_cases hlimit : line.length ≤ limit
  · unfold tokenizeCapped
    rw [if_pos hlimit]
    exact hscan line
  rw [tokenizeCapped_of_lt h.tiling initial lineStart (Nat.not_le.mp hlimit)]
  intro t ht hkind
  rcases List.mem_append.mp ht with ht | ht
  · obtain ⟨u, hu, rfl⟩ := List.mem_map.mp ht
    exact hscan _ u hu hkind
  · obtain rfl := List.mem_singleton.mp ht
    cases hkind

/-- **A built-in scanner keeps its contract at every scan limit.** Whatever the line, the state in front
of it and the place where it starts, nothing is wrong with the tokens: none is empty or of the sentinel's
kind, they stand one behind the other from the line's first column to its end, their offsets run from
where the line starts, and the sentinel is where the line ends. They end in the state that is found
without making tokens, which is the state behind as many characters as the limit lets pass. -/
theorem tokenizeCapped_tiles_and_agrees (h : s.BuiltIn) (line : List Char) (initial : LineState)
    (lineStart : UInt64) (limit : Nat) :
    let tokens := s.tokenizeCapped line initial lineStart limit
    tokens.flaw? line.length = none ∧ tokens.Tiles lineStart line.length ∧
      tokens.endState = s.stateAfterCapped line initial limit ∧
      tokens.endState = s.stateAfter (line.take (min limit line.length)) initial := by
  intro tokens
  have htiles := tiles_tokenizeCapped h.tiling line initial lineStart limit
  have hstate := endState_tokenizeCapped h.lawful line initial lineStart limit
  have htake : line.take (min limit line.length) = line.take limit := by
    rcases Nat.le_total limit line.length with hle | hle
    · rw [Nat.min_eq_left hle]
    · rw [Nat.min_eq_right hle, List.take_length, List.take_of_length_le hle]
  exact ⟨htiles.flaw?_eq_none, htiles, hstate, by rw [htake]; exact hstate⟩

/-- A line of Rust that closes one of two nested comments, cut inside a string, near the last offset. -/
theorem tokenizeCapped_tiles_and_agrees_nested_comment :
    let s := CFamily.scanner .rust
    let line := "*/ */ \x7b \"a".toList
    let tokens := s.tokenizeCapped line ⟨12⟩ 18446744073709551610 9
    s.BuiltIn ∧ tokens.flaw? line.length = none ∧ tokens.Tiles 18446744073709551610 line.length ∧
      tokens.endState = s.stateAfterCapped line ⟨12⟩ 9 ∧
      tokens.endState = s.stateAfter (line.take (min 9 line.length)) ⟨12⟩ :=
  ⟨.cFamily .rust, tokenizeCapped_tiles_and_agrees (.cFamily .rust) _ _ _ _⟩

end BuiltIn

end Scanner

theorem Hyperlink.singleSeparators_mark (line : List Char) {s : Token.Sequence}
    (h : Token.SingleSeparators s.tokens) : Token.SingleSeparators (mark line s).2.tokens := by
  unfold mark
  dsimp only
  split_ifs
  · exact h
  · intro u hu hkind
    obtain ⟨t, ht, hu⟩ := List.mem_flatMap.mp hu
    have hseparator : t.kind = .separator := (kind_cut line u hu).symm.trans hkind
    rw [cut, isCandidate, hseparator, if_neg (by decide)] at hu
    obtain rfl := List.mem_singleton.mp hu
    exact h u ht hkind

/-- **The languages that are built in** have built-in scanners. -/
theorem Language.builtIn_scanner (l : Language) : l.scanner.BuiltIn := by
  cases l
  case html => exact .markup
  case plainText => exact .plainText
  all_goals exact .cFamily _

end Linewise
