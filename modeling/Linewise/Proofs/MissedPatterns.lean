import Linewise.Proofs.AllowedPatterns
import Linewise.Proofs.ScannedRanges
import Linewise.Proofs.StructuralCharacters

/-!
# Regular expressions behind operators

A regular expression may start at a slash (`Pattern.StartsAt`) if what is in front of the slash allows it and a
further slash closes it. A token that starts there is an expression (`Origin.kind_eq_pattern_iff`). But a scan
looks for an expression only where a token starts, and an operator goes on for as long as there are characters of
operators: it stops in front of a comment, and not in front of an expression (`operatorRest_maximal`). So an
expression directly behind an operator is missed, while one behind an operator and a blank is found.

* `CFamily.operator_covers_pattern_iff`: **an expression is missed exactly if an operator stands directly in front
  of it**.
-/

namespace Linewise

namespace Token

theorem covers_along {distance column : Nat} {t : Token} :
    (along distance t).covers (distance + column) = t.covers column := by
  rw [Bool.eq_iff_iff, covers_iff, covers_iff]
  simp only [stop, along]
  omega

theorem exists_covers_along {distance column : Nat} {kind : Kind} {ts : List Token} :
    (∃ u ∈ ts.map (along distance), u.kind = kind ∧ u.covers column = true) ↔
      ∃ i, column = distance + i ∧ ∃ t ∈ ts, t.kind = kind ∧ t.covers i = true := by
  constructor
  · rintro ⟨u, hu, hkind, hcovers⟩
    obtain ⟨t, ht, rfl⟩ := List.mem_map.mp hu
    have hle : distance ≤ column := Nat.le_trans (Nat.le_add_right ..) (covers_iff.mp hcovers).1
    obtain ⟨i, rfl⟩ := Nat.exists_eq_add_of_le hle
    exact ⟨i, rfl, t, ht, hkind, covers_along.symm.trans hcovers⟩
  · rintro ⟨i, rfl, t, ht, hkind, hcovers⟩
    exact ⟨t.along distance, List.mem_map_of_mem ht, hkind, covers_along.trans hcovers⟩

end Token

namespace CFamily

open Token (Kind)

namespace Pattern

/-- **A regular expression is closed** that would start at a column of a text that goes on up to another column: a
slash stands there that opens no comment, and a further one closes the expression. -/
structure ClosesAt (line : List Char) (stop p : Nat) : Prop where
  slash : (line)[p]? = some '/'
  behind_ne : (line)[p + 1]? ≠ some '/' ∧ (line)[p + 1]? ≠ some '*'
  closes : (length? ((line.take stop).drop (p + 1))).isSome = true

/-- **A regular expression may start** at a column of a range of a line: it is closed in the range, and what the
range holds in front of it allows it. -/
structure StartsAt (line : List Char) (start stop p : Nat) : Prop extends ClosesAt line stop p where
  start_le : start ≤ p
  allowed : allowedAfter ((line.take p).drop start) = true

variable {line : List Char} {start stop p : Nat}

namespace ClosesAt

theorem drop_eq (h : ClosesAt line stop p) : line.drop p = '/' :: line.drop (p + 1) := by
  obtain ⟨hp, hslash⟩ := List.getElem?_eq_some_iff.mp h.slash
  rw [List.drop_eq_getElem_cons hp, hslash]

theorem opensComment_eq (h : ClosesAt line stop p) : opensComment ('/' :: line.drop (p + 1)) = false := by
  refine Bool.eq_false_iff.mpr fun hopens => ?_
  have hhead := (opensComment_cons_iff.mp hopens).2
  rw [List.head?_drop] at hhead
  exact hhead.elim h.behind_ne.1 h.behind_ne.2

theorem succ_lt_stop (h : ClosesAt line stop p) : p + 1 < stop := by
  have hcloses := h.closes
  by_contra hle
  have hnil : (line.take stop).drop (p + 1) = [] := by
    rw [List.drop_eq_nil_iff, List.length_take]
    omega
  rw [hnil] at hcloses
  cases hcloses

end ClosesAt

/-- Where an expression may start in a range of a line, it may start in the text of the range as a line. -/
theorem StartsAt.part (h : StartsAt line start stop p) :
    StartsAt ((line.take stop).drop start) 0 ((line.take stop).drop start).length (p - start) := by
  have hlt := h.succ_lt_stop
  have hle := h.start_le
  have hget {i : Nat} (hi : start + i < stop) : ((line.take stop).drop start)[i]? = (line)[start + i]? := by
    rw [List.getElem?_drop, List.getElem?_take_of_lt hi]
  refine ⟨⟨?_, ?_, ?_⟩, Nat.zero_le _, ?_⟩
  · rw [hget (by omega), Nat.add_sub_cancel' hle]
    exact h.slash
  · rw [hget (by omega), show start + (p - start + 1) = p + 1 by omega]
    exact h.behind_ne
  · rw [List.take_length, List.drop_drop, show start + (p - start + 1) = p + 1 by omega]
    exact h.closes
  · rw [List.drop_zero, List.take_drop, List.take_take, Nat.add_sub_cancel' hle, Nat.min_eq_left (by omega)]
    exact h.allowed

theorem startsAt_whole_iff :
    StartsAt line 0 line.length p ↔ ClosesAt line line.length p ∧ allowedAfter (line.take p) = true :=
  ⟨fun h => ⟨h.toClosesAt, h.allowed⟩, fun h => ⟨h.1, Nat.zero_le p, h.2⟩⟩

end Pattern

/-- An operator is as long as it can be without a comment in it. -/
theorem operatorRest_maximal {cs rest : List Char} {x : Char} (h : cs.drop (operatorRest cs) = x :: rest) :
    isOperatorChar x = false ∨ opensComment (x :: rest) = true := by
  induction cs with
  | nil => cases h
  | cons c cs ih =>
    rw [operatorRest] at h
    split_ifs at h with hc
    · exact ih h
    · obtain ⟨rfl, rfl⟩ := List.cons.inj h
      rw [Bool.and_eq_true, not_and_or, Bool.not_eq_true, Bool.not_eq_true', Bool.not_eq_false] at hc
      exact hc

/-! ### The tokens of a line -/

section Line
variable {d : Dialect} {initial : LineState} {line : List Char} {lineStart : UInt64} {p : Nat}

/-- **A token is a regular expression** exactly if one may start where it starts. -/
theorem Origin.kind_eq_pattern_iff {t : Token} {c : Char} {rest : List Char} (horigin : Origin d line t c rest)
    (hpatterns : d.patterns = true) : t.kind = .pattern ↔ Pattern.StartsAt line 0 line.length t.start := by
  constructor
  · intro hkind
    obtain ⟨e, hshown, -, -⟩ := horigin.shown
    rw [hkind] at hshown
    obtain ⟨rfl, hopens, -, hallowed, hlength⟩ := hshown
    have hcloses : (Pattern.length? (line.drop (t.start + 1))).isSome = true := by
      rw [horigin.drop_add, List.drop_succ_cons, List.drop_zero, hlength]
      rfl
    have hbehind : (line)[t.start + 1]? = rest.head? := by
      rw [horigin.getElem?_add, List.getElem?_cons_succ, List.head?_eq_getElem?]
    have hne {x : Char} (hx : x = '/' ∨ x = '*') : (line)[t.start + 1]? ≠ some x := fun hnext => by
      rw [hbehind] at hnext
      have hopened := opensComment_cons_iff.mpr ⟨rfl, hx.imp (fun h => h ▸ hnext) fun h => h ▸ hnext⟩
      exact Bool.noConfusion (hopens.symm.trans hopened)
    exact ⟨⟨horigin.getElem?_add 0, ⟨hne (Or.inl rfl), hne (Or.inr rfl)⟩, by rwa [List.take_length]⟩,
      Nat.zero_le _, hallowed⟩
  · intro h
    obtain ⟨rfl, rfl⟩ := List.cons.inj (horigin.drop_start.symm.trans h.drop_eq)
    have hcloses := h.closes
    rw [List.take_length] at hcloses
    obtain ⟨n, hn⟩ := Option.isSome_iff_exists.mp hcloses
    have hnext : next d (line.take t.start).reverse '/' (line.drop (t.start + 1)) = .upTo .pattern n :=
      next_eq_pattern h.opensComment_eq hpatterns h.allowed hn
    rw [horigin.kind_eq, hnext]
    rfl

theorem origin_of_operator {t : Token} (ht : t ∈ ((scanner d).tokenize line initial lineStart).tokens)
    (hkind : t.kind = .operator) : ∃ c rest, Origin d line t c rest := by
  rcases origin_of_mem ht with ⟨construct, hresumed⟩ | horigin
  · have hcovering := isCovering_resume d construct line
    rw [← hresumed.kind_eq, hkind] at hcovering
    cases hcovering
  · exact horigin

/-- Of a line, an operator swallows the slash of an expression exactly if it holds the character in front. -/
theorem operator_covers_iff (hpatterns : d.patterns = true) (h : Pattern.StartsAt line 0 line.length p) :
    let tokens := ((scanner d).tokenize line initial lineStart).tokens
    (∃ t ∈ tokens, t.kind = .operator ∧ t.covers p = true) ↔
      ∃ q, p = q + 1 ∧ ∃ t ∈ tokens, t.kind = .operator ∧ t.covers q = true := by
  simp only [Token.covers_iff]
  constructor
  · rintro ⟨t, ht, hkind, hstart, hstop⟩
    obtain ⟨c, rest, horigin⟩ := origin_of_operator ht hkind
    rcases Nat.lt_or_eq_of_le hstart with hlt | rfl
    · exact ⟨p - 1, by omega, t, ht, hkind, by omega, by omega⟩
    · cases hkind.symm.trans ((horigin.kind_eq_pattern_iff hpatterns).mpr h)
  · rintro ⟨q, rfl, t, ht, hkind, hstart, hstop⟩
    refine ⟨t, ht, hkind, by omega, ?_⟩
    obtain ⟨c, rest, horigin⟩ := origin_of_operator ht hkind
    obtain ⟨e, hshown, -, hlength⟩ := horigin.shown
    rw [hkind] at hshown
    obtain ⟨-, -, hreach⟩ := hshown
    -- An operator that ended in front of the slash could have taken it.
    refine Nat.lt_of_le_of_ne hstop fun hend => ?_
    have hdrop : rest.drop (operatorRest rest) = '/' :: line.drop (q + 1 + 1) := by
      rw [← h.drop_eq, show q + 1 = t.start + (operatorRest rest + 1) by rw [hend, Token.stop, hlength, hreach],
        horigin.drop_add, List.drop_succ_cons]
    rcases operatorRest_maximal hdrop with hoperator | hopens
    · cases hoperator
    · exact absurd (h.opensComment_eq.symm.trans hopens) Bool.noConfusion

/-- Of a line, the token at the slash of an expression is an operator, a comment or a literal. -/
theorem exists_covering_pattern (hpatterns : d.patterns = true) (h : Pattern.StartsAt line 0 line.length p)
    (initial : LineState) (lineStart : UInt64) :
    ∃ t, ((scanner d).tokenize line initial lineStart).covering? p = some t ∧
      (t.kind = .operator ∨ isCovering t.kind = true) := by
  obtain ⟨t, ht, hcovering | ⟨hstart, hstop, c, rest, horigin⟩⟩ :=
    exists_covering_origin d initial lineStart (Nat.lt_of_succ_lt h.succ_lt_stop)
  · exact ⟨t, ht, Or.inr hcovering⟩
  · refine ⟨t, ht, ?_⟩
    rcases Nat.lt_or_eq_of_le hstart with hlt | rfl
    · exact (horigin.isCovering_or_operator hlt hstop h.slash (by decide)).symm.imp_left And.left
    · exact Or.inr (by rw [(horigin.kind_eq_pattern_iff hpatterns).mpr h]; rfl)

end Line

/-! ### The tokens of a range -/

theorem tokens_scanRange (d : Dialect) {line : List Char} {start stop : Nat} (hstart : start ≤ stop)
    (hstop : stop ≤ line.length) (initial : LineState) (lineStart : UInt64) :
    (scanRange d line start stop initial lineStart).tokens =
      ((scanner d).tokenize ((line.take stop).drop start) initial lineStart).tokens.map (Token.along start) := by
  rw [scanRange_eq_place hstart hstop]
  exact Token.Lexeme.place_along lineStart start 0 _

theorem scanRange_whole (d : Dialect) (line : List Char) (initial : LineState) (lineStart : UInt64) :
    scanRange d line 0 line.length initial lineStart = (scanner d).tokenize line initial lineStart := by
  rw [scanRange_eq_place (Nat.zero_le _) (Nat.le_refl _), List.take_length, List.drop_zero]
  rfl

/-- **Where a regular expression is missed.** In a dialect with regular expressions, whatever the line, the range in it
and the state in front, let an expression be allowed and closed at a slash of the range. An operator swallows the slash
exactly if an operator holds the character directly in front of it, within the range. If none does, a comment or a
literal holds the slash. A whole line is the range of all its columns. -/
theorem operator_covers_pattern_iff {d : Dialect} (hpatterns : d.patterns = true) {line : List Char}
    {start stop p : Nat} (hstop : stop ≤ line.length) (h : Pattern.StartsAt line start stop p)
    (initial : LineState) (lineStart : UInt64) :
    let range := scanRange d line start stop initial lineStart
    ((∃ t ∈ range.tokens, t.kind = .operator ∧ t.covers p = true) ↔
      ∃ q, p = q + 1 ∧ ∃ t ∈ range.tokens, t.kind = .operator ∧ t.covers q = true) ∧
    (∃ t, range.covering? p = some t ∧
      (t.kind = .operator ∨ t.kind.isComment = true ∨ t.kind.isStringLike = true)) ∧
    scanRange d line 0 line.length initial lineStart = (scanner d).tokenize line initial lineStart := by
  intro range
  have hstart : start ≤ stop := Nat.le_trans h.start_le (Nat.le_of_lt (Nat.lt_of_succ_lt h.succ_lt_stop))
  have htokens : range.tokens =
      ((scanner d).tokenize ((line.take stop).drop start) initial lineStart).tokens.map (Token.along start) :=
    tokens_scanRange d hstart hstop initial lineStart
  obtain ⟨k, rfl⟩ : ∃ k, p = start + k := ⟨p - start, by have := h.start_le; omega⟩
  have hpart := h.part
  rw [Nat.add_sub_cancel_left] at hpart
  refine ⟨?_, ?_, scanRange_whole ..⟩
  · simp only [htokens, Token.exists_covers_along, Nat.add_left_cancel_iff, exists_eq_left',
      operator_covers_iff hpatterns hpart]
    constructor
    · rintro ⟨q, rfl, ht⟩
      exact ⟨start + q, (Nat.add_assoc ..).symm, q, rfl, ht⟩
    · rintro ⟨_, hq, q, rfl, ht⟩
      exact ⟨q, by omega, ht⟩
  · obtain ⟨t, ht, hkind⟩ := exists_covering_pattern hpatterns hpart initial lineStart
    refine ⟨t.along start, ?_, hkind.imp_right fun hcovering => ?_⟩
    · rw [Token.Sequence.covering?, htokens, List.find?_map]
      simp only [Function.comp_def, Token.covers_along]
      rw [← Token.Sequence.covering?, ht, Option.map_some]
    · rwa [isCovering, Bool.or_eq_true] at hcovering

/-- In a range, an expression behind an operator is missed, which holds its slash and the character in front. -/
theorem operator_covers_pattern_iff_range :
    let line := "(x=/a/)".toList
    let range := scanRange .javaScript line 1 6 .neutral 0
    Dialect.javaScript.patterns = true ∧ 6 ≤ line.length ∧ Pattern.StartsAt line 1 6 3 ∧
      ((∃ t ∈ range.tokens, t.kind = .operator ∧ t.covers 3 = true) ↔
        ∃ q, 3 = q + 1 ∧ ∃ t ∈ range.tokens, t.kind = .operator ∧ t.covers q = true) ∧
      ∃ t, range.covering? 3 = some t ∧
        (t.kind = .operator ∨ t.kind.isComment = true ∨ t.kind.isStringLike = true) := by
  have hstarts : Pattern.StartsAt "(x=/a/)".toList 1 6 3 :=
    ⟨⟨by decide, by decide, by decide⟩, by decide, by decide⟩
  obtain ⟨hiff, hcovering, -⟩ :=
    operator_covers_pattern_iff (d := .javaScript) rfl (show 6 ≤ _ by decide) hstarts .neutral 0
  exact ⟨rfl, by decide, hstarts, hiff, hcovering⟩

/-- **An expression behind an operator is missed**: the operator swallows its first slash. With a blank in between it is
found. -/
theorem operator_covers_pattern_unspaced :
    let line := "x=/a/".toList
    let spaced := "x= /a/".toList
    Pattern.StartsAt line 0 line.length 2 ∧ Pattern.StartsAt spaced 0 spaced.length 3 ∧
      (∃ t ∈ ((scanner .javaScript).tokenize line .neutral 0).tokens, t.kind = .operator ∧ t.covers 2 = true) ∧
      ∃ t ∈ ((scanner .javaScript).tokenize spaced .neutral 0).tokens, t.kind = .pattern ∧ t.covers 3 = true := by
  refine ⟨⟨⟨by decide, by decide, by decide⟩, by decide, by decide⟩,
    ⟨⟨by decide, by decide, by decide⟩, by decide, by decide⟩, ?_, ?_⟩
  · decide +kernel
  · decide +kernel

end CFamily

end Linewise
