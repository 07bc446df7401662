import Linewise.Token.Lexeme

/-!
# Outlines

A part of a line that is read where it stands is not cut into texts: what is found in it is marked by
columns. An outline becomes tokens of the line (`tokens_pushSpans`) or, with the line at hand, the
lexemes that it marks (`flatMap_lexemes_spans`).
-/

namespace Linewise.Token

/-- A classified stretch of a line, by its columns. -/
structure Span where
  kind : Kind
  start : Nat
  /-- Column just behind the last character. -/
  stop : Nat
  deriving DecidableEq, Repr

/-- How a part of a line reads: what it holds, and the state behind it. -/
structure Outline where
  spans : List Span
  state : LineState
  deriving DecidableEq, Repr

/-- Puts a span in front. An empty or reversed one is left out. -/
def Outline.mark (kind : Kind) (start stop : Nat) (o : Outline) : Outline :=
  if stop ≤ start then o else { o with spans := ⟨kind, start, stop⟩ :: o.spans }

/-- Adds the tokens of spans. -/
def Builder.pushSpans (b : Builder) (spans : List Span) : Builder :=
  spans.foldl (fun b s => b.push s.kind s.start s.stop) b

/-- The text of a span in its line, as a lexeme. -/
def Span.lexemes (line : Array Char) (s : Span) : List Lexeme :=
  Lexeme.cut s.kind (line.extract s.start s.stop).toList

/-- The spans of lexemes that follow each other from a column on. -/
def Lexeme.spans (column : Nat) : List Lexeme → List Span
  | [] => []
  | l :: ls => ⟨l.kind, column, column + l.text.length⟩ :: spans (column + l.text.length) ls

/-- The outline of a text that starts at a column. -/
def Reading.outline (column : Nat) (r : Reading) : Outline := ⟨Lexeme.spans column r.lexemes, r.state⟩

theorem Reading.outline_after_cut (r : Reading) (kind : Kind) (text : List Char) (column : Nat) :
    (r.after (Lexeme.cut kind text)).outline column =
      (r.outline (column + text.length)).mark kind column (column + text.length) := by
  cases text with
  | nil => simp [Lexeme.cut, Reading.after, Outline.mark]
  | cons c cs =>
    rw [Outline.mark, if_neg (by simp)]
    rfl

/-- A lexeme that stands for text of the line's own language. -/
structure Lexeme.Own (l : Lexeme) : Prop where
  text_ne : l.text ≠ []
  language_eq : l.language = 0

theorem Lexeme.own_cut (kind : Kind) (text : List Char) : ∀ l ∈ cut kind text, l.Own := by
  cases text with
  | nil => simp [cut]
  | cons c cs =>
    intro l hl
    obtain rfl := List.mem_singleton.1 hl
    exact ⟨List.cons_ne_nil c cs, rfl⟩

section Spans
variable {ls : List Lexeme} (hown : ∀ l ∈ ls, l.Own)
include hown

theorem tokens_pushSpans (column : Nat) (b : Builder) :
    (b.pushSpans (Lexeme.spans column ls)).tokens.toList =
        b.tokens.toList ++ Lexeme.place b.lineStart column ls ∧
      (b.pushSpans (Lexeme.spans column ls)).lineStart = b.lineStart := by
  induction ls generalizing column b with
  | nil => simp [Builder.pushSpans, Lexeme.spans, Lexeme.place]
  | cons l ls ih =>
    rw [List.forall_mem_cons] at hown
    have hlength := List.length_pos_iff.2 hown.1.text_ne
    have hpush : b.push l.kind column (column + l.text.length) = { b with
        tokens := b.tokens.push
          ⟨l.kind, column, l.text.length, b.lineStart + .ofNat column, l.language, false⟩ } := by
      rw [Builder.push, Builder.pushEmbedded, if_neg (by omega), Nat.add_sub_cancel_left, hown.1.language_eq]
    obtain ⟨htokens, hline⟩ :=
      ih hown.2 (column + l.text.length) (b.push l.kind column (column + l.text.length))
    rw [hpush] at htokens hline
    rw [Lexeme.spans, Builder.pushSpans, List.foldl_cons, hpush]
    refine ⟨htokens.trans ?_, hline⟩
    simp [Lexeme.place]

theorem flatMap_lexemes_spans {line : Array Char} {column : Nat}
    (htext : (ls.map (·.text)).flatten <+: line.toList.drop column) :
    (Lexeme.spans column ls).flatMap (Span.lexemes line) = ls := by
  induction ls generalizing column with
  | nil => rfl
  | cons l ls ih =>
    rw [List.forall_mem_cons] at hown
    obtain ⟨rest, hrest⟩ := htext
    rw [List.map_cons, List.flatten_cons, List.append_assoc] at hrest
    have hfirst : (line.extract column (column + l.text.length)).toList = l.text := by
      rw [Array.toList_extract, List.extract_eq_take_drop, Nat.add_sub_cancel_left, ← hrest,
        List.take_left]
    have hlexeme : Lexeme.cut l.kind l.text = [l] := by
      obtain ⟨kind, text, language⟩ := l
      obtain rfl : language = 0 := hown.1.language_eq
      rw [Lexeme.cut, if_neg (by simpa using hown.1.text_ne)]
    have hbehind : (ls.map (·.text)).flatten <+: line.toList.drop (column + l.text.length) := by
      rw [← List.drop_drop, ← hrest, List.drop_left]
      exact List.prefix_append ..
    rw [Lexeme.spans, List.flatMap_cons, Span.lexemes, hfirst, hlexeme, ih hown.2 hbehind]
    rfl

end Spans

end Linewise.Token
