import Linewise.Markup.Scan
import Linewise.Proofs.OpenConstructs
import Linewise.Proofs.ScannedRanges
import Mathlib.Data.Set.Basic
import Mathlib.Order.Bounds.Basic

/-!
# Embedded scripts

In a script, markup is JavaScript up to the first closing tag (`Markup.ClosesScriptAt`), and from there on
markup again. The scanner of markup hands the script over where it stands, and its tokens are those that the
scanner of JavaScript makes of the script as a line of its own, as tokens of the embedded language
(`Token.inLanguage`).

* `Text.firstSuffix?_eq_none`, `Text.isLeast_of_firstSuffix?`: what the search for the closing tag finds is the
  first place where it stands.
* `Markup.tokenize_script`: **a script in markup is read as JavaScript**, with a closing tag on the line and
  without one.
-/

namespace Linewise

/-! ### The closing tag -/

namespace Text

section Search
variable {p : List Char → Bool} {cs : List Char}

theorem firstSuffix?_eq_none (hp : p [] = false) : firstSuffix? p cs = none ↔ ∀ k, p (cs.drop k) = false := by
  induction cs with
  | nil => simp [firstSuffix?, hp]
  | cons c cs ih =>
    rw [firstSuffix?]
    by_cases hc : p (c :: cs) = true
    · rw [if_pos hc]
      refine ⟨fun h => absurd h (Option.some_ne_none 0), fun h => ?_⟩
      have hfront := h 0
      rw [List.drop_zero, hc] at hfront
      cases hfront
    · rw [if_neg hc, Option.map_eq_none_iff, ih]
      refine ⟨fun h k => ?_, fun h k => h (k + 1)⟩
      cases k with
      | zero => exact Bool.eq_false_iff.2 hc
      | succ k => exact h k

theorem isLeast_of_firstSuffix? {n : Nat} (h : firstSuffix? p cs = some n) :
    IsLeast {k | p (cs.drop k) = true} n := by
  refine ⟨(firstSuffix?_eq_some h).2, fun k hk => ?_⟩
  induction cs generalizing n k with
  | nil => cases h
  | cons c cs ih =>
    rw [firstSuffix?] at h
    split at h
    · obtain rfl := Option.some.inj h
      exact Nat.zero_le k
    · next hc =>
      obtain ⟨m, hm, rfl⟩ := Option.map_eq_some_iff.1 h
      cases k with
      | zero => exact absurd hk hc
      | succ k => exact Nat.succ_le_succ (ih hm k hk)

end Search

end Text

namespace Token

/-- The same token as one of an embedded language. -/
def inLanguage (language : Nat) (t : Token) : Token := { t with language := language }

theorem Lexeme.place_embed (language : Nat) (lineStart : UInt64) (column : Nat) (ls : List Lexeme) :
    place lineStart column (ls.map (embed language)) =
      (place lineStart column ls).map (inLanguage language) := by
  induction ls generalizing column with
  | nil => rfl
  | cons l ls ih =>
    rw [List.map_cons, place, place, List.map_cons, ← ih]
    rfl

theorem Lexeme.place_append (lineStart : UInt64) (column : Nat) (ls ms : List Lexeme) :
    place lineStart column (ls ++ ms) =
      place lineStart column ls ++ place lineStart (column + (ls.map (·.text)).flatten.length) ms := by
  induction ls generalizing column with
  | nil => rfl
  | cons l ls ih =>
    rw [List.cons_append, place, place, ih, List.map_cons, List.flatten_cons, List.length_append,
      Nat.add_assoc]
    rfl

end Token

namespace Markup

open Token (Lexeme)

/-- The closing tag of a script stands at a column, ASCII capitals read as small. -/
def ClosesScriptAt (line : List Char) (column : Nat) : Prop :=
  ((line.drop column).take 8).map Char.toLower = "</script".toList

instance (line : List Char) (column : Nat) : Decidable (ClosesScriptAt line column) :=
  inferInstanceAs (Decidable (_ = _))

/-- The state in front of a line that starts in a script, which is itself in a given state. -/
def inScript (inner : LineState) : LineState := ⟨32 + inner.code⟩

theorem closesScriptAt_iff {line : List Char} {column : Nat} :
    ClosesScriptAt line column ↔ Text.startsWithFolded closingScript (line.drop column) = true := by
  rw [Text.startsWithFolded_iff, List.prefix_iff_eq_take, ← List.map_take, ClosesScriptAt, eq_comm,
    show "</script".toList = closingScript by decide]
  rfl

theorem scriptLength?_eq_none {line : List Char} (h : ∀ column, ¬ ClosesScriptAt line column) :
    scriptLength? line = none := by
  refine (Text.firstSuffix?_eq_none rfl).2 fun column => ?_
  exact Bool.eq_false_iff.2 fun hcloses => h column (closesScriptAt_iff.2 hcloses)

theorem scriptLength?_eq_some {line : List Char} {column : Nat}
    (h : IsLeast {k | ClosesScriptAt line k} column) : scriptLength? line = some column := by
  simp only [closesScriptAt_iff] at h
  cases hlength : scriptLength? line with
  | none =>
    have hnone := (Text.firstSuffix?_eq_none rfl).1 hlength column
    rw [h.1] at hnone
    cases hnone
  | some n => rw [(Text.isLeast_of_firstSuffix? hlength).unique h]

section Script
variable {inner : LineState} (hinner : 32 + inner.code.toNat < UInt32.size)
include hinner

theorem code_inScript : (inScript inner).code.toNat = 32 + inner.code.toNat := by
  rw [inScript, UInt32.toNat_add]
  exact Nat.mod_eq_of_lt hinner

theorem ofState_inScript : Mode.ofState (inScript inner) = .script inner := by
  have hbase : Mode.scriptBase ≤ (inScript inner).code := by
    rw [UInt32.le_iff_toNat_le, code_inScript hinner]
    exact Nat.le_add_right ..
  have hcode : (inScript inner).code - Mode.scriptBase = inner.code := by
    show 32 + inner.code - 32 = inner.code
    rw [UInt32.add_comm, UInt32.add_sub_cancel]
  rw [Mode.ofState, if_pos hbase, hcode]

theorem scan_inScript (line : List Char) :
    scan (inScript inner) line = scanFrom line.toArray (.script inner) line := by
  have hbase : ¬ (inScript inner).code < Mode.scriptBase := by
    rw [UInt32.lt_iff_toNat_lt, code_inScript hinner]
    exact Nat.not_lt.2 (Nat.le_add_right ..)
  rw [scan, if_neg fun h => hbase h.2, ofState_inScript hinner]

end Script

/-- Whatever the state behind a script, the state of the line that carries it is 32 more. -/
theorem code_inScript_embedded (inner : LineState) (cs : List Char) :
    (inScript (embedded inner cs).state).code.toNat = 32 + (embedded inner cs).state.code.toNat :=
  code_inScript <| Nat.lt_trans (Nat.add_lt_add_left (CFamily.code_state_scan_lt ..) 32) (by decide)

/-- What is left of a line behind a script reads as a line of its own. -/
theorem scanFrom_content {line : List Char} {column : Nat} (hcolumn : column < line.length) :
    scanFrom line.toArray .content (line.drop column) = scan .neutral (line.drop column) := by
  have hne : line.drop column ≠ [] := List.ne_nil_of_length_pos (by rw [List.length_drop]; omega)
  rw [scan, if_neg fun h => hne (List.isEmpty_iff.1 h.1)]
  exact scanFrom_congr (List.drop_suffix ..) (List.suffix_refl _) _

/-- **A script in markup is read as JavaScript.** On a line that starts in a script, whatever the state of the
script, with 32 added to it, the tokens up to the first closing tag are those that the scanner of JavaScript
makes of the script as a line of its own, as tokens of language 1. Without a closing tag these are all tokens
of the line, and it ends 32 above the state that JavaScript ends in, which is far from wrapping around. With
one, the tokens from there on, and the state behind the line, are those of the rest as a line of markup that
starts in content, moved along to where it starts. -/
theorem tokenize_script (line : List Char) (inner : LineState) (lineStart : UInt64)
    (hinner : 32 + inner.code.toNat < UInt32.size) :
    let whole := scanner.tokenize line (inScript inner) lineStart
    let script := fun cs => (CFamily.scanner .javaScript).tokenize cs inner lineStart
    ((∀ k, ¬ ClosesScriptAt line k) →
      whole.tokens = (script line).tokens.map (Token.inLanguage 1) ∧
        whole.endState = inScript (script line).endState ∧
        whole.endState.code.toNat = 32 + (script line).endState.code.toNat) ∧
      ∀ k, IsLeast {k | ClosesScriptAt line k} k →
        let rest := scanner.tokenize (line.drop k) .neutral lineStart
        whole.tokens =
            (script (line.take k)).tokens.map (Token.inLanguage 1) ++ rest.tokens.map (Token.along k) ∧
          whole.endState = rest.endState := by
  intro whole script
  have hwhole : whole = (scanFrom line.toArray (.script inner) line).toSequence lineStart 0 line.length := by
    rw [← scan_inScript hinner]
    rfl
  have hline : line <:+ line.toArray.toList := List.suffix_refl line
  refine ⟨fun hopen => ?_, fun k hk => ?_⟩
  · rw [scanFrom_script_open hline (scriptLength?_eq_none hopen)] at hwhole
    rw [hwhole]
    exact ⟨Lexeme.place_embed .., rfl, code_inScript_embedded inner line⟩
  · intro rest
    have hlength := scriptLength?_eq_some hk
    have hcolumn : k < line.length := (Text.firstSuffix?_eq_some hlength).1
    have htext : ((embedded inner (line.take k)).lexemes.map (·.text)).flatten.length = k := by
      rw [← Token.Reading.text, text_embedded, List.length_take_of_le (Nat.le_of_lt hcolumn)]
    rw [scanFrom_script_closed hline hlength, scanFrom_content hcolumn] at hwhole
    rw [hwhole]
    refine ⟨?_, rfl⟩
    show Lexeme.place lineStart 0 ((embedded inner (line.take k)).lexemes ++ _) = _
    rw [Lexeme.place_append, htext, Nat.zero_add, ← Nat.add_zero k, Lexeme.place_along, Nat.add_zero k]
    exact congrArg (· ++ _) (Lexeme.place_embed ..)

/-- Two lines that start in a template string of a script: one that leaves it open, and one that closes it
and the script. -/
theorem tokenize_script_template :
    let inner : LineState := ⟨4⟩
    let script := fun cs => (CFamily.scanner .javaScript).tokenize cs inner 7
    let unclosed := "</Scrip".toList
    let closing := "x` /</Script>".toList
    let whole := scanner.tokenize closing (inScript inner) 7
    let rest := scanner.tokenize "</Script>".toList .neutral 7
    32 + inner.code.toNat < UInt32.size ∧
      (scanner.tokenize unclosed (inScript inner) 7).tokens =
        (script unclosed).tokens.map (Token.inLanguage 1) ∧
      whole.tokens =
        (script "x` /".toList).tokens.map (Token.inLanguage 1) ++ rest.tokens.map (Token.along 4) ∧
      whole.endState = rest.endState := by
  have hinner : 32 + (⟨4⟩ : LineState).code.toNat < UInt32.size := by decide
  have hunclosed : ∀ k, ¬ ClosesScriptAt "</Scrip".toList k := by
    intro k hk
    have hlength := congrArg List.length hk
    rw [List.length_map, List.length_take, List.length_drop] at hlength
    have hline : "</Scrip".toList.length = 7 := by decide
    have htag : "</script".toList.length = 8 := by decide
    omega
  have hclosing : IsLeast {k | ClosesScriptAt "x` /</Script>".toList k} 4 := by
    refine ⟨show ClosesScriptAt "x` /</Script>".toList 4 by decide, fun k hk => ?_⟩
    have hbefore : ∀ k < 4, ¬ ClosesScriptAt "x` /</Script>".toList k := by decide
    exact Nat.le_of_not_lt fun hlt => hbefore k hlt hk
  obtain ⟨htokens, -, -⟩ := (tokenize_script "</Scrip".toList ⟨4⟩ 7 hinner).1 hunclosed
  obtain ⟨hwhole, hstate⟩ := (tokenize_script "x` /</Script>".toList ⟨4⟩ 7 hinner).2 4 hclosing
  exact ⟨hinner, htokens, hwhole, hstate⟩

end Markup

end Linewise
