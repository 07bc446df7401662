import Linewise.CFamily.InPlace.Scan

/-!
# Scanned ranges

A scanner of the C family that is handed a part of a line (`CFamily.scanRange`) sees nothing of the rest. It
reads the part where it stands, and what it makes of it is what it makes of the same text as a line of its
own, moved along the line to where the part starts (`Token.along`).

* `Lexeme.place_along`: lexemes that start further along make the same tokens there.
* `CFamily.scanRange_eq`: **the tokens and the state of a range are those of its text**, so two lines that
  agree in the range have the same.
-/

namespace Linewise

namespace Token

/-- The same token further along its line. -/
def along (distance : Nat) (t : Token) : Token :=
  { t with start := distance + t.start, offset := t.offset + .ofNat distance }

theorem Lexeme.place_along (lineStart : UInt64) (distance column : Nat) (ls : List Lexeme) :
    place lineStart (distance + column) ls = (place lineStart column ls).map (along distance) := by
  induction ls generalizing column with
  | nil => rfl
  | cons l ls ih =>
    have hoffset : lineStart + .ofNat (distance + column) = lineStart + .ofNat column + .ofNat distance := by
      rw [Nat.add_comm, UInt64.ofNat_add, UInt64.add_assoc]
    rw [place, place, List.map_cons, Nat.add_assoc, ih, hoffset]
    rfl

end Token

namespace CFamily

open Token (Lexeme)

/-- The tokens of a range are those of its text, placed from where the range starts. -/
theorem scanRange_eq_place {line : List Char} {start stop : Nat} (hstart : start ≤ stop)
    (hstop : stop ≤ line.length) (d : Dialect) (initial : LineState) (lineStart : UInt64) :
    let reading := scan d initial ((line.take stop).drop start)
    scanRange d line start stop initial lineStart =
      ⟨Lexeme.place lineStart start reading.lexemes, Token.endOfLine lineStart line.length, reading.state⟩ := by
  intro reading
  have hread : InPlace.read d ⟨line.toArray, start, stop⟩ initial = reading.outline start :=
    InPlace.read_eq (w := ⟨line.toArray, start, stop⟩) hstop hstart initial
  obtain ⟨htokens, hline⟩ := Token.tokens_pushSpans (own_scan d initial ((line.take stop).drop start)) start
    (.empty lineStart)
  unfold scanRange
  rw [hread]
  dsimp only [Token.Reading.outline, Token.Builder.finish]
  rw [htokens, hline]
  rfl

/-- **A range is scanned by itself.** Whatever the dialect, the line, the range in it and the state in front,
the tokens of the range are those of its text as a line of its own, moved along to where the range starts,
and the state behind it is the same. So what stands in front of the range and behind it does not count: any
line with the same text there has the same tokens in the range and the same state behind it. -/
theorem scanRange_eq (d : Dialect) (line : List Char) (start stop : Nat) (initial : LineState)
    (lineStart : UInt64) (hstart : start ≤ stop) (hstop : stop ≤ line.length) :
    let range := scanRange d line start stop initial lineStart
    let part := (scanner d).tokenize ((line.take stop).drop start) initial lineStart
    range.tokens = part.tokens.map (Token.along start) ∧ range.endState = part.endState ∧
      ∀ other : List Char, stop ≤ other.length →
        (other.take stop).drop start = (line.take stop).drop start →
        (scanRange d other start stop initial lineStart).tokens = range.tokens ∧
          (scanRange d other start stop initial lineStart).endState = range.endState := by
  intro range part
  have hrange : range = _ := scanRange_eq_place hstart hstop d initial lineStart
  refine ⟨?_, by rw [hrange]; rfl, fun other hother htext => ?_⟩
  · rw [hrange]
    exact Lexeme.place_along lineStart start 0 _
  · rw [hrange, scanRange_eq_place hstart hother, htext]
    exact ⟨rfl, rfl⟩

/-- A range that starts with a regular expression behind a word, and ends inside the exponent of a number. -/
theorem scanRange_eq_exponent_cut :
    let d := Dialect.javaScript
    let line := "f/g/1.5e3".toList
    let range := scanRange d line 1 8 .neutral 100
    let part := (scanner d).tokenize "/g/1.5e".toList .neutral 100
    1 ≤ 8 ∧ 8 ≤ line.length ∧ range.tokens = part.tokens.map (Token.along 1) ∧
      range.endState = part.endState ∧
      (scanRange d "0/g/1.5e9".toList 1 8 .neutral 100).tokens = range.tokens := by
  obtain ⟨htokens, hstate, hother⟩ :=
    scanRange_eq .javaScript "f/g/1.5e3".toList 1 8 .neutral 100 (by decide) (by decide)
  exact ⟨by decide, by decide, htokens, hstate, (hother "0/g/1.5e9".toList (by decide) (by decide)).1⟩

end CFamily

end Linewise
