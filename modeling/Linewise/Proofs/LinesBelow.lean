import Linewise.Proofs.EditReports

/-!
# Lines below an edit

The report of a change promises three things: the numbers of lines that came and went, that no line above
the edited one has changed, and that every line below the last changed one is an old line, further up or
down by as many lines as came or went. The first two always hold. So does the third for insertions; a
removal breaks it just if it *cuts a line behind a pair* (`Buffer.CutsBehindPair`): it starts between a
carriage return and a line feed, takes the feed, and ends inside a line, with no other feed there to end
the line of the return. Then the return ends a line by itself, the text below the cut is a line of its
own, and that line, the one behind the edited line, has lost what was removed of it (`texts_behind_feed`).

* `change_reports_iff`: **the report of a change describes it, just if it cuts no line behind a pair**.
-/

namespace Linewise.Buffer

open Text (texts cut CutsPair)

/-- **Removing from `start` to `stop` cuts a line behind a pair** of carriage return and line feed: it starts
between the two, and `c` is the last character that it takes. -/
def CutsBehindPair (b : Buffer) (start stop : Nat) : Prop :=
  ∃ above part c below, b.text = above ++ '\r' :: '\n' :: (part ++ c :: below) ∧
    start = above.length + 1 ∧ min stop b.length = above.length + 2 + part.length + 1 ∧
    Text.isBreak c = false ∧ below.head? ≠ some '\n'

/-- A change that cuts a line behind a pair. -/
def CutsBehindPairBy (b : Buffer) : Change → Prop
  | .insert _ _ => False
  | .remove start stop => b.CutsBehindPair start stop

section Remove
variable {b : Buffer} {start stop : Nat} {above gone below : List Char}

theorem cutsBehindPair_iff (htext : b.text = above ++ gone ++ below) (hfirst : above.length = min start b.length)
    (hlast : above.length + gone.length = max (min stop b.length) (min start b.length)) :
    b.CutsBehindPair start stop ↔
      above.getLast? = some '\r' ∧ below.head? ≠ some '\n' ∧
        ∃ part c, gone = '\n' :: (part ++ [c]) ∧ Text.isBreak c = false := by
  constructor
  · rintro ⟨a, part, c, rest, ht, hstart, hstop, hc, hrest⟩
    have hall : b.length = a.length + (part.length + (rest.length + 1) + 1 + 1) := by
      unfold length
      rw [ht]
      simp only [List.length_append, List.length_cons]
    have hsplit : above ++ (gone ++ below) = (a ++ ['\r']) ++ ('\n' :: (part ++ [c]) ++ rest) := by
      rw [← List.append_assoc, ← htext, ht]
      simp
    obtain ⟨rfl, htail⟩ := List.append_inj hsplit (by
      simp only [List.length_append, List.length_cons, List.length_nil]; omega)
    obtain ⟨rfl, rfl⟩ := List.append_inj htail (by
      simp only [List.length_append, List.length_cons, List.length_nil] at hlast ⊢; omega)
    exact ⟨by simp, hrest, part, c, rfl, hc⟩
  · rintro ⟨hr, hrest, part, c, rfl, hc⟩
    obtain ⟨a, rfl⟩ := List.getLast?_eq_some_iff.mp hr
    simp only [List.length_append, List.length_cons, List.length_nil] at hfirst hlast
    have hall : b.length = a.length + 1 + (part.length + 1 + 1) + below.length := by
      unfold length
      rw [htext]
      simp only [List.length_append, List.length_cons, List.length_nil]
    exact ⟨a, part, c, below, by rw [htext]; simp, by omega, by omega, hc, hrest⟩

/-- A removal that starts with the feed of a pair, where no other feed moves up to the return, cuts the line
that it ends on, unless it takes nothing of that line. -/
theorem cutsBehindPair_iff_of_feed {part : List Char} {middle : List (List Char)} {last : List Char}
    (htext : b.text = above ++ '\n' :: part ++ below) (hfirst : above.length = min start b.length)
    (hlast : above.length + ('\n' :: part).length = max (min stop b.length) (min start b.length))
    (hr : above.getLast? = some '\r') (hb : below.head? ≠ some '\n') (hpart : texts part = middle ++ [last]) :
    b.CutsBehindPair start stop ↔ last ≠ [] := by
  rw [cutsBehindPair_iff htext hfirst hlast]
  constructor
  · rintro ⟨-, -, part', c, heq, hc⟩ hnil
    obtain ⟨-, rfl⟩ := List.cons.inj heq
    rw [(Text.last_eq_nil_iff hpart).mp hnil c (by simp)] at hc
    cases hc
  · intro hne
    have hends := mt (Text.last_eq_nil_iff hpart).mpr hne
    rcases List.eq_nil_or_concat part with rfl | ⟨part', c, rfl⟩
    · exact absurd (by simp) hends
    · rw [List.concat_eq_append] at hends ⊢
      exact ⟨hr, hb, part', c, rfl, by simpa using hends⟩

/-- The report of a removal fits, if the line behind the edited one is left out of account. -/
theorem remove_matches (b : Buffer) (start stop : Nat) :
    (b.remove start stop).2.Matches ((b.remove start stop).2.startLine + 1) (texts b.text)
      (texts (b.remove start stop).1.text) := by
  obtain ⟨above, gone, below, htext, hnew, -, -, -, hadded, hstart, hcount⟩ := b.remove_eq start stop
  have hone := Text.cut_le_one above (gone ++ below)
  have hjoin := Text.length_texts_append above below
  have hpos := Text.texts_length_pos below
  have hcut := Text.cut_le_one above below
  have hgrow := Text.length_texts_le above below []
  rw [htext, hnew]
  simp only [List.append_nil] at hgrow
  have hmatches : (b.remove start stop).2.Matches ((b.remove start stop).2.startLine + 1)
      (texts (above ++ gone ++ below)) (texts (above ++ [] ++ below)) := by
    refine Edit.matches_of_splice hstart ?_ ?_ ?_ ?_
    all_goals simp only [List.append_nil, Edit.lastChangedLine]; omega
  rwa [List.append_nil] at hmatches

/-- **The lines below a removal** are the old ones just if it cuts no line behind a pair. -/
theorem remove_below_iff (b : Buffer) (start stop : Nat) :
    (∀ i < (texts (b.remove start stop).1.text).length, (b.remove start stop).2.startLine < i →
      (texts (b.remove start stop).1.text)[i]? = (texts b.text)[i + (b.remove start stop).2.linesRemoved]?) ↔
      ¬ b.CutsBehindPair start stop := by
  obtain ⟨above, gone, below, htext, hnew, hfirst, hlast, -, hadded, hstart, hcount⟩ := b.remove_eq start stop
  have hm := b.remove_matches start stop
  have hjoin := Text.length_texts_append above below
  have hpos := Text.texts_length_pos below
  rw [htext, hnew] at hm ⊢
  by_cases hfits : cut above (gone ++ below) ≤ cut above below
  · refine iff_of_true (fun i hi hlt => ?_) ?_
    · have hdescribes : (b.remove start stop).2.Matches (b.remove start stop).2.startLine
          (texts (above ++ gone ++ below)) (texts (above ++ [] ++ below)) := by
        refine Edit.matches_of_splice hstart ?_ ?_ ?_ ?_
        all_goals simp only [List.append_nil, Edit.lastChangedLine]; omega
      rw [List.append_nil] at hdescribes
      have hbelow := hdescribes.below i hi hlt
      rwa [hadded, Nat.sub_zero] at hbelow
    · rw [cutsBehindPair_iff htext hfirst hlast]
      rintro ⟨hr, hb, part, c, rfl, -⟩
      have hwas : cut above ('\n' :: (part ++ [c]) ++ below) = 1 := if_pos ⟨hr, rfl⟩
      rw [hwas, Text.cut_eq_zero hb] at hfits
      omega
  -- Only the line behind the edited one is in question: it has lost what was removed of it.
  obtain ⟨hr, hb, part, rfl⟩ := exists_feed_of_cut_lt (Nat.not_le.mp hfits)
  have hwas : cut above ('\n' :: part ++ below) = 1 := if_pos ⟨hr, rfl⟩
  obtain ⟨front, middle, last, first, back, hfront, hpart, hold, hnow⟩ := texts_behind_feed part hr hb
  rw [cutsBehindPair_iff_of_feed htext hfirst hlast hr hb hpart, ne_eq, not_not]
  rw [hold, hnow] at hm hcount ⊢
  simp only [List.length_append, List.length_cons] at hcount
  have hmiddle : (b.remove start stop).2.linesRemoved = middle.length := by omega
  have hline : (front ++ first :: back)[front.length]? = some first := by
    rw [List.getElem?_append_right (Nat.le_refl _), Nat.sub_self]
    rfl
  have hline' : (front ++ (middle ++ (last ++ first) :: back))[front.length + middle.length]? =
      some (last ++ first) := by
    rw [List.getElem?_append_right (Nat.le_add_right _ _), Nat.add_sub_cancel_left,
      List.getElem?_append_right (Nat.le_refl _), Nat.sub_self]
    rfl
  constructor
  · intro h
    have hsame := h front.length (by simp) (by omega)
    rw [hmiddle, hline, hline'] at hsame
    simpa using Option.some.inj hsame
  · rintro rfl i hi hlt
    rcases Nat.lt_or_ge front.length i with hbelow | hle
    · have hbelow := hm.below i hi (by omega)
      rwa [hadded, Nat.sub_zero] at hbelow
    · obtain rfl : i = front.length := by omega
      rw [hmiddle, hline, hline', List.nil_append]

end Remove

/-- **The report of a change describes it, just if it cuts no line behind a pair.** Whatever the text and the
place, the report counts the lines right, and above the edited line nothing has changed. Below the last line
that it calls changed, the lines are old ones, further up or down by as many as came or went, just if the
change cuts no line behind a pair. -/
theorem change_reports_iff (b : Buffer) (c : Change) :
    let e := (b.change c).2
    let b' := (b.change c).1
    b'.lineCount + e.linesRemoved = b.lineCount + e.linesAdded ∧
      (∀ i < e.startLine, b'.line? i = b.line? i) ∧
      ((∀ i < b'.lineCount, e.lastChangedLine < i →
        b'.line? i = b.line? (i - e.linesAdded + e.linesRemoved)) ↔ ¬ b.CutsBehindPairBy c) := by
  simp only [line?_eq, ← length_texts]
  cases c with
  | insert offset inserted =>
    have h := b.insert_describes offset inserted
    rw [texts_source, texts_source] at h
    exact ⟨h.length_eq, h.above, iff_of_true h.below id⟩
  | remove start stop =>
    have h := b.remove_matches start stop
    have hadded : (b.remove start stop).2.linesAdded = 0 := rfl
    refine ⟨h.length_eq, h.above, ?_⟩
    show _ ↔ ¬ b.CutsBehindPair start stop
    rw [← remove_below_iff]
    simp only [change, Edit.lastChangedLine, hadded, Nat.add_zero, Nat.sub_zero]

/-- The feed of a pair goes with the first of two characters behind it, and the report calls line 0 changed,
not line 1. -/
theorem not_reported_behind_pair :
    let b := ofString "a\r\nbc"
    let e := (b.change (.remove 2 4)).2
    let b' := (b.change (.remove 2 4)).1
    ¬ (b'.lineCount + e.linesRemoved = b.lineCount + e.linesAdded ∧
      (∀ i < e.startLine, b'.line? i = b.line? i) ∧
      ∀ i < b'.lineCount, e.lastChangedLine < i →
        b'.line? i = b.line? (i - e.linesAdded + e.linesRemoved)) := by
  rintro b e b' ⟨-, -, h⟩
  exact absurd (h 1 (by decide) (by decide)) (by decide)

end Linewise.Buffer
