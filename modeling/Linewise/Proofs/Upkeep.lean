import Linewise.Proofs.MovedLines
import Linewise.Proofs.Propagation

/-!
# The upkeep of states

An edit is reported as a line and the numbers of lines that came and went behind it. The report *matches*
two texts up to a line (`Edit.Matches`) if above the edited line and below that one the new text has the
old lines. It *describes* the change (`Edit.Describes`) if that holds below the last line that it calls
changed. The states stay in step already if it holds below the last line that is lexed anew in any
case (`Edit.reach`), which is one line further down when lines came or went.

* `entries_applyEdit`: **after a report that matches, the states are those of a full pass**.
* `applyEdit_error`: the only way to fail is that the text changed meanwhile.
* `lineTokens_applyEdit`: a line outside the damage has the tokens that the line had which it comes
  from, up to the distance that it has moved.
* `onEdit_of_describes`: all of this for a report that describes the change.
-/

namespace Linewise

namespace Edit

/-- The last line that is lexed anew in any case, if there is such a line. -/
def reach (e : Edit) : Nat := if e.isSingleLine then e.lastChangedLine else e.lastChangedLine + 1

/-- The number that a line had before the edit, if it is not one of those that came. -/
def origin (e : Edit) (line : Nat) : Nat :=
  if line ≤ e.startLine then line else line - e.linesAdded + e.linesRemoved

/-- The report fits two texts, if lines up to `reach` are left out of account below the edited line. -/
structure Matches (e : Edit) (reach : Nat) (old new : List (List Char)) : Prop where
  old_line : e.startLine + e.linesRemoved < old.length
  new_line : e.startLine + e.linesAdded < new.length
  length_eq : new.length + e.linesRemoved = old.length + e.linesAdded
  above : ∀ i < e.startLine, new[i]? = old[i]?
  below : ∀ i < new.length, reach < i → new[i]? = old[i - e.linesAdded + e.linesRemoved]?

/-- **The report describes how the old text became the new one.** -/
def Describes (e : Edit) (old new : List (List Char)) : Prop := e.Matches e.lastChangedLine old new

theorem Matches.mono {e : Edit} {reach reach' : Nat} {old new : List (List Char)}
    (h : e.Matches reach old new) (hle : reach ≤ reach') : e.Matches reach' old new where
  old_line := h.old_line
  new_line := h.new_line
  length_eq := h.length_eq
  above := h.above
  below i hi hr := h.below i hi (by omega)

theorem lastChangedLine_le_reach (e : Edit) : e.lastChangedLine ≤ e.reach := by
  unfold reach; split_ifs <;> omega

theorem isSingleLine_iff {e : Edit} :
    e.isSingleLine = true ↔ e.linesAdded = 0 ∧ e.linesRemoved = 0 := by
  simp [isSingleLine]

/-- How far lines are lexed anew in any case, by whether lines came or went. -/
theorem reach_cases (e : Edit) :
    (e.linesAdded = 0 ∧ e.linesRemoved = 0 ∧ e.reach = e.startLine) ∨
      e.reach = e.startLine + e.linesAdded + 1 := by
  unfold reach
  split_ifs with h
  · rw [isSingleLine_iff] at h
    exact Or.inl ⟨h.1, h.2, by simp [lastChangedLine, h.1]⟩
  · exact Or.inr rfl

theorem Matches.getElem?_origin {e : Edit} {old new : List (List Char)} (h : e.Matches e.reach old new)
    {i : Nat} (hi : i < new.length) (ho : i < e.startLine ∨ e.reach < i) :
    new[i]? = old[e.origin i]? ∧ e.origin i < old.length := by
  have hle := e.lastChangedLine_le_reach
  have h1 := h.old_line
  have h2 := h.length_eq
  unfold lastChangedLine at hle
  rcases ho with ho | ho
  · rw [origin, if_pos (by omega)]
    exact ⟨h.above i ho, by omega⟩
  · rw [origin, if_neg (by omega)]
    exact ⟨h.below i hi ho, by omega⟩

end Edit

/-- That the revision does not move while every line is read once. -/
def Source.Quiet (s : Source) : Prop :=
  ∀ reads ≤ s.lineCount, s.revisionAfter reads = s.revisionAfter 0

theorem Source.length_texts (s : Source) : s.texts.length = s.lineCount := by
  simp [texts, lineCount]

theorem Source.getElem?_texts {s : Source} {i : Nat} {l : SourceLine} (h : s.line? i = some l) :
    s.texts[i]? = some l.text := by
  unfold line? at h
  simp [texts, h]

theorem Source.exists_line {s : Source} {i : Nat} (h : i < s.lineCount) :
    ∃ l, s.line? i = some l ∧ s.texts[i]? = some l.text :=
  ⟨s.lines[i], List.getElem?_eq_getElem h, s.getElem?_texts (List.getElem?_eq_getElem h)⟩

namespace Retokenizer

/-! ### Moving the states along with their lines -/

/-- The states when those of removed lines are dropped and room is made for those of added ones. -/
def shifted (e : Edit) (entries : List LineState) : List LineState :=
  entries.take (e.startLine + 1) ++ List.replicate e.linesAdded .neutral ++
    entries.drop (e.startLine + 1 + e.linesRemoved)

section Shifted
variable {e : Edit} {entries : List LineState}

theorem length_shifted (entries : List LineState)
    (h : e.startLine + e.linesRemoved < entries.length) :
    (shifted e entries).length + e.linesRemoved = entries.length + e.linesAdded := by
  simp only [shifted, List.length_append, List.length_take, List.length_replicate,
    List.length_drop]
  omega

theorem getElem?_shifted_of_le (h : e.startLine < entries.length) {i : Nat} (hi : i ≤ e.startLine) :
    (shifted e entries)[i]? = entries[i]? := by
  rw [shifted, List.append_assoc, List.getElem?_append_left (by rw [List.length_take]; omega),
    List.getElem?_take_of_lt (by omega)]

theorem getElem?_shifted_of_gt (h : e.startLine < entries.length) {i : Nat}
    (hi : e.startLine + e.linesAdded < i) :
    (shifted e entries)[i]? = entries[i - e.linesAdded + e.linesRemoved]? := by
  have hlen : (entries.take (e.startLine + 1) ++
      List.replicate e.linesAdded LineState.neutral).length = e.startLine + 1 + e.linesAdded := by
    rw [List.length_append, List.length_take, List.length_replicate]; omega
  rw [shifted, List.getElem?_append_right (by omega), hlen, List.getElem?_drop]
  congr 1
  omega

/-- Below the reach of an edit, the state in front of a line is the one that was in front of it. -/
theorem stateInFront_shifted (h : e.startLine < entries.length) {i : Nat} (hi : e.reach < i) :
    stateInFront .neutral (shifted e entries) i =
      stateInFront .neutral entries (i - e.linesAdded + e.linesRemoved) := by
  obtain ⟨k, rfl⟩ : ∃ k, i = k + 1 := ⟨i - 1, by omega⟩
  have hentry : (shifted e entries)[k]? = entries[k - e.linesAdded + e.linesRemoved]? := by
    rcases e.reach_cases with ⟨ha, hr, hreach⟩ | hreach
    · rcases Nat.lt_or_ge e.startLine k with hk | hk
      · exact getElem?_shifted_of_gt h (by omega)
      · rw [getElem?_shifted_of_le h hk, ha, hr]; rfl
    · exact getElem?_shifted_of_gt h (by omega)
  have hle := e.lastChangedLine_le_reach
  unfold Edit.lastChangedLine at hle
  rw [show k + 1 - e.linesAdded + e.linesRemoved = k - e.linesAdded + e.linesRemoved + 1 by omega]
  simp only [stateInFront, List.getD_eq_getElem?_getD, hentry]

end Shifted

theorem shiftStates_eq {states : LineStates} {e : Edit}
    (h : e.startLine + e.linesRemoved < states.length) :
    shiftStates states e = (.ok (), ⟨shifted e states.entries⟩) := by
  have hlen : states.entries.length = states.length := rfl
  have hdrop : (if e.linesRemoved = 0 then (.ok states : Except Failure LineStates)
      else states.removeLines (e.startLine + 1) e.linesRemoved) =
      .ok ⟨states.entries.take (e.startLine + 1) ++
        states.entries.drop (e.startLine + 1 + e.linesRemoved)⟩ := by
    split_ifs with h0
    · simp [h0]
    · rw [LineStates.removeLines, if_neg (by omega)]
  have htake : (states.entries.take (e.startLine + 1)).length = e.startLine + 1 := by
    rw [List.length_take]; omega
  simp only [shiftStates, if_pos (show e.startLine < states.length by omega), hdrop]
  split_ifs with h0
  · simp [shifted, h0]
  · rw [LineStates.insertLines, if_neg (by simp only [LineStates.length, List.length_append]; omega)]
    simp only [List.take_left' htake, List.drop_left' htake, shifted]

/-! ### Lexing anew -/

section Relex
variable {r : Retokenizer} {source : Source}

theorem relex_ok {first i : Nat} {before after : LineState}
    (h : r.relex source first i before = .ok after) : after = r.lineEffect source.texts i before := by
  unfold relex at h
  cases hl : source.line? i with
  | none => simp [hl] at h
  | some l =>
    simp only [hl] at h
    split_ifs at h
    cases h
    simp [lineEffect, List.getD_eq_getElem?_getD, source.getElem?_texts hl]

/-- A line of the text fails to be lexed only if the text changes meanwhile. -/
theorem relex_error {first i : Nat} {before : LineState} {e : Failure} (hi : i < source.lineCount)
    (h : r.relex source first i before = .error e) :
    (∃ expected found, e = .bufferChanged expected found) ∧ ¬ source.Quiet := by
  obtain ⟨l, hl, -⟩ := source.exists_line hi
  unfold relex at h
  simp only [hl] at h
  split_ifs at h with hmoved
  cases h
  exact ⟨⟨_, _, rfl⟩, fun hq => hmoved (hq _ (by omega))⟩

end Relex

/-! ### Edits -/

theorem length_states {r : Retokenizer} {texts : List (List Char)}
    (h : r.states.entries = r.expectedStates texts) : r.states.length = texts.length := by
  show r.states.entries.length = _
  rw [h, length_expectedStates]

section ApplyEdit
variable {r r' : Retokenizer} {e : Edit} {old : List (List Char)} {source : Source} {d : Damage}

theorem applyEdit_eq (hm : e.Matches e.reach old source.texts) (hl : r.states.length = old.length) :
    r.applyEdit source e =
      let pass := LineStates.propagate ⟨shifted e r.states.entries⟩ (r.relex source e.startLine)
        e.startLine (min e.reach (source.lineCount - 1))
      (pass.result.map fun p => ⟨p.first, p.last⟩, { r with states := pass.states }) := by
  have hlen := length_shifted r.states.entries (hl ▸ hm.old_line)
  have heq := hm.length_eq
  have hl' : r.states.entries.length = old.length := hl
  have hcount : (⟨shifted e r.states.entries⟩ : LineStates).length = source.lineCount := by
    rw [← source.length_texts]
    show (shifted e r.states.entries).length = _
    omega
  simp only [applyEdit, shiftStates_eq (hl ▸ hm.old_line), hcount, ne_eq, not_true_eq_false, if_false]
  rfl

theorem applyEdit_ok (hm : e.Matches e.reach old source.texts) (hl : r.states.length = old.length)
    (h : r.applyEdit source e = (.ok d, r')) :
    ∃ states visits p, r' = { r with states := states } ∧ d = ⟨p.first, p.last⟩ ∧
      LineStates.Propagated (r.lineEffect source.texts) e.startLine
        (min e.reach (source.lineCount - 1)) (shifted e r.states.entries) states.entries visits p := by
  rw [applyEdit_eq hm hl] at h
  cases hres : (LineStates.propagate ⟨shifted e r.states.entries⟩ (r.relex source e.startLine)
    e.startLine (min e.reach (source.lineCount - 1))).result with
  | error x => simp [hres, Except.map] at h
  | ok p =>
    simp only [hres, Except.map, Prod.mk.injEq, Except.ok.injEq] at h
    obtain ⟨rfl, rfl⟩ := h
    exact ⟨_, _, p, rfl, rfl, LineStates.propagate_ok (fun _ _ _ => relex_ok) hres⟩

theorem applyEdit_error {x : Failure} (hm : e.Matches e.reach old source.texts)
    (hl : r.states.length = old.length) (h : r.applyEdit source e = (.error x, r')) :
    (∃ expected found, x = .bufferChanged expected found) ∧ ¬ source.Quiet := by
  have hlen := length_shifted r.states.entries (hl ▸ hm.old_line)
  have heq := hm.length_eq
  have hnew := hm.new_line
  have hl' : r.states.entries.length = old.length := hl
  have hcount := source.length_texts
  rw [applyEdit_eq hm hl] at h
  cases hres : (LineStates.propagate ⟨shifted e r.states.entries⟩ (r.relex source e.startLine)
    e.startLine (min e.reach (source.lineCount - 1))).result with
  | ok p => simp [hres, Except.map] at h
  | error x' =>
    simp only [hres, Except.map, Prod.mk.injEq, Except.error.injEq] at h
    obtain ⟨rfl, -⟩ := h
    have hlt : e.startLine < (⟨shifted e r.states.entries⟩ : LineStates).length := by
      show e.startLine < (shifted e r.states.entries).length
      omega
    obtain ⟨i, -, hi, before, hr⟩ := LineStates.propagate_error hlt hres
    refine relex_error (show i < source.lineCount from ?_) hr
    have hi' : i < (shifted e r.states.entries).length := hi
    omega

theorem lineEffect_congr {texts texts' : List (List Char)} {i j : Nat}
    (h : texts[i]? = texts'[j]?) : r.lineEffect texts i = r.lineEffect texts' j := by
  funext before
  simp [lineEffect, List.getD_eq_getElem?_getD, h]

/-- **States that were in step stay in step.** -/
theorem entries_applyEdit (hm : e.Matches e.reach old source.texts)
    (hc : r.states.entries = r.expectedStates old) (h : r.applyEdit source e = (.ok d, r')) :
    r'.states.entries = r.expectedStates source.texts := by
  have hl := length_states hc
  have hl' : r.states.entries.length = old.length := hl
  have hlen := length_shifted r.states.entries (hl ▸ hm.old_line)
  have heq := hm.length_eq
  have hold := hm.old_line
  have hcount := source.length_texts
  have hchain : Chained (r.lineEffect old) r.states.entries := hc ▸ r.chained_expectedStates old
  obtain ⟨states, visits, p, rfl, rfl, hp⟩ := applyEdit_ok hm hl h
  refine eq_expectedStates (by rw [hp.length_eq]; omega) (hp.chained (fun i hi => ?_) fun i hi hr => ?_)
  · have hfront : stateInFront .neutral (shifted e r.states.entries) i =
        stateInFront .neutral r.states.entries i :=
      stateInFront_congr fun j hj => getElem?_shifted_of_le (by omega) (by omega)
    rw [getElem?_shifted_of_le (by omega) (by omega), hchain i (by omega), hfront,
      lineEffect_congr (hm.above i hi)]
  · have hle := e.lastChangedLine_le_reach
    unfold Edit.lastChangedLine at hle
    have hreach : e.reach < i := by omega
    rw [stateInFront_shifted (by omega) hreach, lineEffect_congr (hm.below i (by omega) hreach),
      getElem?_shifted_of_gt (by omega) (by omega)]
    exact hchain _ (by omega)

/-- Outside the damage the states in front of lines have moved along with the lines. -/
theorem before_applyEdit (hm : e.Matches e.reach old source.texts)
    (hl : r.states.length = old.length) (h : r.applyEdit source e = (.ok d, r')) {i : Nat}
    (hi : i < source.lineCount) (hd : d.contains i = false) :
    (i < e.startLine ∨ e.reach < i) ∧ r'.states.before i = r.states.before (e.origin i) := by
  have hl' : r.states.entries.length = old.length := hl
  have hlen := length_shifted r.states.entries (hl ▸ hm.old_line)
  have heq := hm.length_eq
  have hold := hm.old_line
  have hcount := source.length_texts
  have hle := e.lastChangedLine_le_reach
  unfold Edit.lastChangedLine at hle
  obtain ⟨states, visits, p, rfl, rfl, hp⟩ := applyEdit_ok hm hl h
  have hfirst := hp.first_eq
  have hnew : states.length = source.lineCount := by
    show states.entries.length = _
    rw [hp.length_eq]; omega
  have hout : i < e.startLine ∨ p.last < i := by
    simp only [Damage.contains, Bool.and_eq_false_iff, decide_eq_false_iff_not] at hd
    omega
  rcases hout with hi' | hi'
  · refine ⟨Or.inl hi', ?_⟩
    show states.before i = _
    rw [Edit.origin, if_pos (by omega), LineStates.before_eq (by omega),
      LineStates.before_eq (by omega)]
    congr 1
    exact stateInFront_congr fun j hj => by
      rw [hp.above j (by omega), getElem?_shifted_of_le (by omega) (by omega)]
  · obtain ⟨ht, hkept⟩ := hp.settled (by omega)
    have hreach : e.reach < i := by omega
    refine ⟨Or.inr hreach, ?_⟩
    show states.before i = _
    rw [Edit.origin, if_neg (by omega), LineStates.before_eq (by omega),
      LineStates.before_eq (by omega)]
    congr 1
    rw [← stateInFront_shifted (by omega) hreach]
    exact stateInFront_congr fun j hj => hkept j (by omega)

end ApplyEdit

section OnEdit
variable {r r' : Retokenizer} {e : Edit} {source : Source} {d : Damage}

theorem onEdit_of_ok (hf : r.stale = false) (h : r.applyEdit source e = (.ok d, r')) :
    r.onEdit source e = (.ok d, r'.addDamage d) := by
  simp [onEdit, hf, h]

theorem onEdit_of_changed {expected found : Nat} (hf : r.stale = false)
    (h : r.applyEdit source e = (.error (.bufferChanged expected found), r')) :
    r.onEdit source e = (.error (.bufferChanged expected found), { r' with stale := true }) := by
  simp [onEdit, hf, h]

theorem lineTokens_applyEdit {old : Source} (hs : r.scanner.Lawful)
    (hm : e.Matches e.reach old.texts source.texts) (hl : r.states.length = old.lineCount)
    (h : r.applyEdit source e = (.ok d, r')) {i : Nat} (hi : i < source.lineCount)
    (hd : d.contains i = false) :
    ∃ l l' tokens malformed, old.line? (e.origin i) = some l ∧ source.line? i = some l' ∧
      r.lineTokens old (e.origin i) = .ok (tokens, malformed) ∧
      r'.lineTokens source i =
        .ok (tokens.moved (.ofNat l'.start - .ofNat l.start), malformed) := by
  have hl' : r.states.length = old.texts.length := by rw [old.length_texts, hl]
  obtain ⟨hout, hbefore⟩ := before_applyEdit hm hl' h hi hd
  obtain ⟨states, visits, p, hr', -, -⟩ := applyEdit_ok hm hl' h
  have hscanner : r'.scanner = r.scanner := by rw [hr']
  have hsettings : r'.settings = r.settings := by rw [hr']
  obtain ⟨htext, ho⟩ := hm.getElem?_origin (by rwa [source.length_texts]) hout
  rw [old.length_texts] at ho
  obtain ⟨l, hl₁, ht⟩ := old.exists_line ho
  obtain ⟨l', hl₂, ht'⟩ := source.exists_line hi
  have hb := LineStates.before_eq (show e.origin i ≤ r.states.length by omega)
  have hsame : l'.text = l.text := Option.some.inj (by rw [← ht', htext, ht])
  have hold := lineTokens_eq hl₁ hb
  have hnew := lineTokens_moved hs hscanner hsettings hl₁ hl₂ hsame hb (hbefore.trans hb)
  rcases hfinish : r.finishTokens l.text (.ofNat l.start) _ with ⟨tokens, malformed⟩
  rw [hfinish] at hold
  rw [hold] at hnew
  exact ⟨l, l', tokens, malformed, hl₁, hl₂, hold, hnew⟩

/-- **An edit that is described keeps the states in step.** If the states are those of a full pass over
the old text and the text does not change meanwhile, then those behind an edit are those of a full pass
over the new one. The damage starts at the edited line, ends in the text, and every line outside it has
the state in front of it and the tokens that the line had which it comes from, up to the distance
between the starts of the two. -/
theorem onEdit_of_describes {old new : Source} (hs : r.scanner.Lawful)
    (he : e.Describes old.texts new.texts) (hc : r.states.entries = r.expectedStates old.texts)
    (hf : r.stale = false) (hq : new.Quiet) :
    ∃ d r', r.onEdit new e = (.ok d, r') ∧ r'.states.entries = r.expectedStates new.texts ∧
      d.first = e.startLine ∧ d.last < new.lineCount ∧
      ∀ i < new.lineCount, d.contains i = false →
        r'.states.before i = r.states.before (e.origin i) ∧
        ∃ l l' tokens malformed, old.line? (e.origin i) = some l ∧ new.line? i = some l' ∧
          r.lineTokens old (e.origin i) = .ok (tokens, malformed) ∧
          r'.lineTokens new i =
            .ok (tokens.moved (.ofNat l'.start - .ofNat l.start), malformed) := by
  have hm := he.mono e.lastChangedLine_le_reach
  have hlen := length_states hc
  rcases h : r.applyEdit new e with ⟨x | d, r'⟩
  · exact absurd hq (applyEdit_error hm hlen h).2
  have hcount : r.states.length = old.lineCount := by rw [hlen, old.length_texts]
  have hentries := entries_applyEdit hm hc h
  refine ⟨d, r'.addDamage d, onEdit_of_ok hf h, hentries, ?_, ?_, fun i hi hd => ⟨?_, ?_⟩⟩
  · obtain ⟨states, visits, p, rfl, rfl, hp⟩ := applyEdit_ok hm hlen h
    exact hp.first_eq
  · obtain ⟨states, visits, p, rfl, rfl, hp⟩ := applyEdit_ok hm hlen h
    have hshift := length_shifted r.states.entries (hlen ▸ hm.old_line)
    have heq := hm.length_eq
    have hlt := hp.last_lt
    have hlen' : r.states.entries.length = old.texts.length := hlen
    rw [← new.length_texts]
    show p.last < _
    omega
  · exact (before_applyEdit hm hlen h hi hd).2
  · exact lineTokens_applyEdit hs hm hcount h hi hd

/-- A comment is opened on a new line in front of two others. -/
theorem onEdit_of_describes_comment_opened :
    let old := (Buffer.ofString "a\nb").source
    let new := ((Buffer.ofString "a\nb").insert 0 "/*\n".toList).1.source
    let e := ((Buffer.ofString "a\nb").insert 0 "/*\n".toList).2
    let r := { ofSettings {} with
      languageId := "text/java", scanner := Language.java.scanner, states := .ofLineCount 2 }
    e.Describes old.texts new.texts ∧
    ∃ d r', r.onEdit new e = (.ok d, r') ∧ r'.states.entries = r.expectedStates new.texts ∧
      d.first = e.startLine ∧ d.last < new.lineCount ∧
      ∀ i < new.lineCount, d.contains i = false →
        r'.states.before i = r.states.before (e.origin i) ∧
        ∃ l l' tokens malformed, old.line? (e.origin i) = some l ∧ new.line? i = some l' ∧
          r.lineTokens old (e.origin i) = .ok (tokens, malformed) ∧
          r'.lineTokens new i =
            .ok (tokens.moved (.ofNat l'.start - .ofNat l.start), malformed) := by
  intro old new e r
  have he : e.Describes old.texts new.texts :=
    ⟨by decide +kernel, by decide +kernel, by decide +kernel, by decide +kernel, by decide +kernel⟩
  exact ⟨he, onEdit_of_describes (Language.scanner_lawful .java) he (by decide +kernel) rfl
    fun _ _ => rfl⟩

end OnEdit

end Retokenizer

end Linewise
