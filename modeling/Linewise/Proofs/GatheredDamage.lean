import Linewise.Proofs.DocumentRuns

/-!
# Damage that gathers

A painter asks from time to time for the lines to be drawn again, and moves all others along with the
lines that came and went (`Buffer.image`). Each change reports the lines that it touched, in the numbers
that lines have behind it, and what is handed out is the smallest range with all that was reported. But
lines that come in later, above a touched one, push it down, and the range is not moved along. So a
touched line can be pushed out of the range (`Document.PushedDown`).

* `look_change`: **a change keeps the look of every line outside its own damage**.
* `preserves_or_touched`: so a run of changes keeps the look of every line that no change has touched.
* `preserves_of_neverPushes`: if lines never come in above what has gathered, the range that is handed out
  has all lines that look different.
* `preserves_iff`: all lines outside the range that is handed out look as before just if those do that
  were touched and then pushed down.
-/

namespace Linewise

/-! ### Where lines go -/

/-- The number that a line has after an edit, if it is still there. -/
def Edit.image (e : Edit) (line : Nat) : Option Nat :=
  if line ≤ e.startLine then some line
  else if line ≤ e.startLine + e.linesRemoved then none
  else some (line - e.linesRemoved + e.linesAdded)

/-- Above the edited line and below the reach of the edit, lines go where they come from. -/
theorem Edit.image_origin {e : Edit} {line : Nat} (h : line < e.startLine ∨ e.reach < line) :
    e.image (e.origin line) = some line := by
  have hle := e.lastChangedLine_le_reach
  unfold lastChangedLine at hle
  rcases h with h | h
  · rw [origin, if_pos (by omega), image, if_pos (by omega)]
  · rw [origin, if_neg (by omega), image, if_neg (by omega), if_neg (by omega)]
    congr 1
    omega

theorem Edit.le_of_image {e : Edit} {bound line i : Nat} (hs : bound ≤ e.startLine) (hl : bound ≤ line)
    (h : e.image line = some i) : bound ≤ i := by
  unfold image at h
  split_ifs at h <;> cases h <;> omega

theorem Edit.image_of_no_lines {e : Edit} (hadded : e.linesAdded = 0) (hremoved : e.linesRemoved = 0)
    (line : Nat) : e.image line = some line := by
  unfold image
  split_ifs
  · rfl
  · omega
  · simp [hadded, hremoved]

namespace Buffer

/-- The buffer once changes have been made, one after the other. -/
def changes (b : Buffer) (cs : List Change) : Buffer := cs.foldl (fun b c => (b.change c).1) b

/-- The number that a line has after changes, if it is still there: each change moves lines as its report
says. -/
def image (b : Buffer) : List Change → Nat → Option Nat
  | [], line => some line
  | c :: cs, line => ((b.change c).2.image line).bind ((b.change c).1.image cs)

theorem image_append (b : Buffer) (cs ds : List Change) (line : Nat) :
    b.image (cs ++ ds) line = (b.image cs line).bind ((b.changes cs).image ds) := by
  induction cs generalizing b line with
  | nil => rfl
  | cons c cs ih =>
    simp only [List.cons_append, image, changes, List.foldl_cons]
    cases (b.change c).2.image line with
    | none => rfl
    | some i => exact ih (b.change c).1 i

theorem image_concat_eq_some {b : Buffer} {cs : List Change} {c : Change} {line i : Nat} :
    b.image (cs ++ [c]) line = some i ↔
      ∃ j, b.image cs line = some j ∧ ((b.changes cs).change c).2.image j = some i := by
  rw [image_append, Option.bind_eq_some_iff]
  simp [image]

end Buffer

namespace Retokenizer

/-! ### What an edit reports -/

section OnEdit
variable {r : Retokenizer} {e : Edit} {old source : Source}

/-- Damage that is added is covered, and so is all that had gathered. -/
theorem addDamage_covers (r : Retokenizer) (d : Damage) :
    ∃ p, (r.addDamage d).pending = some p ∧ p.first ≤ d.first ∧ d.last ≤ p.last ∧
      ∀ q, r.pending = some q → p.first ≤ q.first ∧ q.last ≤ p.last := by
  cases hp : r.pending with
  | none => exact ⟨d, by simp [addDamage, hp], Nat.le_refl _, Nat.le_refl _, fun q h => by cases h⟩
  | some p =>
    refine ⟨p.union d, by simp [addDamage, hp], Nat.min_le_right _ _, Nat.le_max_right _ _, ?_⟩
    rintro q ⟨⟩
    exact ⟨Nat.min_le_left _ _, Nat.le_max_left _ _⟩

/-- **What an edit does if its report fits**, whether or not the states were in step: it succeeds without a
repair, it leaves a state for each line, which can be trusted, its damage starts no later than the edited line
and is added to what has gathered, and every line outside of it has the tokens that the line had which it
comes from. -/
theorem onEdit_spec (hs : r.scanner.Lawful) (hm : e.Matches e.reach old.texts source.texts)
    (hl : r.states.length = old.lineCount) (hq : source.Quiet) :
    ∃ d r', r.onEdit source e = (.ok d, r') ∧ r'.states.length = source.lineCount ∧
      r'.stale = false ∧ r'.repairs = r.repairs ∧ r'.pending = (r.addDamage d).pending ∧ d.first ≤ e.startLine ∧
      ∀ i < source.lineCount, d.contains i = false →
        (i < e.startLine ∨ e.reach < i) ∧
        ∃ distance tokens malformed, e.origin i < old.lineCount ∧
          r.lineTokens old (e.origin i) = .ok (tokens, malformed) ∧
          r'.lineTokens source i = .ok (tokens.moved distance, malformed) := by
  have hlen : r.states.length = old.texts.length := by rw [old.length_texts, hl]
  have hcount := source.length_texts
  have hpos := hm.new_line
  cases hst : r.stale with
  | true =>
    have hne : source.texts ≠ [] := List.length_pos_iff.mp (by omega)
    refine ⟨allLines source, r.adopt (r.expectedStates source.texts), ?_,
      (inStep_adopt hne).length_states, rfl, rfl, ?_, Nat.zero_le _, fun i hi hd => ?_⟩
    · rw [onEdit_of_stale hst, rebuild_of_quiet hq]
      rfl
    · show (addDamage _ ⟨0, (r.expectedStates source.texts).length - 1⟩).pending = _
      rw [length_expectedStates, source.length_texts]
      rfl
    · have hle : i ≤ source.lineCount - 1 := by omega
      have hin : (allLines source).contains i = true := by simp [allLines, Damage.contains, hle]
      rw [hin] at hd
      cases hd
  | false =>
    rcases happly : r.applyEdit source e with ⟨x | d, r'⟩
    · exact absurd hq (applyEdit_error hm hlen happly).2
    obtain ⟨states, visits, p, hr', rfl, hp⟩ := applyEdit_ok hm hlen happly
    have hlen' : r.states.entries.length = old.texts.length := hlen
    have hshift := length_shifted r.states.entries (hlen ▸ hm.old_line)
    have heq := hm.length_eq
    refine ⟨_, r'.addDamage ⟨p.first, p.last⟩, onEdit_of_ok hst happly, ?_, by rw [hr']; exact hst,
      by rw [hr']; rfl, ?_, Nat.le_of_eq hp.first_eq,
      fun i hi hd => ⟨(before_applyEdit hm hlen happly hi hd).1, ?_⟩⟩
    · show r'.states.entries.length = _
      rw [hr', show (_ : List LineState).length = _ from hp.length_eq]
      omega
    · rw [hr']
      rfl
    · have hout := (before_applyEdit hm hlen happly hi hd).1
      obtain ⟨l, l', tokens, malformed, -, -, hold, hnew⟩ :=
        lineTokens_applyEdit hs hm hl happly hi hd
      have ho := (hm.getElem?_origin (by omega) hout).2
      rw [old.length_texts] at ho
      exact ⟨_, tokens, malformed, ho, hold, hnew⟩

end OnEdit

end Retokenizer

namespace Document

/-! ### Documents that are changed -/

/-- What there is to see of the tokens of a line: their kinds, columns, lengths and languages, and which
of them are links. -/
abbrev Look := List (Token.Kind × Nat × Nat × Nat × Bool)

/-- The look of a line, if its tokens can be made. -/
def look? (d : Document) (line : Nat) : Option Look :=
  match d.retokenizer.lineTokens d.buffer.source line with
  | .ok (tokens, _) =>
    some (tokens.tokens.map fun t => (t.kind, t.start, t.length, t.language, t.isLink))
  | .error _ => none

/-- The document once changes have been made, each at its moment. -/
def edited (d : Document) (steps : List (Nat × Buffer.Change)) : Document :=
  d.run (steps.map fun step => (step.1, .change step.2))

/-- **A line looks as the line did which it comes from.** -/
def Preserves (d : Document) (steps : List (Nat × Buffer.Change)) (line : Nat) : Prop :=
  ∃ l < d.buffer.lineCount, d.buffer.image (steps.map (·.2)) l = some line ∧
    ∃ look, d.look? l = some look ∧ (d.edited steps).look? line = some look

/-- **A line that a change has touched, and that later ones have pushed down.** -/
def PushedDown (d : Document) (steps : List (Nat × Buffer.Change)) (line : Nat) : Prop :=
  ∃ done now c rest damage l, steps = done ++ (now, c) :: rest ∧
    ((d.edited done).change now c).1 = .ok damage ∧ damage.contains l = true ∧ l < line ∧
    ((d.edited done).change now c).2.buffer.image (rest.map (·.2)) l = some line

/-- A line is not in the damage that is handed out. -/
def Outside (damage : Option Damage) (line : Nat) : Prop := ∀ d ∈ damage, d.contains line = false

instance (damage : Option Damage) (line : Nat) : Decidable (Outside damage line) :=
  decidable_of_iff (damage.all fun d => !d.contains line) (by cases damage <;> simp [Outside])

/-- What a document has at any time: scanners that keep the contract, and a state for each line. -/
structure Ready (d : Document) : Prop where
  trusted : d.retokenizer.Trusted
  sized : d.retokenizer.states.length = d.buffer.lineCount

section Change
variable {d : Document} {now : Nat} {c : Buffer.Change}

theorem edited_concat (d : Document) (steps : List (Nat × Buffer.Change)) (now : Nat)
    (c : Buffer.Change) :
    d.edited (steps ++ [(now, c)]) = ((d.edited steps).change now c).2 := by
  rw [edited, List.map_append, List.map_singleton, run_concat]
  rfl

theorem buffer_edited (d : Document) (steps : List (Nat × Buffer.Change)) :
    (d.edited steps).buffer = d.buffer.changes (steps.map (·.2)) := by
  induction steps using List.reverseRecOn with
  | nil => rfl
  | append_singleton steps step ih =>
    rw [edited_concat, buffer_change, ih]
    simp [Buffer.changes]

/-- **A change keeps the look of every line outside its own damage**, and adds its damage to what has
gathered. Only the removal of nothing reports damage that does not gather. -/
theorem look_change (h : d.Ready) (hr : '\r' ∉ d.buffer.text) (now : Nat) (c : Buffer.Change) :
    ((d.change now c).2 = d ∧ ∀ line, (d.buffer.change c).2.image line = some line) ∨
      ∃ damage, (d.change now c).1 = .ok damage ∧
        (d.change now c).2.retokenizer.pending = (d.retokenizer.addDamage damage).pending ∧
        damage.first ≤ (d.buffer.change c).2.startLine ∧
        ∀ i < (d.change now c).2.buffer.lineCount, damage.contains i = false →
          ∃ l < d.buffer.lineCount, (d.buffer.change c).2.image l = some i ∧
            ∃ look, d.look? l = some look ∧ (d.change now c).2.look? i = some look := by
  rcases d.change_cases now c with ⟨start, stop, rfl, hempty, he⟩ | ⟨hbuffer, hretokenizer, hanswer⟩
  · exact Or.inl ⟨he, Edit.image_of_no_lines rfl (Buffer.remove_of_length_eq_zero hempty).2⟩
  right
  obtain ⟨damage, r, hedit, -, -, -, hpending, hfirst, houtside⟩ := Retokenizer.onEdit_spec h.trusted.scanner
    (Buffer.change_matches hr) (h.sized.trans d.buffer.lineCount_source.symm)
    (d.buffer.change c).1.quiet_source
  rw [hedit] at hretokenizer hanswer
  refine ⟨damage, hanswer, by rw [hretokenizer, hpending], hfirst, fun i hi hd => ?_⟩
  obtain ⟨hout, distance, tokens, malformed, ho, hold, hnew⟩ := houtside i
    (by rwa [hbuffer, ← Buffer.lineCount_source] at hi) hd
  refine ⟨_, by rwa [d.buffer.lineCount_source] at ho, Edit.image_origin hout,
    tokens.tokens.map fun t => (t.kind, t.start, t.length, t.language, t.isLink), ?_, ?_⟩
  · simp only [look?, hold]
  · simp only [look?, hbuffer, hretokenizer, hnew, Token.Sequence.moved, List.map_map]
    rfl

/-- **A change succeeds without a repair**, and leaves a state for each line. States that could be trusted still
can be. -/
theorem change_spec (h : d.Ready) (now : Nat) (c : Buffer.Change) :
    ∃ damage, (d.change now c).1 = .ok damage ∧ (d.change now c).2.Ready ∧
      (d.change now c).2.retokenizer.repairs = d.retokenizer.repairs ∧
      (d.retokenizer.stale = false → (d.change now c).2.retokenizer.stale = false) := by
  have htrusted := trusted_perform h.trusted now (.change c)
  rcases d.change_cases now c with ⟨start, stop, rfl, hempty, he⟩ | ⟨hbuffer, hretokenizer, hanswer⟩
  · have hnothing : (d.change now (.remove start stop)).1 = .ok
        ⟨(d.buffer.remove start stop).2.startLine, (d.buffer.remove start stop).2.startLine⟩ := by
      simp only [change, remove, if_pos hempty]
    exact ⟨_, hnothing, by rw [he]; exact h, by rw [he], by rw [he]; exact id⟩
  obtain ⟨old, hcount, hm⟩ := d.buffer.exists_source_matches c
  obtain ⟨damage, r, hedit, hsized, hfresh, hrepairs, -⟩ := Retokenizer.onEdit_spec h.trusted.scanner hm
    (h.sized.trans hcount.symm) (d.buffer.change c).1.quiet_source
  rw [hedit] at hretokenizer hanswer
  refine ⟨damage, hanswer, ⟨htrusted, ?_⟩, by rw [hretokenizer, hrepairs], fun _ => by rw [hretokenizer, hfresh]⟩
  show (d.change now c).2.retokenizer.states.length = _
  rw [hretokenizer, hbuffer, hsized, Buffer.lineCount_source]

theorem ready_change (h : d.Ready) (now : Nat) (c : Buffer.Change) : (d.change now c).2.Ready := by
  obtain ⟨damage, -, hready, -⟩ := change_spec h now c
  exact hready

theorem ready_perform (h : d.Ready) (now : Nat) (op : Op) : (d.perform now op).Ready := by
  rcases d.perform_cases now op with ⟨c, rfl⟩ | hkeeps | hrefreshes
  · exact ready_change h now c
  · exact ⟨h.trusted.of_sameLanguage hkeeps.language, by
      rw [hkeeps.states_eq, hkeeps.buffer_eq]; exact h.sized⟩
  · exact ⟨hrefreshes.trusted h.trusted, by
      rw [hrefreshes.inStep.length_states, hrefreshes.buffer_eq, d.buffer.lineCount_source]⟩

theorem ready_run (h : d.Ready) (steps : List (Nat × Op)) : (d.run steps).Ready := by
  induction steps using List.reverseRecOn with
  | nil => exact h
  | append_singleton steps step ih =>
    rw [run_concat]
    exact ready_perform ih _ _

theorem ready_ofBuffer (buffer : Buffer) (filePath : Option String) (settings : Settings) :
    (ofBuffer buffer filePath settings).Ready where
  trusted := trusted_ofBuffer buffer filePath settings
  sized := (inStep_ofBuffer buffer filePath settings).length_states.trans (Buffer.lineCount_source _)

theorem exists_look (h : d.Ready) {i : Nat} (hi : i < d.buffer.lineCount) : ∃ look, d.look? i = some look := by
  obtain ⟨l, hl, -⟩ := d.buffer.source.exists_line (by rwa [d.buffer.lineCount_source])
  have hbefore := LineStates.before_eq (Nat.le_of_lt (h.sized ▸ hi))
  unfold look?
  rw [Retokenizer.lineTokens_eq hl hbefore]
  exact ⟨_, rfl⟩

end Change

/-! ### Runs of changes -/

section Edited
variable {d : Document} {steps : List (Nat × Buffer.Change)}

theorem edited_append (d : Document) (done rest : List (Nat × Buffer.Change)) (now : Nat)
    (c : Buffer.Change) :
    d.edited (done ++ (now, c) :: rest) = ((d.edited done).change now c).2.edited rest := by
  simp [edited, run, perform]

theorem ready_edited (h : d.Ready) (steps : List (Nat × Buffer.Change)) : (d.edited steps).Ready :=
  ready_run h _

theorem no_return_edited (hr : '\r' ∉ d.buffer.text) (hc : ∀ step ∈ steps, step.2.BringsNoReturn) :
    '\r' ∉ (d.edited steps).buffer.text := by
  refine no_return_run hr _ fun step hmem => ?_
  obtain ⟨s, hs, rfl⟩ := List.mem_map.mp hmem
  exact hc s hs

/-- What has gathered is covered by what gathers later. -/
theorem pending_edited (h : d.Ready) (hr : '\r' ∉ d.buffer.text)
    (hc : ∀ step ∈ steps, step.2.BringsNoReturn) {q : Damage} (hq : d.retokenizer.pending = some q) :
    ∃ p, (d.edited steps).retokenizer.pending = some p ∧ p.first ≤ q.first ∧ q.last ≤ p.last := by
  induction steps using List.reverseRecOn with
  | nil => exact ⟨q, hq, Nat.le_refl _, Nat.le_refl _⟩
  | append_singleton steps step ih =>
    have hc' : ∀ s ∈ steps, s.2.BringsNoReturn := fun s hs => hc s (by simp [hs])
    obtain ⟨p, hp, hfirst, hlast⟩ := ih hc'
    rw [edited_concat]
    rcases look_change (ready_edited h steps) (no_return_edited hr hc') step.1 step.2 with
      ⟨he, -⟩ | ⟨damage, -, hpending, -⟩
    · rw [he]
      exact ⟨p, hp, hfirst, hlast⟩
    · obtain ⟨p', hp', -, -, hcovers⟩ := (d.edited steps).retokenizer.addDamage_covers damage
      obtain ⟨h1, h2⟩ := hcovers p hp
      exact ⟨p', hpending.trans hp', by omega, by omega⟩

theorem le_of_image_edited (h : d.Ready) (hr : '\r' ∉ d.buffer.text)
    (hc : ∀ step ∈ steps, step.2.BringsNoReturn) {bound l i : Nat}
    (hb : ∀ p, (d.edited steps).retokenizer.pending = some p → bound ≤ p.first) (hl : bound ≤ l)
    (hi : d.buffer.image (steps.map (·.2)) l = some i) : bound ≤ i := by
  induction steps using List.reverseRecOn generalizing i with
  | nil => exact Option.some.inj hi ▸ hl
  | append_singleton steps step ih =>
    have hc' : ∀ s ∈ steps, s.2.BringsNoReturn := fun s hs => hc s (by simp [hs])
    rw [List.map_append, List.map_singleton, Buffer.image_concat_eq_some, ← buffer_edited] at hi
    obtain ⟨j, hj, hi⟩ := hi
    rw [edited_concat] at hb
    rcases look_change (ready_edited h steps) (no_return_edited hr hc') step.1 step.2 with
      ⟨he, hsame⟩ | ⟨damage, -, hpending, hstart, -⟩
    · rw [he] at hb
      rw [hsame] at hi
      exact Option.some.inj hi ▸ ih hc' hb hj
    · obtain ⟨p, hp, hfirst, -, hcovers⟩ := (d.edited steps).retokenizer.addDamage_covers damage
      have hbound := hb p (hpending.trans hp)
      refine Edit.le_of_image (Nat.le_trans hbound (Nat.le_trans hfirst hstart)) ?_ hi
      exact ih hc' (fun q hq => Nat.le_trans hbound (hcovers q hq).1) hj

/-- A change after others that have preserved a line: it is still preserved if it looks as before. -/
theorem Preserves.concat {now : Nat} {c : Buffer.Change} {j i : Nat} (h : d.Preserves steps j)
    (hi : ((d.edited steps).buffer.change c).2.image j = some i)
    (hlook : ∀ look, (d.edited steps).look? j = some look →
      ((d.edited steps).change now c).2.look? i = some look) :
    d.Preserves (steps ++ [(now, c)]) i := by
  obtain ⟨l, hl, himage, look, hold, hnew⟩ := h
  refine ⟨l, hl, ?_, look, hold, ?_⟩
  · rw [List.map_append, List.map_singleton, Buffer.image_concat_eq_some, ← buffer_edited]
    exact ⟨j, himage, hi⟩
  · rw [edited_concat]
    exact hlook look hnew

/-- **A line that a change has touched**, and what later ones have made of its number. -/
def Touched (d : Document) (steps : List (Nat × Buffer.Change)) (line : Nat) : Prop :=
  ∃ done now c rest damage l, steps = done ++ (now, c) :: rest ∧
    ((d.edited done).change now c).1 = .ok damage ∧
    ((d.edited done).change now c).2.retokenizer.pending =
      ((d.edited done).retokenizer.addDamage damage).pending ∧
    damage.contains l = true ∧
    ((d.edited done).change now c).2.buffer.image (rest.map (·.2)) l = some line

theorem Touched.concat {now : Nat} {c : Buffer.Change} {j i : Nat} (h : d.Touched steps j)
    (hi : ((d.edited steps).buffer.change c).2.image j = some i) :
    d.Touched (steps ++ [(now, c)]) i := by
  obtain ⟨done, now', c', rest, damage, l, rfl, hanswer, hpending, hd, himage⟩ := h
  refine ⟨done, now', c', rest ++ [(now, c)], damage, l, by simp, hanswer, hpending, hd, ?_⟩
  rw [edited_append, buffer_edited] at hi
  rw [List.map_append, List.map_singleton, Buffer.image_concat_eq_some]
  exact ⟨j, himage, hi⟩

/-- **A run of changes keeps the look of every line that none of them has touched.** -/
theorem preserves_or_touched (h : d.Ready) (hr : '\r' ∉ d.buffer.text)
    (hc : ∀ step ∈ steps, step.2.BringsNoReturn) {i : Nat} (hi : i < (d.edited steps).buffer.lineCount) :
    d.Preserves steps i ∨ d.Touched steps i := by
  induction steps using List.reverseRecOn generalizing i with
  | nil =>
    obtain ⟨look, hlook⟩ := exists_look h hi
    exact Or.inl ⟨i, hi, rfl, look, hlook, hlook⟩
  | append_singleton steps step ih =>
    obtain ⟨now, c⟩ := step
    have hc' : ∀ s ∈ steps, s.2.BringsNoReturn := fun s hs => hc s (by simp [hs])
    rw [edited_concat] at hi
    rcases look_change (ready_edited h steps) (no_return_edited hr hc') now c with
      ⟨he, hsame⟩ | ⟨damage, hanswer, hpending, -, houtside⟩
    · rw [he] at hi
      refine (ih hc' hi).imp (fun hp => hp.concat (hsame i) fun look hlook => ?_) fun ht =>
        ht.concat (hsame i)
      rw [he]
      exact hlook
    cases hd : damage.contains i with
    | true => exact Or.inr ⟨steps, now, c, [], damage, i, rfl, hanswer, hpending, hd, rfl⟩
    | false =>
      obtain ⟨j, hj, himage, look, hold, hnew⟩ := houtside i hi hd
      refine (ih hc' hj).imp (fun hp => hp.concat himage fun look' hlook => ?_) fun ht =>
        ht.concat himage
      rw [hnew, ← hlook, hold]

/-- No change that brings more lines than it takes is made above the end of what has gathered. -/
def NeverPushes (d : Document) (steps : List (Nat × Buffer.Change)) : Prop :=
  ∀ done now c rest p, steps = done ++ (now, c) :: rest →
    (d.edited done).retokenizer.pending = some p →
      ((d.edited done).buffer.change c).2.linesAdded ≤ ((d.edited done).buffer.change c).2.linesRemoved ∨
        p.last ≤ ((d.edited done).buffer.change c).2.startLine

theorem image_edited_le (h : d.Ready) (hr : '\r' ∉ d.buffer.text)
    (hc : ∀ step ∈ steps, step.2.BringsNoReturn) (hpush : d.NeverPushes steps) {q : Damage}
    (hq : d.retokenizer.pending = some q) {l i : Nat} (hl : l ≤ q.last)
    (hi : d.buffer.image (steps.map (·.2)) l = some i) :
    ∃ p, (d.edited steps).retokenizer.pending = some p ∧ i ≤ p.last := by
  induction steps using List.reverseRecOn generalizing i with
  | nil => exact ⟨q, hq, Option.some.inj hi ▸ hl⟩
  | append_singleton steps step ih =>
    obtain ⟨now, c⟩ := step
    have hc' : ∀ s ∈ steps, s.2.BringsNoReturn := fun s hs => hc s (by simp [hs])
    rw [List.map_append, List.map_singleton, Buffer.image_concat_eq_some, ← buffer_edited] at hi
    obtain ⟨j, hj, hi⟩ := hi
    dsimp only at hi
    have hpush' : d.NeverPushes steps := fun done now' c' rest p he =>
      hpush done now' c' (rest ++ [(now, c)]) p (by rw [he]; simp)
    obtain ⟨p, hp, hle⟩ := ih hc' hpush' hj
    rw [edited_concat]
    rcases look_change (ready_edited h steps) (no_return_edited hr hc') now c with
      ⟨he, hsame⟩ | ⟨damage, -, hpending, -⟩
    · rw [hsame] at hi
      exact ⟨p, by rw [he]; exact hp, Option.some.inj hi ▸ hle⟩
    · obtain ⟨p', hp', -, -, hcovers⟩ := (d.edited steps).retokenizer.addDamage_covers damage
      have hlast := (hcovers p hp).2
      refine ⟨p', hpending.trans hp', ?_⟩
      have hno := hpush steps now c [] p rfl hp
      unfold Edit.image at hi
      split_ifs at hi <;> cases hi <;> omega

/-- A line that was touched is in what gathers in the end, unless it has been pushed down. -/
theorem Touched.covered (h : d.Ready) (hr : '\r' ∉ d.buffer.text)
    (hc : ∀ step ∈ steps, step.2.BringsNoReturn) {i : Nat} (ht : d.Touched steps i) :
    ∃ p, (d.edited steps).retokenizer.pending = some p ∧ p.first ≤ i ∧
      (p.last < i → d.PushedDown steps i) ∧ (d.NeverPushes steps → i ≤ p.last) := by
  obtain ⟨done, now, c, rest, damage, l, rfl, hanswer, hpending, hd, himage⟩ := ht
  have hready := ready_change (ready_edited h done) now c
  have hr' : '\r' ∉ ((d.edited done).change now c).2.buffer.text := by
    rw [buffer_change]
    exact Buffer.no_return_change (no_return_edited hr fun s hs => hc s (by simp [hs]))
      (hc (now, c) (by simp))
  have hrest : ∀ s ∈ rest, s.2.BringsNoReturn := fun s hs => hc s (by simp [hs])
  obtain ⟨q, hq, hfirst, hlast, -⟩ := (d.edited done).retokenizer.addDamage_covers damage
  have hq' := hpending.trans hq
  obtain ⟨p, hp, hpfirst, hplast⟩ := pending_edited hready hr' hrest hq'
  simp only [Damage.contains, Bool.and_eq_true, decide_eq_true_eq] at hd
  have hfinal : (d.edited (done ++ (now, c) :: rest)).retokenizer.pending = some p := by
    rw [edited_append]; exact hp
  refine ⟨p, hfinal, ?_, fun hbelow => ?_, fun hpush => ?_⟩
  · refine le_of_image_edited hready hr' hrest (fun p' hp' => ?_) (by omega) himage
    obtain rfl : p = p' := Option.some.inj (hp.symm.trans hp')
    exact Nat.le_refl _
  · refine ⟨done, now, c, rest, damage, l, rfl, hanswer, ?_, by omega, himage⟩
    simp only [Damage.contains, Bool.and_eq_true, decide_eq_true_eq]
    exact hd
  · have hpush' : ((d.edited done).change now c).2.NeverPushes rest := by
      intro done' now' c' rest' p' he hp'
      rw [← edited_append] at hp' ⊢
      exact hpush _ now' c' rest' p' (by rw [he]; simp) hp'
    obtain ⟨p', hp', hle⟩ := image_edited_le hready hr' hrest hpush' hq' (by omega) himage
    obtain rfl : p = p' := Option.some.inj (hp.symm.trans hp')
    exact hle

theorem not_outside {p : Damage} {line : Nat} (hfirst : p.first ≤ line) (hlast : line ≤ p.last) :
    ¬ Outside (some p) line := fun h => by
  have := h p rfl
  simp only [Damage.contains, Bool.and_eq_false_iff, decide_eq_false_iff_not] at this
  omega

/-- **Without pushing, the damage that is handed out covers every line whose look has changed.** -/
theorem preserves_of_neverPushes (h : d.Ready) (hr : '\r' ∉ d.buffer.text)
    (hc : ∀ step ∈ steps, step.2.BringsNoReturn) (hpush : d.NeverPushes steps) {i : Nat}
    (hi : i < (d.edited steps).buffer.lineCount) (hout : Outside (d.edited steps).takeDamage.1 i) :
    d.Preserves steps i := by
  refine (preserves_or_touched h hr hc hi).resolve_right fun ht => ?_
  obtain ⟨p, hp, hfirst, -, hlast⟩ := ht.covered h hr hc
  exact not_outside hfirst (hlast hpush) (hp ▸ hout)

end Edited

/-- **The damage that is handed out covers every line whose look has changed, just if it covers those that
a change has touched and later ones have pushed down.** The document is any that can be reached; its text
holds no carriage return from where the damage was last handed out. -/
theorem preserves_iff (buffer : Buffer) (filePath : Option String) (settings : Settings)
    (before : List (Nat × Op)) (steps : List (Nat × Buffer.Change))
    (hr : '\r' ∉ ((ofBuffer buffer filePath settings).run before).buffer.text)
    (hc : ∀ step ∈ steps, step.2.BringsNoReturn) :
    let d := ((ofBuffer buffer filePath settings).run before).takeDamage.2
    (∀ i < (d.edited steps).buffer.lineCount, Outside (d.edited steps).takeDamage.1 i →
      d.Preserves steps i) ↔
    ∀ i < (d.edited steps).buffer.lineCount, Outside (d.edited steps).takeDamage.1 i →
      d.PushedDown steps i → d.Preserves steps i := by
  intro d
  have hd : d.Ready := ready_perform (ready_run (ready_ofBuffer ..) before) 0 .takeDamage
  refine ⟨fun h i hi hout _ => h i hi hout, fun h i hi hout => ?_⟩
  rcases preserves_or_touched hd hr hc hi with hkept | ht
  · exact hkept
  obtain ⟨p, hp, hfirst, hpushed, -⟩ := ht.covered hd hr hc
  refine h i hi hout (hpushed ?_)
  by_contra hle
  exact not_outside hfirst (by omega) (hp ▸ hout)

/-- A character comes into the last of four lines, and then two lines come in above. -/
theorem preserves_iff_two_insertions :
    let buffer := Buffer.ofString "a\nb\nc\nd"
    let steps := [(0, .insert 6 ['y']), (0, .insert 0 ['\n', '\n'])]
    let d := ((ofBuffer buffer none {}).run []).takeDamage.2
    '\r' ∉ ((ofBuffer buffer none {}).run []).buffer.text ∧
    (∀ step ∈ steps, Buffer.Change.BringsNoReturn step.2) ∧
    ((∀ i < (d.edited steps).buffer.lineCount, Outside (d.edited steps).takeDamage.1 i →
      d.Preserves steps i) ↔
    ∀ i < (d.edited steps).buffer.lineCount, Outside (d.edited steps).takeDamage.1 i →
      d.PushedDown steps i → d.Preserves steps i) := by
  intro buffer steps d
  have hr : '\r' ∉ ((ofBuffer buffer none {}).run []).buffer.text := by decide +kernel
  have hc : ∀ step ∈ steps, Buffer.Change.BringsNoReturn step.2 := by
    simp [steps, Buffer.Change.BringsNoReturn]
  exact ⟨hr, hc, preserves_iff buffer none {} [] steps hr hc⟩

/-- What is handed out then ends with line 3, where the character came in; but that line is line 5 now. -/
theorem not_preserves_pushed_down :
    let d := (ofString "a\nb\nc\nd" {}).takeDamage.2
    let steps := [(0, .insert 6 ['y']), (0, .insert 0 ['\n', '\n'])]
    5 < (d.edited steps).buffer.lineCount ∧ Outside (d.edited steps).takeDamage.1 5 ∧
      ¬ d.Preserves steps 5 := by
  intro d steps
  refine ⟨by decide +kernel, by decide +kernel, ?_⟩
  rintro ⟨l, hl, himage, look, hold, hnew⟩
  have horigin : ∀ l < d.buffer.lineCount, d.buffer.image (steps.map (·.2)) l = some 5 → l = 3 := by
    decide +kernel
  have hdiffer : d.look? 3 ≠ (d.edited steps).look? 5 := by decide +kernel
  obtain rfl := horigin l hl himage
  exact hdiffer (hold.trans hnew.symm)

end Document

end Linewise
