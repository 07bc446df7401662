import Linewise.Proofs.UndisturbedReads

/-!
# Edits that never fail

A report of a change can name the wrong line (`Buffer.TearsPair`), but its numbers of lines always fit the text
(`Buffer.lineCount_change`). So the states are as many as the lines after every change, and no change fails or
needs a repair, whatever its offsets are. A document with a state for each line can be read throughout
(`Document.Readable.legible`).

* `Document.changesWell_edited`: **every change of a run is made without failure, and what comes of the run can
  be read**.
-/

namespace Linewise

namespace Buffer

/-- **The lines that a change reports are counted without going below zero**: an insertion takes none, and a
removal brings none. -/
def CountsLines (b : Buffer) : Change → Prop
  | .insert offset inserted => b.lineCount ≤ (b.insert offset inserted).1.lineCount
  | .remove start stop => (b.remove start stop).1.lineCount ≤ b.lineCount

theorem countsLines (b : Buffer) (c : Change) : b.CountsLines c := by
  have hcount := b.lineCount_change c
  cases c with
  | insert offset inserted =>
    have hremoved : (b.change (.insert offset inserted)).2.linesRemoved = 0 := rfl
    rw [hremoved] at hcount
    exact Nat.le.intro hcount.symm
  | remove start stop =>
    have hadded : (b.change (.remove start stop)).2.linesAdded = 0 := rfl
    rw [hadded] at hcount
    exact Nat.le.intro hcount

end Buffer

namespace Document

/-- **A change is made without failure**: there is an answer, the lines that came or went are counted without
going below zero, and afterwards each line has a state, the states can be trusted, and they did not have to be
repaired. -/
structure ChangesWell (d : Document) (now : Nat) (c : Buffer.Change) : Prop where
  answer : ∃ damage, (d.change now c).1 = .ok damage
  counts : d.buffer.CountsLines c
  sized : (d.change now c).2.retokenizer.states.length = (d.change now c).2.buffer.lineCount
  fresh : (d.change now c).2.retokenizer.stale = false
  unrepaired : (d.change now c).2.retokenizer.repairs = d.retokenizer.repairs

/-- **The document can be read**: every line has tokens and a state, and every offset can be asked for its
match. Asking leaves the document as it is. -/
structure Legible (d : Document) : Prop where
  tokens : ∀ line < d.buffer.lineCount, ∃ tokens, d.reading (d.tokens line) = (.ok tokens, d)
  states : ∀ line < d.buffer.lineCount, ∃ state, d.stateBehind line = .ok state
  partners : ∀ offset, ∃ found, d.reading (d.matcher.match? offset) = (.ok found, d)

section Read
variable {d : Document}

/-- The matcher finds the same separators again and again, also where offsets do not fit into 64 bits. -/
theorem Readable.exists_reads (h : d.Readable) : ∃ structural, d.matcher.Reads d.buffer structural := by
  refine ⟨fun offset =>
    let found := d.retokenizer.lineTokens d.buffer.source (d.buffer.source.lineOf offset)
    found.toOption.any fun x => BracketMatcher.isSeparatorAt x.1 (.ofNat offset), rfl, ?_⟩
  intro line l hl
  obtain ⟨tokens, hline, -⟩ := h.exists_tokens hl
  refine ⟨tokens, hline, fun column hcolumn => ?_⟩
  simp only [Buffer.lineOf_source hl hcolumn, hline]
  rfl

theorem Readable.legible (h : d.Readable) : d.Legible where
  tokens := by
    intro line hline
    obtain ⟨l, hl, -⟩ := d.buffer.source.exists_line (by rwa [d.buffer.lineCount_source])
    obtain ⟨tokens, htokens, -⟩ := h.exists_tokens hl
    exact ⟨tokens, reading_of_returns (Retokenizer.returns_readTokens htokens)⟩
  states := by
    intro line hline
    have hstate : line < d.retokenizer.states.length := h.ready.sized.symm ▸ hline
    refine ⟨d.retokenizer.states.entries[line], ?_⟩
    have hget : d.retokenizer.states.entries[line]? = some d.retokenizer.states.entries[line] :=
      List.getElem?_eq_getElem hstate
    simp only [stateBehind, Retokenizer.stateBehind, LineStates.get, hget]
  partners := by
    intro offset
    obtain ⟨structural, hreads⟩ := h.exists_reads
    obtain ⟨found, hfound, -⟩ := hreads.returns_match? offset
    exact ⟨found, reading_of_returns hfound⟩

theorem Undisturbed.changesWell (h : d.Undisturbed) (now : Nat) (c : Buffer.Change) : d.ChangesWell now c := by
  obtain ⟨damage, hanswer, hready, hrepairs, hfresh⟩ := change_spec h.readable.ready now c
  exact ⟨⟨damage, hanswer⟩, d.buffer.countsLines c, hready.sized, hfresh h.fresh, hrepairs⟩

theorem undisturbed_edited (h : d.Undisturbed) (steps : List (Nat × Buffer.Change)) :
    (d.edited steps).Undisturbed := by
  refine undisturbed_run h fun step hstep => ?_
  obtain ⟨step', -, rfl⟩ := List.mem_map.mp hstep
  trivial

end Read

/-- **Editing never fails.** In every document that can come about, every change of every run of changes is made
without failure, whatever its offsets and its text, and without a repair; and what comes of the run can be read. -/
theorem changesWell_edited (buffer : Buffer) (filePath : Option String) (settings : Settings)
    {before : List (Nat × Op)} (hbefore : ∀ step ∈ before, step.2.OnlyReads)
    (steps : List (Nat × Buffer.Change)) :
    let d := (ofBuffer buffer filePath settings).run before
    (∀ done now c rest, steps = done ++ (now, c) :: rest → (d.edited done).ChangesWell now c) ∧
      (d.edited steps).retokenizer.repairs = d.retokenizer.repairs ∧ (d.edited steps).Legible := by
  intro d
  have hd : d.Undisturbed := undisturbed_run (undisturbed_ofBuffer buffer filePath settings) hbefore
  refine ⟨?_, ?_, (undisturbed_edited hd steps).readable.legible⟩
  · rintro done now c rest -
    exact (undisturbed_edited hd done).changesWell now c
  · induction steps using List.reverseRecOn with
    | nil => rfl
    | append_singleton steps step ih =>
      rw [edited_concat, ((undisturbed_edited hd steps).changesWell step.1 step.2).unrepaired]
      exact ih

/-- Parsers have run over a text of Java, of which a pair of carriage return and line feed is then torn: a
character comes between, the carriage return goes, and what is left is cut off from its end backwards. -/
theorem changesWell_edited_torn_pair :
    let before : List (Nat × Op) := [(0, .registerParser .tokenErrors), (1, .runParsers), (2, .detectFolds)]
    let steps : List (Nat × Buffer.Change) :=
      [(3, .insert 2 ['/', '*']), (4, .remove 1 3), (5, .insert 99 ['\r']), (6, .remove 4 2), (7, .remove 3 99)]
    (∀ step ∈ before, step.2.OnlyReads) ∧
    let d := (ofBuffer (.ofString "a\r\nb \x22\r\n") none { defaultLanguage := "text/java" }).run before
    (∀ done now c rest, steps = done ++ (now, c) :: rest → (d.edited done).ChangesWell now c) ∧
      (d.edited steps).retokenizer.repairs = d.retokenizer.repairs ∧ (d.edited steps).Legible := by
  intro before steps
  have hbefore : ∀ step ∈ before, step.2.OnlyReads := by
    simp [before, Op.OnlyReads, BackgroundParser.onlyReads_tokenErrors]
  exact ⟨hbefore, changesWell_edited _ _ _ hbefore steps⟩

end Document

end Linewise
