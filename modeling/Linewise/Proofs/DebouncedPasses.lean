import Linewise.Proofs.UndisturbedReads

/-!
# Debounced passes

The parsers of a document run when a poll finds that the document has been left alone for long enough. The wait
starts anew with every *restart*: an insertion, a removal of at least one character, a switch of language that
succeeds, or the registration of a parser. A *pass* ends it: a poll that ran the parsers, or a run at once.

* `Document.deadline_run_iff`: at any time there is a deadline just if a restart came after the last pass, and it is
  the moment of the latest restart and the delay.
* `Document.debounced_run`: **a poll runs the parsers just if that moment has come.** It runs each parser that can
  read the language once and touches nothing else, and a poll that does not run them leaves everything as it is.
-/

namespace Linewise

namespace ParserEntry

/-- What a parser notices in a document, unless it cannot read the language or fails. -/
def noticed? (snapshot : Snapshot) (e : ParserEntry) : Option (List Notice) :=
  if e.parser.supports snapshot.languageId then ((e.parser.parse e.runs snapshot).run false).1.toOption
  else none

/-- **What a pass makes of a parser.** One that can read the language is run once. Of any other, and of one that
fails, the notices are dropped. -/
structure Served (snapshot : Snapshot) (e e' : ParserEntry) : Prop where
  parser_eq : e'.parser = e.parser
  runs_eq : e'.runs = e.runs + (e.parser.supports snapshot.languageId).toNat
  notices_eq : e'.notices = (e.noticed? snapshot).getD []
  parsedRevision_eq : e'.parsedRevision =
    if (e.noticed? snapshot).isSome then some snapshot.revision else e.parsedRevision

end ParserEntry

namespace Schedule

section Runs
variable (s : Schedule) (snapshot : Snapshot)

theorem ran_runEntry (e : ParserEntry) : (runEntry snapshot e).1 = e.parser.supports snapshot.languageId := by
  unfold runEntry
  cases hsupports : e.parser.supports snapshot.languageId with
  | false => rfl
  | true => rcases (e.parser.parse e.runs snapshot).run false with ⟨_ | _, malformed⟩ <;> rfl

theorem served_runEntry (e : ParserEntry) : e.Served snapshot (runEntry snapshot e).2.1 := by
  refine ⟨parser_runEntry snapshot e, ?_, ?_, ?_⟩
  all_goals
    unfold runEntry
    cases hsupports : e.parser.supports snapshot.languageId with
    | false => simp [ParserEntry.noticed?, hsupports]
    | true =>
      rcases hrun : (e.parser.parse e.runs snapshot).run false with ⟨_ | notices, malformed⟩ <;>
        simp [ParserEntry.noticed?, hsupports, hrun, Except.toOption]

theorem count_runAll :
    (s.runAll snapshot).1 = s.entries.countP fun e => e.parser.supports snapshot.languageId := by
  simp only [runAll, List.filter_map, List.length_map, List.countP_eq_length_filter]
  congr 2
  exact funext fun e => ran_runEntry snapshot e

theorem served_runAll :
    List.Forall₂ (ParserEntry.Served snapshot) s.entries (s.runAll snapshot).2.1.entries := by
  simp only [runAll, List.map_map, List.forall₂_map_right_iff]
  exact List.forall₂_same.mpr fun e _ => served_runEntry snapshot e

end Runs

end Schedule

namespace Document

/-! ### What a pass does -/

/-- **What a pass over a document does**: the parsers that can read the language are run, once each, and counted.
No further pass is wanted then, and neither the text nor the states, the tokens or the folds have changed. -/
structure MakesPass (d : Document) (ran : Nat × Document) : Prop where
  count_eq : ran.1 = d.schedule.entries.countP fun e => e.parser.supports d.languageId
  served : List.Forall₂ (ParserEntry.Served d.snapshot) d.schedule.entries ran.2.schedule.entries
  deadline_eq : ran.2.schedule.deadline = none
  buffer_eq : ran.2.buffer = d.buffer
  states_eq : ran.2.retokenizer.states = d.retokenizer.states
  tokens_eq : ∀ line, ran.2.retokenizer.lineTokens ran.2.buffer.source line =
    d.retokenizer.lineTokens d.buffer.source line
  folds_eq : ran.2.folds = d.folds

section Passes
variable {d : Document} {now : Nat}

theorem makesPass_runParsers (d : Document) : d.MakesPass d.runParsers where
  count_eq := Schedule.count_runAll d.schedule.cancel d.snapshot
  served := Schedule.served_runAll d.schedule.cancel d.snapshot
  deadline_eq := rfl
  buffer_eq := rfl
  states_eq := rfl
  tokens_eq _ := rfl
  folds_eq := rfl

theorem pollParsers_of_due (h : d.schedule.isDue now = true) : d.pollParsers now = d.runParsers := by
  simp only [pollParsers, runParsers, Schedule.poll, h, if_true]

theorem pollParsers_of_not_due (h : ¬ d.schedule.isDue now = true) : d.pollParsers now = (0, d) := by
  simp only [pollParsers, Schedule.poll, h, Bool.false_eq_true, if_false, withRun, Bool.or_false]

end Passes

/-! ### Restarts and passes -/

/-- **A step that starts the wait anew**: an insertion, a removal of at least one character, a switch of language
that succeeds, or the registration of a parser. -/
def Restarts (d : Document) (now : Nat) : Op → Prop
  | .change (.insert _ _) => True
  | .change (.remove start stop) => start < stop ∧ start < d.buffer.length
  | .setLanguage id => (d.setLanguage id now).1 = .ok ()
  | .registerParser _ => True
  | _ => False

/-- **A step that is a pass**: a poll that finds a run due, or a run at once. -/
def Passes (d : Document) (now : Nat) : Op → Prop
  | .pollParsers => d.schedule.isDue now = true
  | .runParsers => True
  | _ => False

/-- **A pass is wanted since a moment**: there was a restart then, and neither a restart nor a pass came after it. -/
def WantedSince (d : Document) (steps : List (Nat × Op)) (since : Nat) : Prop :=
  ∃ done op rest, steps = done ++ (since, op) :: rest ∧ (d.run done).Restarts since op ∧
    ∀ above now op' below, rest = above ++ (now, op') :: below →
      ¬ (d.run (done ++ (since, op) :: above)).Restarts now op' ∧
        ¬ (d.run (done ++ (since, op) :: above)).Passes now op'

section Perform
variable {d : Document} {now : Nat} {op : Op}

theorem not_passes_of_restarts (h : d.Restarts now op) : ¬ d.Passes now op := by
  cases op with
  | pollParsers => exact h.elim
  | runParsers => exact h.elim
  | _ => exact not_false

/-- A removal of no characters is not noticed. -/
theorem schedule_remove (d : Document) (start stop now : Nat) : (d.remove start stop now).2.schedule =
    if start < stop ∧ start < d.buffer.length then d.schedule.restart now else d.schedule := by
  have hlength : (d.buffer.remove start stop).2.length = 0 ↔ ¬ (start < stop ∧ start < d.buffer.length) := by
    simp only [Buffer.remove]
    omega
  simp only [remove, hlength]
  split_ifs <;> rfl

/-- A switch that fails is not noticed. -/
theorem schedule_setLanguage (d : Document) (id : String) (now : Nat) : (d.setLanguage id now).2.schedule =
    if (d.setLanguage id now).1 = .ok () then d.schedule.restart now else d.schedule := by
  unfold setLanguage
  rcases d.retokenizer.setLanguage id d.buffer.source with ⟨_ | _, r⟩ <;> simp

/-- **What a step does to the schedule, its parsers apart**: a restart sets the deadline, a pass lifts it, and
anything else leaves all as it is. -/
theorem schedule_perform_cases (d : Document) (now : Nat) (op : Op) :
    (d.Restarts now op ∧ (d.perform now op).schedule.deadline = some (now + d.schedule.delay) ∧
      (d.perform now op).schedule.delay = d.schedule.delay) ∨
    (d.Passes now op ∧ (d.perform now op).schedule.deadline = none ∧
      (d.perform now op).schedule.delay = d.schedule.delay) ∨
    (¬ d.Restarts now op ∧ ¬ d.Passes now op ∧ (d.perform now op).schedule = d.schedule) := by
  cases op with
  | change c =>
    cases c with
    | insert offset inserted => exact Or.inl ⟨trivial, rfl, rfl⟩
    | remove start stop =>
      have hschedule : (d.perform now (.change (.remove start stop))).schedule = _ := d.schedule_remove start stop now
      rw [hschedule]
      split_ifs with hsome
      · exact Or.inl ⟨hsome, rfl, rfl⟩
      · exact Or.inr (Or.inr ⟨hsome, not_false, rfl⟩)
  | setLanguage id =>
    have hschedule : (d.perform now (.setLanguage id)).schedule = _ := d.schedule_setLanguage id now
    rw [hschedule]
    split_ifs with hok
    · exact Or.inl ⟨hok, rfl, rfl⟩
    · exact Or.inr (Or.inr ⟨hok, not_false, rfl⟩)
  | registerParser parser => exact Or.inl ⟨trivial, rfl, rfl⟩
  | pollParsers =>
    by_cases hdue : d.schedule.isDue now = true
    · have hran : d.perform now .pollParsers = d.runParsers.2 := congrArg Prod.snd (pollParsers_of_due hdue)
      rw [hran]
      exact Or.inr (Or.inl ⟨hdue, rfl, rfl⟩)
    · have hidle : d.perform now .pollParsers = d := congrArg Prod.snd (pollParsers_of_not_due hdue)
      rw [hidle]
      exact Or.inr (Or.inr ⟨not_false, hdue, rfl⟩)
  | runParsers => exact Or.inr (Or.inl ⟨trivial, rfl, rfl⟩)
  | _ => exact Or.inr (Or.inr ⟨not_false, not_false, rfl⟩)

theorem delay_perform (d : Document) (now : Nat) (op : Op) :
    (d.perform now op).schedule.delay = d.schedule.delay := by
  rcases d.schedule_perform_cases now op with ⟨-, -, hdelay⟩ | ⟨-, -, hdelay⟩ | ⟨-, -, hschedule⟩
  · exact hdelay
  · exact hdelay
  · rw [hschedule]

end Perform

/-! ### Runs -/

theorem delay_run (d : Document) (steps : List (Nat × Op)) : (d.run steps).schedule.delay = d.schedule.delay := by
  induction steps using List.reverseRecOn with
  | nil => rfl
  | append_singleton steps step ih => rw [run_concat, delay_perform, ih]

section WantedSince
variable {d : Document} {steps : List (Nat × Op)} {now since : Nat} {op : Op}

theorem not_wantedSince_nil : ¬ d.WantedSince [] since := by
  rintro ⟨done, op, rest, hsteps, -⟩
  simp at hsteps

/-- **A pass is wanted after a step** if the step is a restart, or is neither that nor a pass and a pass was wanted
before it. -/
theorem wantedSince_concat : d.WantedSince (steps ++ [(now, op)]) since ↔
    (d.run steps).Restarts now op ∧ since = now ∨
      ¬ (d.run steps).Restarts now op ∧ ¬ (d.run steps).Passes now op ∧ d.WantedSince steps since := by
  constructor
  · rintro ⟨done, op', rest, hsteps, hrestarts, hidle⟩
    rcases List.eq_nil_or_concat' rest with rfl | ⟨rest, last, rfl⟩
    · obtain ⟨rfl, hlast⟩ := List.append_inj' hsteps rfl
      cases hlast
      exact Or.inl ⟨hrestarts, rfl⟩
    · rw [← List.cons_append, ← List.append_assoc] at hsteps
      obtain ⟨rfl, hlast⟩ := List.append_inj' hsteps rfl
      cases hlast
      obtain ⟨hnot, hpass⟩ := hidle rest now op [] rfl
      refine Or.inr ⟨hnot, hpass, done, op', rest, rfl, hrestarts, fun above now' op'' below hrest => ?_⟩
      exact hidle above now' op'' (below ++ [(now, op)]) (by rw [hrest, List.append_assoc, List.cons_append])
  · rintro (⟨hrestarts, rfl⟩ | ⟨hnot, hpass, done, op', rest, rfl, hrestarts, hidle⟩)
    · exact ⟨steps, op, [], rfl, hrestarts, fun above now op' below hrest => by simp at hrest⟩
    · refine ⟨done, op', rest ++ [(now, op)], by simp, hrestarts, fun above now' op'' below hrest => ?_⟩
      -- What came after the restart is the new step, or was there before it.
      rcases List.eq_nil_or_concat' below with rfl | ⟨below, last, rfl⟩
      · obtain ⟨rfl, hlast⟩ := List.append_inj' hrest rfl
        cases hlast
        exact ⟨hnot, hpass⟩
      · rw [← List.cons_append, ← List.append_assoc] at hrest
        exact hidle above now' op'' below (List.append_inj' hrest rfl).1

/-- **When there is a deadline**: if a pass is wanted, the delay later. -/
theorem deadline_run_iff (hd : d.schedule.deadline = none) (steps : List (Nat × Op)) (t : Nat) :
    (d.run steps).schedule.deadline = some t ↔
      ∃ since, d.WantedSince steps since ∧ t = since + d.schedule.delay := by
  induction steps using List.reverseRecOn with
  | nil => simp [run, hd, not_wantedSince_nil]
  | append_singleton steps step ih =>
    obtain ⟨now, op⟩ := step
    simp only [run_concat, wantedSince_concat]
    rcases (d.run steps).schedule_perform_cases now op with
      ⟨hrestarts, hdeadline, -⟩ | ⟨hpass, hdeadline, -⟩ | ⟨hrestarts, hpass, hschedule⟩
    · simp [hdeadline, delay_run, hrestarts, eq_comm]
    · have hrestarts : ¬ (d.run steps).Restarts now op := fun h => not_passes_of_restarts h hpass
      simp [hdeadline, hrestarts, hpass]
    · simp [hschedule, hrestarts, hpass, ih]

theorem steps_cases {α : Type} {done rest done' rest' : List α} {x y : α}
    (h : done ++ x :: rest = done' ++ y :: rest') :
    (done = done' ∧ x = y ∧ rest = rest') ∨
      (∃ between, done' = done ++ x :: between ∧ rest = between ++ y :: rest') ∨
        ∃ between, done = done' ++ y :: between ∧ rest' = between ++ x :: rest := by
  rcases List.append_eq_append_iff.mp h with ⟨between, rfl, hrest⟩ | ⟨between, rfl, hrest⟩
  · cases between with
    | nil =>
      obtain ⟨rfl, rfl⟩ := List.cons.inj hrest
      exact Or.inl ⟨(List.append_nil _).symm, rfl, rfl⟩
    | cons z between =>
      obtain ⟨rfl, rfl⟩ := List.cons.inj hrest
      exact Or.inr (Or.inl ⟨between, rfl, rfl⟩)
  · cases between with
    | nil =>
      obtain ⟨rfl, rfl⟩ := List.cons.inj hrest
      exact Or.inl ⟨List.append_nil _, rfl, rfl⟩
    | cons z between =>
      obtain ⟨rfl, rfl⟩ := List.cons.inj hrest
      exact Or.inr (Or.inr ⟨between, rfl, rfl⟩)

section Earlier
variable {done rest : List (Nat × Op)} {t : Nat}

/-- If the clock does not go back, no restart is later than the one since which a pass is wanted. -/
theorem WantedSince.le (h : d.WantedSince (done ++ (t, op) :: rest) since)
    (hclock : (done ++ (t, op) :: rest).Pairwise fun a b => a.1 ≤ b.1) (hr : (d.run done).Restarts t op) :
    t ≤ since := by
  obtain ⟨done', op', rest', hsteps, -, hidle⟩ := h
  rcases steps_cases hsteps with ⟨-, hsame, -⟩ | ⟨between, -, rfl⟩ | ⟨between, rfl, rfl⟩
  · cases hsame
    exact Nat.le_refl _
  · have hbelow := (List.pairwise_append.mp hclock).2.1
    exact (List.pairwise_cons.mp hbelow).1 (since, op') (by simp)
  · exact absurd hr (hidle between t op rest rfl).1

/-- If a pass is wanted although there was one, a restart came after it. -/
theorem WantedSince.exists_restart (h : d.WantedSince (done ++ (t, op) :: rest) since)
    (hp : (d.run done).Passes t op) : ∃ between op' below, rest = between ++ (since, op') :: below ∧
      (d.run (done ++ (t, op) :: between)).Restarts since op' := by
  obtain ⟨done', op', rest', hsteps, hrestarts, hidle⟩ := h
  rcases steps_cases hsteps with ⟨rfl, hsame, -⟩ | ⟨between, rfl, rfl⟩ | ⟨between, rfl, rfl⟩
  · cases hsame
    exact absurd hp (not_passes_of_restarts hrestarts)
  · exact ⟨between, op', rest', rfl, hrestarts⟩
  · exact absurd hp (hidle between t op rest rfl).2

end Earlier

end WantedSince

/-! ### Polls -/

/-- **The parsers are debounced.** This is what a poll of a document does after some steps, and what a run at once
does there. -/
structure Debounced (d : Document) (delay : Nat) (steps : List (Nat × Op)) (now : Nat) : Prop where
  /-- A poll runs the parsers just if a pass is wanted and the delay is over. -/
  passes_iff : (d.run steps).Passes now .pollParsers ↔ ∃ since, d.WantedSince steps since ∧ since + delay ≤ now
  pass : (d.run steps).Passes now .pollParsers → (d.run steps).MakesPass ((d.run steps).pollParsers now)
  /-- A poll that does not run them changes nothing. -/
  no_pass : ¬ (d.run steps).Passes now .pollParsers → (d.run steps).pollParsers now = (0, d.run steps)
  /-- A run at once is a pass whether or not one is wanted. -/
  run : (d.run steps).MakesPass (d.run steps).runParsers
  /-- No poll runs them while the delay of any restart is not over. -/
  not_within : (d.run steps).Passes now .pollParsers → ∀ done t op rest, steps = done ++ (t, op) :: rest →
    (d.run done).Restarts t op → t + delay ≤ now
  /-- Passes do not queue up: behind a pass, a poll runs the parsers only if a restart came in between. -/
  not_queued : (d.run steps).Passes now .pollParsers → ∀ done t op rest, steps = done ++ (t, op) :: rest →
    (d.run done).Passes t op → ∃ between t' op' below, rest = between ++ (t', op') :: below ∧
      (d.run (done ++ (t, op) :: between)).Restarts t' op'

theorem passes_pollParsers_iff {d : Document} (hd : d.schedule.deadline = none) (steps : List (Nat × Op))
    (now : Nat) : (d.run steps).Passes now .pollParsers ↔
      ∃ since, d.WantedSince steps since ∧ since + d.schedule.delay ≤ now := by
  have hdue : (d.run steps).Passes now .pollParsers ↔
      ∃ t, (d.run steps).schedule.deadline = some t ∧ t ≤ now := by
    show (d.run steps).schedule.deadline.any (· ≤ now) = true ↔ _
    cases (d.run steps).schedule.deadline <;> simp
  simp only [hdue, deadline_run_iff hd]
  constructor
  · rintro ⟨t, ⟨since, hwanted, rfl⟩, hle⟩
    exact ⟨since, hwanted, hle⟩
  · rintro ⟨since, hwanted, hle⟩
    exact ⟨_, ⟨since, hwanted, rfl⟩, hle⟩

/-- **Parsers are debounced in every run on a clock that does not go back**, whatever the text, the file and the
settings, and whatever else is asked of the document. -/
theorem debounced_run (buffer : Buffer) (filePath : Option String) (settings : Settings)
    (steps : List (Nat × Op)) (now : Nat) (hclock : steps.Pairwise fun a b => a.1 ≤ b.1) :
    (ofBuffer buffer filePath settings).Debounced settings.parserDelay steps now := by
  have hpasses := passes_pollParsers_iff (d := ofBuffer buffer filePath settings) rfl steps now
  refine ⟨hpasses, fun hpass => ?_, pollParsers_of_not_due, makesPass_runParsers _, fun hpass => ?_,
    fun hpass => ?_⟩
  · rw [pollParsers_of_due hpass]
    exact makesPass_runParsers _
  · rintro done t op rest rfl hrestarts
    obtain ⟨since, hwanted, hle⟩ := hpasses.mp hpass
    exact (Nat.add_le_add_right (hwanted.le hclock hrestarts) _).trans hle
  · rintro done t op rest rfl hpassed
    obtain ⟨since, hwanted, -⟩ := hpasses.mp hpass
    obtain ⟨between, op', below, hrest, hrestarts⟩ := hwanted.exists_restart hpassed
    exact ⟨between, since, op', below, hrest, hrestarts⟩

/-- Neither a switch to a language that is not known nor a removal of nothing starts the wait anew. -/
theorem debounced_run_idle_switch :
    let d := ofString "a" {}
    let steps : List (Nat × Op) := [(0, .registerParser .tokenErrors), (100, .change (.insert 0 ['b'])),
      (1000, .setLanguage "?"), (1200, .change (.remove 1 1)), (1300, .pollParsers)]
    (steps.Pairwise fun a b => a.1 ≤ b.1) ∧ d.Debounced 1250 steps 1350 ∧
      (d.run steps).Passes 1350 .pollParsers := by
  intro d steps
  have hclock : steps.Pairwise fun a b => a.1 ≤ b.1 := by simp [steps]
  refine ⟨hclock, debounced_run (.ofString "a") none {} steps 1350 hclock, ?_⟩
  show (d.run steps).schedule.isDue 1350 = true
  decide +kernel

end Document

end Linewise
