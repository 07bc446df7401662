import Linewise.Proofs.Chains

/-!
# Propagation

What a propagation leaves behind once it has stopped (`Propagated`): the states above its first line
and below its last one are the remembered ones, those between are made anew, each from the one in front
of it, and it stopped at the first place where it was allowed to. A line may fail to be lexed, so what
lines make of states is a function `f` that the lexing agrees with as far as it succeeds
(`propagate_ok`); a propagation fails only where a line does (`propagate_error`).

* `Propagated.chained`: **a propagation makes a chain** of states that form one above its first line and
  below the last line that it had to reach.
* `Propagated.settled`: unless it ran to the last line, the states from its last line on are the
  remembered ones.
-/

namespace Linewise.LineStates

variable {f : Nat → LineState → LineState} {relex : Relex}

/-- What has become of the remembered states `old` of a line and of those below it, of which those up
to `last` have been lexed anew. -/
structure Settled (f : Nat → LineState → LineState) (through line : Nat) (before : LineState)
    (old new : List LineState) (visits : List (Nat × LineState)) (last : Nat) (stabilized : Bool) :
    Prop where
  length_eq : new.length = old.length
  le_last : line ≤ last
  last_lt : last < line + old.length
  visits_eq : visits = (List.range (last + 1 - line)).map fun i =>
    (line + i, stateInFront before new i)
  lexed : ∀ i, line + i ≤ last → new[i]? = some (f (line + i) (stateInFront before new i))
  below : ∀ i, last < line + i → new[i]? = old[i]?
  stop : (stabilized = true ∧ through ≤ last ∧ new[last - line]? = old[last - line]?) ∨
    (stabilized = false ∧ last + 1 = line + old.length)
  least : ∀ i, line + i ≤ last → through ≤ line + i → new[i]? = old[i]? →
    line + i = last ∧ stabilized = true

theorem Settled.here {through line : Nat} {before found remembered : LineState}
    {below : List LineState} {stabilized : Bool} (hf : found = f line before)
    (hstop : (stabilized = true ∧ through ≤ line ∧ found = remembered) ∨
      (stabilized = false ∧ below = [] ∧ ¬ (through ≤ line ∧ found = remembered))) :
    Settled f through line before (remembered :: below) (found :: below) [(line, before)] line
      stabilized where
  length_eq := rfl
  le_last := Nat.le_refl line
  last_lt := by simp
  visits_eq := by simp [List.range_succ]
  lexed i hi := by
    obtain rfl : i = 0 := by omega
    simp [hf]
  below i hi := by
    cases i with
    | zero => omega
    | succ i => rfl
  stop := by
    rcases hstop with ⟨hs, ht, he⟩ | ⟨hs, he, -⟩
    · exact Or.inl ⟨hs, ht, by simp [he]⟩
    · exact Or.inr ⟨hs, by simp [he]⟩
  least i hi ht he := by
    obtain rfl : i = 0 := by omega
    rcases hstop with ⟨hs, -⟩ | ⟨-, -, hne⟩
    · exact ⟨rfl, hs⟩
    · exact absurd ⟨ht, by simpa using he⟩ hne

theorem Settled.cons {through line last : Nat} {before found remembered : LineState}
    {old new : List LineState} {visits : List (Nat × LineState)} {stabilized : Bool}
    (hf : found = f line before) (hne : ¬ (through ≤ line ∧ found = remembered))
    (h : Settled f through (line + 1) found old new visits last stabilized) :
    Settled f through line before (remembered :: old) (found :: new) ((line, before) :: visits) last
      stabilized where
  length_eq := by simp [h.length_eq]
  le_last := by have := h.le_last; omega
  last_lt := by have := h.last_lt; simp only [List.length_cons]; omega
  visits_eq := by
    have hle := h.le_last
    rw [h.visits_eq, show last + 1 - line = (last + 1 - (line + 1)) + 1 by omega,
      List.range_succ_eq_map]
    simp [Function.comp_def, Nat.add_assoc, Nat.add_comm 1]
  lexed i hi := by
    cases i with
    | zero => simp [hf]
    | succ i =>
      rw [stateInFront_cons, show line + (i + 1) = line + 1 + i by omega]
      exact h.lexed i (by omega)
  below i hi := by
    cases i with
    | zero => have := h.le_last; omega
    | succ i => exact h.below i (by omega)
  stop := by
    have hle := h.le_last
    rw [show last - line = (last - (line + 1)) + 1 by omega]
    rcases h.stop with ⟨hs, ht, he⟩ | ⟨hs, he⟩
    · exact Or.inl ⟨hs, ht, he⟩
    · exact Or.inr ⟨hs, by simp only [List.length_cons]; omega⟩
  least i hi ht he := by
    cases i with
    | zero => exact absurd ⟨ht, by simpa using he⟩ hne
    | succ i =>
      obtain ⟨h1, h2⟩ := h.least i (by omega) (by omega) he
      exact ⟨by omega, h2⟩

theorem propagateFrom_ok (hf : ∀ line s s', relex line s = .ok s' → s' = f line s) {through : Nat} :
    ∀ (old : List LineState) (line : Nat) (before : LineState) {new visits last stabilized},
      propagateFrom relex through line before old = (new, visits, .ok (last, stabilized)) →
        Settled f through line before old new visits last stabilized
  | [], _, _, _, _, _, _, h => by simp [propagateFrom] at h
  | remembered :: below, line, before, new, visits, last, stabilized, h => by
    rw [propagateFrom] at h
    cases hr : relex line before with
    | error e => simp [hr] at h
    | ok found =>
      have hfound := hf _ _ _ hr
      simp only [hr] at h
      split_ifs at h with hstop hempty
      · cases h
        obtain ⟨ht, rfl⟩ := hstop
        exact .here hfound (Or.inl ⟨rfl, ht, rfl⟩)
      · cases h
        rw [List.isEmpty_iff] at hempty
        subst hempty
        exact .here hfound (Or.inr ⟨rfl, rfl, hstop⟩)
      · rcases hrec : propagateFrom relex through (line + 1) found below with ⟨states, vs, result⟩
        simp only [hrec] at h
        cases h
        exact .cons hfound hstop (propagateFrom_ok hf below (line + 1) found hrec)

theorem propagateFrom_error {through : Nat} {e : Failure} :
    ∀ (old : List LineState) (line : Nat) (before : LineState), old ≠ [] →
      (propagateFrom relex through line before old).2.2 = .error e →
        ∃ i < old.length, ∃ s, relex (line + i) s = .error e
  | [], _, _, hne, _ => absurd rfl hne
  | remembered :: below, line, before, _, h => by
    rw [propagateFrom] at h
    cases hr : relex line before with
    | error e' =>
      simp only [hr, Except.error.injEq] at h
      exact ⟨0, by simp, before, by rw [← h]; exact hr⟩
    | ok found =>
      simp only [hr] at h
      split_ifs at h with hstop hempty
      have hne : below ≠ [] := by simpa using hempty
      obtain ⟨i, hi, s, hs⟩ := propagateFrom_error below (line + 1) found hne h
      exact ⟨i + 1, by simpa using hi, s, by rwa [show line + (i + 1) = line + 1 + i by omega]⟩

/-! ### All states -/

/-- **What a propagation that stopped has made of the states of all lines.** -/
structure Propagated (f : Nat → LineState → LineState) (first through : Nat)
    (old new : List LineState) (visits : List (Nat × LineState)) (p : Propagation) : Prop where
  first_eq : p.first = first
  length_eq : new.length = old.length
  first_le : first ≤ p.last
  last_lt : p.last < old.length
  relexed_eq : p.relexed = p.last + 1 - first
  visits_eq : visits = (List.range (p.last + 1 - first)).map fun i =>
    (first + i, stateInFront .neutral new (first + i))
  above : ∀ i < first, new[i]? = old[i]?
  lexed : ∀ i, first ≤ i → i ≤ p.last → new[i]? = some (f i (stateInFront .neutral new i))
  below : ∀ i, p.last < i → new[i]? = old[i]?
  stop : (p.stabilized = true ∧ through ≤ p.last ∧ new[p.last]? = old[p.last]?) ∨
    (p.stabilized = false ∧ p.last + 1 = old.length)
  least : ∀ i, first ≤ i → i ≤ p.last → through ≤ i → new[i]? = old[i]? →
    i = p.last ∧ p.stabilized = true

theorem stateInFront_take_append {entries new : List LineState} {first : Nat}
    (h : first ≤ entries.length) (i : Nat) :
    stateInFront .neutral (entries.take first ++ new) (first + i) =
      stateInFront (stateInFront .neutral entries first) new i := by
  have hlen : (entries.take first).length = first := by simp [h]
  cases i with
  | zero =>
    refine stateInFront_congr fun j hj => ?_
    rw [List.getElem?_append_left (by omega), List.getElem?_take_of_lt (by omega)]
  | succ i =>
    show (entries.take first ++ new).getD (first + i) .neutral = new.getD i .neutral
    rw [List.getD_eq_getElem?_getD, List.getElem?_append_right (by omega), hlen,
      Nat.add_sub_cancel_left, List.getD_eq_getElem?_getD]

theorem propagate_eq {s : LineStates} {first through : Nat} (h : first < s.length) :
    s.propagate relex first through =
      let (states, visits, result) := propagateFrom relex through first
        (stateInFront .neutral s.entries first) (s.entries.drop first)
      ⟨⟨s.entries.take first ++ states⟩, visits,
        result.map fun (last, stabilized) => ⟨first, last, visits.length, stabilized⟩⟩ := by
  rw [propagate, if_neg (by omega), before_eq (by omega)]

theorem propagate_ok (hf : ∀ line s s', relex line s = .ok s' → s' = f line s) {s : LineStates}
    {first through : Nat} {p : Propagation} (h : (s.propagate relex first through).result = .ok p) :
    Propagated f first through s.entries (s.propagate relex first through).states.entries
      (s.propagate relex first through).visits p := by
  have hlt : first < s.length := by
    by_contra hge
    rw [propagate, if_pos (by omega)] at h
    cases h
  rw [propagate_eq hlt] at h ⊢
  rcases hrec : propagateFrom relex through first (stateInFront .neutral s.entries first)
    (s.entries.drop first) with ⟨states, visits, result⟩
  rw [hrec] at h
  cases result with
  | error e => cases h
  | ok stop =>
    obtain ⟨last, stabilized⟩ := stop
    obtain rfl : ⟨first, last, visits.length, stabilized⟩ = p := Except.ok.inj h
    have hs := propagateFrom_ok hf _ _ _ hrec
    have hle := hs.le_last
    have hlast := hs.last_lt
    have hlt' : first < s.entries.length := hlt
    rw [List.length_drop] at hlast
    have hlen : (s.entries.take first).length = first := by simp; omega
    have hnew : ∀ i, (s.entries.take first ++ states)[first + i]? = states[i]? := fun i => by
      rw [List.getElem?_append_right (by omega), hlen, Nat.add_sub_cancel_left]
    have hfront : ∀ i, stateInFront .neutral (s.entries.take first ++ states) (first + i) = _ :=
      stateInFront_take_append (Nat.le_of_lt hlt')
    have hlast' : last < s.entries.length := by omega
    refine ⟨rfl, ?_, hle, hlast', ?_, ?_, fun i hi => ?_, fun i hi hi' => ?_, fun i hi => ?_, ?_,
      fun i hi hi' ht he => ?_⟩
    · rw [List.length_append, hs.length_eq, List.length_drop]; omega
    · simp [hs.visits_eq]
    · simp only [hs.visits_eq, hfront]
    · rw [List.getElem?_append_left (by omega), List.getElem?_take_of_lt hi]
    · obtain ⟨k, rfl⟩ := Nat.exists_eq_add_of_le hi
      rw [hnew, hfront]
      exact hs.lexed k hi'
    · obtain ⟨k, rfl⟩ := Nat.exists_eq_add_of_le (show first ≤ i by dsimp only at hi; omega)
      rw [hnew, hs.below k hi, List.getElem?_drop]
    · obtain ⟨k, rfl⟩ := Nat.exists_eq_add_of_le hle
      rcases hs.stop with ⟨h1, h2, h3⟩ | ⟨h1, h2⟩
      · rw [Nat.add_sub_cancel_left, List.getElem?_drop] at h3
        exact Or.inl ⟨h1, h2, by rw [hnew, h3]⟩
      · rw [List.length_drop] at h2
        exact Or.inr ⟨h1, by dsimp only; omega⟩
    · obtain ⟨k, rfl⟩ := Nat.exists_eq_add_of_le hi
      rw [hnew] at he
      exact hs.least k hi' ht (by rw [he, List.getElem?_drop])

/-- A propagation fails only where a line cannot be lexed. -/
theorem propagate_error {s : LineStates} {first through : Nat} {e : Failure} (hlt : first < s.length)
    (h : (s.propagate relex first through).result = .error e) :
    ∃ i, first ≤ i ∧ i < s.length ∧ ∃ before, relex i before = .error e := by
  rw [propagate_eq hlt] at h
  have hlt' : first < s.entries.length := hlt
  have hne : s.entries.drop first ≠ [] := by
    rw [Ne, List.drop_eq_nil_iff]; omega
  have herr : (propagateFrom relex through first (stateInFront .neutral s.entries first)
      (s.entries.drop first)).2.2 = .error e := by
    rcases hrec : propagateFrom relex through first (stateInFront .neutral s.entries first)
      (s.entries.drop first) with ⟨states, visits, result⟩
    rw [hrec] at h
    cases result with
    | error e' => cases h; rfl
    | ok stop => cases h
  obtain ⟨i, hi, before, hr⟩ := propagateFrom_error _ _ _ hne herr
  rw [List.length_drop] at hi
  exact ⟨first + i, by omega, show first + i < s.entries.length by omega, before, hr⟩

namespace Propagated

variable {first through : Nat} {old new : List LineState} {visits : List (Nat × LineState)}
  {p : Propagation}

/-- Unless the propagation ran to the last line, the states from its last line on are the remembered
ones. -/
theorem settled (h : Propagated f first through old new visits p) (hlast : p.last + 1 < old.length) :
    through ≤ p.last ∧ ∀ i, p.last ≤ i → new[i]? = old[i]? := by
  rcases h.stop with ⟨-, ht, he⟩ | ⟨-, he⟩
  · refine ⟨ht, fun i hi => ?_⟩
    rcases Nat.lt_or_eq_of_le hi with hi | rfl
    · exact h.below i hi
    · exact he
  · omega

/-- **A propagation makes a chain** of states that form one above its first line and below the last
line that it had to reach. -/
theorem chained (h : Propagated f first through old new visits p)
    (habove : ∀ i < first, old[i]? = some (f i (stateInFront .neutral old i)))
    (hbelow : ∀ i < old.length, through < i → old[i]? = some (f i (stateInFront .neutral old i))) :
    Chained f new := by
  intro i hi
  rw [h.length_eq] at hi
  rcases Nat.lt_or_ge i first with hf | hf
  · rw [h.above i hf, habove i hf]
    congr 2
    exact (stateInFront_congr fun j hj => h.above j (by omega)).symm
  rcases Nat.lt_or_ge p.last i with hl | hl
  · obtain ⟨ht, hkept⟩ := h.settled (by omega)
    rw [hkept i (by omega), hbelow i hi (by omega)]
    congr 2
    exact (stateInFront_congr fun j hj => hkept j (by omega)).symm
  · exact h.lexed i hf hl

end Propagated

end Linewise.LineStates
