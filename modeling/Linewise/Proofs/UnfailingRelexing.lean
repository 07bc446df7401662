import Linewise.Proofs.Propagation
import Mathlib.Data.Set.Basic
import Mathlib.Order.Bounds.Defs

/-!
# Propagation over lines that can all be lexed

Where lexing a line never fails, what lines make of states is a plain function `f` (`unfailing`), and every
propagation from a line that is remembered comes to an end. Where it ends is said here without it: lines
that are lexed one after the other and never stopped at leave the states `along`, and a propagation ends
at the least line, from the one on that it had to reach, whose remembered state is the one found there
(`confirmed`), or at the last line if there is none.

* `propagate_unfailing`: **what a propagation does, where it ends, and that it leaves the states of a full
  pass** if the remembered states above its first line and below the last one that it had to reach were
  those of their lines.
-/

namespace Linewise.LineStates

variable (f : Nat → LineState → LineState)

/-- Lexing that never fails. -/
def unfailing : Relex := fun line before => .ok (f line before)

/-- The state behind `count` lines from `first` on, each lexed from the state that the one in front of it
leaves. -/
def along (first : Nat) (before : LineState) : Nat → LineState
  | 0 => before
  | count + 1 => f (first + count) (along first before count)

/-- **The full pass**: the states behind each of `count` lines that are lexed from the neutral state on. -/
def passStates (count : Nat) : List LineState :=
  (List.range count).map fun line => along f 0 .neutral (line + 1)

/-- The lines at which lexing from `first` on finds the remembered state, from `through` on. -/
def confirmed (s : LineStates) (first through : Nat) : Set Nat :=
  {line | max first through ≤ line ∧ line < s.length ∧
    s.entries[line]? = some (along f first (stateInFront .neutral s.entries first) (line + 1 - first))}

theorem stateInFront_passStates {count line : Nat} (h : line ≤ count) :
    stateInFront .neutral (passStates f count) line = along f 0 .neutral line := by
  cases line with
  | zero => rfl
  | succ above => simp [stateInFront, passStates, List.getD_eq_getElem?_getD, List.getElem?_range h]

theorem chained_passStates (count : Nat) : Chained f (passStates f count) := by
  intro line hline
  have hcount : line < count := by simpa [passStates] using hline
  rw [stateInFront_passStates f (Nat.le_of_lt hcount)]
  simp [passStates, List.getElem?_range hcount, along]

variable {f} {first through : Nat} {s : LineStates} {new : List LineState}
  {visits : List (Nat × LineState)} {p : Propagation}

/-- The states that a propagation finds are those of lexing without a stop. -/
theorem Propagated.getElem?_eq_along (h : Propagated f first through s.entries new visits p) {count : Nat}
    (hlast : first + count ≤ p.last) :
    new[first + count]? =
      some (along f first (stateInFront .neutral s.entries first) (count + 1)) := by
  induction count with
  | zero =>
    have hfront : stateInFront .neutral new first = stateInFront .neutral s.entries first :=
      stateInFront_congr fun above habove => h.above above (by omega)
    rw [h.lexed _ (Nat.le_add_right ..) hlast, Nat.add_zero, hfront]
    rfl
  | succ count ih =>
    have hfront : stateInFront .neutral new (first + (count + 1)) =
        along f first (stateInFront .neutral s.entries first) (count + 1) := by
      show new.getD (first + count) .neutral = _
      rw [List.getD_eq_getElem?_getD, ih (by omega), Option.getD_some]
    rw [h.lexed _ (Nat.le_add_right ..) hlast, hfront]
    rfl

theorem Propagated.getElem?_eq_iff_mem_confirmed
    (h : Propagated f first through s.entries new visits p) {line : Nat} (hfirst : first ≤ line)
    (hthrough : through ≤ line) (hlast : line ≤ p.last) :
    new[line]? = s.entries[line]? ↔ line ∈ confirmed f s first through := by
  obtain ⟨count, rfl⟩ := Nat.exists_eq_add_of_le hfirst
  have hlt : first + count < s.length := Nat.lt_of_le_of_lt hlast h.last_lt
  have hmax : max first through ≤ first + count := Nat.max_le.mpr ⟨hfirst, hthrough⟩
  have hcount : first + count + 1 - first = count + 1 := by omega
  rw [h.getElem?_eq_along hlast, eq_comm, ← hcount]
  exact ⟨fun he => ⟨hmax, hlt, he⟩, fun he => he.2.2⟩

/-- **Where a propagation ends**: at the least line that is confirmed, or at the last line if none is. -/
theorem Propagated.ends (h : Propagated f first through s.entries new visits p) :
    (p.stabilized = true ∧ IsLeast (confirmed f s first through) p.last) ∨
      (p.stabilized = false ∧ p.last + 1 = s.length ∧ confirmed f s first through = ∅) := by
  have hstop {line : Nat} (hline : line ∈ confirmed f s first through) (hlast : line ≤ p.last) :
      line = p.last ∧ p.stabilized = true := by
    have hbounds := Nat.max_le.mp hline.1
    have hsame := (h.getElem?_eq_iff_mem_confirmed hbounds.1 hbounds.2 hlast).mpr hline
    exact h.least line hbounds.1 hlast hbounds.2 hsame
  rcases h.stop with ⟨hstabilized, hthrough, hsame⟩ | ⟨hstabilized, hend⟩
  · refine Or.inl ⟨hstabilized, ?_, fun line hline => ?_⟩
    · exact (h.getElem?_eq_iff_mem_confirmed h.first_le hthrough (Nat.le_refl _)).mp hsame
    · rcases Nat.le_total p.last line with hle | hle
      · exact hle
      · exact Nat.le_of_eq (hstop hline hle).1.symm
  · refine Or.inr ⟨hstabilized, hend, Set.eq_empty_iff_forall_notMem.mpr fun line hline => ?_⟩
    have hlt : line < s.entries.length := hline.2.1
    have hyes := (hstop hline (by omega)).2
    rw [hstabilized] at hyes
    cases hyes

variable (f) (through)

theorem exists_propagated (h : first < s.length) :
    ∃ p, (s.propagate (unfailing f) first through).result = .ok p ∧
      Propagated f first through s.entries (s.propagate (unfailing f) first through).states.entries
        (s.propagate (unfailing f) first through).visits p := by
  have hf : ∀ line before after, unfailing f line before = .ok after → after = f line before :=
    fun line before after hok => (Except.ok.inj hok).symm
  cases hresult : (s.propagate (unfailing f) first through).result with
  | ok p => exact ⟨p, rfl, propagate_ok hf hresult⟩
  | error e =>
    obtain ⟨line, -, -, before, hfail⟩ := propagate_error h hresult
    cases hfail

/-- **What a propagation does where no line fails.** It succeeds. It has lexed the lines from `first` to its
last line, each once, in this order and from the state in front of it; their states are what it found and
all others are the remembered ones (`Propagated`). Its last line is the least one, from `first` and
`through` on, at which lexing from `first` on without a stop finds the remembered state, and it says so;
if there is none, it is the last line of all. If the remembered states above `first` and below `through`
were what their lines make of the states in front of them, all states are those of a full pass. -/
theorem propagate_unfailing (h : first < s.length) :
    let pass := s.propagate (unfailing f) first through
    ∃ p, pass.result = .ok p ∧
      Propagated f first through s.entries pass.states.entries pass.visits p ∧
      ((p.stabilized = true ∧ IsLeast (confirmed f s first through) p.last) ∨
        (p.stabilized = false ∧ p.last + 1 = s.length ∧ confirmed f s first through = ∅)) ∧
      ((∀ i < s.length, i < first ∨ through < i →
          s.entries[i]? = some (f i (stateInFront .neutral s.entries i))) →
        pass.states.entries = passStates f s.length) := by
  intro pass
  obtain ⟨p, hresult, hp⟩ := exists_propagated f through h
  refine ⟨p, hresult, hp, hp.ends, fun hkept => ?_⟩
  have habove : ∀ i < first, s.entries[i]? = some (f i (stateInFront .neutral s.entries i)) :=
    fun i hi => hkept i (Nat.lt_trans hi h) (Or.inl hi)
  have hbelow : ∀ i < s.entries.length, through < i →
      s.entries[i]? = some (f i (stateInFront .neutral s.entries i)) :=
    fun i hi hthrough => hkept i hi (Or.inr hthrough)
  have hlength : pass.states.entries.length = (passStates f s.length).length := by
    rw [hp.length_eq, passStates, List.length_map, List.length_range, LineStates.length]
  exact (hp.chained habove hbelow).ext (chained_passStates f _) hlength fun _ _ => Or.inr fun _ => rfl

/-- A comment that starts on the third of eight lines and ends on the sixth is found in four steps. -/
theorem propagate_unfailing_comment_closed :
    let f : Nat → LineState → LineState := fun line before =>
      if line = 2 then ⟨1⟩ else if line = 5 then .neutral else before
    let s := LineStates.ofLineCount 8
    let pass := s.propagate (unfailing f) 2 2
    2 < s.length ∧
      (∀ i < s.length, i < 2 ∨ 2 < i →
        s.entries[i]? = some (f i (stateInFront .neutral s.entries i))) ∧
      ∃ p, (pass.result = .ok p ∧ p = ⟨2, 5, 4, true⟩) ∧
        Propagated f 2 2 s.entries pass.states.entries pass.visits p ∧
        ((p.stabilized = true ∧ IsLeast (confirmed f s 2 2) p.last) ∨
          (p.stabilized = false ∧ p.last + 1 = s.length ∧ confirmed f s 2 2 = ∅)) ∧
        pass.states.entries = passStates f s.length := by
  intro f s pass
  have hfirst : 2 < s.length := by decide
  have hkept : ∀ i < s.length, i < 2 ∨ 2 < i →
      s.entries[i]? = some (f i (stateInFront .neutral s.entries i)) := by decide
  have hvalue : pass.result = .ok ⟨2, 5, 4, true⟩ := by decide
  obtain ⟨p, hresult, hpropagated, hends, hstates⟩ := propagate_unfailing f 2 hfirst
  have hp : p = ⟨2, 5, 4, true⟩ := Except.ok.inj (hresult.symm.trans hvalue)
  exact ⟨hfirst, hkept, p, ⟨hresult, hp⟩, hpropagated, hends, hstates hkept⟩

end Linewise.LineStates
