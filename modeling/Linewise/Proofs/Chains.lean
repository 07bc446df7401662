import Linewise.Retokenizer
import Mathlib.Tactic.Common

/-!
# Chains of states

The states behind the lines of a text form a *chain*: each is what its line makes of the state in front
of it. A chain is determined by what the lines make of states (`Chained.ext`, which also lets single
lines differ whose results are known to agree), so a row of states is the one that a full pass finds as
soon as it is a chain of the right length (`eq_expectedStates`).
-/

namespace Linewise

/-- The state in front of a line, among states behind lines that follow each other from `before` on. -/
def stateInFront (before : LineState) (entries : List LineState) : Nat → LineState
  | 0 => before
  | i + 1 => entries.getD i .neutral

@[simp] theorem stateInFront_zero (before : LineState) (entries : List LineState) :
    stateInFront before entries 0 = before := rfl

@[simp] theorem stateInFront_cons (before s : LineState) (entries : List LineState) (i : Nat) :
    stateInFront before (s :: entries) (i + 1) = stateInFront s entries i := by
  cases i <;> simp [stateInFront]

theorem stateInFront_congr {before : LineState} {a b : List LineState} {i : Nat}
    (h : ∀ j, j + 1 = i → a[j]? = b[j]?) : stateInFront before a i = stateInFront before b i := by
  cases i with
  | zero => rfl
  | succ j => simp [stateInFront, List.getD_eq_getElem?_getD, h j rfl]

theorem LineStates.before_eq {s : LineStates} {line : Nat} (h : line ≤ s.length) :
    s.before line = .ok (stateInFront .neutral s.entries line) := by
  cases line with
  | zero => rfl
  | succ above =>
    have hlt : above < s.entries.length := h
    simp [LineStates.before, LineStates.get, stateInFront, List.getElem?_eq_getElem hlt]

/-- **A chain**: each state is what its line makes of the state in front of it. -/
def Chained (f : Nat → LineState → LineState) (entries : List LineState) : Prop :=
  ∀ i < entries.length, entries[i]? = some (f i (stateInFront .neutral entries i))

/-- Two chains of one length are equal if at each line they agree, or the line makes the same of every
state in both. -/
theorem Chained.ext {f g : Nat → LineState → LineState} {a b : List LineState} (ha : Chained f a)
    (hb : Chained g b) (hl : a.length = b.length)
    (hfg : ∀ i < a.length, a[i]? = b[i]? ∨ ∀ s, f i s = g i s) : a = b := by
  have key : ∀ i < a.length, a[i]? = b[i]? := by
    intro i
    induction i with
    | zero =>
      intro hi
      rcases hfg 0 hi with h | h
      · exact h
      · rw [ha 0 hi, hb 0 (by omega), h]; rfl
    | succ i ih =>
      intro hi
      rcases hfg (i + 1) hi with h | h
      · exact h
      · have hfront : stateInFront .neutral a (i + 1) = stateInFront .neutral b (i + 1) :=
          stateInFront_congr fun j hj => by
            obtain rfl : j = i := by omega
            exact ih (by omega)
        rw [ha _ hi, hb _ (by omega), h, hfront]
  refine List.ext_getElem? fun i => ?_
  rcases Nat.lt_or_ge i a.length with hi | hi
  · exact key i hi
  · rw [List.getElem?_eq_none hi, List.getElem?_eq_none (by omega)]

namespace Retokenizer

/-! ### The states of a full pass -/

/-- What a line of a text makes of the state in front of it. -/
def lineEffect (r : Retokenizer) (texts : List (List Char)) (line : Nat) (before : LineState) :
    LineState :=
  r.scanner.stateAfterCapped (texts.getD line []) before r.settings.scanLimit

theorem length_statesFrom (scanner : Scanner) (limit : Nat) (before : LineState)
    (texts : List (List Char)) : (statesFrom scanner limit before texts).length = texts.length := by
  induction texts generalizing before with
  | nil => rfl
  | cons t ts ih => simp [statesFrom, ih]

theorem getElem?_statesFrom (scanner : Scanner) (limit : Nat) (texts : List (List Char)) :
    ∀ (before : LineState) (i : Nat), i < texts.length →
      (statesFrom scanner limit before texts)[i]? = some (scanner.stateAfterCapped (texts.getD i [])
        (stateInFront before (statesFrom scanner limit before texts) i) limit) := by
  induction texts with
  | nil => intro _ i hi; simp at hi
  | cons t ts ih =>
    intro before i hi
    cases i with
    | zero => simp [statesFrom]
    | succ i =>
      have hi' : i < ts.length := by simpa using hi
      simp only [statesFrom, List.getElem?_cons_succ, List.getD_cons_succ, stateInFront_cons]
      exact ih _ i hi'

@[simp] theorem length_expectedStates (r : Retokenizer) (texts : List (List Char)) :
    (r.expectedStates texts).length = texts.length := length_statesFrom ..

theorem chained_expectedStates (r : Retokenizer) (texts : List (List Char)) :
    Chained (r.lineEffect texts) (r.expectedStates texts) := fun i hi =>
  getElem?_statesFrom _ _ texts _ i (by simpa using hi)

/-- **A chain of the right length is what a full pass finds.** -/
theorem eq_expectedStates {r : Retokenizer} {texts : List (List Char)} {entries : List LineState}
    (hl : entries.length = texts.length) (h : Chained (r.lineEffect texts) entries) :
    entries = r.expectedStates texts :=
  h.ext (r.chained_expectedStates texts) (by simpa using hl) fun _ _ => Or.inr fun _ => rfl

end Retokenizer

end Linewise
