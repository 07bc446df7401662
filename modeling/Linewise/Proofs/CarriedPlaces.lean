import Linewise.Proofs.CarriedStates
import Linewise.Proofs.JoinedMarkup

/-!
# Carried places

Behind a line of markup a single number says in which place the line ends: it is 8 more in the tag of a script,
and 32 more than the state of the script itself inside one. `Markup.endMode` follows the scan from place to place
and says in which one a text ends. A place in which lines can end (`Markup.Mode.IsCarried`) is read back from its
number, so that the numbers could as well be left out (`Markup.placeBehind`).

* `Markup.isCarried_endMode`: what one line preserves. A script that a line enters is in the neutral state, and
  goes on in those that JavaScript carries.
* `Markup.stateBehind_eq`: **the state behind lines of markup carries the place that they end in**.
* `Scanner.stateBehind_alphabets`: **the states behind lines of all kinds**, for the scanners of the C family and
  for that of markup.
-/

namespace Linewise

namespace Markup

/-! ### Places that a state carries -/

namespace Mode

/-- A place in which a line can end. A script is in one of the states that lines of JavaScript leave. -/
def IsCarried : Mode → Prop
  | .name _ => False
  | .script inner => CFamily.IsCarried .javaScript inner
  | _ => True

/-- JavaScript carries five states, its comments being flat. -/
theorem code_le_of_isCarried {inner : LineState} (h : (Mode.script inner).IsCarried) : inner.code.toNat ≤ 4 := by
  rcases h with h | ⟨h, -⟩ | ⟨-, hnested⟩
  · omega
  · omega
  · cases hnested

theorem lt_size_of_isCarried {inner : LineState} (h : (Mode.script inner).IsCarried) :
    32 + inner.code.toNat < UInt32.size :=
  Nat.lt_of_le_of_lt (Nat.add_le_add_left (code_le_of_isCarried h) 32) (by decide)

theorem code_toState_script {inner : LineState} (h : (Mode.script inner).IsCarried) :
    (Mode.script inner).toState.code.toNat = 32 + inner.code.toNat :=
  code_inScript (lt_size_of_isCarried h)

theorem ofState_toState_of_isCarried {mode : Mode} (h : mode.IsCarried) : ofState mode.toState = mode := by
  cases mode with
  | content => decide
  | name ofScript => exact h.elim
  | tag ofScript => exact ofState_toState trivial
  | comment => exact ofState_toState trivial
  | value quote ofScript => exact ofState_toState trivial
  | script inner => exact ofState_inScript (lt_size_of_isCarried h)

/-- The numbers of the places in which a line can end. -/
def carriedCodes : List Nat := [0, 1, 2, 3, 4, 9, 11, 12, 32, 33, 34, 35, 36]

theorem code_mem_carriedCodes {mode : Mode} (h : mode.IsCarried) : mode.toState.code.toNat ∈ carriedCodes := by
  cases mode with
  | content => decide
  | name ofScript => exact h.elim
  | tag ofScript => cases ofScript <;> decide
  | comment => decide
  | value quote ofScript => cases quote <;> cases ofScript <;> decide
  | script inner =>
    have hcode := code_le_of_isCarried h
    have hall : ∀ n ≤ 4, 32 + n ∈ carriedCodes := by decide
    rw [code_toState_script h]
    exact hall _ hcode

theorem le_code_iff {mode : Mode} (h : mode.IsCarried) :
    32 ≤ mode.toState.code.toNat ↔ ∃ inner, mode = .script inner := by
  cases mode with
  | content => simp [toState, LineState.neutral]
  | name ofScript => exact h.elim
  | tag ofScript => cases ofScript <;> simp [toState, scriptFlag]
  | comment => simp [toState]
  | value quote ofScript => cases quote <;> cases ofScript <;> simp [toState, scriptFlag]
  | script inner => exact iff_of_true (by rw [code_toState_script h]; omega) ⟨inner, rfl⟩

/-- The flag of a script is set in its tag and in the values of its tag, and nowhere else. -/
theorem flag_iff {mode : Mode} (h : mode.IsCarried) :
    mode.toState.code &&& 8 ≠ 0 ↔ mode ∈ [.tag true, .value .double true, .value .single true] := by
  cases mode with
  | content => decide
  | name ofScript => exact h.elim
  | tag ofScript => cases ofScript <;> decide
  | comment => decide
  | value quote ofScript => cases quote <;> cases ofScript <;> decide
  | script inner =>
    have hunflagged : ∀ n ≤ 4, (32 + UInt32.ofNat n) &&& 8 = 0 := by decide
    have hcode := hunflagged _ (code_le_of_isCarried h)
    rw [UInt32.ofNat_toNat] at hcode
    exact iff_of_false (not_not.mpr hcode) (by simp)

end Mode

/-! ### The place that a text ends in -/

/-- The place that a text ends in which starts in a given place. -/
def endMode (mode : Mode) (cs : List Char) : Mode :=
  match mode, cs with
  | .script inner, cs =>
    match scriptLength? cs with
    | some n => endMode .content (cs.drop n)
    | none => .script (CFamily.scan .javaScript inner cs).state
  | mode, [] => mode
  | mode, c :: cs =>
    let s := step mode c cs
    endMode s.mode (cs.drop s.more)
termination_by 2 * cs.length + if mode matches .script _ then 1 else 0
decreasing_by
  · simp only [List.length_drop, reduceIte]
    omega
  · simp only [List.length_drop, List.length_cons]
    split
    · split <;> omega
    · split <;> omega

theorem stateFrom_script_open {cs : List Char} (hn : scriptLength? cs = none) (inner : LineState) :
    stateFrom (.script inner) cs = (Mode.script (CFamily.scan .javaScript inner cs).state).toState := by
  rw [stateFrom, scanFrom_script_open (List.suffix_refl cs) hn]
  rfl

/-- The state behind a text is the one that carries the place it ends in. -/
theorem stateFrom_eq (mode : Mode) (cs : List Char) : stateFrom mode cs = (endMode mode cs).toState := by
  fun_induction endMode mode cs with
  | case1 inner cs n hn ih => rw [stateFrom_script_closed hn, ih]
  | case2 inner cs hn => exact stateFrom_script_open hn inner
  | case3 mode hmode => exact stateFrom_nil hmode
  | case4 mode c cs hmode s ih => rw [stateFrom_cons hmode, ih]

theorem mode_of_tagStart? {cs : List Char} {s : Step} (h : tagStart? cs = some s) :
    ∃ ofScript, s.mode = .name ofScript := by
  by_cases hslash : cs.head? = some '/'
  · obtain ⟨tail, rfl⟩ := List.head?_eq_some_iff.mp hslash
    rw [tagStart?_slash] at h
    split_ifs at h
    obtain rfl := Option.some.inj h
    exact ⟨_, rfl⟩
  · rw [tagStart?_of_ne hslash] at h
    split_ifs at h
    obtain rfl := Option.some.inj h
    exact ⟨_, rfl⟩

theorem mode_angle_ne (inner : LineState) (cs : List Char) : (angle cs).mode ≠ .script inner := by
  unfold angle
  split
  · exact nofun
  · exact nofun
  · exact nofun
  · cases htag : tagStart? cs with
    | none => exact nofun
    | some s =>
      obtain ⟨ofScript, hmode⟩ := mode_of_tagStart? htag
      rw [Option.getD_some, hmode]
      exact nofun

theorem mode_content_ne (inner : LineState) (c : Char) (cs : List Char) :
    (content c cs).mode ≠ .script inner := by
  unfold content
  split_ifs
  · exact mode_angle_ne inner cs
  · unfold ampersand
    dsimp only
    split_ifs <;> exact nofun
  all_goals exact nofun

/-- A script starts out in the neutral state. -/
theorem inner_of_step {mode : Mode} {inner : LineState} {c : Char} {cs : List Char}
    (h : (step mode c cs).mode = .script inner) : inner = .neutral := by
  cases mode with
  | content => exact absurd h (mode_content_ne inner c cs)
  | script other => exact absurd h (mode_content_ne inner c cs)
  | name ofScript => cases h
  | comment =>
    unfold step at h
    dsimp only at h
    split at h <;> cases h
  | value quote ofScript => exact absurd h ((lasting_quotedValue ..).ne_script inner)
  | tag ofScript =>
    replace h : (insideTag ofScript c cs).mode = .script inner := h
    unfold insideTag at h
    split_ifs at h
    · exact (Mode.script.inj h).symm
    · exact absurd h ((lasting_quotedValue ..).ne_script inner)
    · exact absurd h ((lasting_quotedValue ..).ne_script inner)

/-- **A text ends in a place that a state carries**, if it starts in one. In front of a name it may start too, as
long as the name is there. -/
theorem isCarried_endMode {mode : Mode} {cs : List Char}
    (h : mode.IsCarried ∨ (∃ ofScript, mode = .name ofScript) ∧ cs ≠ []) : (endMode mode cs).IsCarried := by
  fun_induction endMode mode cs with
  | case1 inner cs n hn ih => exact ih (Or.inl trivial)
  | case2 inner cs hn =>
    rcases h with h | ⟨⟨ofScript, hname⟩, -⟩
    · exact CFamily.isCarried_scan h cs
    · cases hname
  | case3 mode hmode =>
    rcases h with h | ⟨-, hne⟩
    · exact h
    · exact absurd rfl hne
  | case4 mode c cs hmode s ih =>
    refine ih ?_
    cases hs : s.mode with
    | content => exact Or.inl trivial
    | tag ofScript => exact Or.inl trivial
    | comment => exact Or.inl trivial
    | value quote ofScript => exact Or.inl trivial
    | script inner =>
      obtain rfl := inner_of_step hs
      exact Or.inl (CFamily.isCarried_neutral _)
    | name ofScript =>
      -- The delimiter of a tag leaves its name to be read.
      exact Or.inr ⟨⟨ofScript, rfl⟩, List.drop_eq_nil_iff.not.mpr (Nat.not_le.mpr (more_lt_of_name hmode hs))⟩

/-! ### Lines behind one another -/

theorem state_scan_of_isCarried {mode : Mode} (h : mode.IsCarried) (cs : List Char) :
    (scan mode.toState cs).state = (endMode mode cs).toState := by
  rw [← stateFrom_eq]
  by_cases hscript : ∃ inner, mode = .script inner
  · obtain ⟨inner, rfl⟩ := hscript
    exact congrArg Token.Reading.state (scan_inScript (Mode.lt_size_of_isCarried h) cs)
  · rw [not_exists] at hscript
    unfold scan
    split
    · next hempty => rw [List.isEmpty_iff.mp hempty.1, stateFrom_nil hscript]
    · rw [Mode.ofState_toState_of_isCarried h]
      rfl

/-- The place that lines end in which follow each other from the start of a text on. -/
def placeBehind (lines : List (List Char)) : Mode := lines.foldl endMode .content

theorem placeBehind_concat (lines : List (List Char)) (line : List Char) :
    placeBehind (lines ++ [line]) = endMode (placeBehind lines) line := by
  simp [placeBehind]

theorem isCarried_placeBehind (lines : List (List Char)) : (placeBehind lines).IsCarried := by
  induction lines using List.reverseRecOn with
  | nil => trivial
  | append_singleton lines line ih =>
    rw [placeBehind_concat]
    exact isCarried_endMode (Or.inl ih)

/-- **The state behind lines of markup carries the place that they end in.** -/
theorem stateBehind_eq (lines : List (List Char)) :
    scanner.stateBehind lines = (placeBehind lines).toState := by
  induction lines using List.reverseRecOn with
  | nil => rfl
  | append_singleton lines line ih =>
    rw [Scanner.stateBehind_concat, placeBehind_concat, ih]
    exact state_scan_of_isCarried (isCarried_placeBehind lines) line

/-- First lines of a text, one for each state that a line of markup can end in. -/
def endingLines : List String :=
  ["", "<a", "<!--", "<a b=\x22", "<a b='", "<script", "<script b=\x22", "<script b='", "<script>",
    "<script>/*", "<script>/**", "<script>\x22\x5c", "<script>\x60"]

theorem exists_stateBehind {s : LineState} (h : s.code.toNat ∈ Mode.carriedCodes) :
    ∃ lines, scanner.stateBehind lines = s := by
  have hends : Mode.carriedCodes =
      endingLines.map fun line => (scanner.stateBehind [line.toList]).code.toNat := by decide +kernel
  rw [hends] at h
  obtain ⟨line, -, hcode⟩ := List.mem_map.mp h
  exact ⟨[line.toList], LineState.eq_of_toNat_eq hcode⟩

end Markup

/-- **Carried states stay in a small alphabet.** Behind lines of any content that follow each other from the start
of a text on, the state of a scanner of the C family, whatever its dialect, is one of 0 to 3, or 4 if the dialect
has template strings, or one of 12 to 31 if its comments nest; and each of these occurs. A state carries a comment
just if it is made from that comment, at one of the depths that are told apart. The state of markup is one of 0 to
4, 9, 11, 12 and 32 to 36, and each of these occurs. It is made from the place in which the lines end, and the next
line reads it as that place: from 32 on it is a script, and a flag of a script is that of its tag or of a value in
its tag. -/
theorem Scanner.stateBehind_alphabets :
    (∀ (d : CFamily.Dialect) (s : LineState),
      (∃ lines, (CFamily.scanner d).stateBehind lines = s) ↔
        s.code.toNat ≤ 3 ∨ s.code.toNat = 4 ∧ d.templateStrings = true ∨
          (12 ≤ s.code.toNat ∧ s.code.toNat ≤ 31) ∧ d.nestedComments = true) ∧
    (∀ (s : LineState) (depth : Nat) (doc : Bool),
      CFamily.Construct.openComment? s = some (depth, doc) ↔
        (1 ≤ depth ∧ depth ≤ 11) ∧ CFamily.Construct.toState (.comment depth doc) = s) ∧
    (∀ s : LineState,
      (∃ lines, Markup.scanner.stateBehind lines = s) ↔
        s.code.toNat ∈ [0, 1, 2, 3, 4, 9, 11, 12, 32, 33, 34, 35, 36]) ∧
    ∀ lines : List (List Char),
      let s := Markup.scanner.stateBehind lines
      let place := Markup.placeBehind lines
      s = place.toState ∧ Markup.Mode.ofState s = place ∧
        (32 ≤ s.code.toNat ↔ ∃ inner, place = .script inner) ∧
        (s.code &&& 8 ≠ 0 ↔ place ∈ [.tag true, .value .double true, .value .single true]) := by
  refine ⟨fun d s => ⟨?_, CFamily.exists_stateBehind⟩,
    fun s depth doc => CFamily.Construct.openComment?_eq_some_iff,
    fun s => ⟨?_, Markup.exists_stateBehind⟩, fun lines => ?_⟩
  · rintro ⟨lines, rfl⟩
    exact CFamily.isCarried_stateBehind d lines
  · rintro ⟨lines, rfl⟩
    rw [Markup.stateBehind_eq]
    exact Markup.Mode.code_mem_carriedCodes (Markup.isCarried_placeBehind lines)
  · intro s place
    have hplace : place.IsCarried := Markup.isCarried_placeBehind lines
    have hs : s = place.toState := Markup.stateBehind_eq lines
    rw [hs]
    exact ⟨rfl, Markup.Mode.ofState_toState_of_isCarried hplace, Markup.Mode.le_code_iff hplace,
      Markup.Mode.flag_iff hplace⟩

end Linewise
