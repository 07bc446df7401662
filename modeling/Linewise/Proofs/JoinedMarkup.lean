import Linewise.Proofs.EmbeddedScripts
import Linewise.Proofs.LineEnds

/-!
# Joined lines of markup

A line of markup may end in a tag, in a comment or in an attribute value (`Mode.Lasting`). A line end says
nothing in these places: inside a tag it is one more blank, and comments and values hold it as they hold any
character. What a step on the first of two joined lines takes, it takes there as well, unless it takes all of
that line; then it ends in content, or in a lasting place in which the second line goes on (`step_joins`).

* `Markup.stateFrom_joined`: **the joined lines read on as the second one does** that starts in the place that
  the first ends in, if that place lasts.
* `Markup.state_scan_joined`: so it is with the states that the lines carry.
-/

namespace Linewise

open Token (Reading)
open Text (joined joined_cons drop_joined drop_joined_add)

namespace Markup

/-! ### The state behind the end of a line of markup -/

namespace Mode

/-- A place that a line end does not change: in a tag, in a comment or in an attribute value. -/
def Lasting : Mode → Prop
  | .tag _ | .comment | .value _ _ => True
  | _ => False

instance (mode : Mode) : Decidable mode.Lasting :=
  match mode with
  | .tag _ | .comment | .value _ _ => .isTrue trivial
  | .content | .name _ | .script _ => .isFalse id

theorem ofState_toState {mode : Mode} (h : mode.Lasting) : ofState mode.toState = mode := by
  cases mode with
  | tag ofScript => cases ofScript <;> decide
  | comment => decide
  | value quote ofScript => cases quote <;> cases ofScript <;> decide
  | content => exact h.elim
  | name ofScript => exact h.elim
  | script inner => exact h.elim

theorem ofState_ne_name (s : LineState) (ofScript : Bool) : ofState s ≠ .name ofScript := by
  unfold ofState
  split
  · exact Mode.noConfusion
  · dsimp only
    split <;> exact Mode.noConfusion

theorem Lasting.ne_script {mode : Mode} (h : mode.Lasting) (inner : LineState) : mode ≠ .script inner := by
  rintro rfl
  exact h

theorem Lasting.ne_name {mode : Mode} (h : mode.Lasting) (ofScript : Bool) : mode ≠ .name ofScript := by
  rintro rfl
  exact h

end Mode

/-- The state behind a text that starts in a given mode. -/
def stateFrom (mode : Mode) (cs : List Char) : LineState := (scanFrom cs.toArray mode cs).state

theorem state_scanFrom {line : Array Char} {cs : List Char} (hline : cs <:+ line.toList) (mode : Mode) :
    (scanFrom line mode cs).state = stateFrom mode cs := by
  rw [stateFrom, scanFrom_congr hline (List.suffix_refl cs)]

theorem stateFrom_nil {mode : Mode} (hmode : ∀ inner, mode ≠ .script inner) : stateFrom mode [] = mode.toState := by
  rw [stateFrom, scanFrom_nil _ hmode]

theorem stateFrom_cons {mode : Mode} (hmode : ∀ inner, mode ≠ .script inner) (c : Char) (cs : List Char) :
    stateFrom mode (c :: cs) = stateFrom (step mode c cs).mode (cs.drop (step mode c cs).more) := by
  rw [stateFrom, scanFrom_cons _ hmode]
  exact state_scanFrom ((List.drop_suffix ..).trans (List.suffix_cons c cs)) _

theorem stateFrom_script_closed {cs : List Char} {n : Nat} (hn : scriptLength? cs = some n) (inner : LineState) :
    stateFrom (.script inner) cs = stateFrom .content (cs.drop n) := by
  rw [stateFrom, scanFrom_script_closed (List.suffix_refl cs) hn]
  exact state_scanFrom (List.drop_suffix n cs) .content

theorem state_scan_toState {mode : Mode} (h : mode.Lasting) (cs : List Char) :
    (scan mode.toState cs).state = stateFrom mode cs := by
  unfold scan
  split
  · next hempty => rw [List.isEmpty_iff.1 hempty.1, stateFrom_nil h.ne_script]
  · rw [Mode.ofState_toState h]
    rfl

/-! ### A lasting place at the line end -/

theorem insideTag_blank (ofScript : Bool) {c : Char} (hc : Text.isBlank c = true) (cs : List Char) :
    insideTag ofScript c cs = ⟨.whitespace, Text.run Text.isBlank cs, .tag ofScript⟩ := by
  have hne {x : Char} (hx : Text.isBlank x = false) : c ≠ x := by
    rintro rfl
    rw [hx] at hc
    cases hc
  unfold insideTag
  rw [if_neg (hne (by decide)), if_neg (fun h => hne (by decide) h.1), if_neg (hne (by decide)),
    if_neg (hne (by decide)), if_neg (fun h => h.elim (hne (by decide)) (hne (by decide))),
    if_neg (hne (by decide)), if_pos hc]

theorem stateFrom_tag (ofScript : Bool) (cs : List Char) :
    stateFrom (.tag ofScript) cs = stateFrom (.tag ofScript) (cs.drop (Text.run Text.isBlank cs)) := by
  have hlasting : (Mode.tag ofScript).Lasting := trivial
  cases cs with
  | nil => rfl
  | cons c cs =>
    by_cases hc : Text.isBlank c = true
    · rw [stateFrom_cons hlasting.ne_script, step, insideTag_blank ofScript hc, Text.run, Text.run,
        List.takeWhile_cons_of_pos hc]
      rfl
    · rw [Text.run, List.takeWhile_cons_of_neg hc]
      rfl

theorem stateFrom_comment (cs : List Char) :
    stateFrom .comment cs =
      match Text.find? ['-', '-', '>'] cs with
      | some n => stateFrom .content (cs.drop (n + 3))
      | none => Mode.comment.toState := by
  have hlasting : Mode.comment.Lasting := trivial
  cases cs with
  | nil => exact stateFrom_nil hlasting.ne_script
  | cons c cs =>
    rw [stateFrom_cons hlasting.ne_script, step]
    cases Text.find? ['-', '-', '>'] (c :: cs) with
    | some n => rfl
    | none =>
      dsimp only
      rw [List.drop_length, stateFrom_nil hlasting.ne_script]

theorem stateFrom_value (quote : QuoteMark) (ofScript : Bool) (cs : List Char) :
    stateFrom (.value quote ofScript) cs =
      stateFrom (quotedValue quote ofScript cs).2 (cs.drop (quotedValue quote ofScript cs).1) := by
  have hlasting : (Mode.value quote ofScript).Lasting := trivial
  cases cs with
  | nil => rfl
  | cons c cs =>
    have hpos : 0 < (quotedValue quote ofScript (c :: cs)).1 := by
      unfold quotedValue
      dsimp only
      split
      · exact Nat.succ_pos _
      · next h => exact Nat.lt_of_lt_of_le (Nat.succ_pos cs.length) (Nat.le_of_not_lt h)
    obtain ⟨more, hmore⟩ := Nat.exists_eq_succ_of_ne_zero (Nat.ne_of_gt hpos)
    rw [stateFrom_cons hlasting.ne_script, step]
    dsimp only
    rw [hmore]
    rfl

/-! Text that leaves a lasting place as it is can be left out, together with the line end behind it. -/

theorem stateFrom_tag_joined (ofScript : Bool) {cs : List Char} (h : Text.run Text.isBlank cs = cs.length)
    (rest : List Char) : stateFrom (.tag ofScript) (joined cs rest) = stateFrom (.tag ofScript) rest := by
  rw [stateFrom_tag ofScript (joined cs rest), Text.run_joined_of_eq (by decide) h, drop_joined_add,
    ← stateFrom_tag]

theorem stateFrom_comment_joined {cs : List Char} (h : Text.find? ['-', '-', '>'] cs = none) (rest : List Char) :
    stateFrom .comment (joined cs rest) = stateFrom .comment rest := by
  rw [stateFrom_comment, stateFrom_comment rest, Text.find?_joined (by decide) (by decide), h, Option.none_or]
  cases Text.find? ['-', '-', '>'] rest with
  | none => rfl
  | some n => exact congrArg (stateFrom .content) (drop_joined_add cs rest (n + 3))

theorem ne_quote_lineEnd (quote : QuoteMark) : ('\n' != quote.char) = true := by
  cases quote <;> decide

theorem stateFrom_value_joined (quote : QuoteMark) (ofScript : Bool) {cs : List Char}
    (h : Text.run (· != quote.char) cs = cs.length) (rest : List Char) :
    stateFrom (.value quote ofScript) (joined cs rest) = stateFrom (.value quote ofScript) rest := by
  have hrun := Text.run_joined_of_eq (ne_quote_lineEnd quote) h rest
  have hlength := Text.length_joined cs rest
  have hvalue : quotedValue quote ofScript (joined cs rest) =
      (cs.length + 1 + (quotedValue quote ofScript rest).1, (quotedValue quote ofScript rest).2) := by
    unfold quotedValue
    dsimp only
    rw [hrun, hlength]
    split
    · rw [if_pos (by omega)]
      exact congrArg (·, _) (by omega)
    · rw [if_neg (by omega)]
  rw [stateFrom_value, stateFrom_value quote ofScript rest, hvalue, drop_joined_add]

/-- A lasting place at the end of the first line goes on at the start of the second. -/
theorem stateFrom_lineEnd {mode : Mode} (h : mode.Lasting) (rest : List Char) :
    stateFrom mode (joined [] rest) = stateFrom mode rest := by
  cases mode with
  | tag ofScript => exact stateFrom_tag_joined ofScript rfl rest
  | comment => exact stateFrom_comment_joined rfl rest
  | value quote ofScript => exact stateFrom_value_joined quote ofScript rfl rest
  | content => exact h.elim
  | name ofScript => exact h.elim
  | script inner => exact h.elim

/-! ### What starts on the first line -/

/-- What a step on the first line becomes in the joined lines. Either it stays as it is, or it takes all of
the first line; then it ends in content or in a lasting place, and in the latter the joined lines read on as
the second line does that starts there. -/
def StepJoins (mode : Mode) (c : Char) (cs rest : List Char) : Prop :=
  step mode c (joined cs rest) = step mode c cs ∨
    cs.length ≤ (step mode c cs).more ∧ ((step mode c cs).mode = .content ∨
      (step mode c cs).mode.Lasting ∧ stateFrom mode (c :: joined cs rest) = stateFrom (step mode c cs).mode rest)

theorem tagStart?_joined (cs rest : List Char) : tagStart? (joined cs rest) = tagStart? cs := by
  by_cases hslash : cs.head? = some '/'
  · obtain ⟨tail, rfl⟩ := List.head?_eq_some_iff.1 hslash
    rw [joined_cons, tagStart?_slash, tagStart?_slash, Text.head?_joined (by decide)]
  · rw [tagStart?_of_ne hslash, tagStart?_of_ne (Text.head?_joined_ne (by decide) hslash rest),
      Text.head?_joined (by decide), Text.takeWhile_joined (by decide)]

/-- Whether an angle bracket in front of a text starts an instruction. -/
def StartsInstruction (cs : List Char) : Prop :=
  (cs.head? = some '!' ∨ cs.head? = some '?') ∧ ['!', '-', '-'].isPrefixOf cs = false

theorem angle_of_startsInstruction {cs : List Char} (h : StartsInstruction cs) :
    angle cs = ⟨.instruction, min (Text.run (· != '>') cs + 1) cs.length, .content⟩ := by
  unfold angle
  split
  · cases h.2
  · rfl
  · rfl
  · next hbang hquestion =>
    rcases h.1 with hmark | hmark <;> obtain ⟨tail, rfl⟩ := List.head?_eq_some_iff.1 hmark
    · exact absurd rfl (hbang tail)
    · exact absurd rfl (hquestion tail)

theorem angle_of_ne {cs : List Char} (hbang : cs.head? ≠ some '!') (hquestion : cs.head? ≠ some '?') :
    angle cs = (tagStart? cs).getD ⟨.errorWord, 0, .content⟩ := by
  unfold angle
  split
  · exact absurd rfl hbang
  · exact absurd rfl hbang
  · exact absurd rfl hquestion
  · rfl

theorem angle_joined (cs rest : List Char) :
    angle (joined cs rest) = angle cs ∨ cs.length ≤ (angle cs).more ∧ (angle cs).mode = .content := by
  by_cases hmark : cs.head? = some '!' ∨ cs.head? = some '?'
  · by_cases hcomment : ['!', '-', '-'].isPrefixOf cs = true
    · obtain ⟨tail, rfl⟩ := List.isPrefixOf_iff_prefix.1 hcomment
      exact .inl rfl
    · rw [Bool.not_eq_true] at hcomment
      have hjoined : StartsInstruction (joined cs rest) := by
        refine ⟨?_, by rw [Text.isPrefixOf_joined (by decide), hcomment]⟩
        cases cs with
        | nil => exact absurd hmark (by decide)
        | cons c cs => exact hmark
      rw [angle_of_startsInstruction ⟨hmark, hcomment⟩, angle_of_startsInstruction hjoined]
      by_cases hrun : Text.run (· != '>') cs < cs.length
      · left
        rw [Text.run_joined_of_lt hrun, Text.length_joined, Nat.min_eq_left hrun, Nat.min_eq_left (by omega)]
      · right
        exact ⟨by dsimp only; omega, rfl⟩
  · rw [not_or] at hmark
    left
    rw [angle_of_ne hmark.1 hmark.2, angle_of_ne (Text.head?_joined_ne (by decide) hmark.1 rest)
      (Text.head?_joined_ne (by decide) hmark.2 rest), tagStart?_joined]

theorem ampersand_joined (cs rest : List Char) : ampersand (joined cs rest) = ampersand cs := by
  have hrun := Text.run_le_length (fun c => Text.isAlphanumeric c || c == '#') cs
  unfold ampersand
  dsimp only
  rw [Text.run_joined (by decide), drop_joined hrun]
  simp only [Text.head?_joined_iff (show ';' ≠ '\n' by decide)]

theorem content_joined (c : Char) (cs rest : List Char) :
    content c (joined cs rest) = content c cs ∨ cs.length ≤ (content c cs).more ∧ (content c cs).mode = .content := by
  unfold content
  split
  · exact angle_joined cs rest
  · split
    · exact .inl (ampersand_joined cs rest)
    · split
      · by_cases hrun : Text.run Text.isBlank cs < cs.length
        · exact .inl (by rw [Text.run_joined_of_lt hrun])
        · exact .inr ⟨Nat.le_of_not_lt hrun, rfl⟩
      · exact .inl (by rw [Text.run_joined (by decide)])

/-- A value that is closed on the first line stays, and one that is not goes on behind the line end. -/
theorem quotedValue_joined (quote : QuoteMark) (ofScript : Bool) (cs rest : List Char) :
    quotedValue quote ofScript (joined cs rest) = quotedValue quote ofScript cs ∨
      Text.run (· != quote.char) cs = cs.length ∧
        quotedValue quote ofScript cs = (cs.length, .value quote ofScript) := by
  by_cases hrun : Text.run (· != quote.char) cs < cs.length
  · left
    unfold quotedValue
    rw [Text.run_joined_of_lt hrun, Text.length_joined]
    dsimp only
    rw [if_pos hrun, if_pos (by omega)]
  · right
    have hall := Nat.le_antisymm (Text.run_le_length (· != quote.char) cs) (Nat.le_of_not_lt hrun)
    unfold quotedValue
    dsimp only
    rw [if_neg hrun, hall]
    exact ⟨rfl, rfl⟩

theorem quote_joins (quote : QuoteMark) {ofScript : Bool} {c : Char} {cs rest : List Char}
    (hstep : ∀ cs, step (.tag ofScript) c cs =
      ⟨.tagValue, (quotedValue quote ofScript cs).1, (quotedValue quote ofScript cs).2⟩) :
    StepJoins (.tag ofScript) c cs rest := by
  have hlasting : (Mode.tag ofScript).Lasting := trivial
  unfold StepJoins
  rw [stateFrom_cons hlasting.ne_script, hstep, hstep]
  rcases quotedValue_joined quote ofScript cs rest with hsame | ⟨hrun, hvalue⟩
  · exact .inl (by rw [hsame])
  · refine .inr ⟨by rw [hvalue], .inr ?_⟩
    rw [hvalue]
    refine ⟨trivial, ?_⟩
    dsimp only
    rw [← stateFrom_value, stateFrom_value_joined _ _ hrun]

theorem insideTag_joins (ofScript : Bool) (c : Char) (cs rest : List Char) :
    StepJoins (.tag ofScript) c cs rest := by
  have hlasting : (Mode.tag ofScript).Lasting := trivial
  by_cases hdouble : c = '\x22'
  · subst hdouble
    exact quote_joins .double fun _ => rfl
  · by_cases hsingle : c = '\x27'
    · subst hsingle
      exact quote_joins .single fun _ => rfl
    · by_cases hblank : Text.isBlank c = true
      · unfold StepJoins
        rw [stateFrom_cons hlasting.ne_script, step, step, insideTag_blank ofScript hblank,
          insideTag_blank ofScript hblank]
        by_cases hrun : Text.run Text.isBlank cs < cs.length
        · exact .inl (by rw [Text.run_joined_of_lt hrun])
        · have hall := Nat.le_antisymm (Text.run_le_length Text.isBlank cs) (Nat.le_of_not_lt hrun)
          refine .inr ⟨Nat.le_of_not_lt hrun, .inr ⟨trivial, ?_⟩⟩
          dsimp only
          rw [← stateFrom_tag, stateFrom_tag_joined ofScript hall]
      · left
        show insideTag ofScript c (joined cs rest) = insideTag ofScript c cs
        unfold insideTag
        rw [Text.run_joined (p := isAttributeChar) (by decide)]
        simp only [Text.head?_joined_iff (show '>' ≠ '\n' by decide), if_neg hdouble, if_neg hsingle, if_neg hblank]

theorem comment_joins (c : Char) (cs rest : List Char) : StepJoins .comment c cs rest := by
  cases hfind : Text.find? ['-', '-', '>'] (c :: cs) with
  | some n =>
    left
    have hjoined : Text.find? ['-', '-', '>'] (c :: joined cs rest) = some n := by
      rw [← joined_cons, Text.find?_joined (by decide) (by decide), hfind]
      rfl
    unfold step
    dsimp only
    rw [hjoined, hfind]
  | none =>
    have hstep : step .comment c cs = ⟨.markupComment, cs.length, .comment⟩ := by
      unfold step
      dsimp only
      rw [hfind]
    refine .inr ⟨by rw [hstep], .inr ?_⟩
    rw [hstep]
    exact ⟨trivial, stateFrom_comment_joined hfind rest⟩

theorem value_joins (quote : QuoteMark) (ofScript : Bool) (c : Char) (cs rest : List Char) :
    StepJoins (.value quote ofScript) c cs rest := by
  rcases quotedValue_joined quote ofScript (c :: cs) rest with hsame | ⟨hrun, hvalue⟩
  · left
    unfold step
    dsimp only
    rw [← joined_cons, hsame]
  · have hstep : step (.value quote ofScript) c cs = ⟨.tagValue, cs.length, .value quote ofScript⟩ := by
      unfold step
      dsimp only
      rw [hvalue]
      rfl
    refine .inr ⟨by rw [hstep], .inr ?_⟩
    rw [hstep]
    exact ⟨trivial, stateFrom_value_joined quote ofScript hrun rest⟩

theorem step_joins {mode : Mode} (hmode : ∀ inner, mode ≠ .script inner) (c : Char) (cs rest : List Char) :
    StepJoins mode c cs rest := by
  cases mode with
  | content =>
    rcases content_joined c cs rest with hstays | ⟨hend, hcontent⟩
    · exact .inl hstays
    · exact .inr ⟨hend, .inl hcontent⟩
  | name ofScript =>
    left
    unfold step
    dsimp only
    rw [Text.run_joined (by decide)]
  | tag ofScript => exact insideTag_joins ofScript c cs rest
  | comment => exact comment_joins c cs rest
  | value quote ofScript => exact value_joins quote ofScript c cs rest
  | script inner => exact absurd rfl (hmode inner)

/-! A step that ends in front of a name leaves the name. -/

theorem more_lt_of_angle {ofScript : Bool} {cs : List Char} :
    (angle cs).mode = .name ofScript → (angle cs).more < cs.length := by
  unfold angle
  split
  · exact nofun
  · exact nofun
  · exact nofun
  · cases htag : tagStart? cs with
    | some s => exact fun _ => more_lt_of_tagStart? htag
    | none => exact nofun

theorem lasting_quotedValue (quote : QuoteMark) (ofScript : Bool) (cs : List Char) :
    (quotedValue quote ofScript cs).2.Lasting := by
  unfold quotedValue
  dsimp only
  split <;> trivial

theorem mode_insideTag_ne (ofScript named : Bool) (c : Char) (cs : List Char) :
    (insideTag ofScript c cs).mode ≠ .name named := by
  unfold insideTag
  split_ifs
  · exact Mode.noConfusion
  · exact Mode.noConfusion
  · exact Mode.noConfusion
  · exact (lasting_quotedValue ..).ne_name named
  · exact (lasting_quotedValue ..).ne_name named
  all_goals exact Mode.noConfusion

theorem more_lt_of_name {mode : Mode} {ofScript : Bool} {c : Char} {cs : List Char}
    (hmode : ∀ inner, mode ≠ .script inner) (h : (step mode c cs).mode = .name ofScript) :
    (step mode c cs).more < cs.length := by
  cases mode with
  | content =>
    replace h : (content c cs).mode = .name ofScript := h
    show (content c cs).more < cs.length
    unfold content at h ⊢
    split_ifs at h ⊢
    · exact more_lt_of_angle h
    · unfold ampersand at h
      dsimp only at h
      split_ifs at h
  | name named => cases h
  | tag named => exact absurd h (mode_insideTag_ne _ _ _ _)
  | comment =>
    unfold step at h
    dsimp only at h
    split at h <;> cases h
  | value quote named => exact absurd h ((lasting_quotedValue ..).ne_name ofScript)
  | script inner => exact absurd rfl (hmode inner)

/-! ### The joined lines -/

/-- The states that carry a lasting place. -/
def lastingCodes : List UInt32 := [1, 2, 3, 4, 9, 11, 12]

theorem lasting_of_code {mode : Mode} (hmode : ∀ inner, mode ≠ .script inner)
    (hname : ∀ ofScript, mode ≠ .name ofScript) (h : mode.toState.code ∈ lastingCodes) : mode.Lasting := by
  cases mode with
  | content => exact absurd h (by decide)
  | name ofScript => exact absurd rfl (hname ofScript)
  | script inner => exact absurd rfl (hmode inner)
  | tag ofScript => trivial
  | comment => trivial
  | value quote ofScript => trivial

theorem not_mem_lastingCodes {code : UInt32} (h : 32 ≤ code.toNat) : code ∉ lastingCodes := by
  have hsmall : lastingCodes.all (fun code => decide (code.toNat < 32)) = true := by decide
  exact fun hmem => absurd (of_decide_eq_true (List.all_eq_true.1 hsmall code hmem)) (Nat.not_lt.2 h)

theorem scriptLength?_joined (cs rest : List Char) :
    scriptLength? (joined cs rest) =
      (scriptLength? cs).or ((scriptLength? rest).map (cs.length + 1 + ·)) :=
  Text.firstSuffix?_joined (Text.startsWithFolded_joined (by decide)) rfl cs rest

/-- **The joined lines read on as the second one does** that starts in the place that the first line ends in,
if that place lasts. -/
theorem stateFrom_joined {line : Array Char} {mode : Mode} {cs : List Char} (hline : cs <:+ line.toList)
    (hname : ∀ ofScript, mode = .name ofScript → cs ≠ []) (rest : List Char)
    (h : (scanFrom line mode cs).state.code ∈ lastingCodes) :
    ∃ last : Mode, last.Lasting ∧ (scanFrom line mode cs).state = last.toState ∧
      stateFrom mode (joined cs rest) = stateFrom last rest := by
  fun_induction scanFrom line mode cs with
  | case1 inner cs _ n hn ih =>
    have hrest : cs.drop n <:+ line.toList := (List.drop_suffix n cs).trans hline
    obtain ⟨last, hlast, hstate, hjoined⟩ := ih hrest (fun _ hmode => Mode.noConfusion hmode) h
    refine ⟨last, hlast, hstate, ?_⟩
    have hle := length_le_of_scriptLength? hn
    have hlength : scriptLength? (joined cs rest) = some n := by
      rw [scriptLength?_joined, hn]
      rfl
    rw [stateFrom_script_closed hlength, drop_joined hle, hjoined]
  | case2 inner cs _ hn r =>
    have hr : r = embedded inner cs := handOver_end hline inner
    have hcode := code_inScript_embedded inner cs
    rw [← hr] at hcode
    exact absurd h (not_mem_lastingCodes (Nat.le_trans (Nat.le_add_right 32 _) (Nat.le_of_eq hcode.symm)))
  | case3 mode hmode =>
    have hlasting := lasting_of_code hmode (fun ofScript hmode => hname ofScript hmode rfl) h
    exact ⟨mode, hlasting, rfl, stateFrom_lineEnd hlasting rest⟩
  | case4 mode c cs hmode s ih =>
    have hrest : cs.drop s.more <:+ line.toList :=
      ((List.drop_suffix s.more cs).trans (List.suffix_cons c cs)).trans hline
    rcases step_joins hmode c cs rest with hstep | ⟨hend, hlast⟩
    · have hnamed (ofScript : Bool) (hs : s.mode = .name ofScript) : cs.drop s.more ≠ [] :=
        List.drop_eq_nil_iff.not.2 (Nat.not_le.2 (more_lt_of_name hmode hs))
      obtain ⟨last, hlast, hstate, hjoined⟩ := ih hrest hnamed h
      refine ⟨last, hlast, hstate, ?_⟩
      rw [joined_cons, stateFrom_cons hmode, hstep, drop_joined (more_step_le mode c cs), hjoined]
    · have hnil : cs.drop s.more = [] := List.drop_eq_nil_of_le hend
      rw [Reading.cons, hnil] at h ⊢
      rcases hlast with hcontent | ⟨hlast, hjoined⟩
      · rw [show s.mode = .content from hcontent, scanFrom_nil line fun _ => Mode.noConfusion] at h
        exact absurd (show LineState.neutral.code ∈ lastingCodes from h) (by decide)
      · rw [scanFrom_nil line hlast.ne_script]
        exact ⟨s.mode, hlast, rfl, hjoined⟩

theorem lasting_ofState {s : LineState} (h : s.code ∈ lastingCodes) :
    (Mode.ofState s).Lasting ∧ (Mode.ofState s).toState = s := by
  have hcodes : lastingCodes.all (fun code => decide
      ((Mode.ofState ⟨code⟩).Lasting ∧ (Mode.ofState ⟨code⟩).toState = ⟨code⟩)) = true := by decide
  exact of_decide_eq_true (List.all_eq_true.1 hcodes s.code h)

/-- The second line, read from the state that the first ends in, ends as the joined lines do. -/
theorem state_scan_joined (s : LineState) (cs rest : List Char) (h : (scan s cs).state.code ∈ lastingCodes) :
    (scan s (joined cs rest)).state = (scan (scan s cs).state rest).state := by
  have hjoined : (scan s (joined cs rest)).state = stateFrom (Mode.ofState s) (joined cs rest) := by
    rw [scan, if_neg]
    · rfl
    · rintro ⟨hempty, -⟩
      cases cs <;> cases hempty
  rw [hjoined]
  unfold scan at h ⊢
  by_cases hempty : cs.isEmpty ∧ s.code < Mode.scriptBase
  · rw [if_pos hempty] at h
    obtain ⟨hlasting, hstate⟩ := lasting_ofState h
    rw [if_pos hempty, List.isEmpty_iff.1 hempty.1, stateFrom_lineEnd hlasting,
      ← state_scan_toState hlasting, hstate]
    rfl
  · rw [if_neg hempty] at h
    have hname (ofScript : Bool) (hmode : Mode.ofState s = .name ofScript) : cs ≠ [] :=
      absurd hmode (Mode.ofState_ne_name s ofScript)
    obtain ⟨last, hlast, hstate, hrest⟩ := stateFrom_joined (List.suffix_refl cs) hname rest h
    rw [if_neg hempty, hstate, hrest, ← state_scan_toState hlast]
    rfl

end Markup

end Linewise
