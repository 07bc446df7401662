import Linewise.CFamily.InPlace.Scan
import Linewise.Markup.Mode

/-!
# Scanning a line of markup

Each step looks at one character and those behind it and cuts one lexeme, which reaches at most to the end of
the line (`more_step_le`) and may change the mode (`Step.mode`). A script is read as a whole, up to its closing tag or to the end of the line, by the
scanner of JavaScript; its lexemes belong to language 1. That scanner is handed the columns of the script
and reads them in place, and what it finds is what it would find in the script by itself (`handOver_eq`).
-/

namespace Linewise.Markup

open Token (Kind Lexeme Reading Span)

/-- The number of the language of scripts. -/
def scriptLanguage : Nat := 1

/-- What ends a script. -/
def closingScript : List Char := ['<', '/', 's', 'c', 'r', 'i', 'p', 't']

/-- Number of characters of a script in front of its closing tag, if that is on the line. -/
def scriptLength? (cs : List Char) : Option Nat :=
  Text.firstSuffix? (Text.startsWithFolded closingScript) cs

/-- Whether the name of a tag may hold a character. -/
def isNameChar (c : Char) : Bool :=
  Text.isAlphanumeric c || ['-', '_', ':', '.'].contains c

/-- Whether a word of content, or an attribute, goes on with a character. -/
def isContentChar (c : Char) : Bool := !(Text.isBlank c || c == '<' || c == '&')

/-- Whether the name of an attribute may hold a character. -/
def isAttributeChar (c : Char) : Bool :=
  !(Text.isBlank c || ['>', '/', '=', '\x22', '\x27', '<'].contains c)

/-- One lexeme at a character, and the mode behind it. -/
structure Step where
  kind : Kind
  /-- Number of characters of the lexeme behind its first one. -/
  more : Nat
  mode : Mode

/-- The delimiter of a tag in front of its name, if a name follows. -/
def tagStart? (cs : List Char) : Option Step :=
  let (closing, rest) := match cs with
    | '/' :: rest => (true, rest)
    | _ => (false, cs)
  if rest.head?.any Text.isAlphabetic then
    let name := String.ofList ((rest.takeWhile isNameChar).map Char.toLower)
    some ⟨.tagDelimiter, if closing then 1 else 0, .name (!closing && name == "script")⟩
  else none

/-- What starts with an angle bracket, which `cs` follows. -/
def angle (cs : List Char) : Step :=
  match cs with
  | '!' :: '-' :: '-' :: _ => ⟨.markupComment, 3, .comment⟩
  | '!' :: _ | '?' :: _ =>
    ⟨.instruction, min (Text.run (· != '>') cs + 1) cs.length, .content⟩
  | _ => (tagStart? cs).getD ⟨.errorWord, 0, .content⟩

/-- What starts with an ampersand, which `cs` follows. -/
def ampersand (cs : List Char) : Step :=
  let inside := Text.run (fun c => Text.isAlphanumeric c || c == '#') cs
  if inside ≠ 0 ∧ (cs.drop inside).head? = some ';' then ⟨.entity, inside + 1, .content⟩
  else ⟨.identifier, 0, .content⟩

/-- A lexeme of content. -/
def content (c : Char) (cs : List Char) : Step :=
  if c = '<' then angle cs
  else if c = '&' then ampersand cs
  else if Text.isBlank c then ⟨.whitespace, Text.run Text.isBlank cs, .content⟩
  else ⟨.identifier, Text.run isContentChar cs, .content⟩

/-- How far an attribute value reaches from inside it, and the mode behind it: up to the closing quote
and with it, or to the end of the line, if the quote is not on it. -/
def quotedValue (quote : QuoteMark) (ofScript : Bool) (cs : List Char) : Nat × Mode :=
  let inside := Text.run (· != quote.char) cs
  if inside < cs.length then (inside + 1, .tag ofScript) else (inside, .value quote ofScript)

/-- A lexeme inside a tag. -/
def insideTag (ofScript : Bool) (c : Char) (cs : List Char) : Step :=
  if c = '>' then ⟨.tagDelimiter, 0, if ofScript then .script .neutral else .content⟩
  else if c = '/' ∧ cs.head? = some '>' then ⟨.tagDelimiter, 1, .content⟩
  else if c = '\x22' then
    let (more, mode) := quotedValue .double ofScript cs
    ⟨.tagValue, more, mode⟩
  else if c = '\x27' then
    let (more, mode) := quotedValue .single ofScript cs
    ⟨.tagValue, more, mode⟩
  else if c = '=' ∨ c = '/' then ⟨.operator, 0, .tag ofScript⟩
  else if c = '<' then ⟨.errorWord, 0, .tag ofScript⟩
  else if Text.isBlank c then ⟨.whitespace, Text.run Text.isBlank cs, .tag ofScript⟩
  else ⟨.tagAttribute, Text.run isAttributeChar cs, .tag ofScript⟩

/-- The lexeme at a character in a mode other than a script's. -/
def step (mode : Mode) (c : Char) (cs : List Char) : Step :=
  match mode with
  | .content | .script _ => content c cs
  | .name ofScript => ⟨.tagName, Text.run isNameChar cs, .tag ofScript⟩
  | .tag ofScript => insideTag ofScript c cs
  | .comment =>
    match Text.find? ['-', '-', '>'] (c :: cs) with
    | some n => ⟨.markupComment, n + 2, .content⟩
    | none => ⟨.markupComment, cs.length, .comment⟩
  | .value quote ofScript =>
    let (length, mode) := quotedValue quote ofScript (c :: cs)
    ⟨.tagValue, length - 1, mode⟩

/-! ### How far a step reaches

A step never takes more than there is on the line, so a lexeme is as long as its step says. -/

theorem tagStart?_slash (cs : List Char) :
    tagStart? ('/' :: cs) =
      if cs.head?.any Text.isAlphabetic then some ⟨.tagDelimiter, 1, .name false⟩ else none :=
  rfl

theorem tagStart?_of_ne {cs : List Char} (h : cs.head? ≠ some '/') :
    tagStart? cs =
      if cs.head?.any Text.isAlphabetic then
        some ⟨.tagDelimiter, 0, .name (String.ofList ((cs.takeWhile isNameChar).map Char.toLower) == "script")⟩
      else none := by
  unfold tagStart?
  split
  next closing rest hmatch =>
  split at hmatch
  · exact absurd rfl h
  · obtain ⟨rfl, rfl⟩ := Prod.mk.inj hmatch
    rfl

theorem more_lt_of_tagStart? {cs : List Char} {s : Step} (h : tagStart? cs = some s) : s.more < cs.length := by
  have hlength {cs : List Char} (hhead : cs.head?.any Text.isAlphabetic = true) : 0 < cs.length := by
    cases cs with
    | nil => cases hhead
    | cons c cs => exact Nat.succ_pos _
  by_cases hslash : cs.head? = some '/'
  · obtain ⟨tail, rfl⟩ := List.head?_eq_some_iff.1 hslash
    rw [tagStart?_slash] at h
    split at h
    · next hhead =>
      obtain rfl := Option.some.inj h
      exact Nat.succ_lt_succ (hlength hhead)
    · cases h
  · rw [tagStart?_of_ne hslash] at h
    split at h
    · next hhead =>
      obtain rfl := Option.some.inj h
      exact hlength hhead
    · cases h

theorem more_angle_le (cs : List Char) : (angle cs).more ≤ cs.length := by
  unfold angle
  split
  · simp
  · exact Nat.min_le_right _ _
  · exact Nat.min_le_right _ _
  · cases htag : tagStart? cs with
    | none => exact Nat.zero_le _
    | some s => exact Nat.le_of_lt (more_lt_of_tagStart? htag)

theorem more_ampersand_le (cs : List Char) : (ampersand cs).more ≤ cs.length := by
  unfold ampersand
  dsimp only
  split
  · next h =>
    obtain ⟨tail, htail⟩ := List.head?_eq_some_iff.1 h.2
    have hlength := congrArg List.length htail
    rw [List.length_drop, List.length_cons] at hlength
    dsimp only
    omega
  · exact Nat.zero_le _

theorem more_content_le (c : Char) (cs : List Char) : (content c cs).more ≤ cs.length := by
  unfold content
  split
  · exact more_angle_le cs
  · split
    · exact more_ampersand_le cs
    · split <;> exact Text.run_le_length _ cs

theorem quotedValue_le (quote : QuoteMark) (ofScript : Bool) (cs : List Char) :
    (quotedValue quote ofScript cs).1 ≤ cs.length := by
  unfold quotedValue
  dsimp only
  split
  · next h => exact h
  · exact Text.run_le_length _ cs

theorem more_insideTag_le (ofScript : Bool) (c : Char) (cs : List Char) :
    (insideTag ofScript c cs).more ≤ cs.length := by
  unfold insideTag
  split
  · exact Nat.zero_le _
  · split
    · next hslash =>
      obtain ⟨tail, rfl⟩ := List.head?_eq_some_iff.1 hslash.2
      exact Nat.succ_le_succ (Nat.zero_le _)
    · split
      · exact quotedValue_le .double ofScript cs
      · split
        · exact quotedValue_le .single ofScript cs
        · split
          · exact Nat.zero_le _
          · split
            · exact Nat.zero_le _
            · split <;> exact Text.run_le_length _ cs

/-- **A step reaches at most to the end of the line**, in every mode. -/
theorem more_step_le (mode : Mode) (c : Char) (cs : List Char) : (step mode c cs).more ≤ cs.length := by
  cases mode with
  | content => exact more_content_le c cs
  | script inner => exact more_content_le c cs
  | name ofScript => exact Text.run_le_length isNameChar cs
  | tag ofScript => exact more_insideTag_le ofScript c cs
  | comment =>
    unfold step
    dsimp only
    split
    · next n hfind =>
      have hle := Text.add_length_le_of_find? hfind
      simp only [List.length_cons, List.length_nil] at hle
      dsimp only
      omega
    · exact Nat.le_refl _
  | value quote ofScript => exact Nat.sub_le_of_le_add (quotedValue_le quote ofScript (c :: cs))

theorem length_take_step (mode : Mode) (c : Char) (cs : List Char) :
    (c :: cs.take (step mode c cs).more).length = (step mode c cs).more + 1 := by
  rw [List.length_cons, List.length_take_of_le (more_step_le mode c cs)]

/-! ### Reading a line on -/

/-- A script by itself, as lexemes of the embedded language. -/
def embedded (inner : LineState) (cs : List Char) : Reading :=
  let r := CFamily.scan .javaScript inner cs
  ⟨r.lexemes.map (Lexeme.embed scriptLanguage), r.state⟩

/-- The script between two columns of a line, as lexemes of the embedded language. -/
def handOver (line : Array Char) (start stop : Nat) (inner : LineState) : Reading :=
  let outline := CFamily.InPlace.read .javaScript ⟨line, start, stop⟩ inner
  ⟨(outline.spans.flatMap (Span.lexemes line)).map (Lexeme.embed scriptLanguage), outline.state⟩

/-- Reads the end `cs` of a line on in a given mode. -/
def scanFrom (line : Array Char) (mode : Mode) (cs : List Char) : Reading :=
  match mode, cs with
  | .script inner, cs =>
    let column := line.size - cs.length
    match scriptLength? cs with
    | some n =>
      (scanFrom line .content (cs.drop n)).after (handOver line column (column + n) inner).lexemes
    | none =>
      let r := handOver line column line.size inner
      ⟨r.lexemes, (Mode.script r.state).toState⟩
  | mode, [] => ⟨[], mode.toState⟩
  | mode, c :: cs =>
    let s := step mode c cs
    (scanFrom line s.mode (cs.drop s.more)).cons ⟨s.kind, c :: cs.take s.more, 0⟩
termination_by 2 * cs.length + if mode matches .script _ then 1 else 0
decreasing_by
  · simp only [List.length_drop, reduceIte]
    omega
  · simp only [List.length_drop, List.length_cons]
    split
    · split <;> omega
    · split <;> omega

theorem text_embedded (inner : LineState) (cs : List Char) : (embedded inner cs).text = cs := by
  have h := CFamily.text_scan .javaScript inner cs
  simpa [embedded, Reading.text, Lexeme.embed, Function.comp_def] using h

theorem length_le_of_scriptLength? {cs : List Char} {n : Nat} (h : scriptLength? cs = some n) :
    n ≤ cs.length :=
  Nat.le_of_lt (Text.firstSuffix?_eq_some h).1

section Line
variable {line : Array Char} {cs : List Char} (hline : cs <:+ line.toList)
include hline

/-- **A script is read as by itself**: the line around it does not count. -/
theorem handOver_eq {n : Nat} (hn : n ≤ cs.length) (inner : LineState) :
    handOver line (line.size - cs.length) (line.size - cs.length + n) inner = embedded inner (cs.take n) := by
  have hlength : cs.length ≤ line.size := hline.length_le
  let w : Text.Window := ⟨line, line.size - cs.length, line.size - cs.length + n⟩
  have hrest : line.toList.drop (line.size - cs.length) = cs := (List.suffix_iff_eq_drop.1 hline).symm
  have hbehind : w.behind w.start = cs.take n := by
    show (line.toList.take (line.size - cs.length + n)).drop (line.size - cs.length) = _
    rw [List.drop_take, hrest, Nat.add_sub_cancel_left]
  have hread := CFamily.InPlace.read_eq (d := .javaScript) (w := w)
    (show line.size - cs.length + n ≤ line.size by omega) (Nat.le_add_right ..) inner
  rw [hbehind] at hread
  have htext : ((CFamily.scan .javaScript inner (cs.take n)).lexemes.map (·.text)).flatten <+:
      line.toList.drop (line.size - cs.length) := by
    rw [hrest, ← Reading.text, CFamily.text_scan]
    exact List.take_prefix n cs
  unfold handOver embedded
  dsimp only
  rw [hread, Reading.outline]
  dsimp only
  rw [Token.flatMap_lexemes_spans (CFamily.own_scan _ _ _) htext]

theorem handOver_end (inner : LineState) :
    handOver line (line.size - cs.length) line.size inner = embedded inner cs := by
  have hlength : cs.length ≤ line.size := hline.length_le
  have hwhole := handOver_eq hline (Nat.le_refl _) inner
  rwa [List.take_length, Nat.sub_add_cancel hlength] at hwhole

theorem scanFrom_script_closed {n : Nat} (hn : scriptLength? cs = some n) (inner : LineState) :
    scanFrom line (.script inner) cs =
      (scanFrom line .content (cs.drop n)).after (embedded inner (cs.take n)).lexemes := by
  rw [scanFrom, hn]
  dsimp only
  rw [handOver_eq hline (length_le_of_scriptLength? hn)]

theorem scanFrom_script_open (hn : scriptLength? cs = none) (inner : LineState) :
    scanFrom line (.script inner) cs =
      ⟨(embedded inner cs).lexemes, (Mode.script (embedded inner cs).state).toState⟩ := by
  rw [scanFrom, hn]
  dsimp only
  rw [handOver_end hline]

theorem text_scanFrom (mode : Mode) : (scanFrom line mode cs).text = cs := by
  fun_induction scanFrom line mode cs with
  | case1 inner cs _ n hn ih =>
    have htext := text_embedded inner (cs.take n)
    rw [Reading.text] at htext
    rw [Reading.text_after, handOver_eq hline (length_le_of_scriptLength? hn), htext,
      ih ((List.drop_suffix n cs).trans hline), List.take_append_drop]
  | case2 inner cs _ _ r =>
    have hr : r = embedded inner cs := handOver_end hline inner
    rw [hr]
    exact text_embedded inner cs
  | case3 => rfl
  | case4 mode c cs _ s ih =>
    simp [ih (((List.drop_suffix s.more cs).trans (List.suffix_cons c cs)).trans hline)]

end Line

theorem scanFrom_nil (line : Array Char) {mode : Mode} (hmode : ∀ inner, mode ≠ .script inner) :
    scanFrom line mode [] = ⟨[], mode.toState⟩ := by
  rw [scanFrom]
  exact hmode

theorem scanFrom_cons (line : Array Char) {mode : Mode} (hmode : ∀ inner, mode ≠ .script inner) (c : Char)
    (cs : List Char) :
    scanFrom line mode (c :: cs) =
      (scanFrom line (step mode c cs).mode (cs.drop (step mode c cs).more)).cons
        ⟨(step mode c cs).kind, c :: cs.take (step mode c cs).more, 0⟩ := by
  rw [scanFrom]
  exact hmode

/-- The end of a line reads alike in all lines that end so. -/
theorem scanFrom_congr {line other : Array Char} {cs : List Char} (hline : cs <:+ line.toList)
    (hother : cs <:+ other.toList) (mode : Mode) : scanFrom line mode cs = scanFrom other mode cs := by
  fun_induction scanFrom line mode cs with
  | case1 inner cs _ n hn ih =>
    rw [scanFrom_script_closed hother hn, handOver_eq hline (length_le_of_scriptLength? hn),
      ih ((List.drop_suffix n cs).trans hline) ((List.drop_suffix n cs).trans hother)]
  | case2 inner cs _ hn r =>
    have hr : r = embedded inner cs := handOver_end hline inner
    rw [scanFrom_script_open hother hn, hr]
  | case3 mode hmode => exact (scanFrom_nil other hmode).symm
  | case4 mode c cs hmode s ih =>
    have hrest : cs.drop s.more <:+ c :: cs := (List.drop_suffix s.more cs).trans (List.suffix_cons c cs)
    rw [scanFrom_cons other hmode, ih (hrest.trans hline) (hrest.trans hother)]

/-- Reads a text that starts in a given state. An empty line leaves a state as it is, except that it
may end a string in a script. -/
def scan (initial : LineState) (cs : List Char) : Reading :=
  if cs.isEmpty ∧ initial.code < Mode.scriptBase then ⟨[], initial⟩
  else scanFrom cs.toArray (Mode.ofState initial) cs

/-- **Nothing is lost**: the lexemes of a text, put together, are the text. -/
theorem text_scan (initial : LineState) (cs : List Char) : (scan initial cs).text = cs := by
  unfold scan
  split
  · next h => simp [Reading.text, List.isEmpty_iff.1 h.1]
  · exact text_scanFrom (List.suffix_refl cs) _

/-- The scanner of markup. -/
def scanner : Scanner where
  name := "HTML"
  tokenize := fun line initial lineStart => (scan initial line).toSequence lineStart 0 line.length
  stateAfter := fun line initial => (scan initial line).state
  isWordChar := isNameChar
  usesBraces := false
  lineComment := some ⟨"<!--", some "-->"⟩

theorem scanner_lawful : scanner.Lawful where
  endState_eq _ _ _ := rfl
  tokenize_moved line initial lineStart :=
    (scan initial line).toSequence_moved lineStart 0 line.length

end Linewise.Markup
