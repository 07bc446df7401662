import Linewise.Proofs.GatheredDamage
import Linewise.Proofs.LineOffsets
import Linewise.Proofs.ScannedLines

/-!
# Reading a document

A document only ever uses the built-in languages (`Retokenizer.BuiltIn`, kept by every step), and it has a
state for each line. So the tokens of every line can be made, and they tile the line: reading a document
does not fail, and never marks its states stale (`Document.Readable.exists_tokens`). The token that covers a
character can therefore be told from the text and the states alone (`Document.kindAt?`), and it is the one
that is found at the character's offset, as long as offsets fit into 64 bits.
-/

namespace Linewise

namespace Retokenizer

/-! ### Readers -/

theorem run_bind {α β : Type} (x : Reader α) (f : α → Reader β) (stale : Bool) :
    (x >>= f).run stale = match x.run stale with
      | (.ok a, stale) => (f a).run stale
      | (.error e, stale) => (.error e, stale) := by
  rw [ExceptT.run_bind]
  show StateT.bind _ _ stale = _
  unfold StateT.bind
  rcases x.run stale with ⟨_ | _, _⟩ <;> rfl

/-- The reader gives an answer, and leaves alone the note whether the states are stale. -/
def Returns {α : Type} (x : Reader α) (a : α) : Prop := ∀ stale, x.run stale = (.ok a, stale)

section Returns
variable {α β : Type} {x : Reader α} {f : α → Reader β} {a : α} {c : β}

theorem returns_pure (a : α) : Returns (pure a) a := fun _ => rfl

theorem Returns.bind (hx : Returns x a) (hf : Returns (f a) c) : Returns (x >>= f) c := by
  intro stale
  rw [run_bind, hx stale]
  exact hf stale

theorem returns_readTokens {r : Retokenizer} {source : Source} {line : Nat} {tokens : Token.Sequence}
    (h : r.lineTokens source line = .ok (tokens, false)) : Returns (r.readTokens source line) tokens := by
  intro stale
  simp only [readTokens, h]
  show (Except.ok tokens, stale || false) = _
  rw [Bool.or_false]

theorem reading_of_returns {r : Retokenizer} (h : Returns x a) : r.reading x = (.ok a, r) := by
  simp only [reading, h r.stale]

end Returns

/-! ### Built-in languages -/

/-- The languages to choose from are the built-in ones, and one of these is in use. -/
structure BuiltIn (r : Retokenizer) : Prop where
  language : ∃ l : Language, l.scanner = r.scanner
  registry_eq : r.registry = .builtin

section BuiltIn
variable {r r' : Retokenizer} {source : Source}

theorem BuiltIn.scanner (h : r.BuiltIn) : r.scanner.BuiltIn := by
  obtain ⟨l, hl⟩ := h.language
  exact hl ▸ l.builtIn_scanner

theorem BuiltIn.of_sameLanguage (h : r.BuiltIn) (hs : r.SameLanguage r') : r'.BuiltIn where
  language := hs.scanner_eq ▸ h.language
  registry_eq := hs.registry_eq.trans h.registry_eq

theorem builtIn_setLanguage (h : r.BuiltIn) (id : String) (source : Source) :
    (r.setLanguage id source).2.BuiltIn := by
  rcases r.setLanguage_cases id source with ⟨-, -, he⟩ | ⟨e, -, he⟩ | ⟨scanner, hget, -, he⟩
  · rw [he]
    exact h
  · rw [he]
    exact h
  · rw [he]
    rw [h.registry_eq] at hget
    have hchosen : BuiltIn { r with languageId := id, scanner := scanner } :=
      ⟨exists_language_of_get hget, h.registry_eq⟩
    exact hchosen.of_sameLanguage (sameLanguage_rebuild _ source)

/-- The tokens that the scanner itself makes of a line, from the state that is remembered in front of it. -/
def scanned? (r : Retokenizer) (source : Source) (line : Nat) : Option Token.Sequence :=
  match source.line? line, r.states.before line with
  | some l, .ok before => some (r.scanner.tokenizeCapped l.text before (.ofNat l.start) r.settings.scanLimit)
  | _, _ => none

theorem finishTokens_of_tiles {text : List Char} {start : UInt64} {scanned : Token.Sequence}
    (h : scanned.Tiles start text.length) (r : Retokenizer) :
    r.finishTokens text start scanned = (r.withLinks text scanned, false) ∧
      (r.withLinks text scanned).Tiles start text.length := by
  have hlinks : (r.withLinks text scanned).Tiles start text.length := by
    unfold withLinks
    split_ifs
    · exact Hyperlink.tiles_mark text h
    · exact h
  refine ⟨?_, hlinks⟩
  simp only [finishTokens, hlinks.flaw?_eq_none, Option.isSome_none, Bool.and_false, Bool.false_eq_true,
    if_false]

/-- **The scanner tiles a line**, from the state that is remembered in front of it, and the tokens of the line
are what it makes, with links marked. -/
theorem BuiltIn.exists_scanned (h : r.BuiltIn) {line : Nat} {l : SourceLine}
    (hl : source.line? line = some l) (hs : line ≤ r.states.length) :
    ∃ scanned, r.scanned? source line = some scanned ∧ scanned.Tiles (.ofNat l.start) l.text.length ∧
      Token.SingleSeparators scanned.tokens ∧
      r.lineTokens source line = .ok (r.withLinks l.text scanned, false) := by
  have hbefore := LineStates.before_eq hs
  have hline := lineTokens_eq hl hbefore
  generalize stateInFront _ _ _ = before at hbefore hline
  have htiles := Scanner.tiles_tokenizeCapped h.scanner.tiling l.text before (.ofNat l.start) r.settings.scanLimit
  have hsingle := h.scanner.singleSeparators_tokenizeCapped l.text before (.ofNat l.start) r.settings.scanLimit
  refine ⟨_, ?_, htiles, hsingle, ?_⟩
  · simp only [scanned?, hl, hbefore]
  · rw [hline, (finishTokens_of_tiles htiles r).1]

/-- **The tokens of a line can be made, and tile it.** -/
theorem BuiltIn.exists_lineTokens (h : r.BuiltIn) {line : Nat} {l : SourceLine}
    (hl : source.line? line = some l) (hs : line ≤ r.states.length) :
    ∃ tokens, r.lineTokens source line = .ok (tokens, false) ∧
      tokens.Tiles (.ofNat l.start) l.text.length ∧ Token.SingleSeparators tokens.tokens := by
  obtain ⟨scanned, -, htiles, hsingle, hline⟩ := h.exists_scanned hl hs
  refine ⟨_, hline, (finishTokens_of_tiles htiles r).2, ?_⟩
  unfold withLinks
  split_ifs
  · exact Hyperlink.singleSeparators_mark l.text hsingle
  · exact hsingle

end BuiltIn

end Retokenizer

namespace Document

open Retokenizer (Returns)

/-! ### Documents that can be read -/

/-- What a document has at any time: a built-in language, and a state for each line. -/
structure Readable (d : Document) : Prop where
  builtIn : d.retokenizer.BuiltIn
  ready : d.Ready

theorem reading_of_returns {α : Type} {d : Document} {x : Retokenizer.Reader α} {a : α} (h : Returns x a) :
    d.reading x = (.ok a, d) := by
  simp only [reading, Retokenizer.reading_of_returns h]

section Runs
variable {d : Document}

theorem builtIn_perform (h : d.retokenizer.BuiltIn) (now : Nat) (op : Op) :
    (d.perform now op).retokenizer.BuiltIn := by
  cases op with
  | change c =>
    show (d.change now c).2.retokenizer.BuiltIn
    rcases d.change_cases now c with ⟨start, stop, -, -, he⟩ | ⟨-, he, -⟩
    · rw [he]
      exact h
    · rw [he]
      exact h.of_sameLanguage (Retokenizer.sameLanguage_onEdit _ _ _)
  | setLanguage id =>
    show (d.setLanguage id now).2.retokenizer.BuiltIn
    rw [retokenizer_setLanguage]
    exact Retokenizer.builtIn_setLanguage h id _
  | verify => exact h.of_sameLanguage (Retokenizer.sameLanguage_verify _ _)
  | detectFolds => exact h.of_sameLanguage d.keeps_detectFolds.language
  | takeDamage => exact ⟨h.language, h.registry_eq⟩
  | withFolds f => exact h
  | ask question => exact ⟨h.language, h.registry_eq⟩
  | registerParser parser => exact h
  | pollParsers => exact ⟨h.language, h.registry_eq⟩
  | runParsers => exact ⟨h.language, h.registry_eq⟩

theorem readable_run (h : d.Readable) (steps : List (Nat × Op)) : (d.run steps).Readable := by
  refine ⟨?_, ready_run h.ready steps⟩
  induction steps using List.reverseRecOn with
  | nil => exact h.builtIn
  | append_singleton steps step ih =>
    rw [run_concat]
    exact builtIn_perform ih _ _

theorem readable_ofBuffer (buffer : Buffer) (filePath : Option String) (settings : Settings) :
    (ofBuffer buffer filePath settings).Readable := by
  refine ⟨?_, ready_ofBuffer buffer filePath settings⟩
  obtain ⟨-, r, hlanguage, hregistry, he⟩ := ofBuffer_cases buffer filePath settings
  have hr : r.BuiltIn := ⟨hlanguage, hregistry⟩
  rw [he]
  exact hr.of_sameLanguage (r.sameLanguage_rebuild _)

end Runs

/-! ### The kind at an offset -/

/-- The kind of the token that covers a column of a line. -/
def kindOn? (d : Document) (line column : Nat) : Option Token.Kind :=
  match d.retokenizer.lineTokens d.buffer.source line with
  | .ok (tokens, _) => (tokens.tokens.find? (·.covers column)).map (·.kind)
  | .error _ => none

/-- **The kind of the token that covers an offset** of the text. There is none if the offset is in a break,
or behind the text. -/
def kindAt? (d : Document) (offset : Nat) : Option Token.Kind :=
  let line := d.buffer.lineOf offset
  d.kindOn? line (offset - d.buffer.lineStart line)

section Kinds
variable {d : Document} {line column : Nat} {l : SourceLine}

theorem kindAt?_eq (hl : d.buffer.source.line? line = some l) (hcolumn : column < l.text.length) :
    d.kindAt? (l.start + column) = d.kindOn? line column := by
  have hline := Buffer.lineOf_source hl hcolumn
  rw [Buffer.lineOf_eq] at hline
  simp only [kindAt?, hline, Buffer.lineStart_eq hl, Nat.add_sub_cancel_left]

theorem kindOn?_eq_of_tokens {tokens : Token.Sequence} {malformed : Bool}
    (h : d.retokenizer.lineTokens d.buffer.source line = .ok (tokens, malformed)) (column : Nat) :
    d.kindOn? line column = (tokens.labelAt? column).map Prod.fst := by
  rw [kindOn?, h, Token.Sequence.labelAt?, Option.map_map]
  rfl

theorem Readable.le_states (h : d.Readable) (hl : d.buffer.source.line? line = some l) :
    line ≤ d.retokenizer.states.length := by
  have hcount : line < d.buffer.source.lineCount := (List.getElem?_eq_some_iff.mp hl).1
  rw [d.buffer.lineCount_source, ← h.ready.sized] at hcount
  exact Nat.le_of_lt hcount

/-- **A line is read without failure**, and the kind at an offset of it is that of the token which covers it. -/
theorem Readable.exists_tokens (h : d.Readable) (hl : d.buffer.source.line? line = some l) :
    ∃ tokens, d.retokenizer.lineTokens d.buffer.source line = .ok (tokens, false) ∧
      tokens.Tiles (.ofNat l.start) l.text.length ∧ Token.SingleSeparators tokens.tokens ∧
      ∀ column < l.text.length,
        d.kindAt? (l.start + column) = (tokens.tokens.find? (·.covers column)).map (·.kind) := by
  obtain ⟨tokens, hline, htiles, hsingle⟩ := h.builtIn.exists_lineTokens hl (h.le_states hl)
  refine ⟨tokens, hline, htiles, hsingle, ?_⟩
  intro column hcolumn
  rw [kindAt?_eq hl hcolumn, kindOn?, hline]

theorem isSeparatorAt_eq {tokens : Token.Sequence} (htiles : tokens.Tiles (.ofNat l.start) l.text.length)
    (hl : d.buffer.source.line? line = some l) (hsize : d.buffer.length < UInt64.size)
    (hcolumn : column < l.text.length) :
    BracketMatcher.isSeparatorAt tokens (.ofNat (l.start + column)) =
      ((tokens.tokens.find? (·.covers column)).map (·.kind) == some .separator) := by
  have hstop := Buffer.stop_le_length hl
  rw [BracketMatcher.isSeparatorAt, htiles.tokenAt?_eq (by omega) hcolumn]
  cases tokens.tokens.find? (·.covers column) <;> rfl

end Kinds

end Document

end Linewise
