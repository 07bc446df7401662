import Linewise.Proofs.Chains

/-!
# Lines that move

Edits move lines without changing them. The tokens of a line that starts elsewhere in the document are
the same up to their document offsets, through all that is done to what the scanner makes: the cut at the
scan limit (`tokenizeCapped_moved`), the search for links (`mark_moved`) and the check that they tile the
line (`isSome_flaw?_moved`). So two lines with the same text and the same state in front of them have
the same tokens, up to the distance between their starts (`lineTokens_moved`).
-/

namespace Linewise

namespace Token

theorem moved_moved (a b : UInt64) (t : Token) : (t.moved a).moved b = t.moved (b + a) := by
  simp [moved, UInt64.add_assoc]

theorem Sequence.moved_moved (a b : UInt64) (s : Sequence) :
    (s.moved a).moved b = s.moved (b + a) := by
  simp [Sequence.moved, Token.moved_moved, Function.comp_def]

/-! ### Sequences -/

/-- Walking moved tokens ends as walking the tokens themselves, but for offsets in what is wrong. -/
theorem toOption_tiled_moved (distance : UInt64) (ts : List Token) (index column : Nat)
    (offset : UInt64) :
    (tiled index column (distance + offset) (ts.map (Token.moved distance))).toOption =
      (tiled index column offset ts).toOption := by
  induction ts generalizing index column offset with
  | nil => rfl
  | cons t ts ih =>
    have hoff : (distance + t.offset ≠ distance + offset) ↔ t.offset ≠ offset := by simp
    simp only [List.map_cons, tiled, Token.moved, hoff, UInt64.add_assoc]
    split_ifs
    · rfl
    · rfl
    · rfl
    · exact ih _ _ _

theorem Sequence.startOffset_moved (distance : UInt64) (s : Sequence) :
    (s.moved distance).startOffset = distance + s.startOffset := by
  cases h : s.tokens <;> simp [Sequence.startOffset, Sequence.moved, Token.moved, h]

/-- Whether tokens tile a line does not hang on where the line starts. -/
theorem Sequence.isSome_flaw?_moved (distance : UInt64) (s : Sequence) (lineLength : Nat) :
    ((s.moved distance).flaw? lineLength).isSome = (s.flaw? lineLength).isSome := by
  have htiled := toOption_tiled_moved distance s.tokens 0 0 s.startOffset
  have hend : (distance + s.sentinel.offset ≠ distance + s.startOffset + .ofNat lineLength) ↔
      s.sentinel.offset ≠ s.startOffset + .ofNat lineLength := by simp [UInt64.add_assoc]
  unfold Sequence.flaw?
  rw [startOffset_moved]
  cases h : tiled 0 0 s.startOffset s.tokens with
  | error e =>
    rw [h] at htiled
    cases h' : tiled 0 0 (distance + s.startOffset) (s.tokens.map (Token.moved distance)) with
    | error e' => simp [Sequence.moved, h']
    | ok c => rw [h'] at htiled; cases htiled
  | ok covered =>
    rw [h] at htiled
    cases h' : tiled 0 0 (distance + s.startOffset) (s.tokens.map (Token.moved distance)) with
    | error e' => rw [h'] at htiled; cases htiled
    | ok c =>
      rw [h'] at htiled
      obtain rfl : c = covered := Option.some.inj htiled
      simp only [Sequence.moved, h', Token.moved, hend]

/-! ### Builders -/

/-- The same tokens of a line that starts elsewhere. -/
def Builder.moved (distance : UInt64) (b : Builder) : Builder :=
  ⟨distance + b.lineStart, b.tokens.map (Token.moved distance)⟩

theorem Builder.pushEmbedded_moved (distance : UInt64) (b : Builder) (kind : Kind)
    (start stop language : Nat) :
    (b.moved distance).pushEmbedded kind start stop language =
      (b.pushEmbedded kind start stop language).moved distance := by
  unfold Builder.pushEmbedded
  split_ifs
  · rfl
  · simp [Builder.moved, Token.moved, UInt64.add_assoc]

theorem Builder.finish_moved (distance : UInt64) (b : Builder) (lineLength : Nat)
    (state : LineState) :
    (b.moved distance).finish lineLength state =
      (b.finish lineLength state).moved distance := by
  simp [Builder.finish, Builder.moved, Sequence.moved, endOfLine, Token.moved, UInt64.add_assoc]

theorem Builder.empty_eq_moved (lineStart : UInt64) :
    Builder.empty lineStart = (Builder.empty 0).moved lineStart := by
  simp [Builder.empty, Builder.moved]

theorem Builder.foldl_pushEmbedded_moved (distance : UInt64) (ts : List Token) (b : Builder) :
    (ts.map (Token.moved distance)).foldl
        (fun b t => b.pushEmbedded t.kind t.start t.stop t.language) (b.moved distance) =
      (ts.foldl (fun b t => b.pushEmbedded t.kind t.start t.stop t.language) b).moved distance := by
  induction ts generalizing b with
  | nil => rfl
  | cons t ts ih =>
    rw [List.map_cons, List.foldl_cons, List.foldl_cons, ← ih, ← Builder.pushEmbedded_moved]
    rfl

end Token

/-! ### Scanned lines -/

namespace Scanner

variable {s : Scanner}

theorem tokenizeCapped_moved (hs : s.Lawful) (text : List Char) (initial : LineState)
    (lineStart : UInt64) (limit : Nat) :
    s.tokenizeCapped text initial lineStart limit =
      (s.tokenizeCapped text initial 0 limit).moved lineStart := by
  unfold tokenizeCapped
  split_ifs
  · exact hs.tokenize_moved _ _ _
  · have hhead := hs.tokenize_moved (text.take limit) initial lineStart
    simp only [hhead, Token.Builder.empty_eq_moved lineStart, Token.Sequence.moved,
      Token.Builder.foldl_pushEmbedded_moved, Token.Builder.push, Token.Builder.pushEmbedded_moved,
      Token.Builder.finish_moved]

theorem endState_tokenizeCapped (hs : s.Lawful) (text : List Char) (initial : LineState)
    (lineStart : UInt64) (limit : Nat) :
    (s.tokenizeCapped text initial lineStart limit).endState =
      s.stateAfterCapped text initial limit := by
  unfold tokenizeCapped stateAfterCapped
  split_ifs with h
  · rw [hs.endState_eq, List.take_of_length_le h]
  · exact hs.endState_eq _ _ _

end Scanner

namespace Hyperlink

theorem placePieces_moved (distance : UInt64) (t : Token) (start : Nat) (ps : List Piece) :
    placePieces (t.moved distance) start ps = (placePieces t start ps).map (Token.moved distance) := by
  induction ps generalizing start with
  | nil => rfl
  | cons p ps ih =>
    simp only [placePieces, ih]
    split_ifs
    · rfl
    · simp [Token.moved, UInt64.add_assoc]

theorem cut_moved (distance : UInt64) (text : List Char) (t : Token) :
    cut text (t.moved distance) = (cut text t).map (Token.moved distance) := by
  have hpieces : tokenPieces text (t.moved distance) = tokenPieces text t := rfl
  have hcand : isCandidate (t.moved distance) = isCandidate t := rfl
  unfold cut
  rw [hpieces, hcand]
  split_ifs
  · exact placePieces_moved distance t t.start _
  · rfl

theorem linkCount_moved (distance : UInt64) (text : List Char) (ts : List Token) :
    linkCount text (ts.map (Token.moved distance)) = linkCount text ts := by
  unfold linkCount
  rw [List.filter_map, List.flatMap_map]
  rfl

theorem mark_moved (distance : UInt64) (text : List Char) (s : Token.Sequence) :
    (mark text (s.moved distance)).2 = (mark text s).2.moved distance := by
  unfold mark
  simp only [Token.Sequence.moved, linkCount_moved]
  split_ifs
  · rfl
  · simp [List.flatMap_map, List.map_flatMap, cut_moved]

theorem endState_mark (text : List Char) (s : Token.Sequence) :
    (mark text s).2.endState = s.endState := by
  unfold mark
  dsimp only
  split_ifs <;> rfl

end Hyperlink

namespace Retokenizer

/-! ### Tokens on demand -/

theorem lineTokens_eq {r : Retokenizer} {source : Source} {i : Nat} {l : SourceLine}
    {before : LineState} (hl : source.line? i = some l) (hb : r.states.before i = .ok before) :
    r.lineTokens source i = .ok (r.finishTokens l.text (.ofNat l.start)
      (r.scanner.tokenizeCapped l.text before (.ofNat l.start) r.settings.scanLimit)) := by
  simp only [lineTokens, hl, hb]

theorem withLinks_moved (r : Retokenizer) (text : List Char) (distance : UInt64)
    (scanned : Token.Sequence) :
    r.withLinks text (scanned.moved distance) = (r.withLinks text scanned).moved distance := by
  unfold withLinks
  split_ifs
  · exact Hyperlink.mark_moved distance text scanned
  · rfl

theorem endState_withLinks (r : Retokenizer) (text : List Char) (scanned : Token.Sequence) :
    (r.withLinks text scanned).endState = scanned.endState := by
  unfold withLinks
  split_ifs
  · exact Hyperlink.endState_mark text scanned
  · rfl

theorem finishTokens_moved (r : Retokenizer) (text : List Char) (start distance : UInt64)
    (scanned : Token.Sequence) :
    r.finishTokens text (distance + start) (scanned.moved distance) =
      ((r.finishTokens text start scanned).1.moved distance,
        (r.finishTokens text start scanned).2) := by
  have hempty : Token.Builder.empty (distance + start) =
      (Token.Builder.empty start).moved distance := by
    simp [Token.Builder.empty, Token.Builder.moved]
  simp only [finishTokens, withLinks_moved, hempty, Token.Sequence.isSome_flaw?_moved,
    Token.Builder.push, Token.Builder.pushEmbedded_moved, Token.Builder.finish_moved]
  split_ifs <;> rfl

theorem endState_finishTokens (r : Retokenizer) (text : List Char) (start : UInt64)
    (scanned : Token.Sequence) :
    (r.finishTokens text start scanned).1.endState = scanned.endState := by
  unfold finishTokens
  dsimp only
  split_ifs
  · exact r.endState_withLinks text scanned
  · exact r.endState_withLinks text scanned

/-- **A line that moves keeps its tokens**, up to the distance between its two starts. -/
theorem lineTokens_moved {r r' : Retokenizer} {old new : Source} {i j : Nat} {l l' : SourceLine}
    {before : LineState} (hs : r.scanner.Lawful) (hscanner : r'.scanner = r.scanner)
    (hsettings : r'.settings = r.settings) (hi : old.line? i = some l) (hj : new.line? j = some l')
    (ht : l'.text = l.text) (hb : r.states.before i = .ok before)
    (hb' : r'.states.before j = .ok before) :
    r'.lineTokens new j = (r.lineTokens old i).map fun (s, malformed) =>
      (s.moved (.ofNat l'.start - .ofNat l.start), malformed) := by
  obtain ⟨distance, hd⟩ : ∃ d, d = UInt64.ofNat l'.start - UInt64.ofNat l.start := ⟨_, rfl⟩
  have hstart : UInt64.ofNat l'.start = distance + UInt64.ofNat l.start := by simp [hd]
  have hscan : ∀ start : UInt64, r.scanner.tokenizeCapped l.text before start r.settings.scanLimit =
      (r.scanner.tokenizeCapped l.text before 0 r.settings.scanLimit).moved start := fun start =>
    Scanner.tokenizeCapped_moved hs _ _ _ _
  have hfinish : r'.finishTokens = r.finishTokens := by
    unfold finishTokens withLinks
    rw [hsettings]
  rw [← hd, lineTokens_eq hi hb, lineTokens_eq hj hb', hfinish, hscanner, hsettings, ht, hscan,
    hstart, ← Token.Sequence.moved_moved, ← hscan, finishTokens_moved]
  rfl

end Retokenizer

end Linewise
