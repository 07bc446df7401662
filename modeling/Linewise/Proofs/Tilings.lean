import Linewise.Hyperlink
import Linewise.Scanner
import Mathlib.Algebra.GroupWithZero.Nat
import Mathlib.Tactic.Common

/-!
# Tokens that tile a line

The tokens of a line *tile* it (`Token.Sequence.Tiles`) if they stand one behind the other from the
line's first column to its end (`Token.Contiguous`), none of them is empty or has the kind of the
sentinel, and each, like the sentinel, has the document offset that goes with its column. The check that
a sequence is sound finds fault with it just if it does not tile (`flaw?_eq_none_iff`).

Lexemes that stand for text tile it once they are placed (`Reading.tiles_toSequence`). The cut at the
scan limit keeps a tiling (`tiles_tokenizeCapped`), and so does the search for links (`tiles_mark`), which
cuts tokens into pieces that are as long together and that say the same of each character (`labelAt?_mark`).
-/

namespace Linewise

namespace Token

/-- **Tokens stand one behind the other**, from one column to another: each starts where the one in front
of it stops. -/
def Contiguous (first : Nat) (ts : List Token) (last : Nat) : Prop :=
  ts.map (·.start) ++ [last] = first :: ts.map stop

section Contiguous
variable {first last : Nat} {t : Token} {ts us : List Token}

@[simp] theorem contiguous_nil : Contiguous first [] last ↔ last = first := by
  simp [Contiguous]

@[simp] theorem contiguous_cons :
    Contiguous first (t :: ts) last ↔ t.start = first ∧ Contiguous t.stop ts last := by
  simp [Contiguous]

theorem contiguous_append :
    Contiguous first (ts ++ us) last ↔
      ∃ middle, Contiguous first ts middle ∧ Contiguous middle us last := by
  induction ts generalizing first with
  | nil => simp
  | cons t ts ih => simp [ih, and_assoc]

theorem Contiguous.le (h : Contiguous first ts last) : first ≤ last := by
  induction ts generalizing first with
  | nil => exact Nat.le_of_eq (contiguous_nil.mp h).symm
  | cons t ts ih =>
    obtain ⟨rfl, hrest⟩ := contiguous_cons.mp h
    exact Nat.le_trans (Nat.le_add_right _ _) (ih hrest)

end Contiguous

/-- A token that stands for text, and that has the document offset which goes with its column. -/
structure Sound (lineStart : UInt64) (t : Token) : Prop where
  kind_ne : t.kind ≠ .null
  length_pos : 0 < t.length
  offset_eq : t.offset = lineStart + .ofNat t.start

/-- **The tokens tile a line** of a given length that starts at a given document offset. -/
structure Sequence.Tiles (s : Sequence) (lineStart : UInt64) (length : Nat) : Prop where
  sound : ∀ t ∈ s.tokens, t.Sound lineStart
  contiguous : Contiguous 0 s.tokens length
  sentinel_eq : s.sentinel = endOfLine lineStart length

/-! ### The check of a sequence -/

/-- The walk along tokens gets to their end just if they are sound and contiguous. -/
theorem tiled_eq_ok_iff {lineStart : UInt64} (index : Nat) {column covered : Nat} {ts : List Token} :
    tiled index column (lineStart + .ofNat column) ts = .ok covered ↔
      (∀ t ∈ ts, t.Sound lineStart) ∧ Contiguous column ts covered := by
  induction ts generalizing index column with
  | nil => simp [tiled, eq_comm]
  | cons t ts ih =>
    have hnext : lineStart + UInt64.ofNat column + .ofNat t.length =
        lineStart + .ofNat (column + t.length) := by
      rw [UInt64.ofNat_add, UInt64.add_assoc]
    simp only [tiled, hnext, List.forall_mem_cons, contiguous_cons]
    split_ifs with hkind hempty hplace
    · exact ⟨nofun, fun h => absurd hkind h.1.1.kind_ne⟩
    · exact ⟨nofun, fun h => absurd hempty (Nat.pos_iff_ne_zero.mp h.1.1.length_pos)⟩
    · refine ⟨nofun, fun ⟨⟨ht, _⟩, hstart, _⟩ => ?_⟩
      rcases hplace with hcolumn | hoffset
      · exact absurd hstart hcolumn
      · exact absurd (by rw [ht.offset_eq, hstart]) hoffset
    · obtain ⟨rfl, hoffset⟩ : t.start = column ∧ t.offset = lineStart + .ofNat column := by
        simpa only [ne_eq, not_or, not_not] using hplace
      have ht : t.Sound lineStart := ⟨hkind, Nat.pos_of_ne_zero hempty, hoffset⟩
      rw [ih (index + 1)]
      exact ⟨fun h => ⟨⟨ht, h.1⟩, rfl, h.2⟩, fun h => ⟨h.1.2, h.2.2⟩⟩

/-- **A sequence passes the check just if its tokens tile the line from where its first token starts**, and
its sentinel marks the end. -/
theorem Sequence.flaw?_eq_none_iff {s : Sequence} {length : Nat} :
    s.flaw? length = none ↔
      (∀ t ∈ s.tokens, t.Sound s.startOffset) ∧ Contiguous 0 s.tokens length ∧
        s.sentinel.kind = .null ∧ s.sentinel.offset = s.startOffset + .ofNat length := by
  have hzero : s.startOffset + UInt64.ofNat 0 = s.startOffset := by simp
  have htiled (covered : Nat) : tiled 0 0 s.startOffset s.tokens = .ok covered ↔
      (∀ t ∈ s.tokens, t.Sound s.startOffset) ∧ Contiguous 0 s.tokens covered := by
    rw [← tiled_eq_ok_iff 0, hzero]
  unfold flaw?
  cases hwalk : tiled 0 0 s.startOffset s.tokens with
  | error flaw =>
    refine ⟨nofun, fun ⟨hsound, hcontiguous, _⟩ => ?_⟩
    have hok := (htiled length).mpr ⟨hsound, hcontiguous⟩
    rw [hwalk] at hok
    cases hok
  | ok covered =>
    obtain ⟨hsound, hcovered⟩ := (htiled covered).mp hwalk
    have hlength : Contiguous 0 s.tokens length ↔ covered = length := by
      refine ⟨fun h => ?_, fun h => h ▸ hcovered⟩
      have hok := (htiled length).mpr ⟨hsound, h⟩
      rw [hwalk] at hok
      exact Except.ok.inj hok
    dsimp only
    rw [hlength]
    split_ifs with hshort hsentinel
    · exact ⟨nofun, fun h => absurd h.2.1 hshort⟩
    · refine ⟨nofun, fun h => ?_⟩
      rcases hsentinel with hkind | hoffset
      · exact absurd h.2.2.1 hkind
      · exact absurd h.2.2.2 hoffset
    · simp only [ne_eq, not_or, not_not] at hshort hsentinel
      exact ⟨fun _ => ⟨hsound, hshort, hsentinel.1, hsentinel.2⟩, fun _ => rfl⟩

section Tiles
variable {s : Sequence} {lineStart : UInt64} {length : Nat}

theorem Sequence.startOffset_eq (hsound : ∀ t ∈ s.tokens, t.Sound lineStart)
    (hcontiguous : Contiguous 0 s.tokens length) (hsentinel : s.sentinel.offset = lineStart + .ofNat length) :
    s.startOffset = lineStart := by
  unfold startOffset
  cases hts : s.tokens with
  | nil =>
    rw [hts, contiguous_nil] at hcontiguous
    simp [hsentinel, hcontiguous]
  | cons t ts =>
    rw [hts, contiguous_cons] at hcontiguous
    rw [hts] at hsound
    simp [(hsound t List.mem_cons_self).offset_eq, hcontiguous.1]

theorem Sequence.Tiles.startOffset_eq (h : s.Tiles lineStart length) : s.startOffset = lineStart :=
  Sequence.startOffset_eq h.sound h.contiguous (by rw [h.sentinel_eq, endOfLine])

theorem Sequence.Tiles.flaw?_eq_none (h : s.Tiles lineStart length) : s.flaw? length = none := by
  rw [flaw?_eq_none_iff, h.startOffset_eq, h.sentinel_eq]
  exact ⟨h.sound, h.contiguous, rfl, rfl⟩

end Tiles

/-! ### The token at an offset -/

/-- Whether a column lies in the token. -/
def covers (t : Token) (column : Nat) : Bool := decide (t.start ≤ column) && decide (column < t.stop)

theorem covers_iff {t : Token} {column : Nat} : t.covers column = true ↔ t.start ≤ column ∧ column < t.stop := by
  rw [covers, Bool.and_eq_true, decide_eq_true_eq, decide_eq_true_eq]

/-- What a token says of each of its characters: the kind, and the language. -/
def label (t : Token) : Kind × Nat := (t.kind, t.language)

/-- **What the tokens of a line say of the character at a column.** -/
def Sequence.labelAt? (s : Sequence) (column : Nat) : Option (Kind × Nat) :=
  (s.tokens.find? (·.covers column)).map label

section Covers
variable {lineStart length : Nat} {s : Sequence} {ts : List Token} {first last column : Nat}

theorem Contiguous.stop_le (h : Contiguous first ts last) {t : Token} (ht : t ∈ ts) :
    first ≤ t.start ∧ t.stop ≤ last := by
  induction ts generalizing first with
  | nil => cases ht
  | cons u ts ih =>
    obtain ⟨rfl, hrest⟩ := contiguous_cons.mp h
    rcases List.mem_cons.mp ht with rfl | ht
    · exact ⟨Nat.le_refl _, hrest.le⟩
    · have hu : u.start ≤ u.stop := Nat.le_add_right _ _
      exact ⟨Nat.le_trans hu (ih hrest ht).1, (ih hrest ht).2⟩

/-- Of tokens that stand one behind the other, those in front of some `k`-th one end before a column, and
that one is the first which covers it. -/
theorem Contiguous.exists_covering (h : Contiguous first ts last) (hfirst : first ≤ column)
    (hlast : column < last) :
    ∃ k t, ts[k]? = some t ∧ ts.find? (·.covers column) = some t ∧
      ∀ i : Nat, ts[i]?.any (fun u : Token => decide (u.stop ≤ column)) = decide (i < k) := by
  induction ts generalizing first with
  | nil =>
    rw [contiguous_nil] at h
    omega
  | cons u ts ih =>
    obtain ⟨rfl, hrest⟩ := contiguous_cons.mp h
    by_cases hu : u.stop ≤ column
    · obtain ⟨k, t, hk, hfind, hfront⟩ := ih hrest hu
      have hnot : ¬ u.covers column = true := by
        rw [covers_iff]
        omega
      refine ⟨k + 1, t, hk, ?_, ?_⟩
      · rwa [List.find?_cons_of_neg (by exact hnot)]
      · intro i
        cases i with
        | zero => simp [hu]
        | succ i => simpa using hfront i
    · have hcovers : u.covers column = true := by
        rw [covers_iff]
        omega
      refine ⟨0, u, rfl, List.find?_cons_of_pos hcovers, ?_⟩
      intro i
      cases i with
      | zero => simp [hu]
      | succ i =>
        cases hi : ts[i]? with
        | none => simp [hi]
        | some t =>
          have ht := hrest.stop_le (List.mem_of_getElem? hi)
          have hle : t.start ≤ t.stop := Nat.le_add_right _ _
          have hstop : ¬ t.stop ≤ column := by omega
          simp [hi, hstop]

theorem Sequence.Tiles.isSome_labelAt? {lineStart : UInt64} {length : Nat} (h : s.Tiles lineStart length)
    (hcolumn : column < length) : (s.labelAt? column).isSome := by
  obtain ⟨-, t, -, hfind, -⟩ := h.contiguous.exists_covering (Nat.zero_le column) hcolumn
  rw [labelAt?, hfind]
  rfl

section Offsets
variable {t : Token} (ht : t.Sound (.ofNat lineStart)) (hstop : lineStart + t.stop < UInt64.size)
  (hcolumn : lineStart + column < UInt64.size)
include ht hstop hcolumn

theorem Sound.endOffset_le_iff : t.endOffset ≤ .ofNat (lineStart + column) ↔ t.stop ≤ column := by
  have hend : t.endOffset = .ofNat (lineStart + t.stop) := by
    rw [endOffset, ht.offset_eq, ← UInt64.ofNat_add, ← UInt64.ofNat_add, Nat.add_assoc, stop]
  rw [hend, UInt64.le_iff_toNat_le, UInt64.toNat_ofNat_of_lt' hstop, UInt64.toNat_ofNat_of_lt' hcolumn]
  omega

theorem Sound.containsOffset_eq : t.containsOffset (.ofNat (lineStart + column)) = t.covers column := by
  have hstart : lineStart + t.start < UInt64.size := by
    have hle : t.start ≤ t.stop := Nat.le_add_right _ _
    omega
  have hoffset : t.offset ≤ .ofNat (lineStart + column) ↔ t.start ≤ column := by
    rw [ht.offset_eq, ← UInt64.ofNat_add, UInt64.le_iff_toNat_le, UInt64.toNat_ofNat_of_lt' hstart,
      UInt64.toNat_ofNat_of_lt' hcolumn]
    omega
  have hend : UInt64.ofNat (lineStart + column) < t.endOffset ↔ column < t.stop := by
    rw [← UInt64.not_le, ht.endOffset_le_iff hstop hcolumn, Nat.not_le]
  simp only [containsOffset, covers, hoffset, hend]

end Offsets

/-- **The token at an offset of a line is the one that covers its column.** -/
theorem Sequence.Tiles.tokenAt?_eq (h : s.Tiles (.ofNat lineStart) length)
    (hsize : lineStart + length < UInt64.size) (hcolumn : column < length) :
    s.tokenAt? (.ofNat (lineStart + column)) = s.tokens.find? (·.covers column) := by
  obtain ⟨k, t, hk, hfind, hfront⟩ := h.contiguous.exists_covering (Nat.zero_le column) hcolumn
  have hstop {u : Token} (hu : u ∈ s.tokens) : lineStart + u.stop < UInt64.size := by
    have hle := (h.contiguous.stop_le hu).2
    omega
  have hbisect : bisect (fun u : Token => decide (u.endOffset ≤ .ofNat (lineStart + column)))
      s.tokens.toArray = k := by
    refine bisect_eq fun i => ?_
    rw [← hfront i, List.getElem?_toArray]
    cases hi : s.tokens[i]? with
    | none => rfl
    | some u =>
      have hu := List.mem_of_getElem? hi
      have hcolumn' : lineStart + column < UInt64.size := by omega
      exact decide_eq_decide.mpr ((h.sound u hu).endOffset_le_iff (hstop hu) hcolumn')
  have ht := List.mem_of_getElem? hk
  have hcovers := List.find?_some hfind
  simp only [tokenAt?, hbisect, List.getElem?_toArray, hk, hfind]
  rw [Option.filter_some, (h.sound t ht).containsOffset_eq (hstop ht) (by omega), if_pos hcovers]

end Covers

/-! ### Lexemes -/

/-- A lexeme that stands for text. -/
structure Lexeme.Sound (l : Lexeme) : Prop where
  kind_ne : l.kind ≠ .null
  text_ne : l.text ≠ []

section Lexemes

theorem Lexeme.sound_place {lineStart : UInt64} {column : Nat} {ls : List Lexeme} (h : ∀ l ∈ ls, l.Sound) :
    ∀ t ∈ place lineStart column ls, t.Sound lineStart := by
  induction ls generalizing column with
  | nil => simp [place]
  | cons l ls ih =>
    rw [List.forall_mem_cons] at h
    rw [place, List.forall_mem_cons]
    exact ⟨⟨h.1.kind_ne, List.length_pos_iff.mpr h.1.text_ne, rfl⟩, ih h.2⟩

theorem Lexeme.contiguous_place (lineStart : UInt64) (column : Nat) (ls : List Lexeme) :
    Contiguous column (place lineStart column ls) (column + (ls.map (·.text)).flatten.length) := by
  induction ls generalizing column with
  | nil => simp [place]
  | cons l ls ih =>
    rw [place, contiguous_cons, List.map_cons, List.flatten_cons, List.length_append, ← Nat.add_assoc]
    exact ⟨rfl, ih _⟩

/-- **Lexemes that stand for text tile it.** -/
theorem Reading.tiles_toSequence {r : Reading} (h : ∀ l ∈ r.lexemes, l.Sound) (lineStart : UInt64)
    {text : List Char} (ht : r.text = text) :
    (r.toSequence lineStart 0 text.length).Tiles lineStart text.length where
  sound := Lexeme.sound_place h
  contiguous := by
    have hplace := Lexeme.contiguous_place lineStart 0 r.lexemes
    rwa [Nat.zero_add, show (r.lexemes.map (·.text)).flatten = text from ht] at hplace
  sentinel_eq := rfl

end Lexemes

/-! ### The cut at the scan limit -/

/-- What becomes of a token that is pushed once more onto a line that starts at `lineStart`. -/
def copied (lineStart : UInt64) (t : Token) : Token :=
  ⟨t.kind, t.start, t.length, lineStart + .ofNat t.start, t.language, false⟩

theorem Builder.toList_foldl_pushEmbedded {ts : List Token} (h : ∀ t ∈ ts, 0 < t.length) (b : Builder) :
    let b' := ts.foldl (fun b t => b.pushEmbedded t.kind t.start t.stop t.language) b
    b'.tokens.toList = b.tokens.toList ++ ts.map (copied b.lineStart) ∧ b'.lineStart = b.lineStart := by
  induction ts generalizing b with
  | nil => simp
  | cons t ts ih =>
    rw [List.forall_mem_cons] at h
    have hlt : ¬ t.stop ≤ t.start := by unfold stop; omega
    have hpush : b.pushEmbedded t.kind t.start t.stop t.language =
        { b with tokens := b.tokens.push (t.copied b.lineStart) } := by
      rw [Builder.pushEmbedded, if_neg hlt, copied, show t.stop - t.start = t.length by unfold stop; omega]
    rw [List.foldl_cons, hpush]
    obtain ⟨htokens, hstart⟩ := ih h.2 { b with tokens := b.tokens.push (t.copied b.lineStart) }
    exact ⟨by rw [htokens]; simp, hstart⟩

theorem contiguous_copied {lineStart : UInt64} {ts : List Token} {first last : Nat} :
    Contiguous first (ts.map (copied lineStart)) last ↔ Contiguous first ts last := by
  have hstop : stop ∘ copied lineStart = stop := rfl
  have hstart : (·.start) ∘ copied lineStart = (·.start) := rfl
  rw [Contiguous, List.map_map, List.map_map, hstop, hstart, Contiguous]

end Token

/-- Whatever the line, the tokens that the scanner makes of it tile it. -/
def Scanner.Tiling (s : Scanner) : Prop :=
  ∀ line initial lineStart, (s.tokenize line initial lineStart).Tiles lineStart line.length

/-- Of a line that is longer than the limit, the front is scanned, and one more token takes the rest. -/
theorem Scanner.tokenizeCapped_of_lt {s : Scanner} (hs : s.Tiling) {line : List Char} (initial : LineState)
    (lineStart : UInt64) {limit : Nat} (hlimit : limit < line.length) :
    s.tokenizeCapped line initial lineStart limit =
      ⟨(s.tokenize (line.take limit) initial lineStart).tokens.map (Token.copied lineStart) ++
        [⟨.errorWord, limit, line.length - limit, lineStart + .ofNat limit, 0, false⟩],
        Token.endOfLine lineStart line.length,
        (s.tokenize (line.take limit) initial lineStart).endState⟩ := by
  have hhead := hs (line.take limit) initial lineStart
  obtain ⟨htokens, hstart⟩ := Token.Builder.toList_foldl_pushEmbedded
    (fun t ht => (hhead.sound t ht).length_pos) (Token.Builder.empty lineStart)
  unfold tokenizeCapped
  rw [if_neg (Nat.not_le.mpr hlimit)]
  simp only [Token.Builder.push]
  generalize List.foldl _ _ _ = b at htokens hstart ⊢
  have hpush : b.pushEmbedded .errorWord limit line.length 0 = { b with
      tokens := b.tokens.push ⟨.errorWord, limit, line.length - limit, b.lineStart + .ofNat limit, 0, false⟩ } :=
    if_neg (Nat.not_le.mpr hlimit)
  rw [hpush]
  simp only [Token.Builder.empty, List.nil_append] at htokens hstart
  simp only [Token.Builder.finish, Array.toList_push, htokens, hstart]

/-- **The cut at the scan limit keeps the tiling.** -/
theorem Scanner.tiles_tokenizeCapped {s : Scanner} (hs : s.Tiling) (line : List Char)
    (initial : LineState) (lineStart : UInt64) (limit : Nat) :
    (s.tokenizeCapped line initial lineStart limit).Tiles lineStart line.length := by
  by_cases hlimit : line.length ≤ limit
  · unfold tokenizeCapped
    rw [if_pos hlimit]
    exact hs line initial lineStart
  have hhead := hs (line.take limit) initial lineStart
  rw [List.length_take_of_le (by omega)] at hhead
  rw [tokenizeCapped_of_lt hs initial lineStart (Nat.not_le.mp hlimit)]
  refine ⟨?_, ?_, rfl⟩
  · intro t ht
    rcases List.mem_append.mp ht with ht | ht
    · obtain ⟨u, hu, rfl⟩ := List.mem_map.mp ht
      exact ⟨(hhead.sound u hu).kind_ne, (hhead.sound u hu).length_pos, rfl⟩
    · obtain rfl := List.mem_singleton.mp ht
      exact ⟨nofun, by dsimp only; omega, rfl⟩
  · rw [Token.contiguous_append]
    refine ⟨limit, Token.contiguous_copied.mpr hhead.contiguous, ?_⟩
    rw [Token.contiguous_cons, Token.contiguous_nil, Token.stop]
    exact ⟨rfl, by dsimp only; omega⟩

/-! ### Links -/

namespace Hyperlink

theorem address?_bounds {before : Option Char} {cs : List Char} {n : Nat}
    (h : address? before cs = some n) : 1 ≤ n ∧ n ≤ cs.length := by
  unfold address? at h
  cases hopening : opening? cs with
  | none => simp [hopening] at h
  | some k =>
    simp only [hopening] at h
    split_ifs at h with hnone
    obtain rfl := Option.some.inj h
    obtain ⟨o, ho, rfl⟩ := Option.map_eq_some_iff.mp hopening
    have hfound := List.find?_some ho
    have hle := (Text.startsWithFolded_iff.mp hfound).length_le
    rw [List.length_map] at hle
    have htail : tailLength (cs.drop o.length) ≤ (cs.drop o.length).length := by
      unfold tailLength
      refine Nat.le_trans (List.dropWhile_sublist _).length_le ?_
      rw [List.length_reverse]
      exact (List.takeWhile_sublist _).length_le
    rw [List.length_drop] at htail
    simp only [not_or] at hnone
    omega

/-- The pieces of a text are as long together as the text and what stands in front of it. -/
theorem sum_length_pieces (before : Option Char) (plain : Nat) (cs : List Char) :
    ((pieces before plain cs).map (·.length)).sum = plain + cs.length := by
  fun_induction pieces before plain cs with
  | case1 => simp
  | case2 before plain c rest _ ih =>
    rw [ih, List.length_cons]
    omega
  | case3 before plain c rest n haddress ih =>
    have hbounds := address?_bounds haddress
    rw [List.length_cons] at hbounds
    simp only [List.map_cons, List.sum_cons, ih, List.length_drop, List.length_cons]
    omega

theorem pieces_ne_nil (before : Option Char) (plain : Nat) (cs : List Char) :
    pieces before plain cs ≠ [] := by
  fun_induction pieces before plain cs with
  | case1 => simp
  | case2 before plain c rest _ ih => exact ih
  | case3 => simp

theorem sum_length_tokenPieces (line : List Char) (t : Token) :
    ((tokenPieces line t).map (·.length)).sum = t.length := by
  have hsum := sum_length_pieces none 0 (t.text line)
  have hle : (t.text line).length ≤ t.length := by
    rw [Token.text, List.length_take]
    exact Nat.min_le_left _ _
  unfold tokenPieces
  dsimp only
  cases hlast : (pieces none 0 (t.text line)).getLast? with
  | none => exact absurd (List.getLast?_eq_none_iff.mp hlast) (pieces_ne_nil none 0 _)
  | some last =>
    obtain ⟨front, hfront⟩ := List.getLast?_eq_some_iff.mp hlast
    rw [hfront] at hsum ⊢
    simp only [List.map_append, List.sum_append, List.map_cons, List.map_nil, List.sum_cons, List.sum_nil,
      List.dropLast_concat] at hsum ⊢
    omega

section Placed
variable {lineStart : UInt64} {t : Token}

theorem contiguous_placePieces (start : Nat) (ps : List Piece) :
    Token.Contiguous start (placePieces t start ps) (start + (ps.map (·.length)).sum) := by
  induction ps generalizing start with
  | nil => simp [placePieces]
  | cons p ps ih =>
    have hrest := ih (start + p.length)
    rw [Nat.add_assoc] at hrest
    simp only [placePieces, List.map_cons, List.sum_cons]
    split_ifs with hempty
    · rwa [hempty, Nat.zero_add, Nat.add_zero] at hrest ⊢
    · exact Token.contiguous_cons.mpr ⟨rfl, hrest⟩

theorem label_placePieces (start : Nat) (ps : List Piece) :
    ∀ u ∈ placePieces t start ps, u.label = t.label := by
  induction ps generalizing start with
  | nil => simp [placePieces]
  | cons p ps ih =>
    simp only [placePieces]
    split_ifs
    · exact ih _
    · exact List.forall_mem_cons.mpr ⟨rfl, ih _⟩

theorem sound_placePieces (ht : t.Sound lineStart) {start : Nat} (hstart : t.start ≤ start)
    (ps : List Piece) : ∀ u ∈ placePieces t start ps, u.Sound lineStart := by
  induction ps generalizing start with
  | nil => simp [placePieces]
  | cons p ps ih =>
    have hrest := ih (Nat.le_add_right_of_le (k := p.length) hstart)
    simp only [placePieces]
    split_ifs with hempty
    · exact hrest
    · refine List.forall_mem_cons.mpr ⟨⟨ht.kind_ne, Nat.pos_of_ne_zero hempty, ?_⟩, hrest⟩
      show t.offset + .ofNat (start - t.start) = _
      rw [ht.offset_eq, UInt64.add_assoc, ← UInt64.ofNat_add, Nat.add_sub_cancel' hstart]

/-- A token that is cut at its links gives way to tokens that say the same. -/
theorem label_cut (line : List Char) : ∀ u ∈ cut line t, u.label = t.label := by
  unfold cut
  split_ifs
  · exact label_placePieces _ _
  · simp

theorem kind_cut (line : List Char) : ∀ u ∈ cut line t, u.kind = t.kind := fun u hu =>
  congrArg Prod.fst (label_cut line u hu)

theorem sound_cut (line : List Char) (ht : t.Sound lineStart) : ∀ u ∈ cut line t, u.Sound lineStart := by
  unfold cut
  split_ifs
  · exact sound_placePieces ht (Nat.le_refl _) _
  · simpa using ht

theorem contiguous_cut (line : List Char) (t : Token) :
    Token.Contiguous t.start (cut line t) t.stop := by
  unfold cut
  split_ifs
  · have hplace := contiguous_placePieces (t := t) t.start (tokenPieces line t)
    rwa [sum_length_tokenPieces] at hplace
  · simp

theorem contiguous_flatMap_cut (line : List Char) {ts : List Token} {first last : Nat}
    (h : Token.Contiguous first ts last) : Token.Contiguous first (ts.flatMap (cut line)) last := by
  induction ts generalizing first with
  | nil => exact h
  | cons t ts ih =>
    obtain ⟨rfl, hrest⟩ := Token.contiguous_cons.mp h
    exact Token.contiguous_append.mpr ⟨t.stop, contiguous_cut line t, ih hrest⟩

theorem label_find?_flatMap_cut (line : List Char) {ts : List Token} {first last column : Nat}
    (h : Token.Contiguous first ts last) (hfirst : first ≤ column) :
    ((ts.flatMap (cut line)).find? (·.covers column)).map Token.label =
      (ts.find? (·.covers column)).map Token.label := by
  induction ts generalizing first with
  | nil => rfl
  | cons t ts ih =>
    obtain ⟨rfl, hrest⟩ := Token.contiguous_cons.mp h
    rw [List.flatMap_cons, List.find?_append]
    by_cases hstop : column < t.stop
    · obtain ⟨-, u, -, hfind, -⟩ := (contiguous_cut line t).exists_covering hfirst hstop
      have hcovers : t.covers column = true := Token.covers_iff.mpr ⟨hfirst, hstop⟩
      have hfirst' : (t :: ts).find? (·.covers column) = some t := List.find?_cons_of_pos hcovers
      rw [hfind, Option.some_or, hfirst']
      exact congrArg some (label_cut line u (List.mem_of_find?_eq_some hfind))
    · have hnone : (cut line t).find? (·.covers column) = none := by
        refine List.find?_eq_none.mpr fun u hu hcovers => ?_
        have hu' := ((contiguous_cut line t).stop_le hu).2
        have hcolumn := (Token.covers_iff.mp hcovers).2
        omega
      have hcovers : ¬ t.covers column = true := fun hcovers => hstop (Token.covers_iff.mp hcovers).2
      rw [hnone, Option.none_or, List.find?_cons_of_neg (by exact hcovers)]
      exact ih hrest (by omega)

end Placed

/-- **The search for links keeps the tiling.** -/
theorem tiles_mark (line : List Char) {s : Token.Sequence} {lineStart : UInt64} {length : Nat}
    (h : s.Tiles lineStart length) : (mark line s).2.Tiles lineStart length := by
  unfold mark
  dsimp only
  split_ifs
  · exact h
  · refine ⟨fun u hu => ?_, contiguous_flatMap_cut line h.contiguous, h.sentinel_eq⟩
    obtain ⟨t, ht, hu⟩ := List.mem_flatMap.mp hu
    exact sound_cut line (h.sound t ht) u hu

/-- **The search for links changes nothing of what tokens say of their characters.** -/
theorem labelAt?_mark (line : List Char) {s : Token.Sequence} {lineStart : UInt64} {length : Nat}
    (h : s.Tiles lineStart length) (column : Nat) : (mark line s).2.labelAt? column = s.labelAt? column := by
  unfold mark
  dsimp only
  split_ifs
  · rfl
  · exact label_find?_flatMap_cut line h.contiguous (Nat.zero_le column)

end Hyperlink

end Linewise
