import Linewise.Proofs.Tilings

/-!
# Tokens that are pushed

Whatever is pushed onto a builder (`Token.Push`), with whatever kinds and ranges, and wherever the line is ended:
the check of the tokens made of it finds no flaw just if they fill the line (`Token.Sequence.Fills`), with no
word about the offsets of single tokens, as a builder cannot misplace these.

In tokens without a flaw a lookup is right (`Token.Sequence.Finds`). The token that it returns is the only one that
contains the offset, and there is one for each offset of the line unless the line reaches past the last document
offset. Offsets wrap there, while bisection takes them to be in order: behind the wrap a token may be missed, or be
found at an offset in front of the line.
-/

namespace Linewise

namespace Token

/-! ### What is pushed -/

/-- What is pushed onto a builder: a kind, and a language, for the columns from `start` to just before `stop`. -/
structure Push where
  kind : Kind
  start : Nat
  stop : Nat
  language : Nat

/-- The token that is made of a push, if its range is not empty or reversed. -/
def Push.token? (lineStart : UInt64) (p : Push) : Option Token :=
  if p.stop ≤ p.start then none
  else some ⟨p.kind, p.start, p.stop - p.start, lineStart + .ofNat p.start, p.language, false⟩

theorem Push.offset_eq {lineStart : UInt64} {p : Push} {t : Token} (h : p.token? lineStart = some t) :
    t.offset = lineStart + .ofNat t.start := by
  unfold token? at h
  split_ifs at h
  cases h
  rfl

namespace Builder

/-- Pushes one behind the other. -/
def pushAll (b : Builder) (ps : List Push) : Builder :=
  ps.foldl (fun b p => b.pushEmbedded p.kind p.start p.stop p.language) b

theorem pushEmbedded_eq (b : Builder) (p : Push) :
    b.pushEmbedded p.kind p.start p.stop p.language =
      { b with tokens := b.tokens ++ (p.token? b.lineStart).toArray } := by
  unfold pushEmbedded Push.token?
  split_ifs <;> simp

/-- **The tokens of a builder are those of its pushes**, in their order. -/
theorem pushAll_eq (b : Builder) (ps : List Push) :
    b.pushAll ps = { b with tokens := b.tokens ++ (ps.filterMap (·.token? b.lineStart)).toArray } := by
  induction ps generalizing b with
  | nil => simp [pushAll]
  | cons p ps ih =>
    rw [pushAll, List.foldl_cons, ← pushAll, pushEmbedded_eq, ih]
    cases hp : p.token? b.lineStart <;> simp [hp]

theorem offset_eq_of_mem_finish {lineStart : UInt64} {ps : List Push} {lineLength : Nat} {state : LineState}
    {t : Token} (h : t ∈ (((empty lineStart).pushAll ps).finish lineLength state).tokens) :
    t.offset = lineStart + .ofNat t.start := by
  have htokens : (((empty lineStart).pushAll ps).finish lineLength state).tokens =
      ps.filterMap (·.token? lineStart) := by
    simp [pushAll_eq, empty, finish]
  rw [htokens] at h
  obtain ⟨p, -, hp⟩ := List.mem_filterMap.mp h
  exact Push.offset_eq hp

end Builder

/-! ### The check -/

/-- **The tokens fill a line** of a given length: they are none of them empty or of the sentinel's kind, they stand
one behind the other from column 0 to the end, and the sentinel is as far behind the offset of the first token, or
of itself if there is none. -/
structure Sequence.Fills (s : Sequence) (length : Nat) : Prop where
  kind_ne : ∀ t ∈ s.tokens, t.kind ≠ .null
  length_pos : ∀ t ∈ s.tokens, 0 < t.length
  contiguous : Contiguous 0 s.tokens length
  sentinel_offset_eq : s.sentinel.offset = s.startOffset + .ofNat length

section Check
variable {s : Sequence} {lineStart : UInt64} {length : Nat}

/-- If the first token stands at column 0, and each has the offset of its column, these are counted from the
first token's offset. -/
theorem Sequence.offset_eq_of_contiguous (hoffset : ∀ t ∈ s.tokens, t.offset = lineStart + .ofNat t.start)
    (hcontiguous : Contiguous 0 s.tokens length) :
    ∀ t ∈ s.tokens, t.offset = s.startOffset + .ofNat t.start := by
  intro t ht
  have hstart : s.startOffset = lineStart := by
    unfold startOffset
    cases hts : s.tokens with
    | nil => simp [hts] at ht
    | cons u us =>
      rw [hts, contiguous_cons] at hcontiguous
      rw [hts] at hoffset
      simp [hoffset u List.mem_cons_self, hcontiguous.1]
  rw [hstart, hoffset t ht]

/-- Where each token has the offset of its column, the check looks for nothing but that the tokens fill the line. -/
theorem Sequence.flaw?_eq_none_iff_fills (hoffset : ∀ t ∈ s.tokens, t.offset = lineStart + .ofNat t.start)
    (hkind : s.sentinel.kind = .null) : s.flaw? length = none ↔ s.Fills length := by
  rw [flaw?_eq_none_iff]
  constructor
  · rintro ⟨hsound, hcontiguous, -, hsentinel⟩
    exact ⟨fun t ht => (hsound t ht).kind_ne, fun t ht => (hsound t ht).length_pos, hcontiguous, hsentinel⟩
  · intro h
    have hplaced := offset_eq_of_contiguous hoffset h.contiguous
    exact ⟨fun t ht => ⟨h.kind_ne t ht, h.length_pos t ht, hplaced t ht⟩, h.contiguous, hkind, h.sentinel_offset_eq⟩

end Check

/-! ### Lookups -/

/-- **Lookups are right** in the tokens of a line of a given length. -/
structure Sequence.Finds (s : Sequence) (length : Nat) : Prop where
  /-- What is returned is the only token that contains the offset, the one that a linear search finds. -/
  found : ∀ {offset : UInt64} {t : Token}, s.tokenAt? offset = some t →
    t ∈ s.tokens ∧ t.containsOffset offset = true ∧
      (∀ u ∈ s.tokens, u.containsOffset offset = true → u = t) ∧
      s.tokens.find? (·.containsOffset offset) = some t
  /-- Something is returned just for the offsets of the line, if these are document offsets. -/
  isSome_iff : s.startOffset.toNat + length < UInt64.size → ∀ offset,
    (s.tokenAt? offset).isSome = true ↔ s.startOffset ≤ offset ∧ offset < s.endOffset
  /-- The texts of the tokens make up the line. -/
  flatMap_text : ∀ line : List Char, line.length = length → s.tokens.flatMap (·.text line) = line

section Lookups
variable {s : Sequence} {lineStart offset : UInt64} {first last length column : Nat} {t u : Token}
  {ts : List Token}

theorem Contiguous.find?_covers (h : Contiguous first ts last) (ht : t ∈ ts) (hcovers : t.covers column = true) :
    ts.find? (·.covers column) = some t := by
  induction ts generalizing first with
  | nil => cases ht
  | cons v ts ih =>
    obtain ⟨rfl, hrest⟩ := contiguous_cons.mp h
    rcases List.mem_cons.mp ht with rfl | ht
    · exact List.find?_cons_of_pos hcovers
    · have hnot : ¬ v.covers column = true := by
        have hstart := (hrest.stop_le ht).1
        rw [covers_iff] at hcovers ⊢
        omega
      rw [List.find?_cons_of_neg (by exact hnot)]
      exact ih hrest ht

theorem Contiguous.flatMap_text (h : Contiguous first ts last) (line : List Char) :
    ts.flatMap (·.text line) = (line.drop first).take (last - first) := by
  induction ts generalizing first with
  | nil => simp [contiguous_nil.mp h]
  | cons t ts ih =>
    obtain ⟨rfl, hrest⟩ := contiguous_cons.mp h
    have hlength : last - t.start = t.length + (last - t.stop) := by
      have hle := hrest.le
      unfold stop at hle ⊢
      omega
    rw [List.flatMap_cons, ih hrest, hlength, List.take_add, List.drop_drop]
    rfl

/-- An offset in a token is as far behind the start of the line as a column that the token covers. Only the offset
of the column may wrap, not the column. -/
theorem Sound.covers_of_containsOffset (ht : t.Sound lineStart) (hstop : t.stop < UInt64.size)
    (h : t.containsOffset offset = true) : t.covers (offset - lineStart).toNat = true := by
  have hoffset : t.offset.toNat = (lineStart.toNat + t.start) % 2 ^ 64 := by
    rw [ht.offset_eq, UInt64.toNat_add, UInt64.toNat_ofNat', Nat.add_mod_mod]
  have hend : t.endOffset.toNat = (t.offset.toNat + t.length) % 2 ^ 64 := by
    rw [endOffset, UInt64.toNat_add, UInt64.toNat_ofNat', Nat.add_mod_mod]
  have hdistance := UInt64.toNat_sub offset lineStart
  have hsmall := lineStart.toNat_lt
  rw [containsOffset, Bool.and_eq_true, decide_eq_true_eq, decide_eq_true_eq, UInt64.le_iff_toNat_le,
    UInt64.lt_iff_toNat_lt] at h
  rw [covers_iff]
  unfold stop UInt64.size at *
  omega

theorem Sequence.mem_of_tokenAt?_eq (h : s.tokenAt? offset = some t) :
    t ∈ s.tokens ∧ t.containsOffset offset = true := by
  obtain ⟨hget, hcontains⟩ := Option.filter_eq_some_iff.mp h
  rw [List.getElem?_toArray] at hget
  exact ⟨List.mem_of_getElem? hget, hcontains⟩

section Sound
variable (hsound : ∀ t ∈ s.tokens, t.Sound s.startOffset) (hcontiguous : Contiguous 0 s.tokens length)
include hsound hcontiguous

/-- An offset is in no more than one token, if there are no more columns than there are offsets. -/
theorem Sequence.eq_of_containsOffset (hsize : length < UInt64.size) (ht : t ∈ s.tokens) (hu : u ∈ s.tokens)
    (htoffset : t.containsOffset offset = true) (huoffset : u.containsOffset offset = true) : u = t := by
  have hfind {v : Token} (hv : v ∈ s.tokens) (hvoffset : v.containsOffset offset = true) :
      s.tokens.find? (·.covers (offset - s.startOffset).toNat) = some v := by
    have hstop := (hcontiguous.stop_le hv).2
    exact hcontiguous.find?_covers hv ((hsound v hv).covers_of_containsOffset (by omega) hvoffset)
  exact Option.some.inj ((hfind hu huoffset).symm.trans (hfind ht htoffset))

/-- A line that does not reach past the last document offset has a token at each of its offsets, and at no other. -/
theorem Sequence.isSome_tokenAt?_iff (hend : s.endOffset = s.startOffset + .ofNat length)
    (hsize : s.startOffset.toNat + length < UInt64.size) :
    (s.tokenAt? offset).isSome = true ↔ s.startOffset ≤ offset ∧ offset < s.endOffset := by
  have hstart : s.startOffset = .ofNat s.startOffset.toNat := (UInt64.ofNat_toNat).symm
  have hlast : s.endOffset.toNat = s.startOffset.toNat + length := by
    rw [hend, UInt64.toNat_add, UInt64.toNat_ofNat', Nat.add_mod_mod, Nat.mod_eq_of_lt hsize]
  rw [UInt64.le_iff_toNat_le, UInt64.lt_iff_toNat_lt, hlast]
  constructor
  · intro hsome
    obtain ⟨t, ht⟩ := Option.isSome_iff_exists.mp hsome
    obtain ⟨hmem, hcontains⟩ := mem_of_tokenAt?_eq ht
    have hstop := (hcontiguous.stop_le hmem).2
    have hcovers := covers_iff.mp ((hsound t hmem).covers_of_containsOffset (by omega) hcontains)
    have hdistance := UInt64.toNat_sub offset s.startOffset
    have hoffset := offset.toNat_lt
    unfold UInt64.size at hsize
    omega
  · rintro ⟨hle, hlt⟩
    -- A lookup reads the tokens only, and these tile a line whose sentinel is in place.
    have htiles : (⟨s.tokens, endOfLine s.startOffset length, s.endState⟩ : Sequence).Tiles
        (.ofNat s.startOffset.toNat) length := by
      rw [← hstart]
      exact ⟨hsound, hcontiguous, rfl⟩
    have hcolumn : offset.toNat - s.startOffset.toNat < length := by omega
    obtain ⟨-, t, -, hfind, -⟩ := hcontiguous.exists_covering (Nat.zero_le _) hcolumn
    have hlookup := htiles.tokenAt?_eq hsize hcolumn
    rw [Nat.add_sub_cancel' hle, UInt64.ofNat_toNat] at hlookup
    have hsome : s.tokenAt? offset = some t := hlookup.trans hfind
    rw [hsome, Option.isSome_some]

end Sound

/-- **Lookups are right in tokens without a flaw.** -/
theorem Sequence.finds_of_flaw?_eq_none (h : s.flaw? length = none) (hsize : length < UInt64.size) :
    s.Finds length := by
  obtain ⟨hsound, hcontiguous, -, hsentinel⟩ := flaw?_eq_none_iff.mp h
  refine ⟨?_, fun hwrap offset => isSome_tokenAt?_iff hsound hcontiguous hsentinel hwrap, ?_⟩
  · intro offset t ht
    obtain ⟨hmem, hcontains⟩ := mem_of_tokenAt?_eq ht
    have honly : ∀ u ∈ s.tokens, u.containsOffset offset = true → u = t := fun u hu hcontains' =>
      eq_of_containsOffset hsound hcontiguous hsize hmem hu hcontains hcontains'
    refine ⟨hmem, hcontains, honly, ?_⟩
    have hsome : (s.tokens.find? (·.containsOffset offset)).isSome = true :=
      List.find?_isSome.mpr ⟨t, hmem, hcontains⟩
    obtain ⟨u, hfind⟩ := Option.isSome_iff_exists.mp hsome
    have hucontains := List.find?_some hfind
    rw [hfind, honly u (List.mem_of_find?_eq_some hfind) hucontains]
  · intro line hline
    rw [hcontiguous.flatMap_text, List.drop_zero, Nat.sub_zero, ← hline, List.take_length]

end Lookups

/-- **The check of pushed tokens is exact, and lookups in tokens that pass it are right.** -/
theorem fills_iff_and_finds :
    (∀ (lineStart : UInt64) (ps : List Push) (lineLength : Nat) (state : LineState) (length : Nat),
      let s := ((Builder.empty lineStart).pushAll ps).finish lineLength state
      s.flaw? length = none ↔ s.Fills length) ∧
    ∀ (s : Sequence) (length : Nat), length < UInt64.size → s.flaw? length = none → s.Finds length := by
  constructor
  · intro lineStart ps lineLength state length s
    exact Sequence.flaw?_eq_none_iff_fills (fun t => Builder.offset_eq_of_mem_finish) rfl
  · intro s length hsize h
    exact Sequence.finds_of_flaw?_eq_none h hsize

/-- The tokens of `ab(`, where an empty and a reversed range are pushed between them. -/
theorem fills_iff_and_finds_dropped :
    let s := ((Builder.empty 10).pushAll
      [⟨.identifier, 0, 2, 0⟩, ⟨.operator, 2, 2, 1⟩, ⟨.errorWord, 5, 1, 0⟩, ⟨.separator, 2, 3, 1⟩]).finish 3 .neutral
    (s.flaw? 3 = none ↔ s.Fills 3) ∧ 3 < UInt64.size ∧ s.flaw? 3 = none ∧ s.Finds 3 := by
  intro s
  have hvalid : s.flaw? 3 = none := by decide +kernel
  exact ⟨fills_iff_and_finds.1 10 _ 3 .neutral 3, by decide, hvalid, fills_iff_and_finds.2 s 3 (by decide) hvalid⟩

/-- **A line that reaches past the last document offset has a token in front of its start**, as the offset where its
second token stands is 0 once more. -/
theorem tokenAt?_wrapped :
    let s := ((Builder.empty 18446744073709551615).pushAll
      [⟨.identifier, 0, 1, 0⟩, ⟨.separator, 1, 2, 0⟩]).finish 2 .neutral
    s.flaw? 2 = none ∧ s.tokenAt? 0 = some ⟨.separator, 1, 1, 0, 0, false⟩ ∧ 0 < s.endOffset ∧
      ¬ s.startOffset ≤ 0 := by
  decide +kernel

end Token

end Linewise
