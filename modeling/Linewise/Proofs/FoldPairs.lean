import Linewise.Proofs.BracketPairs
import Mathlib.Data.List.TakeWhile

/-!
# Folds are the blocks whose braces match

Folds are found in one pass over the braces of a document, with a stack of lines, and without a look at lines
that have no brace; the match of a brace is found by a search from that brace. Both look at the same braces:
the tokens of a line that are separators of one character and braces are the structural braces of the line
(`Folds.structuralBraces_eq`). The stack of lines pairs them up as the stack of offsets does
(`Folds.perm_foldl_pairBrace`), and each pair on two lines is added at its place among the regions
(`Folds.perm_add`, `Folds.ordered_add`).

* `Document.detectFolds_perm_matchedBlocks`: **the regions that are found are the blocks whose opening brace
  matches on a later line**, in the order of their first lines.
-/

namespace Linewise

open BracketMatcher (Cell cells)
open Brackets (pairUp)

namespace Folds

/-! ### Regions in order -/

/-- The regions are in the order of their first lines. -/
def Ordered (f : Folds) : Prop := f.regions.Pairwise fun r r' => r.first ≤ r'.first

section Add
variable {f : Folds} {r : FoldRegion}

theorem perm_add (f : Folds) (h : r.first < r.last) : (f.add r).regions.Perm (r :: f.regions) := by
  unfold add
  rw [if_neg (UInt64.not_le.mpr h)]
  dsimp only
  generalize bisect _ _ = position
  have hmiddle : (f.regions.take position ++ r :: f.regions.drop position).Perm
      (r :: (f.regions.take position ++ f.regions.drop position)) := List.perm_middle
  rwa [List.take_append_drop] at hmiddle

theorem Ordered.pairwise_above (h : f.Ordered) (line : UInt64) : f.regions.Pairwise fun x y =>
    decide (y.first < line) = true → decide (x.first < line) = true := by
  refine h.imp ?_
  intro x y hle hlt
  exact decide_eq_true (UInt64.lt_of_le_of_lt hle (of_decide_eq_true hlt))

/-- A region goes behind all those that start above it. -/
theorem Ordered.regions_add (h : f.Ordered) (hr : r.first < r.last) :
    (f.add r).regions = f.regions.takeWhile (fun x => decide (x.first < r.first)) ++
      r :: f.regions.dropWhile fun x => decide (x.first < r.first) := by
  obtain ⟨htake, hdrop⟩ := take_drop_bisect (h.pairwise_above r.first)
  unfold add
  rw [if_neg (UInt64.not_le.mpr hr)]
  dsimp only
  rw [htake, hdrop]

theorem ordered_add (h : f.Ordered) (r : FoldRegion) : (f.add r).Ordered := by
  by_cases hempty : r.last ≤ r.first
  · rw [add, if_pos hempty]
    exact h
  rw [Ordered, h.regions_add (UInt64.not_le.mp hempty)]
  have hsplit := h
  rw [Ordered, ← List.takeWhile_append_dropWhile (p := fun x => decide (x.first < r.first)) (l := f.regions),
    List.pairwise_append] at hsplit
  obtain ⟨hfront, hback, hcross⟩ := hsplit
  refine List.pairwise_append.mpr ⟨hfront, List.pairwise_cons.mpr ⟨?_, hback⟩, ?_⟩
  · intro x hx
    have hbelow := eq_false_of_mem_dropWhile (h.pairwise_above r.first) x hx
    exact UInt64.not_lt.mp (of_decide_eq_false hbelow)
  · intro x hx y hy
    have hfirst := List.mem_takeWhile_imp hx
    have habove : x.first < r.first := of_decide_eq_true hfirst
    rcases List.mem_cons.mp hy with rfl | hy
    · exact UInt64.le_of_lt habove
    · exact hcross x hx y hy

end Add

/-! ### One brace after the other -/

/-- The region of a pair of braces on two lines. -/
def region? (first last : Nat) : Option FoldRegion :=
  if first < last then some ⟨.ofNat first, .ofNat last, false⟩ else none

/-- Adding the region of a pair adds nothing if the pair is on one line. -/
theorem perm_add_region (f : Folds) {first last : Nat} (hfirst : first < UInt64.size)
    (hlast : last < UInt64.size) :
    (f.add ⟨.ofNat first, .ofNat last, false⟩).regions.Perm ((region? first last).toList ++ f.regions) := by
  have hlt : UInt64.ofNat first < UInt64.ofNat last ↔ first < last := by
    rw [UInt64.lt_iff_toNat_lt, UInt64.toNat_ofNat_of_lt' hfirst, UInt64.toNat_ofNat_of_lt' hlast]
  by_cases hlines : first < last
  · rw [region?, if_pos hlines]
    exact perm_add f (hlt.mpr hlines)
  · rw [region?, if_neg hlines]
    have hle : UInt64.ofNat last ≤ UInt64.ofNat first := UInt64.not_lt.mp (hlt.not.mpr hlines)
    rw [add, if_pos hle]
    exact List.Perm.refl _

theorem ordered_pairBrace {line : Nat} {found : List Nat × Folds} (h : found.2.Ordered) (brace : Char) :
    (pairBrace line found brace).2.Ordered := by
  unfold pairBrace
  split
  · exact h
  · exact ordered_add h _
  · exact h

/-- **The stack of lines finds the pairs that the stack of offsets finds.** -/
theorem perm_foldl_pairBrace {lineOf : Nat → Nat} (hlines : ∀ o, lineOf o < UInt64.size) {xs : List Cell}
    (hxs : ∀ cell ∈ xs, cell.2 = '\x7b' ∨ cell.2 = '\x7d') (opened : List Nat) (f : Folds) :
    (xs.foldl (fun found cell => pairBrace (lineOf cell.1) found cell.2)
      (opened.map lineOf, f)).2.regions.Perm
      (((pairUp '\x7b' opened xs).filterMap fun p => region? (lineOf p.1) (lineOf p.2)) ++ f.regions) := by
  induction xs generalizing opened f with
  | nil => exact List.Perm.refl _
  | cons cell xs ih =>
    obtain ⟨o, c⟩ := cell
    rw [List.forall_mem_cons] at hxs
    obtain ⟨rfl | rfl, hrest⟩ := hxs
    · exact ih hrest (o :: opened) f
    · cases opened with
      | nil => exact ih hrest [] f
      | cons first opened =>
        have hadd := perm_add_region f (hlines first) (hlines o)
        have hpairs : (pairUp '\x7b' (first :: opened) ((o, '\x7d') :: xs)).filterMap
            (fun p => region? (lineOf p.1) (lineOf p.2)) = (region? (lineOf first) (lineOf o)).toList ++
              (pairUp '\x7b' opened xs).filterMap fun p => region? (lineOf p.1) (lineOf p.2) := by
          show ((first, o) :: pairUp '\x7b' opened xs).filterMap _ = _
          rw [List.filterMap_cons]
          cases region? (lineOf first) (lineOf o) <;> rfl
        rw [hpairs, List.append_assoc]
        refine (ih hrest opened (f.add _)).trans ?_
        exact (hadd.append_left _).trans (List.perm_append_comm_assoc _ _ _)

theorem ordered_foldl_pairBrace {found : List Nat × Folds} (h : found.2.Ordered) (xs : List (Nat × Char)) :
    (xs.foldl (fun found x => pairBrace x.1 found x.2) found).2.Ordered := by
  induction xs generalizing found with
  | nil => exact h
  | cons x xs ih => exact ih (ordered_pairBrace h x.2)

theorem ofBraces_eq (lines : List (Nat × List Char)) :
    ofBraces lines = ((lines.flatMap fun x => x.2.map fun c => (x.1, c)).foldl
      (fun found x => pairBrace x.1 found x.2) ([], empty)).2 := by
  have key (found : List Nat × Folds) :
      lines.foldl (fun found x => x.2.foldl (pairBrace x.1) found) found =
        (lines.flatMap fun x => x.2.map fun c => (x.1, c)).foldl (fun found x => pairBrace x.1 found x.2) found := by
    induction lines generalizing found with
    | nil => rfl
    | cons x lines ih => rw [List.foldl_cons, ih, List.flatMap_cons, List.foldl_append, List.foldl_map]
  exact congrArg Prod.snd (key ([], empty))

/-! ### The braces of a line -/

/-- Whether a separator covers a column. -/
def separates (ts : List Token) (column : Nat) : Bool :=
  (ts.find? (·.covers column)).map (·.kind) == some Token.Kind.separator

theorem filter_separates_cons {t : Token} {front : List Char} (hlength : front.length = t.length)
    (ts : List Token) (back : List Char) :
    (cells '\x7b' '\x7d' (front ++ back)).filter (fun cell => separates (t :: ts) (t.start + cell.1)) =
      (if t.kind = .separator then cells '\x7b' '\x7d' front else []) ++
        ((cells '\x7b' '\x7d' back).filter fun cell => separates ts (t.stop + cell.1)).map
          (Cell.shift t.length) := by
  have hhere : (cells '\x7b' '\x7d' front).filter (fun cell => separates (t :: ts) (t.start + cell.1)) =
      if t.kind = .separator then cells '\x7b' '\x7d' front else [] := by
    have hcovers : ∀ cell ∈ cells '\x7b' '\x7d' front,
        separates (t :: ts) (t.start + cell.1) = decide (t.kind = .separator) := by
      intro cell hcell
      have hlt := BracketMatcher.lt_of_mem_cells hcell
      have hcover : t.covers (t.start + cell.1) = true := by
        rw [Token.covers_iff, Token.stop]
        omega
      simp only [separates, List.find?_cons, hcover, Option.map_some]
      rfl
    rw [List.filter_congr hcovers]
    split_ifs with hkind
    · simp [hkind]
    · simp [hkind]
  have hbehind : ((cells '\x7b' '\x7d' back).map (Cell.shift t.length)).filter (fun cell =>
      separates (t :: ts) (t.start + cell.1)) = ((cells '\x7b' '\x7d' back).filter fun cell =>
        separates ts (t.stop + cell.1)).map (Cell.shift t.length) := by
    rw [List.filter_map]
    refine congrArg _ (List.filter_congr fun cell _ => ?_)
    have hnot : t.covers (t.stop + cell.1) = false := by
      rw [Token.covers, decide_eq_false (Nat.not_lt.mpr (Nat.le_add_right t.stop cell.1)), Bool.and_false]
    have hcolumn : t.start + (Cell.shift t.length cell).1 = t.stop + cell.1 := (Nat.add_assoc _ _ _).symm
    simp only [Function.comp_apply, hcolumn, separates, List.find?_cons, hnot]
  rw [BracketMatcher.cells_append, hlength, List.filter_append, hhere, hbehind]

theorem structuralBraces_cons {text : List Char} {t : Token} {ts : List Token}
    (hsingle : t.kind = .separator → t.length = 1) (hstop : t.stop ≤ text.length) :
    structuralBraces text (t :: ts) = (if t.kind = .separator then
      cells '\x7b' '\x7d' ((text.drop t.start).take t.length) else []).map Prod.snd ++
        structuralBraces text ts := by
  rw [structuralBraces, List.filterMap_cons]
  by_cases hkind : t.kind = .separator
  · have hone := hsingle hkind
    have hat : t.start < text.length := by
      rw [Token.stop] at hstop
      omega
    have hfront : (text.drop t.start).take t.length = [text[t.start]] := by
      rw [hone, List.drop_eq_getElem_cons hat]
      rfl
    rw [if_pos hkind, hfront, BracketMatcher.map_snd_cells, if_pos ⟨hkind, by simp [Token.isSingleChar, hone]⟩,
      List.getElem?_eq_getElem hat, Option.filter_some, List.filter_singleton]
    cases text[t.start] == '\x7b' || text[t.start] == '\x7d' <;> rfl
  · rw [if_neg hkind, if_neg (fun h => hkind h.1)]
    rfl

/-- **The braces that tokens of a line are** are those that a separator covers, if the tokens tile the line
and separators are single characters. -/
theorem structuralBraces_eq {text : List Char} {ts : List Token} {first : Nat}
    (h : Token.Contiguous first ts text.length) (hsingle : Token.SingleSeparators ts) :
    structuralBraces text ts = ((cells '\x7b' '\x7d' (text.drop first)).filter fun cell =>
      separates ts (first + cell.1)).map Prod.snd := by
  induction ts generalizing first with
  | nil =>
    rw [Token.contiguous_nil] at h
    rw [← h, List.drop_length]
    rfl
  | cons t ts ih =>
    obtain ⟨rfl, hrest⟩ := Token.contiguous_cons.mp h
    have hstop : t.stop ≤ text.length := hrest.le
    have hlength : ((text.drop t.start).take t.length).length = t.length := by
      rw [Token.stop] at hstop
      rw [List.length_take, List.length_drop]
      omega
    have hsplit : text.drop t.start = (text.drop t.start).take t.length ++ text.drop t.stop := by
      rw [Token.stop, ← List.drop_drop, List.take_append_drop]
    have hsnd : Prod.snd ∘ Cell.shift t.length = Prod.snd := rfl
    rw [structuralBraces_cons (hsingle t List.mem_cons_self) hstop,
      ih hrest fun u hu => hsingle u (List.mem_cons_of_mem _ hu)]
    conv_rhs => rw [hsplit, filter_separates_cons hlength, List.map_append, List.map_map, hsnd]

/-! ### One line after the other -/

section ReadBraces
variable {r : Retokenizer} {source : Source} {number : Nat} {l : SourceLine} {ls : List SourceLine}

theorem readBraces_of_no_brace (h : ¬ (l.text.any fun c => c == '\x7b' || c == '\x7d') = true) :
    readBraces r source number (l :: ls) = readBraces r source (number + 1) ls := by
  rw [readBraces, Bool.eq_false_iff.mpr h]
  rfl

theorem readBraces_of_brace {tokens : Token.Sequence} {malformed : Bool}
    (h : (l.text.any fun c => c == '\x7b' || c == '\x7d') = true)
    (hline : r.lineTokens source number = .ok (tokens, malformed)) :
    readBraces r source number (l :: ls) =
      ⟨(number, structuralBraces l.text tokens.tokens) :: (readBraces r source (number + 1) ls).lines,
        (readBraces r source (number + 1) ls).failure,
        malformed || (readBraces r source (number + 1) ls).malformed⟩ := by
  rw [readBraces, h, hline]
  rfl

end ReadBraces

end Folds

namespace Document

section Read
variable {d : Document}

/-- **The tokens of a line tell which of its braces are structural.** -/
theorem Readable.exists_structuralBraces (h : d.Readable) {line : Nat} {l : SourceLine}
    (hl : d.buffer.source.line? line = some l) :
    ∃ tokens, d.retokenizer.lineTokens d.buffer.source line = .ok (tokens, false) ∧
      Folds.structuralBraces l.text tokens.tokens = ((cells '\x7b' '\x7d' l.text).filter fun cell =>
        d.kindAt? (l.start + cell.1) == some Token.Kind.separator).map Prod.snd := by
  obtain ⟨tokens, hline, htiles, hsingle, hkinds⟩ := h.exists_tokens hl
  refine ⟨tokens, hline, ?_⟩
  rw [Folds.structuralBraces_eq htiles.contiguous hsingle, List.drop_zero]
  refine congrArg _ (List.filter_congr fun cell hcell => ?_)
  rw [hkinds cell.1 (BracketMatcher.lt_of_mem_cells hcell), Nat.zero_add]
  rfl

/-- **The braces that are read** of lines that follow each other are their structural ones. -/
theorem Readable.readBraces_eq (h : d.Readable) (number : Nat) (ls : List SourceLine)
    (hls : ∀ i l, ls[i]? = some l → d.buffer.source.line? (number + i) = some l) :
    let braces := Folds.readBraces d.retokenizer d.buffer.source number ls
    braces.failure = none ∧ braces.malformed = false ∧
      (braces.lines.flatMap fun x => x.2.map fun c => (x.1, c)) = (ls.zipIdx number).flatMap fun x =>
        ((cells '\x7b' '\x7d' x.1.text).filter fun cell =>
          d.kindAt? (x.1.start + cell.1) == some Token.Kind.separator).map fun cell => (x.2, cell.2) := by
  induction ls generalizing number with
  | nil => exact ⟨rfl, rfl, rfl⟩
  | cons l ls ih =>
    dsimp only at ih ⊢
    have hl : d.buffer.source.line? number = some l := hls 0 l rfl
    have hrest : ∀ i l', ls[i]? = some l' → d.buffer.source.line? (number + 1 + i) = some l' := by
      intro i l' hi
      rw [Nat.add_assoc, Nat.add_comm 1 i]
      exact hls (i + 1) l' hi
    obtain ⟨hfailure, hmalformed, hlines⟩ := ih (number + 1) hrest
    rw [List.zipIdx_cons, List.flatMap_cons, ← hlines]
    by_cases hany : (l.text.any fun c => c == '\x7b' || c == '\x7d') = true
    · obtain ⟨tokens, hline, hstructural⟩ := h.exists_structuralBraces hl
      rw [Folds.readBraces_of_brace hany hline]
      refine ⟨hfailure, hmalformed, ?_⟩
      rw [List.flatMap_cons, hstructural, List.map_map]
      rfl
    · have hnone : cells '\x7b' '\x7d' l.text = [] := by
        refine BracketMatcher.cells_eq_nil fun c hc => ?_
        simp only [List.any_eq_true, not_exists, not_and, Bool.or_eq_true, beq_iff_eq, not_or] at hany
        exact hany c hc
      rw [Folds.readBraces_of_no_brace hany, hnone]
      exact ⟨hfailure, hmalformed, rfl⟩

/-- The pairs of curly braces that a stack finds. -/
def curlyPairs (d : Document) : List (Nat × Nat) :=
  Brackets.pairs d.buffer.text (fun offset => d.kindAt? offset == some Token.Kind.separator) .curly

/-- What is read of all lines are the structural braces of the text, each with its line. -/
theorem Readable.flatMap_braces (h : d.Readable) :
    let braces := Folds.readBraces d.retokenizer d.buffer.source 0 d.buffer.source.lines
    braces.failure = none ∧ braces.malformed = false ∧
      (braces.lines.flatMap fun x => x.2.map fun c => (x.1, c)) =
        (Brackets.structuralCells d.buffer.text (fun offset => d.kindAt? offset == some Token.Kind.separator)
          .curly).map fun cell => (d.buffer.lineOf cell.1, cell.2) := by
  intro braces
  obtain ⟨hfailure, hmalformed, hlines⟩ := h.readBraces_eq 0 d.buffer.source.lines
    fun i l hi => by rwa [Nat.zero_add]
  refine ⟨hfailure, hmalformed, hlines.trans ?_⟩
  have htext := Buffer.cells_text BracketForm.curly.isBreak_eq_false.1 BracketForm.curly.isBreak_eq_false.2
    d.buffer
  rw [Brackets.structuralCells, htext, List.filter_flatMap, List.map_flatMap]
  conv_rhs => rw [← List.zipIdx_map_fst 0 d.buffer.source.lines, List.flatMap_map]
  refine List.flatMap_congr fun x hx => ?_
  have hl := BracketMatcher.line?_of_mem_zipIdx hx
  rw [List.filter_map, List.map_map]
  refine List.map_congr_left fun cell hcell => ?_
  have hline := Buffer.lineOf_source hl (BracketMatcher.lt_of_mem_cells (List.mem_of_mem_filter hcell))
  rw [Buffer.lineOf_eq] at hline
  simp only [Function.comp_apply, Cell.shift, hline]

/-- **The regions are those of the pairs** of curly braces on two lines, in order. -/
theorem Readable.perm_ofBraces (h : d.Readable) (hsize : d.buffer.length < UInt64.size) :
    let found := Folds.ofBraces (Folds.readBraces d.retokenizer d.buffer.source 0 d.buffer.source.lines).lines
    found.Ordered ∧ found.regions.Perm
      (d.curlyPairs.filterMap fun p => Folds.region? (d.buffer.lineOf p.1) (d.buffer.lineOf p.2)) := by
  obtain ⟨-, -, hlines⟩ := h.flatMap_braces
  have hline (offset : Nat) : d.buffer.lineOf offset < UInt64.size :=
    Nat.lt_of_le_of_lt (d.buffer.lineOf_le_length offset) hsize
  have hbraces : ∀ cell ∈ Brackets.structuralCells d.buffer.text
      (fun offset => d.kindAt? offset == some Token.Kind.separator) .curly,
      cell.2 = '\x7b' ∨ cell.2 = '\x7d' := by
    intro cell hcell
    exact (Brackets.mem_structuralCells.mp hcell).2.1
  intro found
  have hfound : found = _ := Folds.ofBraces_eq _
  rw [hlines] at hfound
  constructor
  · rw [hfound]
    refine Folds.ordered_foldl_pairBrace ?_ _
    exact List.Pairwise.nil
  · have hperm := Folds.perm_foldl_pairBrace hline hbraces [] Folds.empty
    rw [hfound, List.foldl_map]
    rw [show Folds.empty.regions = [] from rfl, List.append_nil] at hperm
    exact hperm

end Read

/-! ### Blocks -/

/-- The target of the match of an offset, asked without folds. -/
def target? (d : Document) (offset : Nat) : Option Nat :=
  match (d.reading ((d.matcherHiding fun _ => false).match? offset)).1 with
  | .ok found => found.map (·.target)
  | .error _ => none

/-- **The structural opening braces of the text that match**, each with the target of its match. -/
def matchedBraces (d : Document) : List (Nat × Nat) :=
  let braces := (List.range d.buffer.length).filter fun o =>
    d.buffer.text[o]? = some '\x7b' ∧ d.kindAt? o = some .separator
  braces.filterMap fun o => (d.target? o).map fun t => (o, t)

/-- **The blocks of the text**: the lines of the opening braces that match on a later line, each with the line
of its match. -/
def matchedBlocks (d : Document) : List (Nat × Nat) :=
  (d.matchedBraces.map fun p => (d.buffer.lineOf p.1, d.buffer.lineOf p.2)).filter fun p => p.1 < p.2

section Blocks
variable {d : Document}

theorem Readable.target?_eq_some_iff (h : d.Readable) (hsize : d.buffer.length < UInt64.size) {o t : Nat} :
    d.target? o = some t ↔ d.Partners o t := by
  obtain ⟨found, hfound, hiff⟩ := h.exists_match hsize (fun _ => false) o
  unfold target?
  rw [hfound]
  constructor
  · intro ht
    obtain ⟨x, hx, rfl⟩ := Option.map_eq_some_iff.mp ht
    exact ((hiff x).mp hx).2.1
  · intro hpartners
    exact Option.map_eq_some_iff.mpr ⟨⟨o, t⟩, (hiff _).mpr ⟨rfl, hpartners, rfl⟩, rfl⟩

/-- The opening braces that match, with their targets, are the pairs that a stack finds. -/
theorem Readable.perm_matchedBraces (h : d.Readable) (hsize : d.buffer.length < UInt64.size) :
    d.matchedBraces.Perm d.curlyPairs := by
  have hpairs : d.curlyPairs.Nodup := by
    refine List.Nodup.of_map Prod.fst (Brackets.nodup_fst_pairUp ?_)
    rw [List.nil_append]
    exact Brackets.nodup_structuralCells _ _ _
  have hbraces : d.matchedBraces.Nodup := by
    refine List.Nodup.filterMap ?_ (List.nodup_range.filter _)
    intro o o' p hp hp'
    obtain ⟨t, -, rfl⟩ := Option.map_eq_some_iff.mp hp
    obtain ⟨t', -, heq⟩ := Option.map_eq_some_iff.mp hp'
    exact (Prod.mk.inj heq).1.symm
  refine (List.perm_ext_iff_of_nodup hbraces hpairs).mpr ?_
  rintro ⟨o, t⟩
  simp only [matchedBraces, List.mem_filterMap, List.mem_filter, List.mem_range, decide_eq_true_eq,
    Option.map_eq_some_iff, h.target?_eq_some_iff hsize]
  constructor
  · rintro ⟨o, ⟨-, hchar, -⟩, t, hpartners, heq⟩
    obtain ⟨rfl, rfl⟩ := Prod.mk.inj heq
    have hcurly : d.buffer.text[o]? = some BracketForm.curly.opening := hchar
    exact (Brackets.partners_iff_of_opening hcurly).mp hpartners
  · intro hpair
    obtain ⟨hchar, -, hkind⟩ := Brackets.mem_structuralCells.mp (Brackets.mem_pairs hpair).1
    have hlt : o < d.buffer.length := (List.getElem?_eq_some_iff.mp hchar).1
    exact ⟨o, ⟨hlt, hchar, eq_of_beq hkind⟩, t, ⟨.curly, Or.inl hpair⟩, rfl⟩

/-- **Finding folds** of a document in a language with braces keeps all else as it is. -/
theorem Readable.detectFolds_eq (h : d.Readable) (hbraces : d.retokenizer.scanner.usesBraces = true) :
    d.detectFolds = (.ok (), { d with folds :=
      ⟨(Folds.ofBraces (Folds.readBraces d.retokenizer d.buffer.source 0 d.buffer.source.lines).lines).regions.map
        fun r => { r with isFolded := d.folds.isFoldedAt r.first }⟩ }) := by
  obtain ⟨hfailure, hmalformed, -⟩ := h.flatMap_braces
  simp only [detectFolds, Folds.detect, hbraces, hfailure, hmalformed, Bool.not_true, Bool.false_eq_true, if_false,
    Bool.or_false]

theorem map_filterMap_region? {lineOf : Nat → Nat} (hlines : ∀ o, lineOf o < UInt64.size)
    (ps : List (Nat × Nat)) :
    (ps.filterMap fun p => Folds.region? (lineOf p.1) (lineOf p.2)).map
        (fun r => (r.first.toNat, r.last.toNat)) =
      (ps.map fun p => (lineOf p.1, lineOf p.2)).filter fun p => p.1 < p.2 := by
  induction ps with
  | nil => rfl
  | cons p ps ih =>
    by_cases hlt : lineOf p.1 < lineOf p.2
    · simp only [List.filterMap_cons, Folds.region?, List.map_cons, List.filter_cons, hlt, decide_true,
        if_true, UInt64.toNat_ofNat_of_lt' (hlines _)]
      exact congrArg _ ih
    · simp only [List.filterMap_cons, Folds.region?, List.map_cons, List.filter_cons, hlt,
        decide_false, Bool.false_eq_true, if_false]
      exact ih

/-- **The regions of the braces that are read are the blocks**, each as often. -/
theorem Readable.perm_matchedBlocks (h : d.Readable) (hsize : d.buffer.length < UInt64.size) :
    ((Folds.ofBraces (Folds.readBraces d.retokenizer d.buffer.source 0 d.buffer.source.lines).lines).regions.map
      fun r => (r.first.toNat, r.last.toNat)).Perm d.matchedBlocks := by
  have hline (offset : Nat) : d.buffer.lineOf offset < UInt64.size :=
    Nat.lt_of_le_of_lt (d.buffer.lineOf_le_length offset) hsize
  refine ((h.perm_ofBraces hsize).2.map _).trans ?_
  rw [map_filterMap_region? hline, matchedBlocks]
  exact ((h.perm_matchedBraces hsize).symm.map _).filter _

/-- Blocks are found by the text and the states, whatever is folded away. -/
theorem matchedBlocks_withFolds (d : Document) (folds : Folds) :
    { d with folds := folds }.matchedBlocks = d.matchedBlocks := rfl

theorem detectFolds_of_no_braces (h : d.retokenizer.scanner.usesBraces = false) :
    d.detectFolds = (.ok (), { d with folds := .empty }) := by
  simp only [detectFolds, Folds.detect, h, Bool.not_false, if_true]

end Blocks

/-- **Folds are the blocks whose braces match**, in every document that can come about and that 64-bit words
can address: finding folds succeeds, the regions are in the order of their first lines, in a language of the C
family their first and last lines are those of the blocks, each as often, and in a language without braces
there are none. -/
theorem detectFolds_perm_matchedBlocks (buffer : Buffer) (filePath : Option String) (settings : Settings)
    (steps : List (Nat × Op))
    (hsize : ((ofBuffer buffer filePath settings).run steps).buffer.length < UInt64.size) :
    let d := (ofBuffer buffer filePath settings).run steps
    let d' := d.detectFolds.2
    d.detectFolds.1 = .ok () ∧ d'.folds.Ordered ∧
      (∀ dialect, d.retokenizer.scanner = CFamily.scanner dialect →
        (d'.folds.regions.map fun r => (r.first.toNat, r.last.toNat)).Perm d'.matchedBlocks) ∧
      (d.retokenizer.scanner.usesBraces = false → d'.folds.regions = []) := by
  intro d d'
  have hd : d.Readable := readable_run (readable_ofBuffer buffer filePath settings) steps
  cases hbraces : d.retokenizer.scanner.usesBraces with
  | false =>
    have hdetect : d.detectFolds = (.ok (), { d with folds := .empty }) := detectFolds_of_no_braces hbraces
    have hafter : d' = { d with folds := .empty } := congrArg Prod.snd hdetect
    rw [hdetect, hafter]
    refine ⟨rfl, List.Pairwise.nil, ?_, fun _ => rfl⟩
    intro dialect hdialect
    rw [hdialect] at hbraces
    cases hbraces
  | true =>
    have hdetect := hd.detectFolds_eq hbraces
    have hblocks := hd.perm_matchedBlocks hsize
    have hordered := (hd.perm_ofBraces hsize).1
    generalize Folds.ofBraces _ = found at hdetect hblocks hordered
    have hafter : d' = { d with folds :=
        ⟨found.regions.map fun r => { r with isFolded := d.folds.isFoldedAt r.first }⟩ } :=
      congrArg Prod.snd hdetect
    rw [hdetect, hafter, matchedBlocks_withFolds]
    refine ⟨rfl, List.pairwise_map.mpr hordered, fun _ _ => ?_, nofun⟩
    rwa [List.map_map]

example :
    let d := (ofBuffer (.ofString "\x7b a(\"\x7b\") \x7b\n\x7b // \x7d\n\x7d\n\x7d \x7d") none
      { defaultLanguage := "text/java" }).run [(0, .change (.insert 0 ['\x7d', '\n']))]
    d.detectFolds.2.matchedBlocks = [(1, 4), (1, 4), (2, 3)] := by decide +kernel

/-- Of three blocks of Java two start on one line, and a brace in a string and one in a comment do not count. -/
theorem detectFolds_perm_matchedBlocks_nested :
    let d := (ofBuffer (.ofString "\x7b a(\"\x7b\") \x7b\n\x7b // \x7d\n\x7d\n\x7d \x7d") none
      { defaultLanguage := "text/java" }).run [(0, .change (.insert 0 ['\x7d', '\n']))]
    let d' := d.detectFolds.2
    d.buffer.length < UInt64.size ∧ d.detectFolds.1 = .ok () ∧ d'.folds.Ordered ∧
      (∀ dialect, d.retokenizer.scanner = CFamily.scanner dialect →
        (d'.folds.regions.map fun r => (r.first.toNat, r.last.toNat)).Perm d'.matchedBlocks) ∧
      (d.retokenizer.scanner.usesBraces = false → d'.folds.regions = []) := by
  intro d d'
  have hsize : d.buffer.length < UInt64.size := by decide +kernel
  exact ⟨hsize, detectFolds_perm_matchedBlocks _ _ _ _ hsize⟩

end Document

end Linewise
