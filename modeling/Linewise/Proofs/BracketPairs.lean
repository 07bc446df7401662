import Linewise.Proofs.ReadDocuments
import Linewise.Proofs.StackPairs

/-!
# Brackets match as a stack pairs them

The brackets of a document that count are the *structural* ones, which a separator covers. Those of one form
pair up by a stack, in the order in which they stand in the text (`Brackets.pairs`), and the two of a pair
are *partners* (`Brackets.Partners`). The search for the partner of one bracket knows nothing of that: it
goes from line to line, forwards or backwards, makes the tokens of the lines that hold such brackets, and
counts.

Going from line to line is one walk along all the brackets behind or in front of the bracket
(`Reads.returns_search`), and so the search stops at the partner.

* `Document.match?_eq_some_iff`: **in every document that can come about, the match of a bracket is its
  partner**, unless this is on a line that is folded away.
-/

namespace Linewise

open BracketMatcher (Cell cells walk)
open Retokenizer (Returns returns_pure)

/-- The forms of brackets. -/
inductive BracketForm where
  | round
  | square
  | curly
  deriving DecidableEq, Repr

namespace BracketForm

/-- The opening bracket of a form. -/
def opening : BracketForm → Char
  | round => '('
  | square => '['
  | curly => '\x7b'

/-- The closing bracket of a form. -/
def closing : BracketForm → Char
  | round => ')'
  | square => ']'
  | curly => '\x7d'

theorem opening_ne_closing : ∀ form form' : BracketForm, form.opening ≠ form'.closing := by
  intro form form'
  cases form <;> cases form' <;> decide

theorem opening_injective {form form' : BracketForm} (h : form.opening = form'.opening) : form = form' := by
  revert h
  cases form <;> cases form' <;> decide

theorem closing_injective {form form' : BracketForm} (h : form.closing = form'.closing) : form = form' := by
  revert h
  cases form <;> cases form' <;> decide

theorem isBreak_eq_false (form : BracketForm) :
    Text.isBreak form.opening = false ∧ Text.isBreak form.closing = false := by
  cases form <;> decide

end BracketForm

theorem bracketPartner?_eq_some_iff {c target : Char} {forward : Bool} :
    bracketPartner? c = some (target, forward) ↔ ∃ form : BracketForm,
      (c = form.opening ∧ target = form.closing ∧ forward = true) ∨
        (c = form.closing ∧ target = form.opening ∧ forward = false) := by
  constructor
  · intro h
    unfold bracketPartner? at h
    split at h <;> cases h
    · exact ⟨.round, Or.inl ⟨rfl, rfl, rfl⟩⟩
    · exact ⟨.square, Or.inl ⟨rfl, rfl, rfl⟩⟩
    · exact ⟨.curly, Or.inl ⟨rfl, rfl, rfl⟩⟩
    · exact ⟨.round, Or.inr ⟨rfl, rfl, rfl⟩⟩
    · exact ⟨.square, Or.inr ⟨rfl, rfl, rfl⟩⟩
    · exact ⟨.curly, Or.inr ⟨rfl, rfl, rfl⟩⟩
  · rintro ⟨form, ⟨rfl, rfl, rfl⟩ | ⟨rfl, rfl, rfl⟩⟩
    · cases form <;> rfl
    · cases form <;> rfl

namespace Brackets

/-! ### Partners -/

/-- The brackets of a form that are structural, in the order in which they stand in the text. -/
def structuralCells (text : List Char) (structural : Nat → Bool) (form : BracketForm) : List Cell :=
  (cells form.opening form.closing text).filter fun cell => structural cell.1

/-- **The pairs of structural brackets of a form**, as a stack finds them. -/
def pairs (text : List Char) (structural : Nat → Bool) (form : BracketForm) : List (Nat × Nat) :=
  pairUp form.opening [] (structuralCells text structural form)

/-- **Two offsets are those of a pair**, one way or the other. -/
def Partners (text : List Char) (structural : Nat → Bool) (o t : Nat) : Prop :=
  ∃ form, (o, t) ∈ pairs text structural form ∨ (t, o) ∈ pairs text structural form

section Partners
variable {text : List Char} {structural : Nat → Bool} {form : BracketForm} {o t : Nat} {c : Char}

theorem mem_structuralCells : (o, c) ∈ structuralCells text structural form ↔
    text[o]? = some c ∧ (c = form.opening ∨ c = form.closing) ∧ structural o = true := by
  rw [structuralCells, List.mem_filter, BracketMatcher.mem_cells, and_assoc]

theorem nodup_structuralCells (text : List Char) (structural : Nat → Bool) (form : BracketForm) :
    ((structuralCells text structural form).map Prod.fst).Nodup := by
  have hsub : ((structuralCells text structural form).map Prod.fst).Sublist
      ((cells form.opening form.closing text).map Prod.fst) := List.filter_sublist.map _
  exact (BracketMatcher.sorted_cells.imp Nat.ne_of_lt).sublist hsub

theorem mem_pairs (h : (o, t) ∈ pairs text structural form) :
    (o, form.opening) ∈ structuralCells text structural form ∧
      (t, form.closing) ∈ structuralCells text structural form := by
  constructor
  · exact (fst_mem_of_mem_pairUp h).resolve_left List.not_mem_nil
  · obtain ⟨c, hne, hmem⟩ := snd_mem_of_mem_pairUp h
    rcases (mem_structuralCells.mp hmem).2.1 with rfl | rfl
    · exact absurd rfl hne
    · exact hmem

theorem Partners.symm (h : Partners text structural o t) : Partners text structural t o := by
  obtain ⟨form, h⟩ := h
  exact ⟨form, h.symm⟩

theorem Partners.exists_bracket (h : Partners text structural o t) :
    ∃ c, text[o]? = some c ∧ Text.isBreak c = false ∧ bracketPartner? c ≠ none ∧ structural o = true := by
  obtain ⟨form, hpair | hpair⟩ := h
  · obtain ⟨hc, -, hs⟩ := mem_structuralCells.mp (mem_pairs hpair).1
    exact ⟨_, hc, form.isBreak_eq_false.1, by cases form <;> decide, hs⟩
  · obtain ⟨hc, -, hs⟩ := mem_structuralCells.mp (mem_pairs hpair).2
    exact ⟨_, hc, form.isBreak_eq_false.2, by cases form <;> decide, hs⟩

theorem partners_iff_of_opening (hchar : text[o]? = some form.opening) :
    Partners text structural o t ↔ (o, t) ∈ pairs text structural form := by
  constructor
  · rintro ⟨form', hpair | hpair⟩
    · have hchar' := (mem_structuralCells.mp (mem_pairs hpair).1).1
      rw [hchar] at hchar'
      obtain rfl := BracketForm.opening_injective (Option.some.inj hchar')
      exact hpair
    · have hchar' := (mem_structuralCells.mp (mem_pairs hpair).2).1
      rw [hchar] at hchar'
      exact absurd (Option.some.inj hchar') (BracketForm.opening_ne_closing _ _)
  · intro hpair
    exact ⟨form, Or.inl hpair⟩

theorem partners_iff_of_closing (hchar : text[o]? = some form.closing) :
    Partners text structural o t ↔ (t, o) ∈ pairs text structural form := by
  constructor
  · rintro ⟨form', hpair | hpair⟩
    · have hchar' := (mem_structuralCells.mp (mem_pairs hpair).1).1
      rw [hchar] at hchar'
      exact absurd (Option.some.inj hchar').symm (BracketForm.opening_ne_closing _ _)
    · have hchar' := (mem_structuralCells.mp (mem_pairs hpair).2).1
      rw [hchar] at hchar'
      obtain rfl := BracketForm.closing_injective (Option.some.inj hchar')
      exact hpair
  · intro hpair
    exact ⟨form, Or.inr hpair⟩

section Cut
variable {above below : List Cell}

theorem structuralCells_eq (h : cells form.opening form.closing text = above ++ (o, c) :: below)
    (hs : structural o = true) :
    structuralCells text structural form = (above.filter fun cell => structural cell.1) ++
      (o, c) :: below.filter fun cell => structural cell.1 := by
  rw [structuralCells, h, List.filter_append, List.filter_cons, if_pos hs]

theorem not_mem_above_below (h : structuralCells text structural form = above ++ (o, c) :: below) :
    o ∉ above.map Prod.fst ∧ o ∉ below.map Prod.fst := by
  have hnodup := nodup_structuralCells text structural form
  rw [h, List.map_append, List.map_cons, List.nodup_middle, List.nodup_cons, List.mem_append, not_or] at hnodup
  exact hnodup.1

theorem char_of_cut (h : structuralCells text structural form = above ++ (o, c) :: below) :
    text[o]? = some c := by
  have hmem : (o, c) ∈ structuralCells text structural form := by
    rw [h]
    exact List.mem_append_right _ List.mem_cons_self
  exact (mem_structuralCells.mp hmem).1

/-- **The partner of an opening bracket** is where the walk behind it stops. -/
theorem partners_opening_iff
    (h : structuralCells text structural form = above ++ (o, form.opening) :: below) :
    Partners text structural o t ↔ walk form.opening 0 below = .inr t := by
  obtain ⟨habove, hbelow⟩ := not_mem_above_below h
  rw [partners_iff_of_opening (char_of_cut h), pairs, h, mem_pairUp_iff_walk_below habove hbelow]

/-- **The partner of a closing bracket** is where the walk backwards in front of it stops. -/
theorem partners_closing_iff
    (h : structuralCells text structural form = above ++ (o, form.closing) :: below) :
    Partners text structural o t ↔ walk form.closing 0 above.reverse = .inr t := by
  obtain ⟨habove, hbelow⟩ := not_mem_above_below h
  have hcells : ∀ cell ∈ above, cell.2 = form.opening ∨ cell.2 = form.closing := by
    intro cell hmem
    have hall : cell ∈ structuralCells text structural form := by
      rw [h]
      exact List.mem_append_left _ hmem
    exact (mem_structuralCells.mp hall).2.1
  rw [partners_iff_of_closing (char_of_cut h), pairs, h,
    mem_pairUp_iff_walk_above (form.opening_ne_closing form) hcells habove hbelow]

end Cut

end Partners

end Brackets

namespace BracketMatcher

/-! ### The search, line by line -/

/-- Characters of a line, at their places in the text. -/
def placed (l : SourceLine) (cs : List Cell) : List Cell := cs.map (Cell.shift l.start)

/-- **The matcher reads the lines of a buffer**, and the separators that it finds are where `structural`
says. -/
structure Reads (m : BracketMatcher) (b : Buffer) (structural : Nat → Bool) : Prop where
  source_eq : m.source = b.source
  exists_tokens : ∀ line l, b.source.line? line = some l → ∃ tokens,
    m.retokenizer.lineTokens b.source line = .ok (tokens, false) ∧ ∀ column < l.text.length,
      isSeparatorAt tokens (.ofNat (l.start + column)) = structural (l.start + column)

section Reads
variable {m : BracketMatcher} {b : Buffer} {structural : Nat → Bool} {line depth : Nat} {l : SourceLine}
  {same : Char} {cellsOf : List Char → List Cell} {first : List Cell} {rest : List (SourceLine × Nat)}

theorem placed_reverse (cs : List Cell) : placed l cs.reverse = (placed l cs).reverse := List.map_reverse

theorem filter_placed (cs : List Cell) :
    (placed l cs).filter (fun cell => structural cell.1) =
      placed l (cs.filter fun cell => structural (l.start + cell.1)) := by
  unfold placed
  rw [List.filter_map]
  rfl

theorem walk_placed (cs : List Cell) :
    walk same depth (placed l cs) = (walk same depth cs).map id (l.start + ·) := walk_map _ _ _ _

theorem Reads.returns_structural (h : m.Reads b structural) (hl : b.source.line? line = some l)
    {candidates : List Cell} (hcandidates : ∀ cell ∈ candidates, cell.1 < l.text.length) :
    Returns (m.structural line l.start candidates)
      (candidates.filter fun cell => structural (l.start + cell.1)) := by
  unfold BracketMatcher.structural
  cases candidates with
  | nil => exact returns_pure []
  | cons cell cs =>
    obtain ⟨tokens, hline, hseparator⟩ := h.exists_tokens line l hl
    rw [← h.source_eq] at hline
    refine (Retokenizer.returns_readTokens hline).bind ?_
    have hfilter : (cell :: cs).filter (fun cell => isSeparatorAt tokens (.ofNat (l.start + cell.1))) =
        (cell :: cs).filter fun cell => structural (l.start + cell.1) := by
      refine List.filter_congr fun cell' hmem => ?_
      exact hseparator _ (hcandidates cell' hmem)
    rw [← hfilter]
    exact returns_pure _

/-- The characters that a search comes along: the given ones of its first line, and all those of its other
lines. -/
def along (cellsOf : List Char → List Cell) (first : List Cell) : List (SourceLine × Nat) → List Cell
  | [] => []
  | x :: rest => placed x.1 first ++ rest.flatMap fun x => placed x.1 (cellsOf x.1.text)

theorem along_head (cellsOf : List Char → List Cell) (lines : List (SourceLine × Nat)) :
    along cellsOf ((lines.head?.map fun x => cellsOf x.1.text).getD []) lines =
      lines.flatMap fun x => placed x.1 (cellsOf x.1.text) := by
  cases lines <;> rfl

/-- **The search is one walk** along all the structural brackets that it comes along. -/
theorem Reads.returns_search (h : m.Reads b structural) {lines : List (SourceLine × Nat)}
    (hlines : ∀ x ∈ lines, b.source.line? x.2 = some x.1)
    (hcells : ∀ text, ∀ cell ∈ cellsOf text, cell.1 < text.length)
    (hfirst : ∀ x ∈ lines.head?, ∀ cell ∈ first, cell.1 < x.1.text.length) :
    Returns (m.search cellsOf same depth first lines)
      ((walk same depth ((along cellsOf first lines).filter fun cell => structural cell.1)).getRight?.map
        fun o => (b.source.lineOf o, o)) := by
  induction lines generalizing first depth with
  | nil => exact returns_pure none
  | cons x rest ih =>
    obtain ⟨l, line⟩ := x
    rw [List.forall_mem_cons] at hlines
    have hhere := hfirst (l, line) rfl
    rw [along, List.filter_append, filter_placed, walk_append, walk_placed]
    refine (h.returns_structural hlines.1 hhere).bind ?_
    cases hwalk : walk same depth (first.filter fun cell => structural (l.start + cell.1)) with
    | inr column =>
      obtain ⟨c, hmem⟩ := mem_of_walk hwalk
      have hline := Buffer.lineOf_source hlines.1 (hhere _ (List.mem_of_mem_filter hmem))
      dsimp only at hline
      simp only [Sum.map_inr, Sum.elim_inr, Sum.getRight?_inr, Option.map_some, hline]
      exact returns_pure _
    | inl depth' =>
      simp only [Sum.map_inl, Sum.elim_inl, id_eq]
      rw [← along_head]
      refine ih hlines.2 ?_
      intro x hx cell hcell
      rw [Option.mem_def.mp hx] at hcell
      exact hcells _ cell hcell

/-! ### The match -/

theorem line?_of_mem_zipIdx {x : SourceLine × Nat} (hx : x ∈ b.source.lines.zipIdx) :
    b.source.line? x.2 = some x.1 := List.mem_zipIdx_iff_getElem?.mp hx

/-- **The lines of a buffer are cut at a bracket** into what a search forwards and what a search backwards
comes along. -/
theorem exists_cut {x y c : Char} {column : Nat} (hx : Text.isBreak x = false) (hy : Text.isBreak y = false)
    (hl : b.source.line? line = some l) (hchar : l.text[column]? = some c) (hc : c = x ∨ c = y) :
    ∃ front back, b.source.lines.zipIdx.drop line = (l, line) :: back ∧
      (b.source.lines.zipIdx.take (line + 1)).reverse = (l, line) :: front ∧
      cells x y b.text =
        (along (fun text => (cells x y text).reverse)
          ((cells x y l.text).filter fun cell => cell.1 < column).reverse ((l, line) :: front)).reverse ++
        (l.start + column, c) ::
        along (cells x y) ((cells x y l.text).filter fun cell => column < cell.1) ((l, line) :: back) := by
  have hline : line < b.source.lines.zipIdx.length := by
    rw [List.length_zipIdx]
    exact (List.getElem?_eq_some_iff.mp hl).1
  have hat : b.source.lines.zipIdx[line] = (l, line) := by
    rw [List.getElem_zipIdx, Nat.zero_add, (List.getElem?_eq_some_iff.mp hl).2]
  refine ⟨(b.source.lines.zipIdx.take line).reverse, b.source.lines.zipIdx.drop (line + 1), ?_, ?_, ?_⟩
  · rw [List.drop_eq_getElem_cons hline, hat]
  · rw [List.take_succ_eq_append_getElem hline, hat, List.reverse_append]
    rfl
  · have hlines : b.source.lines = (b.source.lines.zipIdx.take line).map Prod.fst ++
        l :: (b.source.lines.zipIdx.drop (line + 1)).map Prod.fst := by
      conv_lhs => rw [← List.zipIdx_map_fst 0 b.source.lines, ← List.take_append_drop line b.source.lines.zipIdx,
        List.drop_eq_getElem_cons hline, hat]
      simp
    have hcut : placed l (cells x y l.text) =
        placed l ((cells x y l.text).filter fun cell => cell.1 < column) ++ (l.start + column, c) ::
          placed l ((cells x y l.text).filter fun cell => column < cell.1) := by
      conv_lhs => rw [eq_append_of_mem sorted_cells (mem_cells.mpr ⟨hchar, hc⟩)]
      exact List.map_append
    rw [Buffer.cells_text hx hy]
    conv_lhs => rw [hlines]
    show (_ ++ l :: _).flatMap (fun l => placed l (cells x y l.text)) = _
    simp only [List.flatMap_append, List.flatMap_cons, List.flatMap_map, along, List.reverse_append,
      placed_reverse, List.flatMap_reverse, Function.comp_def, List.reverse_reverse, hcut, List.append_assoc,
      List.cons_append]

/-- **What is found behind an opening bracket** is its partner. -/
theorem Reads.exists_found_below (h : m.Reads b structural) {form : BracketForm} {column : Nat}
    (hl : b.source.line? line = some l) (hchar : l.text[column]? = some form.opening)
    (hs : structural (l.start + column) = true) :
    ∃ found : Nat ⊕ Nat,
      Returns (m.search (cells form.opening form.closing) form.opening 0
        ((cells form.opening form.closing l.text).filter fun cell => column < cell.1)
        (b.source.lines.zipIdx.drop line)) (found.getRight?.map fun o => (b.source.lineOf o, o)) ∧
      ∀ t, Brackets.Partners b.text structural (l.start + column) t ↔ found = .inr t := by
  obtain ⟨front, back, hback, -, hcells⟩ :=
    exists_cut form.isBreak_eq_false.1 form.isBreak_eq_false.2 hl hchar (Or.inl rfl)
  have hcut := Brackets.structuralCells_eq hcells hs
  refine ⟨_, h.returns_search (fun x hx => ?_) (fun _ _ => lt_of_mem_cells) ?_, ?_⟩
  · exact line?_of_mem_zipIdx (List.mem_of_mem_drop hx)
  · rw [hback]
    rintro x ⟨⟩ cell hcell
    exact lt_of_mem_cells (List.mem_of_mem_filter hcell)
  · intro t
    rw [Brackets.partners_opening_iff hcut, hback]

/-- **What is found in front of a closing bracket** is its partner. -/
theorem Reads.exists_found_above (h : m.Reads b structural) {form : BracketForm} {column : Nat}
    (hl : b.source.line? line = some l) (hchar : l.text[column]? = some form.closing)
    (hs : structural (l.start + column) = true) :
    ∃ found : Nat ⊕ Nat,
      Returns (m.search (fun text => (cells form.closing form.opening text).reverse) form.closing 0
        ((cells form.closing form.opening l.text).filter fun cell => cell.1 < column).reverse
        (b.source.lines.zipIdx.take (line + 1)).reverse)
        (found.getRight?.map fun o => (b.source.lineOf o, o)) ∧
      ∀ t, Brackets.Partners b.text structural (l.start + column) t ↔ found = .inr t := by
  simp only [cells_comm (a := form.closing)]
  obtain ⟨front, back, -, hfront, hcells⟩ :=
    exists_cut form.isBreak_eq_false.1 form.isBreak_eq_false.2 hl hchar (Or.inr rfl)
  have hcut := Brackets.structuralCells_eq hcells hs
  rw [List.filter_reverse] at hcut
  refine ⟨_, h.returns_search (fun x hx => ?_) (fun _ cell hcell => ?_) ?_, ?_⟩
  · exact line?_of_mem_zipIdx (List.mem_of_mem_take (List.mem_reverse.mp hx))
  · exact lt_of_mem_cells (List.mem_reverse.mp hcell)
  · rw [hfront]
    rintro x ⟨⟩ cell hcell
    exact lt_of_mem_cells (List.mem_of_mem_filter (List.mem_reverse.mp hcell))
  · intro t
    rw [Brackets.partners_closing_iff hcut, List.reverse_reverse, hfront]

/-- **What is found for a bracket**, whichever way it is searched for, is its partner. -/
theorem Reads.exists_found (h : m.Reads b structural) {c target : Char} {forward : Bool} {column : Nat}
    (hpartner : bracketPartner? c = some (target, forward)) (hl : b.source.line? line = some l)
    (hchar : l.text[column]? = some c) (hs : structural (l.start + column) = true) :
    ∃ found : Nat ⊕ Nat,
      Returns (if forward = true then
          m.search (cells c target) c 0 ((cells c target l.text).filter fun cell => column < cell.1)
            (b.source.lines.zipIdx.drop line)
        else
          m.search (fun text => (cells c target text).reverse) c 0
            ((cells c target l.text).filter fun cell => cell.1 < column).reverse
            (b.source.lines.zipIdx.take (line + 1)).reverse)
        (found.getRight?.map fun o => (b.source.lineOf o, o)) ∧
      ∀ t, Brackets.Partners b.text structural (l.start + column) t ↔ found = .inr t := by
  rcases bracketPartner?_eq_some_iff.mp hpartner with ⟨form, ⟨rfl, rfl, rfl⟩ | ⟨rfl, rfl, rfl⟩⟩
  · exact h.exists_found_below hl hchar hs
  · exact h.exists_found_above hl hchar hs

theorem exists_column_of_partners {offset t : Nat} (hl : b.source.line? (b.source.lineOf offset) = some l)
    (hstart : l.start ≤ offset) (h : Brackets.Partners b.text structural offset t) :
    ∃ c, l.text[offset - l.start]? = some c ∧ bracketPartner? c ≠ none ∧ structural offset = true := by
  obtain ⟨c, hc, hbreak, hpartner, hs⟩ := h.exists_bracket
  exact ⟨c, (Buffer.getElem?_text_iff hbreak hl hstart).mp hc, hpartner, hs⟩

/-- What is found is shown, unless it is on a line that is folded away. -/
theorem exists_shown (m : BracketMatcher) (offset : Nat) {x : Retokenizer.Reader (Option (Nat × Nat))} {found : Nat ⊕ Nat}
    (hx : Returns x (found.getRight?.map fun o => (b.source.lineOf o, o))) :
    ∃ shown, Returns (do
        match ← x with
        | some (targetLine, targetOffset) =>
          if m.isHidden targetLine = true then pure none
          else pure (some (BracketMatch.mk offset targetOffset))
        | _ => pure none) shown ∧
      ∀ y, shown = some y ↔ y.origin = offset ∧ found = .inr y.target ∧
        m.isHidden (b.source.lineOf y.target) = false := by
  cases found with
  | inl depth => exact ⟨none, hx.bind (returns_pure none), by simp⟩
  | inr o =>
    cases hhidden : m.isHidden (b.source.lineOf o) with
    | true =>
      refine ⟨none, hx.bind ?_, ?_⟩
      · simp only [Sum.getRight?_inr, Option.map_some, hhidden, if_true]
        exact returns_pure none
      · rintro ⟨origin, target⟩
        simp only [reduceCtorEq, Sum.inr.injEq, false_iff]
        rintro ⟨-, rfl, hshown⟩
        rw [hhidden] at hshown
        cases hshown
    | false =>
      refine ⟨some ⟨offset, o⟩, hx.bind ?_, ?_⟩
      · simp only [Sum.getRight?_inr, Option.map_some, hhidden, Bool.false_eq_true, if_false]
        exact returns_pure _
      · rintro ⟨origin, target⟩
        simp only [Option.some.injEq, BracketMatch.mk.injEq, Sum.inr.injEq]
        constructor
        · rintro ⟨rfl, rfl⟩
          exact ⟨rfl, rfl, hhidden⟩
        · rintro ⟨rfl, rfl, -⟩
          exact ⟨rfl, rfl⟩

theorem Reads.returns_match? (h : m.Reads b structural) (offset : Nat) :
    ∃ found, Returns (m.match? offset) found ∧ ∀ x : BracketMatch, found = some x ↔
      x.origin = offset ∧ Brackets.Partners b.text structural offset x.target ∧
        m.isHidden (b.source.lineOf x.target) = false := by
  obtain ⟨l, hl, hstart⟩ := b.exists_line_source offset
  have hnone (hno : ∀ t, ¬ Brackets.Partners b.text structural offset t) :
      ∃ found : Option BracketMatch, Returns (pure none) found ∧ ∀ x : BracketMatch, found = some x ↔
        x.origin = offset ∧ Brackets.Partners b.text structural offset x.target ∧
          m.isHidden (b.source.lineOf x.target) = false :=
    ⟨none, returns_pure none, by simp [hno]⟩
  unfold match?
  simp only [h.source_eq, hl]
  cases hchar : l.text[offset - l.start]? with
  | none =>
    refine hnone fun t hpartners => ?_
    obtain ⟨c, hc, -⟩ := exists_column_of_partners hl hstart hpartners
    rw [hchar] at hc
    cases hc
  | some c =>
    dsimp only
    cases hpartner : bracketPartner? c with
    | none =>
      refine hnone fun t hpartners => ?_
      obtain ⟨c', hc, hbracket, -⟩ := exists_column_of_partners hl hstart hpartners
      rw [hchar] at hc
      obtain rfl := Option.some.inj hc
      exact hbracket hpartner
    | some p =>
      obtain ⟨target, forward⟩ := p
      dsimp only
      have hcandidate : ∀ cell ∈ [(offset - l.start, c)], cell.1 < l.text.length := by
        simpa using (List.getElem?_eq_some_iff.mp hchar).1
      have hread := h.returns_structural hl hcandidate
      have hoffset : l.start + (offset - l.start) = offset := Nat.add_sub_cancel' hstart
      rw [List.filter_cons, hoffset, List.filter_nil] at hread
      by_cases hs : structural offset = true
      · rw [if_pos hs] at hread
        obtain ⟨found, hsearch, hpartners⟩ := h.exists_found hpartner hl hchar (by rwa [hoffset])
        obtain ⟨shown, hshown, hiff⟩ := exists_shown m offset hsearch
        refine ⟨shown, hread.bind ?_, ?_⟩
        · cases forward with
          | true => exact hshown
          | false => exact hshown
        · intro x
          rw [hiff, ← hpartners, hoffset]
      · rw [if_neg hs] at hread
        have hno : ∀ t, ¬ Brackets.Partners b.text structural offset t := by
          intro t hpartners
          obtain ⟨-, -, -, hstructural⟩ := exists_column_of_partners hl hstart hpartners
          exact hs hstructural
        obtain ⟨found, hfound, hiff⟩ := hnone hno
        exact ⟨found, hread.bind hfound, hiff⟩

/-- What is found for a caret is what is found in front of it or, failing that, behind it. -/
theorem returns_matchNear? {m : BracketMatcher} {caret : Nat} {front back : Option BracketMatch}
    (hfront : Returns (m.match? (caret - 1)) front) (hback : Returns (m.match? caret) back) :
    Returns (m.matchNear? caret) (if 0 < caret then front.or back else back) := by
  unfold matchNear?
  by_cases hcaret : 0 < caret
  · rw [if_pos hcaret, if_pos hcaret]
    refine hfront.bind ?_
    cases front with
    | none => exact hback
    | some found => exact Retokenizer.returns_pure (some found)
  · rw [if_neg hcaret, if_neg hcaret]
    exact hback

end Reads

end BracketMatcher

namespace Document

/-- **Two offsets are those of structural brackets that a stack pairs up**, one way or the other. -/
def Partners (d : Document) (o t : Nat) : Prop :=
  Brackets.Partners d.buffer.text (fun offset => d.kindAt? offset == some Token.Kind.separator) o t

/-- Matches brackets of the document, whatever lines are folded away. -/
def matcherHiding (d : Document) (isHidden : Nat → Bool) : BracketMatcher :=
  { d.matcher with isHidden := isHidden }

section Match
variable {d : Document}

theorem Readable.reads_matcher (h : d.Readable) (hsize : d.buffer.length < UInt64.size)
    (isHidden : Nat → Bool) : (d.matcherHiding isHidden).Reads d.buffer
      fun offset => d.kindAt? offset == some Token.Kind.separator := by
  refine ⟨rfl, ?_⟩
  intro line l hl
  obtain ⟨tokens, hline, htiles, -, hkinds⟩ := h.exists_tokens hl
  refine ⟨tokens, hline, fun column hcolumn => ?_⟩
  rw [hkinds column hcolumn]
  exact isSeparatorAt_eq htiles hl hsize hcolumn

/-- **What is found for an offset**, whatever lines are folded away: its partner, if it has one that is
shown. Nothing fails, and the document stays as it is. -/
theorem Readable.exists_match (h : d.Readable) (hsize : d.buffer.length < UInt64.size)
    (isHidden : Nat → Bool) (offset : Nat) :
    ∃ found, d.reading ((d.matcherHiding isHidden).match? offset) = (.ok found, d) ∧
      ∀ x : BracketMatch, found = some x ↔ x.origin = offset ∧ d.Partners offset x.target ∧
        isHidden (d.buffer.lineOf x.target) = false := by
  obtain ⟨found, hfound, hiff⟩ := (h.reads_matcher hsize isHidden).returns_match? offset
  refine ⟨found, reading_of_returns hfound, ?_⟩
  intro x
  rw [hiff, Buffer.lineOf_eq]
  rfl

end Match

/-- **Brackets match as a stack pairs them**, in every document that can come about and that 64-bit words
can address, whatever lines are folded away. The match of an offset is its partner, if there is one and its
line is shown. So without folds the partner's match is the bracket itself, and it is a separator, not in a
comment or in a string. -/
theorem match?_eq_some_iff (buffer : Buffer) (filePath : Option String) (settings : Settings)
    (steps : List (Nat × Op)) (isHidden : Nat → Bool) (offset : Nat)
    (hsize : ((ofBuffer buffer filePath settings).run steps).buffer.length < UInt64.size) :
    let d := (ofBuffer buffer filePath settings).run steps
    let m := d.matcherHiding isHidden
    ∃ found, d.reading (m.match? offset) = (.ok found, d) ∧
      (∀ x : BracketMatch, found = some x ↔ x.origin = offset ∧ d.Partners offset x.target ∧
        isHidden (d.buffer.lineOf x.target) = false) ∧
      ((∀ line, isHidden line = false) → ∀ x : BracketMatch, found = some x →
        d.reading (m.match? x.target) = (.ok (some ⟨x.target, offset⟩), d) ∧
          d.kindAt? x.target = some .separator) := by
  intro d m
  have hd : d.Readable := readable_run (readable_ofBuffer buffer filePath settings) steps
  obtain ⟨found, hfound, hiff⟩ := hd.exists_match hsize isHidden offset
  refine ⟨found, hfound, hiff, ?_⟩
  intro hshown x hx
  obtain ⟨-, hpartners, -⟩ := (hiff x).mp hx
  obtain ⟨back, hback, hiff'⟩ := hd.exists_match hsize isHidden x.target
  obtain ⟨-, -, -, -, hkind⟩ := hpartners.symm.exists_bracket
  have hsame : back = some ⟨x.target, offset⟩ := (hiff' _).mpr ⟨rfl, hpartners.symm, hshown _⟩
  refine ⟨?_, eq_of_beq hkind⟩
  rw [← hsame]
  exact hback

/-- A closing brace comes between two lines of Java, of which the second ends in a comment. -/
theorem match?_eq_some_iff_brace_inserted :
    let d := (ofBuffer (.ofString "f(a[0]) \x7b\n) // \x7d\n") none { defaultLanguage := "text/java" }).run
      [(0, .change (.insert 9 ['\n', '\x7d']))]
    let isHidden : Nat → Bool := fun _ => false
    let m := d.matcherHiding isHidden
    d.buffer.length < UInt64.size ∧
    ∃ found, d.reading (m.match? 8) = (.ok found, d) ∧
      (∀ x : BracketMatch, found = some x ↔ x.origin = 8 ∧ d.Partners 8 x.target ∧
        isHidden (d.buffer.lineOf x.target) = false) ∧
      ((∀ line, isHidden line = false) → ∀ x : BracketMatch, found = some x →
        d.reading (m.match? x.target) = (.ok (some ⟨x.target, 8⟩), d) ∧
          d.kindAt? x.target = some .separator) := by
  intro d isHidden m
  have hsize : d.buffer.length < UInt64.size := by decide +kernel
  exact ⟨hsize, match?_eq_some_iff _ _ _ _ isHidden 8 hsize⟩

end Document

end Linewise
