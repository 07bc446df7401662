import Linewise.Proofs.AlikeDocuments
import Mathlib.Algebra.Order.BigOperators.Group.List
import Mathlib.Algebra.Order.Group.Nat

/-!
# Notices of errors

The parser that comes with the engine is to report every token that is an error. The tokens that it reads have
been searched for links, and a token that is cut at a link is read as several (`Hyperlink.HoldsLink`). Comments
are no errors, but literals that are not closed are, and links are looked for in these too.

* `Document.shownErrors_eq_iff`: what is reported are the errors that the scanner has found, each once, just if
  none of them is cut at a link (`Document.CutsErrors`).
* `Document.notices_eq_scannedErrors_iff`: **so it is with the notices after a run of the parser**, and so it is
  with the notices with and without links.
-/

namespace Linewise

theorem flatMap_eq_flatMap_iff {α β : Type} {f g : α → List β} {xs : List α}
    (h : ∀ x ∈ xs, (g x).length ≤ (f x).length) : xs.flatMap f = xs.flatMap g ↔ ∀ x ∈ xs, f x = g x := by
  induction xs with
  | nil => simp
  | cons x xs ih =>
    rw [List.forall_mem_cons] at h
    have hrest : (xs.flatMap g).length ≤ (xs.flatMap f).length := by
      simp only [List.length_flatMap]
      exact List.sum_le_sum h.2
    rw [List.flatMap_cons, List.flatMap_cons, List.forall_mem_cons, ← ih h.2]
    constructor
    · intro heq
      have hlength := congrArg List.length heq
      rw [List.length_append, List.length_append] at hlength
      exact List.append_inj heq (by omega)
    · rintro ⟨hx, hxs⟩
      rw [hx, hxs]

namespace Hyperlink

/-! ### Tokens that are cut -/

/-- **A link is found in the token, and is not all of it.** -/
def HoldsLink (line : List Char) (t : Token) : Prop :=
  isCandidate t = true ∧ ∃ p ∈ tokenPieces line t, p.isLink = true ∧ p.length < t.length

section Pieces
variable {line : List Char} {t : Token} {ps : List Piece}

theorem length_placePieces (start : Nat) :
    (placePieces t start ps).length = (ps.filter fun p => 0 < p.length).length := by
  induction ps generalizing start with
  | nil => rfl
  | cons p ps ih =>
    rw [placePieces, List.filter_cons]
    by_cases hempty : p.length = 0
    · simp only [hempty, if_true, Nat.lt_irrefl, decide_false, Bool.false_eq_true, if_false, Nat.add_zero]
      exact ih start
    · have hpos : 0 < p.length := Nat.pos_of_ne_zero hempty
      simp only [hempty, if_false, hpos, decide_true, if_true, List.length_cons, ih]

theorem length_filter_of_mem {p : Piece} (hp : p ∈ ps) (hpos : 0 < p.length)
    (hsum : (ps.map (·.length)).sum = p.length) : (ps.filter fun p => 0 < p.length).length = 1 := by
  obtain ⟨front, back, rfl⟩ := List.append_of_mem hp
  simp only [List.map_append, List.map_cons, List.sum_append, List.sum_cons] at hsum
  have hnone {qs : List Piece} (hqs : (qs.map (·.length)).sum = 0) : qs.filter (fun p => 0 < p.length) = [] := by
    refine List.filter_eq_nil_iff.mpr fun q hq hlt => ?_
    have hle := List.le_sum_of_mem (List.mem_map_of_mem (f := (·.length)) hq)
    have hlt : 0 < q.length := of_decide_eq_true hlt
    omega
  rw [List.filter_append, List.filter_cons, hnone (by omega), hnone (by omega)]
  simp [hpos]

theorem length_eq_of_length_filter (h : (ps.filter fun p => 0 < p.length).length = 1) {p : Piece} (hp : p ∈ ps)
    (hpos : 0 < p.length) : p.length = (ps.map (·.length)).sum := by
  have hsum (qs : List Piece) :
      ((qs.filter fun p => 0 < p.length).map (·.length)).sum = (qs.map (·.length)).sum := by
    induction qs with
    | nil => rfl
    | cons q qs ih =>
      rw [List.filter_cons]
      split_ifs with hq
      · simp only [List.map_cons, List.sum_cons, ih]
      · have hzero : q.length = 0 := by simpa using hq
        simp only [List.map_cons, List.sum_cons, ih, hzero, Nat.zero_add]
  obtain ⟨q, hq⟩ := List.length_eq_one_iff.mp h
  have hmem : p ∈ ps.filter fun p => 0 < p.length := List.mem_filter.mpr ⟨hp, decide_eq_true hpos⟩
  rw [hq] at hmem
  rw [← hsum, hq, List.mem_singleton.mp hmem]
  rfl

theorem length_pos_of_isLink (before : Option Char) (plain : Nat) (cs : List Char) :
    ∀ p ∈ pieces before plain cs, p.isLink = true → 0 < p.length := by
  fun_induction pieces before plain cs with
  | case1 => simp
  | case2 before plain c rest _ ih => exact ih
  | case3 before plain c rest n haddress ih =>
    have hbounds := address?_bounds haddress
    simp only [List.forall_mem_cons, Bool.false_eq_true, false_implies, true_and, true_implies]
    exact ⟨hbounds.1, ih⟩

theorem pieces_of_no_link {before : Option Char} {plain : Nat} {cs : List Char}
    (h : ∀ p ∈ pieces before plain cs, p.isLink = false) : pieces before plain cs = [⟨plain + cs.length, false⟩] := by
  fun_induction pieces before plain cs with
  | case1 => rfl
  | case2 before plain c rest _ ih =>
    rw [ih h, List.length_cons]
    congr 2
    omega
  | case3 before plain c rest n haddress ih =>
    have hlink := h ⟨n, true⟩ (List.mem_cons_of_mem _ List.mem_cons_self)
    cases hlink

/-- The pieces of a token, but for the length of the last one. -/
theorem tokenPieces_eq (line : List Char) (t : Token) :
    ∃ front last, pieces none 0 (t.text line) = front ++ [last] ∧
      tokenPieces line t = front ++ [{ last with length := last.length + (t.length - (t.text line).length) }] := by
  have hne := pieces_ne_nil none 0 (t.text line)
  refine ⟨_, _, (List.dropLast_append_getLast hne).symm, ?_⟩
  unfold tokenPieces
  simp only [List.getLast?_eq_some_getLast hne]

theorem length_pos_of_mem_tokenPieces {p : Piece} (hp : p ∈ tokenPieces line t) (hlink : p.isLink = true) :
    0 < p.length := by
  obtain ⟨front, last, hpieces, htoken⟩ := tokenPieces_eq line t
  have hpos := length_pos_of_isLink none 0 (t.text line)
  rw [hpieces] at hpos
  rw [htoken] at hp
  rcases List.mem_append.mp hp with hp | hp
  · exact hpos p (List.mem_append_left _ hp) hlink
  · obtain rfl := List.mem_singleton.mp hp
    exact Nat.lt_add_right _ (hpos last (List.mem_append_right _ List.mem_cons_self) hlink)

theorem tokenPieces_of_no_link (h : ∀ p ∈ tokenPieces line t, p.isLink = false) :
    ∃ p, tokenPieces line t = [p] := by
  obtain ⟨front, last, hpieces, htoken⟩ := tokenPieces_eq line t
  rw [htoken, List.forall_mem_append] at h
  have hlast : last.isLink = false :=
    h.2 { last with length := last.length + (t.length - (t.text line).length) } List.mem_cons_self
  have hnone : ∀ p ∈ pieces none 0 (t.text line), p.isLink = false := by
    rw [hpieces, List.forall_mem_append]
    exact ⟨h.1, fun p hp => List.mem_singleton.mp hp ▸ hlast⟩
  rw [pieces_of_no_link hnone] at hpieces
  have hfront : front = [] := by
    have hlength := congrArg List.length hpieces
    simp only [List.length_append, List.length_cons, List.length_nil] at hlength
    exact List.length_eq_zero_iff.mp (by omega)
  rw [htoken, hfront]
  exact ⟨_, rfl⟩

/-- **A token stays one token just if it holds no link that is not all of it.** -/
theorem length_cut_eq_one_iff (ht : 0 < t.length) : (cut line t).length = 1 ↔ ¬ HoldsLink line t := by
  unfold cut HoldsLink
  split_ifs with hcandidate
  swap
  · simp [hcandidate]
  have hsum := sum_length_tokenPieces line t
  rw [length_placePieces]
  simp only [hcandidate, true_and, not_exists, not_and, Nat.not_lt]
  constructor
  · intro hone p hp hlink
    have hlength := length_eq_of_length_filter hone hp (length_pos_of_mem_tokenPieces hp hlink)
    omega
  · intro hlinks
    -- Without links there is one piece; a link that is as long as the token leaves none of it to the others.
    by_cases hnone : ∀ p ∈ tokenPieces line t, p.isLink = false
    · obtain ⟨p, hp⟩ := tokenPieces_of_no_link hnone
      rw [hp] at hsum ⊢
      refine length_filter_of_mem List.mem_cons_self ?_ (by simp)
      simp only [List.map_cons, List.map_nil, List.sum_cons, List.sum_nil] at hsum
      omega
    · simp only [not_forall, Bool.not_eq_false] at hnone
      obtain ⟨p, hp, hlink⟩ := hnone
      have hle := List.le_sum_of_mem (List.mem_map_of_mem (f := (·.length)) hp)
      have hlength := hlinks p hp hlink
      refine length_filter_of_mem hp (length_pos_of_mem_tokenPieces hp hlink) ?_
      omega

theorem not_holdsLink_of_linkCount_eq_zero {ts : List Token} (h : linkCount line ts = 0) (ht : t ∈ ts) :
    ¬ HoldsLink line t := by
  rintro ⟨hcandidate, p, hp, hlink, -⟩
  rw [linkCount, List.countP_eq_zero] at h
  exact h p (List.mem_flatMap.mpr ⟨t, List.mem_filter.mpr ⟨ht, hcandidate⟩, hp⟩) hlink

theorem exists_cut_eq (h : (cut line t).length = 1) {lineStart : UInt64} (ht : t.Sound lineStart) :
    ∃ u, cut line t = [u] ∧ u.kind = t.kind ∧ u.offset = t.offset ∧ u.length = t.length := by
  obtain ⟨u, hu⟩ := List.length_eq_one_iff.mp h
  have hmem : u ∈ cut line t := by
    rw [hu]
    exact List.mem_cons_self
  have hcontiguous := contiguous_cut line t
  rw [hu, Token.contiguous_cons, Token.contiguous_nil, Token.stop, Token.stop] at hcontiguous
  refine ⟨u, hu, kind_cut line u hmem, ?_, by omega⟩
  rw [(sound_cut line ht u hmem).offset_eq, hcontiguous.1, ht.offset_eq]

end Pieces

end Hyperlink

namespace BackgroundParser

open Hyperlink (HoldsLink cut)

/-! ### Errors that are cut -/

section Cut
variable {number : Nat} {line : List Char} {t : Token} {ts : List Token} {lineStart : UInt64}

theorem errorNotices_flatMap (number : Nat) (f : Token → List Token) (ts : List Token) :
    errorNotices number (ts.flatMap f) = ts.flatMap fun t => errorNotices number (f t) := by
  simp only [errorNotices, List.filter_flatMap, List.map_flatMap]

/-- As many notices are made of a token that is cut as it gives way to, if it is an error. -/
theorem length_errorNotices_cut (number : Nat) (line : List Char) (t : Token) :
    (errorNotices number (cut line t)).length = if t.kind.isError then (cut line t).length else 0 := by
  have hkind : (cut line t).filter (fun u => u.kind.isError) = (cut line t).filter fun _ => t.kind.isError :=
    List.filter_congr fun u hu => by rw [Hyperlink.kind_cut line u hu]
  rw [errorNotices, hkind, List.length_map]
  cases t.kind.isError
  · simp
  · simp

theorem length_errorNotices_singleton (number : Nat) (t : Token) :
    (errorNotices number [t]).length = if t.kind.isError then 1 else 0 := by
  rw [errorNotices, List.length_map, List.filter_singleton]
  cases t.kind.isError <;> rfl

theorem length_errorNotices_le (number : Nat) (line : List Char) (ht : 0 < t.length) :
    (errorNotices number [t]).length ≤ (errorNotices number (cut line t)).length := by
  rw [length_errorNotices_cut, length_errorNotices_singleton]
  have hpos : 0 < (cut line t).length := by
    refine List.length_pos_iff.mpr fun hnil => ?_
    have hcontiguous := Hyperlink.contiguous_cut line t
    rw [hnil, Token.contiguous_nil, Token.stop] at hcontiguous
    omega
  split_ifs
  · exact hpos
  · exact Nat.le_refl _

theorem errorNotices_cut_eq_iff (ht : t.Sound lineStart) :
    errorNotices number (cut line t) = errorNotices number [t] ↔ (t.kind.isError = true → ¬ HoldsLink line t) := by
  have hlength := length_errorNotices_cut number line t
  cases herror : t.kind.isError with
  | false =>
    rw [herror] at hlength
    have hone := length_errorNotices_singleton number t
    rw [herror] at hone
    rw [List.length_eq_zero_iff.mp hlength, List.length_eq_zero_iff.mp hone]
    simp
  | true =>
    rw [herror, if_pos rfl] at hlength
    rw [forall_prop_of_true rfl, ← Hyperlink.length_cut_eq_one_iff ht.length_pos]
    constructor
    · intro heq
      rw [← hlength, heq, length_errorNotices_singleton, herror]
      rfl
    · intro hone
      obtain ⟨u, hu, hkind, hoffset, hlen⟩ := Hyperlink.exists_cut_eq hone ht
      rw [hu]
      simp only [errorNotices, List.filter_cons, herror, if_true, List.filter_nil, List.map_cons, List.map_nil,
        hkind, hoffset, hlen]

theorem errorNotices_eq_flatMap (number : Nat) (ts : List Token) :
    errorNotices number ts = ts.flatMap fun t => errorNotices number [t] := by
  rw [← errorNotices_flatMap, List.flatMap_singleton']

/-- A line has no fewer notices once its tokens are cut. -/
theorem length_errorNotices_le_flatMap_cut (number : Nat) (line : List Char) (hts : ∀ t ∈ ts, t.Sound lineStart) :
    (errorNotices number ts).length ≤ (errorNotices number (ts.flatMap (cut line))).length := by
  rw [errorNotices_eq_flatMap, errorNotices_flatMap, List.length_flatMap, List.length_flatMap]
  exact List.sum_le_sum fun t ht => length_errorNotices_le number line (hts t ht).length_pos

/-- **The notices of a line stay the same through the cuts just if no error of it is cut at a link.** -/
theorem errorNotices_flatMap_cut_eq_iff (hts : ∀ t ∈ ts, t.Sound lineStart) :
    errorNotices number (ts.flatMap (cut line)) = errorNotices number ts ↔
      ∀ t ∈ ts, t.kind.isError = true → ¬ HoldsLink line t := by
  rw [errorNotices_flatMap, errorNotices_eq_flatMap number ts,
    flatMap_eq_flatMap_iff fun t ht => length_errorNotices_le number line (hts t ht).length_pos]
  exact forall₂_congr fun t ht => errorNotices_cut_eq_iff (hts t ht)

/-- The notices of a line in which links are marked are those of its tokens, cut. -/
theorem errorNotices_mark (number : Nat) {s : Token.Sequence} (hs : ∀ t ∈ s.tokens, t.Sound lineStart) :
    errorNotices number (Hyperlink.mark line s).2.tokens = errorNotices number (s.tokens.flatMap (cut line)) := by
  unfold Hyperlink.mark
  dsimp only
  split_ifs with hnone
  · refine ((errorNotices_flatMap_cut_eq_iff hs).mpr fun t ht _ => ?_).symm
    exact Hyperlink.not_holdsLink_of_linkCount_eq_zero hnone ht
  · rfl

end Cut

end BackgroundParser

namespace Document

open BackgroundParser (errorNotices tokenErrors)
open Retokenizer (Returns)

/-! ### Notices of a document -/

/-- **The errors that the scanner itself has found**, in the order of the text. -/
def scannedErrors (d : Document) : List Notice :=
  (List.range d.buffer.lineCount).flatMap fun line =>
    match d.retokenizer.scanned? d.buffer.source line with
    | some scanned => errorNotices line scanned.tokens
    | none => []

/-- The errors that are read from the lines, in which links are marked. -/
def shownErrors (d : Document) : List Notice :=
  (List.range d.buffer.lineCount).flatMap fun line =>
    match d.retokenizer.lineTokens d.buffer.source line with
    | .ok (tokens, _) => errorNotices line tokens.tokens
    | .error _ => []

/-- **Links are looked for, and an error that the scanner has found is cut at one.** -/
def CutsErrors (d : Document) : Prop :=
  d.retokenizer.settings.detectLinks = true ∧ ∃ line l scanned, d.buffer.source.line? line = some l ∧
    d.retokenizer.scanned? d.buffer.source line = some scanned ∧
    ∃ t ∈ scanned.tokens, t.kind.isError = true ∧ Hyperlink.HoldsLink l.text t

section Errors
variable {d d' : Document}

theorem Readable.returns_errorsOfLines (h : d.Readable) {lines : List Nat}
    (hlines : ∀ line ∈ lines, line < d.buffer.lineCount) :
    Returns (BackgroundParser.errorsOfLines d.snapshot lines) (lines.flatMap fun line =>
      match d.retokenizer.lineTokens d.buffer.source line with
      | .ok (tokens, _) => errorNotices line tokens.tokens
      | .error _ => []) := by
  induction lines with
  | nil => exact Retokenizer.returns_pure []
  | cons line below ih =>
    rw [List.forall_mem_cons] at hlines
    obtain ⟨l, hl, -⟩ := d.buffer.source.exists_line (by rw [d.buffer.lineCount_source]; exact hlines.1)
    obtain ⟨tokens, hline, -⟩ := h.exists_tokens hl
    rw [List.flatMap_cons, hline]
    refine (Retokenizer.returns_readTokens hline).bind ?_
    exact (ih hlines.2).bind (Retokenizer.returns_pure _)

theorem Readable.returns_tokenErrors (h : d.Readable) (earlierRuns : Nat) :
    Returns (tokenErrors.parse earlierRuns d.snapshot) d.shownErrors := by
  have hcount : d.snapshot.lineCount = d.buffer.lineCount := d.buffer.lineCount_source
  show Returns (BackgroundParser.errorsOfLines d.snapshot (List.range d.snapshot.lineCount)) _
  rw [hcount]
  exact h.returns_errorsOfLines fun line hline => List.mem_range.mp hline

/-- **After a run, the notices of the parser of errors are what is read from the lines.** -/
theorem Readable.notices_runParsers (h : d.Readable) {e : ParserEntry}
    (he : e ∈ d.runParsers.2.schedule.entries) (hparser : e.parser = tokenErrors) : e.notices = d.shownErrors := by
  simp only [runParsers, withRun, Schedule.runAll, List.map_map] at he
  obtain ⟨e', -, rfl⟩ := List.mem_map.mp he
  rw [Function.comp_apply, Schedule.parser_runEntry] at hparser
  have hrun := h.returns_tokenErrors e'.runs false
  rw [← hparser] at hrun
  have hsupports : e'.parser.supports d.snapshot.languageId = true := by rw [hparser]; rfl
  simp only [Function.comp_apply, Schedule.runEntry, hsupports, hrun]
  rfl

/-- **The errors that are read from a line are those that the scanner has found there just if none of them is
cut at a link**, and they are never fewer. -/
theorem Readable.errorNotices_line (h : d.Readable) {line : Nat} {l : SourceLine}
    (hl : d.buffer.source.line? line = some l) :
    ∃ scanned tokens, d.retokenizer.scanned? d.buffer.source line = some scanned ∧
      d.retokenizer.lineTokens d.buffer.source line = .ok (tokens, false) ∧
      (errorNotices line scanned.tokens).length ≤ (errorNotices line tokens.tokens).length ∧
      (errorNotices line tokens.tokens = errorNotices line scanned.tokens ↔
        (d.retokenizer.settings.detectLinks = true →
          ∀ t ∈ scanned.tokens, t.kind.isError = true → ¬ Hyperlink.HoldsLink l.text t)) := by
  obtain ⟨scanned, hscanned, htiles, -, hline⟩ := h.builtIn.exists_scanned hl (h.le_states hl)
  refine ⟨scanned, _, hscanned, hline, ?_⟩
  unfold Retokenizer.withLinks
  cases d.retokenizer.settings.detectLinks with
  | false => exact ⟨Nat.le_refl _, fun _ => nofun, fun _ => rfl⟩
  | true =>
    rw [if_pos rfl, forall_prop_of_true rfl, BackgroundParser.errorNotices_mark line htiles.sound]
    exact ⟨BackgroundParser.length_errorNotices_le_flatMap_cut line l.text htiles.sound,
      BackgroundParser.errorNotices_flatMap_cut_eq_iff htiles.sound⟩

/-- **The errors that are read are those that the scanner has found just if none of these is cut at a link.** -/
theorem Readable.shownErrors_eq_iff (h : d.Readable) : d.shownErrors = d.scannedErrors ↔ ¬ d.CutsErrors := by
  have hexists {line : Nat} (hline : line ∈ List.range d.buffer.lineCount) :
      ∃ l, d.buffer.source.line? line = some l := by
    obtain ⟨l, hl, -⟩ := d.buffer.source.exists_line (by rw [d.buffer.lineCount_source]; exact List.mem_range.mp hline)
    exact ⟨l, hl⟩
  unfold shownErrors scannedErrors
  rw [flatMap_eq_flatMap_iff]
  swap
  · intro line hline
    obtain ⟨l, hl⟩ := hexists hline
    obtain ⟨scanned, tokens, hscanned, htokens, hle, -⟩ := h.errorNotices_line hl
    rw [hscanned, htokens]
    exact hle
  constructor
  · rintro heq ⟨hlinks, line, l, scanned, hl, hscanned, t, ht, herror, hholds⟩
    obtain ⟨scanned', tokens, hscanned', htokens, -, hiff⟩ := h.errorNotices_line hl
    have hcount : line < d.buffer.source.lineCount := (List.getElem?_eq_some_iff.mp hl).1
    have hsame := heq line (List.mem_range.mpr (by rwa [← d.buffer.lineCount_source]))
    rw [hscanned', htokens] at hsame
    obtain rfl := Option.some.inj (hscanned.symm.trans hscanned')
    exact hiff.mp hsame hlinks t ht herror hholds
  · intro hcuts line hline
    obtain ⟨l, hl⟩ := hexists hline
    obtain ⟨scanned, tokens, hscanned, htokens, -, hiff⟩ := h.errorNotices_line hl
    rw [hscanned, htokens]
    refine hiff.mpr fun hlinks t ht herror hholds => ?_
    exact hcuts ⟨hlinks, line, l, scanned, hl, hscanned, t, ht, herror, hholds⟩

theorem Alike.scannedErrors_eq (h : d.Alike d') : d'.scannedErrors = d.scannedErrors := by
  unfold scannedErrors
  simp only [h.buffer_eq, h.retokenizer.scanned?_eq]

end Errors

/-- **Notices are the errors that the scanner has found just if none of these is cut at a link.** So it is after a
run of the parser of errors over every document that can come about; and just then the notices are those of the
document that is made and used in the same way, but without links. -/
theorem notices_eq_scannedErrors_iff (buffer : Buffer) (filePath : Option String) (settings : Settings)
    {steps : List (Nat × Op)} (hsteps : ∀ step ∈ steps, step.2.OnlyReads) :
    let d := (ofBuffer buffer filePath settings).run steps
    let d' := (ofBuffer buffer filePath { settings with detectLinks := false }).run steps
    ∀ e ∈ d.runParsers.2.schedule.entries, e.parser = tokenErrors →
      (e.notices = d.scannedErrors ↔ ¬ d.CutsErrors) ∧
      ∀ e' ∈ d'.runParsers.2.schedule.entries, e'.parser = tokenErrors →
        (e.notices = e'.notices ↔ ¬ d.CutsErrors) := by
  intro d d' e he hparser
  have hnew := undisturbed_ofBuffer buffer filePath settings
  have hnew' := undisturbed_ofBuffer buffer filePath { settings with detectLinks := false }
  have hd : d.Readable := readable_run hnew.readable steps
  have hd' : d'.Readable := readable_run hnew'.readable steps
  have hstart : (ofBuffer buffer filePath settings).Alike
      (ofBuffer buffer filePath { settings with detectLinks := false }) := alike_ofBuffer buffer filePath rfl rfl
  have halike : d.Alike d' := (alike_run hstart hnew hnew' hsteps).2
  rw [hd.notices_runParsers he hparser]
  refine ⟨hd.shownErrors_eq_iff, ?_⟩
  intro e' he' hparser'
  have hlinks : d'.retokenizer.settings.detectLinks = false := by
    rw [settings_run, settings_ofBuffer]
  have hwhole : d'.shownErrors = d'.scannedErrors := by
    refine hd'.shownErrors_eq_iff.mpr ?_
    rintro ⟨hcuts, -⟩
    rw [hlinks] at hcuts
    cases hcuts
  rw [hd'.notices_runParsers he' hparser', hwhole, halike.scannedErrors_eq]
  exact hd.shownErrors_eq_iff

/-- A text of Java with two errors, of which one is a literal that is left open, and with a link in a comment. -/
theorem notices_eq_scannedErrors_iff_open_literal :
    let settings : Settings := { defaultLanguage := "text/java" }
    let steps : List (Nat × Op) := [(0, .registerParser tokenErrors), (0, .change (.insert 0 ['#', '\n']))]
    (∀ step ∈ steps, step.2.OnlyReads) ∧
    let buffer := Buffer.ofString "a \x22b\n// www.c\n"
    let d := (ofBuffer buffer none settings).run steps
    let d' := (ofBuffer buffer none { settings with detectLinks := false }).run steps
    ∀ e ∈ d.runParsers.2.schedule.entries, e.parser = tokenErrors →
      (e.notices = d.scannedErrors ↔ ¬ d.CutsErrors) ∧
      ∀ e' ∈ d'.runParsers.2.schedule.entries, e'.parser = tokenErrors →
        (e.notices = e'.notices ↔ ¬ d.CutsErrors) := by
  intro settings steps
  have hsteps : ∀ step ∈ steps, step.2.OnlyReads := by
    simp [steps, Op.OnlyReads, BackgroundParser.onlyReads_tokenErrors]
  exact ⟨hsteps, notices_eq_scannedErrors_iff _ _ settings hsteps⟩

/-- A literal that is left open holds an address: the scanner finds one error, and three are reported of it,
other than without links. -/
theorem not_notices_eq_scannedErrors_open_literal :
    let settings : Settings := { defaultLanguage := "text/java" }
    let steps : List (Nat × Op) := [(0, .registerParser tokenErrors), (1, .runParsers)]
    let d := (ofString "\x22a http://b.c d" settings).run steps
    let d' := (ofString "\x22a http://b.c d" { settings with detectLinks := false }).run steps
    d.schedule.notices? "token-errors" ≠ some d.scannedErrors ∧
      d.schedule.notices? "token-errors" ≠ d'.schedule.notices? "token-errors" := by decide +kernel

end Document

end Linewise
