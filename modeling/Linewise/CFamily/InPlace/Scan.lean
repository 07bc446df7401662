import Linewise.CFamily.InPlace.Literal
import Linewise.CFamily.InPlace.Number
import Linewise.Token.Outline

/-!
# Scanning a part of a line in place

A part of a line is scanned where it stands, in a window on the line, as when a scanner hands it over to
another one. The scan goes by columns and gives an outline: what the part holds from which column to
which, and the state behind it (`read`).

What is found at a column is what is found at the front of the text behind it, seen from the start of the
line (`next_eq`); that the scan gets on rests on it. So a part of a line reads as its text does
(`read_eq`).
-/

namespace Linewise.CFamily

open Token (Kind Lexeme Outline Reading)

namespace InPlace

open Text (Window)

/-! ### What can start at a column

Each of these looks at a column of a window and at its character `c`. The length of an extent is the column
behind it. -/

/-- A run of blanks. -/
def blank? (w : Window) (c : Char) (column : Nat) : Option Extent :=
  if Text.isBlank c then some (.upTo .whitespace (w.runEnd Text.isBlank (column + 1))) else none

/-- A comment. A block comment documents if a further star follows its opening mark and does not at once
close it. -/
def comment? (d : Dialect) (w : Window) (c : Char) (column : Nat) : Option Extent :=
  if c = '/' then
    match w.char? (column + 1) with
    | some '/' => some (.toEnd .commentEol none)
    | some '*' =>
      let doc := w.char? (column + 2) == some '*' && w.char? (column + 3) != some '/'
      some (commentExtent d w 1 doc (column + 2))
    | _ => none
  else none

/-- A regular expression. -/
def pattern? (d : Dialect) (w : Window) (c : Char) (column : Nat) : Option Extent :=
  if c = '/' ∧ d.patterns ∧ patternAllowed w column then
    (patternEnd? w (column + 1)).map (.upTo .pattern ·)
  else none

/-- A quoted literal, or the lifetime that a single quote introduces. -/
def quoted? (d : Dialect) (w : Window) (c : Char) (column : Nat) : Option Extent :=
  if c = '\x22' then some (stringExtent d w (column + 1))
  else if c = '\x60' ∧ d.templateStrings then some (templateExtent w (column + 1))
  else if c = '\x27' then
    if d.lifetimes && (w.char? (column + 1)).any d.isWordStart && w.char? (column + 2) != some '\x27' then
      some (.upTo .identifier (w.runEnd d.isWordChar (column + 1)))
    else some (singleQuoteExtent d w (column + 1))
  else none

/-- A number, which starts with a digit or with a point in front of one. -/
def number? (d : Dialect) (w : Window) (c : Char) (column : Nat) : Option Extent :=
  if c.isDigit || (c == '.' && (w.char? (column + 1)).any Char.isDigit) then
    let n := number d.isWordChar w column
    some (.upTo n.kind n.length)
  else none

/-- A word. -/
def word? (d : Dialect) (w : Window) (c : Char) (column : Nat) : Option Extent :=
  if d.isWordStart c then
    let stop := w.runEnd d.isWordChar (column + 1)
    some (.upTo (wordKind d (w.slice column stop) (w.char? stop)) stop)
  else none

/-- A directive, in front of which the window is blank. -/
def directive? (d : Dialect) (w : Window) (c : Char) (column : Nat) : Option Extent :=
  if c = '#' ∧ d.directives ∧ (w.slice w.start column).all Text.isBlank then
    some (.upTo .preprocessor (w.runEnd (fun x => Text.isAlphanumeric x || x == '_') (column + 1)))
  else none

/-- An annotation. -/
def annotated? (d : Dialect) (w : Window) (c : Char) (column : Nat) : Option Extent :=
  if d.annotationMark = some c then some (.upTo .attribute (w.runEnd d.isWordChar (column + 1)))
  else none

/-- Whether a comment starts at a column. -/
def opensComment (w : Window) (column : Nat) : Bool :=
  w.startsAt ['/', '/'] column || w.startsAt ['/', '*'] column

/-- The column behind an operator that goes on at a column: it ends in front of a comment. -/
def operatorEnd (w : Window) (column : Nat) : Nat :=
  match h : w.char? column with
  | none => column
  | some c => if isOperatorChar c && !opensComment w column then operatorEnd w (column + 1) else column
termination_by w.stop - column
decreasing_by
  have := Window.lt_stop_of_char? h
  omega

/-- A separator, an operator, or a character that starts nothing. -/
def punctuation (w : Window) (c : Char) (column : Nat) : Extent :=
  if isSeparator c then .upTo .separator (column + 1)
  else if isOperatorChar c then .upTo .operator (operatorEnd w (column + 1))
  else .upTo .errorWord (column + 1)

/-- What starts at a column: the first of the constructs above that can. -/
def next (d : Dialect) (w : Window) (c : Char) (column : Nat) : Extent :=
  (blank? w c column <|> comment? d w c column <|> pattern? d w c column <|> quoted? d w c column <|>
    number? d w c column <|> word? d w c column <|> directive? d w c column <|>
    annotated? d w c column).getD (punctuation w c column)

/-! ### What is found at a column is what its text starts with -/

section Next
variable {d : Dialect} {w : Window} {c : Char} {column : Nat}

theorem blank?_eq : blank? w c column = (CFamily.blank? c (w.behind (column + 1))).map (.shift (column + 1)) := by
  unfold blank? CFamily.blank?
  rw [w.runEnd_eq]
  split <;> rfl

theorem comment?_eq :
    comment? d w c column = (CFamily.comment? d c (w.behind (column + 1))).map (.shift (column + 1)) := by
  unfold comment? CFamily.comment?
  split
  · cases hfirst : w.char? (column + 1) with
    | none =>
      rw [Window.behind_eq_nil hfirst]
      rfl
    | some x =>
      rw [Window.behind_eq_cons hfirst]
      by_cases hline : x = '/'
      · subst hline
        rfl
      · by_cases hblock : x = '*'
        · subst hblock
          refine congrArg some ?_
          show _ = Extent.shift (column + 1) (Extent.shift 1 (CFamily.commentExtent d 1
            ((w.behind (column + 2)).head? == some '*' && (w.behind (column + 2))[1]? != some '/')
            (w.behind (column + 2))))
          rw [commentExtent_eq, w.char?_eq (column + 2), Extent.shift_shift, w.getElem?_behind]
        · simp [hline, hblock]
  · rfl

theorem pattern?_eq (hstart : w.start ≤ column) (hstop : column ≤ w.stop) (hsize : w.stop ≤ w.line.size) :
    pattern? d w c column =
      (CFamily.pattern? d (w.inFront column) c (w.behind (column + 1))).map (.shift (column + 1)) := by
  unfold pattern? CFamily.pattern?
  rw [patternAllowed_eq hstart hstop hsize, patternEnd?_eq]
  split
  · rw [Option.map_map, Option.map_map]
    rfl
  · rfl

theorem quoted?_eq (hcolumn : column < w.stop) (hsize : w.stop ≤ w.line.size) :
    quoted? d w c column = (CFamily.quoted? d c (w.behind (column + 1))).map (.shift (column + 1)) := by
  unfold quoted? CFamily.quoted?
  rw [stringExtent_eq hsize, templateExtent_eq hsize, singleQuoteExtent_eq hsize d hcolumn, w.runEnd_eq,
    ← w.char?_eq, w.getElem?_behind]
  split
  · rfl
  · split
    · rfl
    · split
      · split <;> rfl
      · rfl

theorem number?_eq (hc : w.char? column = some c) :
    number? d w c column = (CFamily.number? d c (w.behind (column + 1))).map (.shift (column + 1)) := by
  unfold number? CFamily.number?
  rw [number_eq, Window.behind_eq_cons hc, ← w.char?_eq]
  split
  · next h =>
    rw [Bool.or_eq_true, Bool.and_eq_true, beq_iff_eq, w.char?_eq] at h
    have hpos := Number.length_scan_pos d.isWordChar h
    refine congrArg (fun stop => some (Extent.upTo _ stop)) ?_
    dsimp only [Number.shift]
    omega
  · rfl

theorem word?_eq (hc : w.char? column = some c) :
    word? d w c column = (CFamily.word? d c (w.behind (column + 1))).map (.shift (column + 1)) := by
  have hlt := Window.lt_stop_of_char? hc
  have hstop := Window.runEnd_le (p := d.isWordChar) (Nat.succ_le_of_lt hlt)
  unfold word? CFamily.word?
  dsimp only
  rw [Window.slice_eq_take hstop, Window.behind_eq_cons hc, w.runEnd_eq, w.head?_drop_behind]
  split
  · rw [show column + 1 + Text.run d.isWordChar (w.behind (column + 1)) - column =
      Text.run d.isWordChar (w.behind (column + 1)) + 1 by omega, List.take_succ_cons]
    rfl
  · rfl

theorem directive?_eq (hstop : column ≤ w.stop) :
    directive? d w c column =
      (CFamily.directive? d (w.inFront column) c (w.behind (column + 1))).map (.shift (column + 1)) := by
  have hfront : (w.slice w.start column).all Text.isBlank = (w.inFront column).all Text.isBlank := by
    rw [Window.slice_eq_drop hstop, Window.inFront, List.all_reverse]
  unfold directive? CFamily.directive?
  rw [hfront, w.runEnd_eq]
  split <;> rfl

theorem annotated?_eq :
    annotated? d w c column = (CFamily.annotated? d c (w.behind (column + 1))).map (.shift (column + 1)) := by
  unfold annotated? CFamily.annotated?
  rw [w.runEnd_eq]
  split <;> rfl

theorem opensComment_eq (w : Window) (column : Nat) :
    opensComment w column = CFamily.opensComment (w.behind column) := by
  rw [opensComment, CFamily.opensComment, w.startsAt_eq, w.startsAt_eq]

theorem operatorEnd_eq (w : Window) (column : Nat) :
    operatorEnd w column = column + operatorRest (w.behind column) := by
  fun_induction operatorEnd w column with
  | case1 column h =>
    rw [Window.behind_eq_nil h]
    rfl
  | case2 column c h hmore ih =>
    rw [opensComment_eq, Window.behind_eq_cons h] at hmore
    rw [ih, Window.behind_eq_cons h, operatorRest, if_pos hmore]
    omega
  | case3 column c h hend =>
    rw [opensComment_eq, Window.behind_eq_cons h] at hend
    rw [Window.behind_eq_cons h, operatorRest, if_neg hend]
    rfl

theorem punctuation_eq (w : Window) (c : Char) (column : Nat) :
    punctuation w c column = (CFamily.punctuation c (w.behind (column + 1))).shift (column + 1) := by
  unfold punctuation CFamily.punctuation
  rw [operatorEnd_eq]
  split
  · rfl
  · split <;> rfl

/-- **What starts at a column** is what the text behind it starts with. -/
theorem next_eq (hc : w.char? column = some c) (hstart : w.start ≤ column) (hsize : w.stop ≤ w.line.size) :
    next d w c column =
      (CFamily.next d (w.inFront column) c (w.behind (column + 1))).shift (column + 1) := by
  have hlt := Window.lt_stop_of_char? hc
  have hle := Nat.le_of_lt hlt
  unfold next CFamily.next
  rw [blank?_eq, comment?_eq, pattern?_eq hstart hle hsize, quoted?_eq hlt hsize, number?_eq hc, word?_eq hc,
    directive?_eq hle, annotated?_eq, punctuation_eq]
  simp only [← Option.map_or, Option.getD_map, Option.orElse_eq_orElse, Option.orElse_eq_or]

end Next

/-! ### Getting on

What starts at a column takes at least the character that stands there, also in a window that reaches past
its line. -/

/-- An extent that ends behind a column. -/
def Passes (column : Nat) : Extent → Prop
  | .upTo _ stop => column < stop
  | .toEnd _ _ => True

section Passes
variable {d : Dialect} {w : Window} {c : Char} {column : Nat}

theorem passes_shift (column : Nat) (e : Extent) : Passes column (e.shift (column + 1)) := by
  cases e with
  | upTo kind length => exact Nat.lt_of_lt_of_le (Nat.lt_succ_self column) (Nat.le_add_right ..)
  | toEnd kind left => trivial

theorem passes_map_shift (x : Option Extent) : ∀ e ∈ x.map (.shift (column + 1)), Passes column e := by
  intro e he
  obtain ⟨e, -, rfl⟩ := Option.map_eq_some_iff.1 he
  exact passes_shift column e

theorem passes_runEnd (kind : Kind) (p : Char → Bool) :
    Passes column (.upTo kind (w.runEnd p (column + 1))) := by
  rw [w.runEnd_eq]
  exact passes_shift column (.upTo kind _)

theorem passes_pattern? : ∀ e ∈ pattern? d w c column, Passes column e := by
  unfold pattern?
  rw [patternEnd?_eq, Option.map_map]
  split
  · intro e he
    obtain ⟨n, -, rfl⟩ := Option.map_eq_some_iff.1 he
    exact passes_shift column (.upTo .pattern n)
  · simp

theorem passes_stringExtent : Passes column (stringExtent d w (column + 1)) := by
  unfold stringExtent
  split
  · next h => exact Nat.lt_of_succ_lt (lt_of_quoteEnd h)
  · trivial
  · split <;> trivial

theorem passes_templateExtent : Passes column (templateExtent w (column + 1)) := by
  unfold templateExtent
  split
  · next h => exact Nat.lt_of_succ_lt (lt_of_quoteEnd h)
  · trivial

theorem passes_singleQuoteExtent : Passes column (singleQuoteExtent d w (column + 1)) := by
  unfold singleQuoteExtent
  split
  · next h =>
    have hlt := Nat.lt_of_succ_lt (lt_of_quoteEnd h)
    split
    · exact hlt
    · split <;> exact hlt
  · trivial

theorem passes_quoted? : ∀ e ∈ quoted? d w c column, Passes column e := by
  unfold quoted?
  split
  · simpa using passes_stringExtent
  · split
    · simpa using passes_templateExtent
    · split
      · split
        · simpa using passes_runEnd ..
        · simpa using passes_singleQuoteExtent
      · simp

theorem passes_directive? : ∀ e ∈ directive? d w c column, Passes column e := by
  unfold directive?
  split
  · simpa using passes_runEnd ..
  · simp

theorem passes_next (hc : w.char? column = some c) : Passes column (next d w c column) := by
  have hpasses : ∀ e ∈ (blank? w c column <|> comment? d w c column <|> pattern? d w c column <|>
      quoted? d w c column <|> number? d w c column <|> word? d w c column <|> directive? d w c column <|>
      annotated? d w c column), Passes column e := by
    refine forall_mem_orElse ?_ <| forall_mem_orElse ?_ <| forall_mem_orElse passes_pattern? <|
      forall_mem_orElse passes_quoted? <| forall_mem_orElse ?_ <| forall_mem_orElse ?_ <|
      forall_mem_orElse passes_directive? ?_
    · rw [blank?_eq]; exact passes_map_shift _
    · rw [comment?_eq]; exact passes_map_shift _
    · rw [number?_eq hc]; exact passes_map_shift _
    · rw [word?_eq hc]; exact passes_map_shift _
    · rw [annotated?_eq]; exact passes_map_shift _
  unfold next
  generalize (blank? w c column <|> _ : Option Extent) = found at hpasses ⊢
  cases found with
  | none =>
    rw [punctuation_eq]
    exact passes_shift column _
  | some e => exact hpasses e rfl

theorem lt_of_next {kind : Kind} {stop : Nat} (hc : w.char? column = some c)
    (h : next d w c column = .upTo kind stop) : column < stop := by
  have hpasses := passes_next (d := d) hc
  rwa [h] at hpasses

end Passes

/-! ### The scan -/

/-- Reads a window on from a column. -/
def scanFrom (d : Dialect) (w : Window) (column : Nat) : Outline :=
  match _ : w.char? column with
  | none => ⟨[], .neutral⟩
  | some c =>
    match _ : next d w c column with
    | .upTo kind stop => (scanFrom d w stop).mark kind column stop
    | .toEnd kind left => Outline.mark kind column w.stop ⟨[], Construct.carried left⟩
termination_by w.stop - column
decreasing_by exact Nat.sub_lt_sub_left (Window.lt_stop_of_char? ‹_›) (lt_of_next ‹_› ‹_›)

/-- How far a construct reaches into a window that the line before has left open. -/
def resume (d : Dialect) (open? : Construct) (w : Window) : Extent :=
  match open? with
  | .comment depth doc => commentExtent d w depth doc w.start
  | .string => stringExtent d w w.start
  | .template => templateExtent w w.start

/-- Reads a window that starts in a given state. -/
def read (d : Dialect) (w : Window) (initial : LineState) : Outline :=
  match Construct.ofState? d initial with
  | none => scanFrom d w w.start
  | some construct =>
    match resume d construct w with
    | .upTo kind stop => (scanFrom d w stop).mark kind w.start stop
    | .toEnd kind left => Outline.mark kind w.start w.stop ⟨[], Construct.carried left⟩

/-! ### A window reads as its text -/

section Read
variable {d : Dialect} {w : Window} (hsize : w.stop ≤ w.line.size)
include hsize

theorem scanFrom_eq {column : Nat} (hstart : w.start ≤ column) :
    scanFrom d w column = (CFamily.scanFrom d (w.inFront column) (w.behind column)).outline column := by
  fun_induction scanFrom d w column with
  | case1 column hc =>
    rw [Window.behind_eq_nil hc, CFamily.scanFrom]
    rfl
  | case2 column c hc kind stop hnext ih =>
    rw [next_eq hc hstart hsize] at hnext
    rw [Window.behind_eq_cons hc, CFamily.scanFrom]
    cases hextent : CFamily.next d (w.inFront column) c (w.behind (column + 1)) with
    | toEnd kind left =>
      rw [hextent] at hnext
      cases hnext
    | upTo kind length =>
      rw [hextent] at hnext
      obtain ⟨rfl, rfl⟩ := Extent.upTo.inj hnext
      have hlength : ((w.behind (column + 1)).take length).length = length :=
        List.length_take_of_le (le_length_of_next hextent)
      have hstop : column + (c :: (w.behind (column + 1)).take length).length = column + 1 + length := by
        rw [List.length_cons, hlength]
        omega
      have hinFront : w.inFront (column + 1 + length) =
          ((w.behind (column + 1)).take length).reverse ++ c :: w.inFront column := by
        rw [Window.inFront_add (by omega) (Window.lt_length_of_char? hc), Window.inFront_succ hstart hc]
      rw [ih (by omega), hinFront, ← w.drop_behind (column + 1) length, ← hstop]
      exact (Reading.outline_after_cut ..).symm
  | case3 column c hc kind left hnext =>
    rw [next_eq hc hstart hsize] at hnext
    rw [Window.behind_eq_cons hc, CFamily.scanFrom]
    cases hextent : CFamily.next d (w.inFront column) c (w.behind (column + 1)) with
    | upTo kind length =>
      rw [hextent] at hnext
      cases hnext
    | toEnd kind left =>
      rw [hextent] at hnext
      obtain ⟨rfl, rfl⟩ := Extent.toEnd.inj hnext
      have hlt := Window.lt_stop_of_char? hc
      have hstop : column + (c :: w.behind (column + 1)).length = w.stop := by
        rw [List.length_cons, Window.length_behind hsize]
        omega
      rw [← hstop]
      exact (Reading.outline_after_cut ⟨[], Construct.carried left⟩ ..).symm

theorem resume_eq (open? : Construct) :
    resume d open? w = (CFamily.resume d open? (w.behind w.start)).shift w.start := by
  cases open? with
  | comment depth doc => exact commentExtent_eq ..
  | string => exact stringExtent_eq hsize ..
  | template => exact templateExtent_eq hsize ..

/-- **A window reads as its text**: the outline is that of the text which the window shows. -/
theorem read_eq (hstart : w.start ≤ w.stop) (initial : LineState) :
    read d w initial = (CFamily.scan d initial (w.behind w.start)).outline w.start := by
  have hlength := Window.length_behind hsize w.start
  unfold read CFamily.scan
  cases Construct.ofState? d initial with
  | none =>
    have hscan := scanFrom_eq (d := d) hsize (Nat.le_refl w.start)
    rwa [w.inFront_start] at hscan
  | some construct =>
    dsimp only
    rw [resume_eq hsize]
    cases hextent : CFamily.resume d construct (w.behind w.start) with
    | upTo kind length =>
      have hle := le_length_of_resume hextent
      have htake : ((w.behind w.start).take length).length = length := List.length_take_of_le hle
      have hinFront : w.inFront (w.start + length) = ((w.behind w.start).take length).reverse := by
        rw [Window.inFront_add (Nat.le_refl _) (by rw [Window.length_text hsize]; exact hstart), w.inFront_start,
          List.append_nil]
      dsimp only [Extent.shift]
      rw [scanFrom_eq hsize (Nat.le_add_right ..), hinFront, ← w.drop_behind, Reading.outline_after_cut, htake]
    | toEnd kind left =>
      have hstop : w.start + (w.behind w.start).length = w.stop := by omega
      dsimp only [Extent.shift]
      rw [← hstop, ← List.append_nil (Lexeme.cut ..)]
      exact (Reading.outline_after_cut ⟨[], Construct.carried left⟩ ..).symm

end Read

end InPlace

/-! ### The lexemes of a scan -/

theorem own_scanFrom (d : Dialect) (seen cs : List Char) : ∀ l ∈ (scanFrom d seen cs).lexemes, l.Own := by
  fun_induction scanFrom d seen cs with
  | case1 => simp
  | case2 seen c cs kind length _ ih =>
    exact List.forall_mem_cons.2 ⟨⟨List.cons_ne_nil _ _, rfl⟩, ih⟩
  | case3 seen c cs kind left _ =>
    exact List.forall_mem_singleton.2 ⟨List.cons_ne_nil _ _, rfl⟩

theorem own_scan (d : Dialect) (initial : LineState) (cs : List Char) :
    ∀ l ∈ (scan d initial cs).lexemes, l.Own := by
  unfold scan
  split
  · exact own_scanFrom d [] cs
  · split
    · exact List.forall_mem_append.2 ⟨Lexeme.own_cut _ _, own_scanFrom d _ _⟩
    · exact Lexeme.own_cut _ _

/-! ### Ranges -/

/-- The tokens of the columns of a line from `start` to just before `stop`, from a given state on, and the
state behind them. -/
def scanRange (d : Dialect) (line : List Char) (start stop : Nat) (initial : LineState)
    (lineStart : UInt64) : Token.Sequence :=
  let outline := InPlace.read d ⟨line.toArray, start, stop⟩ initial
  ((Token.Builder.empty lineStart).pushSpans outline.spans).finish line.length outline.state

end Linewise.CFamily
