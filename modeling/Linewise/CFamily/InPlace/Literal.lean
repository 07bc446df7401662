import Linewise.CFamily.Bounds
import Linewise.Text.Window

/-!
# Comments, literals and patterns, in place

Where a comment, a quoted literal or a regular expression ends is found by column, in a window on a line.
The answers are columns: each is the end that the text behind the column has, seen from the start of the
line.
-/

namespace Linewise.CFamily.InPlace

open Text (Window)

variable {w : Window} {column : Nat}

/-! ### Comments -/

/-- The end of a comment that the first closing mark ends. -/
def flatEnd (w : Window) (depth column : Nat) : CommentEnd :=
  match w.find? ['*', '/'] column with
  | some first => .closed (first + 2)
  | none => .stillOpen depth

/-- The end of a comment in which others may nest, from inside `depth` of them. -/
def nestedEnd (w : Window) (depth column : Nat) : CommentEnd :=
  match h : w.char? column, w.char? (column + 1) with
  | some '*', some '/' =>
    if depth ≤ 1 then .closed (column + 2) else nestedEnd w (depth - 1) (column + 2)
  | some '/', some '*' => nestedEnd w (depth + 1) (column + 2)
  | some _, _ => nestedEnd w depth (column + 1)
  | none, _ => .stillOpen depth
termination_by w.stop - column
decreasing_by
  all_goals
    have := Window.lt_stop_of_char? h
    omega

/-- The end of a comment in a dialect, from inside `depth` levels. -/
def commentEnd (d : Dialect) (w : Window) (depth column : Nat) : CommentEnd :=
  if d.nestedComments then nestedEnd w depth column else flatEnd w depth column

/-- The extent of a block comment, from inside `depth` levels of it. -/
def commentExtent (d : Dialect) (w : Window) (depth : Nat) (doc : Bool) (column : Nat) : Extent :=
  match commentEnd d w depth column with
  | .closed stop => .upTo (commentKind doc) stop
  | .stillOpen left => .toEnd (commentKind doc) (some (.comment left doc))

theorem flatEnd_eq (w : Window) (depth column : Nat) :
    flatEnd w depth column = (CFamily.flatEnd depth (w.behind column)).shift column := by
  unfold flatEnd CFamily.flatEnd
  rw [w.find?_eq]
  cases Text.find? ['*', '/'] (w.behind column) with
  | none => rfl
  | some n => rfl

theorem nestedEnd_eq (w : Window) (depth column : Nat) :
    nestedEnd w depth column = (CFamily.nestedEnd depth (w.behind column)).shift column := by
  fun_induction nestedEnd w depth column with
  | case1 depth column h h' hdepth =>
    rw [Window.behind_eq_cons h, Window.behind_eq_cons h', CFamily.nestedEnd, if_pos hdepth]
    rfl
  | case2 depth column h h' hdepth ih =>
    rw [Window.behind_eq_cons h, Window.behind_eq_cons h', CFamily.nestedEnd, if_neg hdepth, ih,
      CommentEnd.shift_shift]
  | case3 depth column h h' ih =>
    rw [Window.behind_eq_cons h, Window.behind_eq_cons h', CFamily.nestedEnd, ih, CommentEnd.shift_shift]
  | case4 depth column c h hclosing hopening ih =>
    rw [Window.behind_eq_cons h, CFamily.nestedEnd, ih, CommentEnd.shift_shift]
    · rintro cs rfl hcs
      exact hclosing (by rw [w.char?_eq, hcs]; rfl) rfl
    · rintro cs rfl hcs
      exact hopening (by rw [w.char?_eq, hcs]; rfl) rfl
  | case5 depth column h =>
    rw [Window.behind_eq_nil h]
    rfl

theorem commentEnd_eq (d : Dialect) (w : Window) (depth column : Nat) :
    commentEnd d w depth column = (CFamily.commentEnd d depth (w.behind column)).shift column := by
  unfold commentEnd CFamily.commentEnd
  rw [nestedEnd_eq, flatEnd_eq]
  split <;> rfl

theorem commentExtent_eq (d : Dialect) (w : Window) (depth : Nat) (doc : Bool) (column : Nat) :
    commentExtent d w depth doc column =
      (CFamily.commentExtent d depth doc (w.behind column)).shift column := by
  unfold commentExtent CFamily.commentExtent
  rw [commentEnd_eq]
  cases CFamily.commentEnd d depth (w.behind column) with
  | closed length => rfl
  | stillOpen left => rfl

/-! ### Quoted literals -/

/-- The end of a quoted literal from inside it. Only where `continuable` holds does a backslash at the end
of the window carry the literal over. -/
def quoteEnd (w : Window) (quote : Char) (continuable : Bool) (column : Nat) : QuoteEnd :=
  match h : w.char? column with
  | none => .unterminated
  | some c =>
    if c = '\x5c' then
      if column + 1 = w.stop then (if continuable then .continued else .unterminated)
      else quoteEnd w quote continuable (column + 2)
    else if c = quote then .closed (column + 1)
    else quoteEnd w quote continuable (column + 1)
termination_by w.stop - column
decreasing_by
  all_goals
    have := Window.lt_stop_of_char? h
    omega

/-- The extent of a double-quoted string, from inside it. -/
def stringExtent (d : Dialect) (w : Window) (column : Nat) : Extent :=
  match quoteEnd w '\x22' true column with
  | .closed stop => .upTo .string stop
  | .continued => .toEnd .string (some .string)
  | .unterminated =>
    if d.multilineStrings then .toEnd .string (some .string)
    else .toEnd .errorString none

/-- The extent of a template string, from inside it. -/
def templateExtent (w : Window) (column : Nat) : Extent :=
  match quoteEnd w '\x60' false column with
  | .closed stop => .upTo .template stop
  | _ => .toEnd .template (some .template)

/-- The extent of a single-quoted literal, from inside it. -/
def singleQuoteExtent (d : Dialect) (w : Window) (column : Nat) : Extent :=
  match quoteEnd w '\x27' false column with
  | .closed stop =>
    if !d.charLiterals then .upTo .string stop
    else if isCharBody (w.slice column (stop - 1)) then .upTo .char stop
    else .upTo .errorChar stop
  | _ => .toEnd (if d.charLiterals then .errorChar else .errorString) none

theorem lt_of_quoteEnd {quote : Char} {continuable : Bool} {stop : Nat}
    (h : quoteEnd w quote continuable column = .closed stop) : column < stop := by
  fun_induction quoteEnd w quote continuable column with
  | case1 => cases h
  | case2 => cases h
  | case3 => cases h
  | case4 column _ _ ih => exact Nat.lt_trans (by omega) (ih h)
  | case5 column =>
    obtain rfl := QuoteEnd.closed.inj h
    exact Nat.lt_succ_self column
  | case6 column c _ _ _ ih => exact Nat.lt_trans (Nat.lt_succ_self column) (ih h)

section Quotes
variable (hsize : w.stop ≤ w.line.size)
include hsize

theorem behind_stop : w.behind w.stop = [] :=
  List.drop_eq_nil_of_le (Nat.le_of_eq (Window.length_text hsize))

theorem quoteEnd_eq (quote : Char) (continuable : Bool) (column : Nat) :
    quoteEnd w quote continuable column =
      (CFamily.quoteEnd quote continuable (w.behind column)).shift column := by
  fun_induction quoteEnd w quote continuable column with
  | case1 column h =>
    rw [Window.behind_eq_nil h]
    rfl
  | case2 column hlast hcontinuable h =>
    rw [Window.behind_eq_cons h, hlast, behind_stop hsize, CFamily.quoteEnd, if_pos hcontinuable]
    rfl
  | case3 column hlast hcontinuable h =>
    rw [Window.behind_eq_cons h, hlast, behind_stop hsize, CFamily.quoteEnd, if_neg hcontinuable]
    rfl
  | case4 column hlast h ih =>
    have hlt := Window.lt_stop_of_char? h
    obtain ⟨c, -, hc⟩ := Window.exists_char? (Nat.le_refl w.stop) hsize (show column + 1 < w.stop by omega)
    rw [Window.behind_eq_cons h, Window.behind_eq_cons hc, CFamily.quoteEnd, ih, QuoteEnd.shift_shift]
  | case5 column h hbackslash =>
    rw [Window.behind_eq_cons h, quoteEnd_cons hbackslash, if_pos rfl]
    rfl
  | case6 column c h hbackslash hquote ih =>
    rw [Window.behind_eq_cons h, quoteEnd_cons hbackslash, if_neg hquote, ih, QuoteEnd.shift_shift]

theorem stringExtent_eq (d : Dialect) (column : Nat) :
    stringExtent d w column = (CFamily.stringExtent d (w.behind column)).shift column := by
  unfold stringExtent CFamily.stringExtent
  rw [quoteEnd_eq hsize]
  cases CFamily.quoteEnd '\x22' true (w.behind column) with
  | closed length => rfl
  | continued => rfl
  | unterminated =>
    simp only [QuoteEnd.shift]
    split <;> rfl

theorem templateExtent_eq (column : Nat) :
    templateExtent w column = (CFamily.templateExtent (w.behind column)).shift column := by
  unfold templateExtent CFamily.templateExtent
  rw [quoteEnd_eq hsize]
  cases CFamily.quoteEnd '\x60' false (w.behind column) with
  | closed length => rfl
  | continued => rfl
  | unterminated => rfl

theorem singleQuoteExtent_eq (d : Dialect) {column : Nat} (hcolumn : column ≤ w.stop) :
    singleQuoteExtent d w column = (CFamily.singleQuoteExtent d (w.behind column)).shift column := by
  unfold singleQuoteExtent CFamily.singleQuoteExtent
  rw [quoteEnd_eq hsize]
  cases hend : CFamily.quoteEnd '\x27' false (w.behind column) with
  | closed length =>
    have hbounds := bounds_of_quoteEnd hend
    rw [Window.length_behind hsize] at hbounds
    have hbody : w.slice column (column + length - 1) = (w.behind column).take (length - 1) := by
      rw [Window.slice_eq_take (by omega), show column + length - 1 - column = length - 1 by omega]
    simp only [QuoteEnd.shift]
    rw [hbody]
    split
    · rfl
    · split <;> rfl
  | continued => rfl
  | unterminated => rfl

end Quotes

/-! ### Regular expressions -/

/-- Whether a slash at a column opens a regular expression. -/
def patternAllowed (w : Window) (column : Nat) : Bool :=
  let stop := w.runStart Text.isBlank column
  match w.last? stop with
  | none => true
  | some c =>
    if Pattern.isWordChar c then
      Pattern.openingWords.contains (String.ofList (w.slice (w.runStart Pattern.isWordChar stop) stop))
    else Pattern.openingChars.contains c

/-- The column behind the slash that closes an expression, from inside it. -/
def patternClose? (w : Window) (inClass : Bool) (column : Nat) : Option Nat :=
  match h : w.char? column with
  | none => none
  | some c =>
    if c = '\x5c' then patternClose? w inClass (column + 2)
    else if c = '[' then patternClose? w true (column + 1)
    else if c = ']' then patternClose? w false (column + 1)
    else if c = '/' ∧ !inClass then some (column + 1)
    else patternClose? w inClass (column + 1)
termination_by w.stop - column
decreasing_by
  all_goals
    have := Window.lt_stop_of_char? h
    omega

/-- The column behind an expression and its flags, from inside it. -/
def patternEnd? (w : Window) (column : Nat) : Option Nat :=
  (patternClose? w false column).map (w.runEnd Char.isAlpha)

theorem patternAllowed_eq (hstart : w.start ≤ column) (hstop : column ≤ w.stop)
    (hsize : w.stop ≤ w.line.size) : patternAllowed w column = Pattern.allowedBehind (w.inFront column) := by
  have hbounds := Window.runStart_bounds (p := Text.isBlank) hstart
  have hlast : w.runStart Text.isBlank column ≤ w.stop := Nat.le_trans hbounds.2 hstop
  have hblanks := (Window.runStart_eq (p := Text.isBlank) hstart hstop hsize).2
  have hword := (Window.runStart_eq (p := Pattern.isWordChar) hbounds.1 hlast hsize).1
  unfold patternAllowed Pattern.allowedBehind
  dsimp only
  rw [Window.last?_eq hlast hsize, hword, hblanks]
  cases (w.inFront column).dropWhile Text.isBlank with
  | nil => rfl
  | cons c earlier => rfl

theorem close?_cons {inClass : Bool} {c : Char} {cs : List Char} (h : ¬c = '\x5c') :
    Pattern.close? inClass (c :: cs) =
      if c = '[' then (Pattern.close? true cs).map (· + 1)
      else if c = ']' then (Pattern.close? false cs).map (· + 1)
      else if c = '/' ∧ !inClass then some 1
      else (Pattern.close? inClass cs).map (· + 1) := by
  rw [Pattern.close?]
  · exact fun hc => absurd hc h
  · exact fun _ _ hc => absurd hc h

theorem patternClose?_eq (w : Window) (inClass : Bool) (column : Nat) :
    patternClose? w inClass column =
      (Pattern.close? inClass (w.behind column)).map (column + ·) := by
  have hshift (m : Nat) {n : Nat} {inClass : Bool} :
      ((Pattern.close? inClass (w.behind (n + m))).map (· + m)).map (n + ·) =
        (Pattern.close? inClass (w.behind (n + m))).map (n + m + ·) := by
    rw [Option.map_map]
    congr 1
    funext i
    show n + (i + m) = n + m + i
    omega
  fun_induction patternClose? w inClass column with
  | case1 inClass column h =>
    rw [Window.behind_eq_nil h]
    rfl
  | case2 inClass column h ih =>
    rw [ih, Window.behind_eq_cons h]
    cases hnext : w.char? (column + 1) with
    | none =>
      have hnil : w.behind (column + 2) = [] := by
        rw [← Window.drop_behind w (column + 1) 1, Window.behind_eq_nil hnext, List.drop_nil]
      rw [Window.behind_eq_nil hnext, hnil]
      rfl
    | some c => rw [Window.behind_eq_cons hnext, Pattern.close?, hshift 2]
  | case3 inClass column h hbackslash ih =>
    rw [ih, Window.behind_eq_cons h, close?_cons hbackslash, if_pos rfl, hshift 1]
  | case4 inClass column h hbackslash hopening ih =>
    rw [ih, Window.behind_eq_cons h, close?_cons hbackslash, if_neg hopening, if_pos rfl, hshift 1]
  | case5 inClass column c h hbackslash hopening hclosing hslash =>
    rw [Window.behind_eq_cons h, close?_cons hbackslash, if_neg hopening, if_neg hclosing, if_pos hslash]
    rfl
  | case6 inClass column c h hbackslash hopening hclosing hslash ih =>
    rw [ih, Window.behind_eq_cons h, close?_cons hbackslash, if_neg hopening, if_neg hclosing,
      if_neg hslash, hshift 1]

theorem patternEnd?_eq (w : Window) (column : Nat) :
    patternEnd? w column = (Pattern.length? (w.behind column)).map (column + ·) := by
  unfold patternEnd? Pattern.length?
  rw [patternClose?_eq, Option.map_map, Option.map_map]
  congr 1
  funext n
  show w.runEnd Char.isAlpha (column + n) = column + (n + Text.run Char.isAlpha ((w.behind column).drop n))
  rw [Window.runEnd_eq, Window.drop_behind, Nat.add_assoc]

end Linewise.CFamily.InPlace
