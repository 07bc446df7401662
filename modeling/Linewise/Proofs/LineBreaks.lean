import Linewise.Source
import Mathlib.Tactic.Common

/-!
# Lines of texts put together

The lines of `a ++ b` are those of `a` and those of `b`, of which the last and the first become one. The
exception is a pair of carriage return and line feed with its halves on the two sides of the seam
(`CutsPair`): there the return ends a line of `a` and the feed a line of `b`, but in the whole text they
end one line together (`lines_append`).

Either way, what stands above the last line of `a` stays where it is, and what stands below the first
line of `b` keeps its place, counted from the end. How many lines there are (`length_texts_append`) and
which of them holds the seam (`lineOf_append`) depend on whether a pair is cut.
-/

namespace Linewise.Text

/-- The lines without their breaks. -/
def texts (cs : List Char) : List (List Char) := (lines cs).map (·.text)

/-- A pair of carriage return and line feed has its halves on the two sides of a seam. -/
def CutsPair (a b : List Char) : Prop := a.getLast? = some '\r' ∧ b.head? = some '\n'

instance (a b : List Char) : Decidable (CutsPair a b) := inferInstanceAs (Decidable (_ ∧ _))

/-! ### One line after the other -/

/-- What is seen already on the first line stands at its start, and changes nothing else. -/
theorem linesFrom_eq (cs : List Char) :
    ∃ (l : Line) (ls : List Line), lines cs = l :: ls ∧
      ∀ seen, linesFrom seen cs = ⟨seen.reverse ++ l.text, l.ending⟩ :: ls := by
  have key : ∀ start, ∃ (l : Line) (ls : List Line),
      linesFrom start cs = ⟨start.reverse ++ l.text, l.ending⟩ :: ls ∧
        ∀ seen, linesFrom seen cs = ⟨seen.reverse ++ l.text, l.ending⟩ :: ls := by
    intro start
    fun_induction linesFrom start cs with
    | case1 start => exact ⟨⟨[], []⟩, [], by simp, fun seen => by simp [linesFrom]⟩
    | case2 start cs _ => exact ⟨⟨[], ['\r', '\n']⟩, linesFrom [] cs, by simp, fun seen => by simp [linesFrom]⟩
    | case3 start c cs hpair hc _ =>
      exact ⟨⟨[], [c]⟩, linesFrom [] cs, by simp, fun seen => by simp [linesFrom, hc]⟩
    | case4 start c cs hpair hc ih =>
      obtain ⟨l, ls, h, hall⟩ := ih
      exact ⟨⟨c :: l.text, l.ending⟩, ls, by simp [h], fun seen => by simp [linesFrom, hc, hall]⟩
  obtain ⟨l, ls, h, hall⟩ := key []
  exact ⟨l, ls, by simpa [lines] using h, hall⟩

/-- Of the lines of a text the last one alone can go on in what is put behind it. -/
theorem linesFrom_append (seen a : List Char) :
    ∃ front last, linesFrom seen a = front ++ [⟨last.reverse, []⟩] ∧
      ∀ b, ¬ CutsPair a b → linesFrom seen (a ++ b) = front ++ linesFrom last b := by
  fun_induction linesFrom seen a with
  | case1 seen => exact ⟨[], seen, rfl, fun b _ => rfl⟩
  | case2 seen cs ih =>
    obtain ⟨front, last, h, happ⟩ := ih
    refine ⟨_ :: front, last, by rw [h]; rfl, fun b hb => ?_⟩
    have hcut : ¬ CutsPair cs b := fun hcut => hb ⟨by cases cs <;> simp_all [CutsPair], hcut.2⟩
    simp [linesFrom, happ b hcut]
  | case3 seen c cs hpair hc ih =>
    obtain ⟨front, last, h, happ⟩ := ih
    refine ⟨_ :: front, last, by rw [h]; rfl, fun b hb => ?_⟩
    have hcut : ¬ CutsPair cs b := fun hcut => hb ⟨by cases cs <;> simp_all [CutsPair], hcut.2⟩
    have hne : ∀ cs', c = '\r' → cs ++ b = '\n' :: cs' → False := by
      rintro cs' rfl he
      cases cs with
      | nil => exact hb ⟨rfl, by rw [← List.nil_append b, he]; rfl⟩
      | cons d ds => exact hpair ds rfl (by rw [List.cons_append] at he; simp_all)
    rw [List.cons_append, linesFrom, if_pos hc, happ b hcut]
    · rfl
    · exact hne
  | case4 seen c cs hpair hc ih =>
    obtain ⟨front, last, h, happ⟩ := ih
    refine ⟨front, last, h, fun b hb => ?_⟩
    have hcut : ¬ CutsPair cs b := fun hcut => hb ⟨by cases cs <;> simp_all [CutsPair], hcut.2⟩
    have hne : ∀ cs', c = '\r' → cs ++ b = '\n' :: cs' → False := by
      rintro cs' rfl
      simp [isBreak] at hc
    rw [List.cons_append, linesFrom, if_neg hc, happ b hcut]
    exact hne

theorem lines_append_of_no_break {cs : List Char} (h : ∀ c ∈ cs, isBreak c = false) (b : List Char) :
    ∃ l ls, lines b = l :: ls ∧ lines (cs ++ b) = ⟨cs ++ l.text, l.ending⟩ :: ls := by
  obtain ⟨l, ls, hb, hall⟩ := linesFrom_eq b
  refine ⟨l, ls, hb, ?_⟩
  have key : ∀ seen, linesFrom seen (cs ++ b) = ⟨seen.reverse ++ (cs ++ l.text), l.ending⟩ :: ls := by
    induction cs with
    | nil => exact hall
    | cons c cs ih =>
      intro seen
      have hc : isBreak c = false := h c (by simp)
      have hne : ∀ cs', c = '\r' → cs ++ b = '\n' :: cs' → False := by
        rintro cs' rfl
        simp [isBreak] at hc
      rw [List.cons_append, linesFrom, if_neg (by simp [hc]), ih fun d hd => h d (by simp [hd])]
      · simp
      · exact hne
  exact key []

theorem texts_of_no_break {cs : List Char} (h : ∀ c ∈ cs, isBreak c = false) : texts cs = [cs] := by
  obtain ⟨l, ls, hl, hcs⟩ := lines_append_of_no_break h []
  obtain ⟨rfl, rfl⟩ := List.cons.inj (hl.symm.trans (show lines [] = [⟨[], []⟩] from rfl))
  rw [List.append_nil] at hcs
  rw [texts, hcs]
  simp

theorem no_break_of_length_linesFrom {seen cs : List Char} (h : (linesFrom seen cs).length = 1) :
    ∀ c ∈ cs, isBreak c = false := by
  fun_induction linesFrom seen cs with
  | case1 => simp
  | case2 seen cs _ => exact absurd (by simpa using h) (linesFrom_ne_nil [] cs)
  | case3 seen c cs _ _ _ => exact absurd (by simpa using h) (linesFrom_ne_nil [] cs)
  | case4 seen c cs _ hc ih =>
    intro d hd
    rcases List.mem_cons.mp hd with rfl | hd
    · simpa using hc
    · exact ih h d hd

theorem ending_ne_nil {seen cs : List Char} {above below : List Line} {l : Line}
    (h : linesFrom seen cs = above ++ l :: below) (hb : below ≠ []) : l.ending ≠ [] := by
  fun_induction linesFrom seen cs generalizing above with
  | case1 =>
    cases above with
    | nil => exact absurd (List.cons.inj h).2.symm hb
    | cons x above => simp at h
  | case2 seen cs ih =>
    cases above with
    | nil => simp [← (List.cons.inj h).1]
    | cons x above => exact ih (List.cons.inj h).2
  | case3 seen c cs _ _ ih =>
    cases above with
    | nil => simp [← (List.cons.inj h).1]
    | cons x above => exact ih (List.cons.inj h).2
  | case4 seen c cs _ _ ih => exact ih h

/-! ### The seam -/

/-- **What becomes of the lines of two texts that are put together.** -/
theorem lines_append (a b : List Char) :
    ∃ (above : List Line) (last : List Char) (first : Line) (below : List Line),
      lines a = above ++ [⟨last, []⟩] ∧ lines b = first :: below ∧
        ((¬ CutsPair a b ∧ lines (a ++ b) = above ++ ⟨last ++ first.text, first.ending⟩ :: below) ∨
          (CutsPair a b ∧ ∃ front l, above = front ++ [⟨l, ['\r']⟩] ∧ last = [] ∧ first.text = [] ∧
            lines (a ++ b) = front ++ ⟨l, ['\r', '\n']⟩ :: below)) := by
  obtain ⟨first, below, hb, hall⟩ := linesFrom_eq b
  by_cases hcut : CutsPair a b
  · obtain ⟨hr, hn⟩ := hcut
    obtain ⟨a', rfl⟩ := List.getLast?_eq_some_iff.mp hr
    obtain ⟨b', rfl⟩ := List.head?_eq_some_iff.mp hn
    -- Neither what ends with the return nor the pair as a whole is cut behind `a'`.
    obtain ⟨front, last, -, happ⟩ := linesFrom_append [] a'
    have hreturn : lines (a' ++ ['\r']) = front ++ [⟨last.reverse, ['\r']⟩] ++ [⟨[], []⟩] := by
      rw [lines, happ _ (by simp [CutsPair])]
      simp [linesFrom, isBreak]
    have hwhole : lines (a' ++ ['\r'] ++ '\n' :: b') =
        front ++ ⟨last.reverse, ['\r', '\n']⟩ :: lines b' := by
      rw [List.append_assoc, lines, List.singleton_append, happ _ (by simp [CutsPair])]
      simp [linesFrom, lines]
    have hfeed : lines ('\n' :: b') = ⟨[], ['\n']⟩ :: lines b' := by
      simp [lines, linesFrom, isBreak]
    obtain ⟨rfl, rfl⟩ := List.cons.inj (hb.symm.trans hfeed)
    exact ⟨_, [], _, _, hreturn, hb, Or.inr ⟨⟨hr, hn⟩, front, _, rfl, rfl, rfl, hwhole⟩⟩
  · obtain ⟨front, last, ha, happ⟩ := linesFrom_append [] a
    refine ⟨front, last.reverse, first, below, ha, hb, Or.inl ⟨hcut, ?_⟩⟩
    rw [lines, happ b hcut, hall]

/-- The same without breaks: if a pair is cut, nothing but its halves stands at the seam. -/
theorem texts_append (a b : List Char) :
    ∃ above last first below, texts a = above ++ [last] ∧ texts b = first :: below ∧
      ((¬ CutsPair a b ∧ texts (a ++ b) = above ++ (last ++ first) :: below) ∨
        (CutsPair a b ∧ last = [] ∧ first = [] ∧ texts (a ++ b) = above ++ below)) := by
  obtain ⟨above, last, first, below, ha, hb, h⟩ := lines_append a b
  refine ⟨above.map (·.text), last, first.text, below.map (·.text), by simp [texts, ha],
    by simp [texts, hb], ?_⟩
  rcases h with ⟨hcut, h⟩ | ⟨hcut, front, l, rfl, hl, hf, h⟩
  · exact Or.inl ⟨hcut, by simp [texts, h]⟩
  · exact Or.inr ⟨hcut, hl, hf, by simp [texts, h]⟩

/-- The last line of a text is empty just if the text is, or ends with a break. -/
theorem last_eq_nil_iff {cs last : List Char} {above : List (List Char)} (h : texts cs = above ++ [last]) :
    last = [] ↔ ∀ c, cs.getLast? = some c → isBreak c = true := by
  have hlast : (texts cs).getLast? = some last := by rw [h, List.getLast?_concat]
  rcases List.eq_nil_or_concat cs with rfl | ⟨front, c, rfl⟩
  · have hnil : last = [] := (Option.some.inj hlast).symm
    simp [hnil]
  rw [List.concat_eq_append] at hlast ⊢
  obtain ⟨above', last', first, below, -, hc, hjoin⟩ := texts_append front [c]
  cases hbreak : isBreak c with
  | false =>
    have hone : texts [c] = [[c]] := texts_of_no_break (by simp [hbreak])
    obtain ⟨rfl, rfl⟩ := List.cons.inj (hone.symm.trans hc)
    rcases hjoin with ⟨-, hjoin⟩ | ⟨-, -, hnil, -⟩
    · rw [hjoin, List.getLast?_concat] at hlast
      simp [← Option.some.inj hlast, hbreak]
    · cases hnil
  | true =>
    have htwo : texts [c] = [[], []] := by simp [texts, lines, linesFrom, hbreak]
    obtain ⟨rfl, rfl⟩ := List.cons.inj (htwo.symm.trans hc)
    have hnil : last = [] := by
      rcases hjoin with ⟨-, hjoin⟩ | ⟨-, -, -, hjoin⟩
      · simpa [hjoin, eq_comm] using hlast
      · simpa [hjoin, eq_comm] using hlast
    simp [hnil, hbreak]

/-- The number of pairs that a seam cuts. -/
def cut (a b : List Char) : Nat := if CutsPair a b then 1 else 0

theorem cut_le_one (a b : List Char) : cut a b ≤ 1 := by unfold cut; split_ifs <;> omega

theorem cut_eq_zero {b : List Char} (h : b.head? ≠ some '\n') (a : List Char) : cut a b = 0 :=
  if_neg fun hcut => h hcut.2

theorem texts_feed_cons (cs : List Char) : texts ('\n' :: cs) = [] :: texts cs := by
  simp [texts, lines, linesFrom, isBreak]

theorem texts_length_pos (cs : List Char) : 0 < (texts cs).length := by
  rw [texts, List.length_map]
  exact List.length_pos_iff.mpr (linesFrom_ne_nil [] cs)

theorem length_texts_append (a b : List Char) :
    (texts (a ++ b)).length + 1 + cut a b = (texts a).length + (texts b).length := by
  obtain ⟨above, last, first, below, ha, hb, ⟨hcut, h⟩ | ⟨hcut, -, -, h⟩⟩ := texts_append a b
  · rw [cut, if_neg hcut, ha, hb, h]
    simp only [List.length_append, List.length_cons, List.length_nil]
    omega
  · rw [cut, if_pos hcut, ha, hb, h]
    simp only [List.length_append, List.length_cons, List.length_nil]
    omega

/-- A character that makes a pair with one of its neighbours is a break itself. -/
theorem cut_add_cut_lt (a : List Char) (c : Char) (b : List Char) :
    cut a (c :: b) + cut [c] b < (texts [c]).length := by
  by_cases hn : c = '\n'
  · subst hn
    have h2 : (texts ['\n']).length = 2 := by decide
    have hr : cut ['\n'] b = 0 := by simp [cut, CutsPair]
    have hl := cut_le_one a ('\n' :: b)
    omega
  have hl : cut a (c :: b) = 0 := by simp [cut, CutsPair, hn]
  by_cases hr : c = '\r'
  · subst hr
    have h2 : (texts ['\r']).length = 2 := by decide
    have hr := cut_le_one ['\r'] b
    omega
  · have hr' : cut [c] b = 0 := by simp [cut, CutsPair, hr]
    have hpos := texts_length_pos [c]
    omega

theorem length_texts_le (a n b : List Char) :
    (texts (a ++ b)).length ≤ (texts (a ++ n ++ b)).length := by
  induction n with
  | nil => simp
  | cons c n ih =>
    have h1 := length_texts_append a (n ++ b)
    have h2 := length_texts_append a (c :: (n ++ b))
    have h3 := length_texts_append [c] (n ++ b)
    have h4 := cut_add_cut_lt a c (n ++ b)
    rw [List.singleton_append] at h3
    rw [List.append_assoc] at ih
    rw [List.append_assoc, List.cons_append]
    omega

theorem getElem?_texts_append_left {a : List Char} (b : List Char) {i : Nat}
    (hi : i + 1 < (texts a).length) : (texts (a ++ b))[i]? = (texts a)[i]? := by
  obtain ⟨above, last, first, below, ha, -, ⟨-, h⟩ | ⟨-, -, -, h⟩⟩ := texts_append a b
  all_goals
    rw [ha, List.length_append, List.length_singleton] at hi
    rw [h, ha, List.getElem?_append_left (by omega), List.getElem?_append_left (by omega)]

/-- What stands below the first line of the right part keeps its place, counted from the end. -/
theorem getElem?_texts_append_right (a : List Char) {b : List Char} {i : Nat}
    (hi : (texts (a ++ b)).length < i + (texts b).length) :
    (texts (a ++ b))[i]? = (texts b)[i + (texts b).length - (texts (a ++ b)).length]? := by
  obtain ⟨above, last, first, below, -, hb, ⟨-, h⟩ | ⟨-, -, -, h⟩⟩ := texts_append a b
  · rw [h, hb] at hi ⊢
    simp only [List.length_append, List.length_cons] at hi ⊢
    obtain ⟨k, rfl⟩ : ∃ k, i = above.length + 1 + k := ⟨i - (above.length + 1), by omega⟩
    rw [List.getElem?_append_right (by omega),
      show above.length + 1 + k - above.length = k + 1 by omega,
      show above.length + 1 + k + (below.length + 1) - (above.length + (below.length + 1)) =
        k + 1 by omega, List.getElem?_cons_succ, List.getElem?_cons_succ]
  · rw [h, hb] at hi ⊢
    simp only [List.length_append, List.length_cons] at hi ⊢
    obtain ⟨k, rfl⟩ : ∃ k, i = above.length + k := ⟨i - above.length, by omega⟩
    rw [List.getElem?_append_right (by omega), Nat.add_sub_cancel_left,
      show above.length + k + (below.length + 1) - (above.length + below.length) = k + 1 by omega,
      List.getElem?_cons_succ]

/-! ### The line that holds an offset -/

/-- Number of characters of lines and their breaks. -/
def totalSize : List Line → Nat
  | [] => 0
  | l :: ls => l.size + totalSize ls

theorem totalSize_append (ls ls' : List Line) :
    totalSize (ls ++ ls') = totalSize ls + totalSize ls' := by
  induction ls with
  | nil => simp [totalSize]
  | cons l ls ih => simp [totalSize, ih, Nat.add_assoc]

theorem length_flatMap_full (ls : List Line) : (ls.flatMap Line.full).length = totalSize ls := by
  induction ls with
  | nil => rfl
  | cons l ls ih => simp [totalSize, Line.full, Line.size, ih, Nat.add_assoc]

theorem totalSize_lines (cs : List Char) : totalSize (lines cs) = cs.length := by
  rw [← length_flatMap_full, flatMap_full_lines]

theorem lineOf_startsFrom {above below : List Line} {l : Line} {offset : Nat}
    (hle : totalSize above ≤ offset) (hlt : below ≠ [] → offset < totalSize above + l.size) :
    lineOf (startsFrom 0 (above ++ l :: below)) offset = above.length := by
  have key : ∀ start, start + totalSize above ≤ offset →
      (below ≠ [] → offset < start + totalSize above + l.size) →
        ((startsFrom start (above ++ l :: below)).takeWhile (· ≤ offset)).length =
          above.length + 1 := by
    clear hle hlt
    induction above with
    | nil =>
      intro start hle hlt
      have hle' : start ≤ offset := by simpa [totalSize] using hle
      cases below with
      | nil => simp [startsFrom, hle']
      | cons l' below =>
        have hlt' : ¬ start + l.size ≤ offset := by simpa [totalSize] using hlt
        simp [startsFrom, hle', hlt']
    | cons x above ih =>
      intro start hle hlt
      simp only [totalSize] at hle hlt
      have hle' : start ≤ offset := by omega
      simp only [List.cons_append, startsFrom, List.takeWhile_cons, hle', decide_true, if_true,
        List.length_cons]
      rw [ih (start + x.size) (by omega) fun hb => by have := hlt hb; omega]
  rw [lineOf, key 0 (by omega) fun hb => by have := hlt hb; omega]
  rfl

/-- **The line that holds a seam** is the last one of the left part, unless that one is empty since the
seam cuts a pair: then it is the line which the pair ends. -/
theorem lineOf_append (a b : List Char) :
    lineOf (startsFrom 0 (lines (a ++ b))) a.length + 1 + cut a b = (texts a).length := by
  obtain ⟨above, last, first, below, ha, hb, ⟨hcut, h⟩ | ⟨hcut, front, l, rfl, rfl, -, h⟩⟩ :=
    lines_append a b
  · have hsize : totalSize above + last.length = a.length := by
      rw [← totalSize_lines a, ha, totalSize_append]
      simp [totalSize, Line.size]
    rw [h, lineOf_startsFrom (by omega) fun hne => ?_]
    · simp [texts, ha, cut, hcut]
    · have hend := List.length_pos_iff.mpr
        (ending_ne_nil (show linesFrom [] b = [] ++ first :: below from hb) hne)
      simp only [Line.size, List.length_append]
      omega
  · have hsize : totalSize front + l.length + 1 = a.length := by
      rw [← totalSize_lines a, ha, totalSize_append, totalSize_append]
      simp [totalSize, Line.size, Nat.add_assoc]
    rw [h, lineOf_startsFrom (by omega) fun _ => by simp only [Line.size, List.length_cons]; omega]
    simp [texts, ha, cut, hcut]

end Linewise.Text
