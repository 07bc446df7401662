import Linewise.Proofs.LineTexts
import Linewise.Proofs.Upkeep

/-!
# The reports of edits

Every edit of a buffer comes with a report, and the upkeep of states rests on how well it fits. An
insertion always describes what it did (`insert_describes`). So does a removal, as far as the states go,
unless it *tears a pair* (`Buffer.TearsPair`): it starts between a carriage return and a line feed, and
takes the feed and the first characters of the line below, up to a place that is not in front of another
feed. That line has changed then, and is the one behind the line that the report names; but as many lines
are there as before, so the report calls the edit one of a single line (`remove_matches_or_tears`). A
text without carriage returns has no pairs that could be torn.
-/

namespace Linewise

open Text (texts cut CutsPair)

namespace Buffer

theorem texts_source (b : Buffer) : b.source.texts = texts b.text := by
  have hlen : b.lines.length ≤ b.lineStarts.length := Nat.le_of_eq (Text.length_startsFrom 0 b.lines).symm
  rw [Source.texts, lines_source, List.map_map]
  show (b.lineStarts.zip b.lines).map ((·.text) ∘ Prod.snd) = _
  rw [← List.map_map, List.map_snd_zip hlen]
  rfl

theorem texts_source_ne_nil (b : Buffer) : b.source.texts ≠ [] := by
  rw [texts_source]
  exact List.length_pos_iff.mp (Text.texts_length_pos _)

theorem lineCount_source (b : Buffer) : b.source.lineCount = b.lineCount := by
  rw [← Source.length_texts, texts_source, texts, List.length_map]
  rfl

theorem length_texts (b : Buffer) : (texts b.text).length = b.lineCount := by
  rw [texts, List.length_map]
  rfl

theorem quiet_source (b : Buffer) : b.source.Quiet := fun _ _ => rfl

/-- Removing from `start` to `stop` tears a pair of carriage return and line feed. -/
def TearsPair (b : Buffer) (start stop : Nat) : Prop :=
  ∃ above part below, b.text = above ++ '\r' :: '\n' :: (part ++ below) ∧
    start = above.length + 1 ∧ min stop b.length = above.length + 2 + part.length ∧
    part ≠ [] ∧ (∀ c ∈ part, Text.isBreak c = false) ∧ below.head? ≠ some '\n'

theorem not_tearsPair {b : Buffer} (h : '\r' ∉ b.text) (start stop : Nat) :
    ¬ b.TearsPair start stop := by
  rintro ⟨above, part, below, ht, -⟩
  exact h (by simp [ht])

end Buffer

theorem Edit.matches_self {e : Edit} {old : List (List Char)} (hadded : e.linesAdded = 0)
    (hremoved : e.linesRemoved = 0) (h : e.startLine < old.length) (reach : Nat) :
    e.Matches reach old old where
  old_line := by omega
  new_line := by omega
  length_eq := by omega
  above _ _ := rfl
  below i _ _ := by rw [hadded, hremoved]; rfl

/-- A report fits if it names the line of the place where the texts start to differ, counts the lines
right, and is believed only where both texts end alike. -/
theorem Edit.matches_of_splice {e : Edit} {reach : Nat} {a m n b : List Char}
    (hstart : e.startLine + 1 + cut a (m ++ b) = (texts a).length)
    (hnew : e.lastChangedLine < (texts (a ++ n ++ b)).length)
    (hcount : (texts (a ++ n ++ b)).length + e.linesRemoved =
      (texts (a ++ m ++ b)).length + e.linesAdded)
    (hle : e.lastChangedLine ≤ reach)
    (hreach : (texts (a ++ n ++ b)).length ≤ reach + (texts b).length) :
    e.Matches reach (texts (a ++ m ++ b)) (texts (a ++ n ++ b)) where
  old_line := by unfold Edit.lastChangedLine at hnew; omega
  new_line := hnew
  length_eq := hcount
  above i hi := by
    rw [List.append_assoc, List.append_assoc, Text.getElem?_texts_append_left _ (by omega),
      Text.getElem?_texts_append_left _ (by omega)]
  below i hi hr := by
    unfold Edit.lastChangedLine at hle
    rw [Text.getElem?_texts_append_right _ (by omega),
      Text.getElem?_texts_append_right _ (by omega)]
    congr 1
    omega

namespace Buffer

/-! ### Insertions -/

/-- What an insertion does: the text is cut in two, and what is inserted stands between its parts. -/
theorem insert_eq (b : Buffer) (offset : Nat) (inserted : List Char) :
    ∃ above below, b.text = above ++ below ∧
      (b.insert offset inserted).1.text = above ++ inserted ++ below ∧
      above.length = min offset b.length ∧
      (b.insert offset inserted).2.linesRemoved = 0 ∧
      (b.insert offset inserted).2.startLine + 1 + cut above below = (texts above).length ∧
      (texts (above ++ inserted ++ below)).length =
        (texts (above ++ below)).length + (b.insert offset inserted).2.linesAdded := by
  obtain ⟨place, hplace⟩ : ∃ place, place = min offset b.length := ⟨_, rfl⟩
  obtain ⟨above, habove⟩ : ∃ above, above = b.text.take place := ⟨_, rfl⟩
  obtain ⟨below, hbelow⟩ : ∃ below, below = b.text.drop place := ⟨_, rfl⟩
  have htext : b.text = above ++ below := by rw [habove, hbelow, List.take_append_drop]
  have hlen : above.length = place := by
    rw [habove, List.length_take, hplace]
    unfold length
    omega
  have hnew : (b.insert offset inserted).1.text = above ++ inserted ++ below := by
    rw [habove, hbelow, hplace]
    rfl
  refine ⟨above, below, htext, hnew, hlen.trans hplace, rfl, ?_, ?_⟩
  · rw [← Text.lineOf_append, ← htext, hlen, hplace]
    rfl
  · have hadded : (b.insert offset inserted).2.linesAdded =
        (texts (above ++ inserted ++ below)).length - (texts (above ++ below)).length := by
      rw [← hnew, ← htext, length_texts, length_texts]
      rfl
    have hgrow := Text.length_texts_le above inserted below
    omega

/-- **The report of an insertion describes what it did.** -/
theorem insert_describes (b : Buffer) (offset : Nat) (inserted : List Char) :
    (b.insert offset inserted).2.Describes b.source.texts
      (b.insert offset inserted).1.source.texts := by
  obtain ⟨above, below, htext, hnew, -, hremoved, hstart, hcount⟩ := b.insert_eq offset inserted
  have hjoin := Text.length_texts_append above below
  have hpos := Text.texts_length_pos below
  have hmatches : (b.insert offset inserted).2.Matches (b.insert offset inserted).2.lastChangedLine
      (texts (above ++ [] ++ below)) (texts (above ++ inserted ++ below)) := by
    refine Edit.matches_of_splice ?_ ?_ ?_ ?_ ?_
    all_goals simp only [List.append_nil, List.nil_append, Edit.lastChangedLine]; omega
  rwa [List.append_nil, ← htext, ← hnew, ← texts_source, ← texts_source] at hmatches

/-! ### Removals -/

theorem remove_eq (b : Buffer) (start stop : Nat) :
    ∃ above gone below, b.text = above ++ gone ++ below ∧
      (b.remove start stop).1.text = above ++ below ∧
      above.length = min start b.length ∧
      above.length + gone.length = max (min stop b.length) (min start b.length) ∧
      (b.remove start stop).2.length = gone.length ∧
      (b.remove start stop).2.linesAdded = 0 ∧
      (b.remove start stop).2.startLine + 1 + cut above (gone ++ below) = (texts above).length ∧
      (texts (above ++ below)).length + (b.remove start stop).2.linesRemoved =
        (texts (above ++ gone ++ below)).length := by
  obtain ⟨first, hfirst⟩ : ∃ first, first = min start b.length := ⟨_, rfl⟩
  obtain ⟨last, hlast⟩ : ∃ last, last = max (min stop b.length) first := ⟨_, rfl⟩
  have hle : first ≤ last := by omega
  have hend : last ≤ b.text.length := by unfold length at hfirst hlast; omega
  obtain ⟨above, habove⟩ : ∃ above, above = b.text.take first := ⟨_, rfl⟩
  obtain ⟨gone, hgone⟩ : ∃ gone, gone = (b.text.drop first).take (last - first) := ⟨_, rfl⟩
  obtain ⟨below, hbelow⟩ : ∃ below, below = b.text.drop last := ⟨_, rfl⟩
  have htail : gone ++ below = b.text.drop first := by
    rw [hgone, hbelow, show b.text.drop last = (b.text.drop first).drop (last - first) by
      rw [List.drop_drop, Nat.add_sub_cancel' hle], List.take_append_drop]
  have htext : b.text = above ++ gone ++ below := by
    rw [List.append_assoc, htail, habove, List.take_append_drop]
  have hlen : above.length = first := by rw [habove, List.length_take]; omega
  have hlen' : gone.length = last - first := by
    rw [hgone, List.length_take, List.length_drop]; omega
  have hnew : (b.remove start stop).1.text = above ++ below := by
    have hafter : (b.remove start stop).1 = if first < last then
        ⟨b.text.take first ++ b.text.drop last, b.revision + 1⟩ else b := by
      rw [hlast, hfirst]; rfl
    rw [hafter]
    split_ifs with h
    · rw [habove, hbelow]
    · have hnil : gone = [] := List.eq_nil_of_length_eq_zero (by omega)
      rw [htext, hnil, List.append_nil]
  have hlines := Text.length_texts_le above gone below
  refine ⟨above, gone, below, htext, hnew, hlen.trans hfirst, by omega, ?_, rfl, ?_, ?_⟩
  · rw [hlen', hlast, hfirst]
    rfl
  · rw [← Text.lineOf_append, ← List.append_assoc, ← htext, hlen, hfirst]
    rfl
  · have hremoved : (b.remove start stop).2.linesRemoved =
        (texts (above ++ gone ++ below)).length - (texts (above ++ below)).length := by
      rw [← htext, ← hnew, length_texts, length_texts]
      rfl
    omega

theorem remove_of_length_eq_zero {b : Buffer} {start stop : Nat}
    (h : (b.remove start stop).2.length = 0) :
    (b.remove start stop).1 = b ∧ (b.remove start stop).2.linesRemoved = 0 := by
  simp only [remove] at h ⊢
  rw [if_neg (by omega)]
  exact ⟨rfl, Nat.sub_self _⟩

/-- What becomes of the lines when a removal starts with the feed of a pair: the line that it ends on loses
what is removed of it. -/
theorem texts_behind_feed {a b : List Char} (part : List Char) (hr : a.getLast? = some '\r')
    (hb : b.head? ≠ some '\n') :
    ∃ above middle last first below, above.length + 1 = (texts a).length ∧
      texts part = middle ++ [last] ∧
      texts (a ++ '\n' :: part ++ b) = above ++ (middle ++ (last ++ first) :: below) ∧
      texts (a ++ b) = above ++ first :: below := by
  have hcut : CutsPair a ('\n' :: (part ++ b)) := ⟨hr, rfl⟩
  have huncut (cs : List Char) : ¬ CutsPair cs b := fun h => hb h.2
  obtain ⟨middle, last, first, below, hpart, hbelow, ⟨-, hjoin⟩ | ⟨h, -⟩⟩ := Text.texts_append part b
  swap
  · exact absurd h (huncut part)
  obtain ⟨above, last', first', below', ha, hold, ⟨h, -⟩ | ⟨-, rfl, -, hwhole⟩⟩ :=
    Text.texts_append a ('\n' :: (part ++ b))
  · exact absurd hcut h
  rw [Text.texts_feed_cons, hjoin] at hold
  obtain ⟨-, rfl⟩ := List.cons.inj hold
  obtain ⟨above', last', first', below', ha', hnew, ⟨-, hwhole'⟩ | ⟨h, -⟩⟩ := Text.texts_append a b
  swap
  · exact absurd h (huncut a)
  obtain ⟨rfl, hlast⟩ := List.append_inj' (ha.symm.trans ha') rfl
  obtain rfl : [] = last' := List.head_eq_of_cons_eq hlast
  obtain ⟨rfl, rfl⟩ := List.cons.inj (hnew.symm.trans hbelow)
  refine ⟨above, middle, last, first', below', by rw [ha, List.length_append]; rfl, hpart, ?_, hwhole'⟩
  rw [List.append_assoc, List.cons_append, hwhole]

/-- What becomes of the lines when a pair is torn: the line behind it loses its first characters. -/
theorem texts_torn {a part b : List Char} (hr : a.getLast? = some '\r')
    (hpart : ∀ c ∈ part, Text.isBreak c = false) (hb : b.head? ≠ some '\n') :
    ∃ above first below, above.length + 1 = (texts a).length ∧
      texts (a ++ '\n' :: part ++ b) = above ++ (part ++ first) :: below ∧
      texts (a ++ b) = above ++ first :: below := by
  obtain ⟨above, middle, last, first, below, hlength, htexts, hold, hnew⟩ := texts_behind_feed part hr hb
  have hsingle : middle ++ [last] = [part] := htexts.symm.trans (Text.texts_of_no_break hpart)
  obtain ⟨rfl, hlast⟩ := List.append_inj' (hsingle.trans (List.nil_append [part]).symm) rfl
  obtain rfl : last = part := List.head_eq_of_cons_eq hlast
  exact ⟨above, first, below, hlength, hold, hnew⟩

/-- If a removal takes a feed and more without changing the number of lines, there is no other break in
what it takes. -/
theorem no_break_of_length_texts {a part b : List Char} (hr : a.getLast? = some '\r')
    (hb : b.head? ≠ some '\n')
    (h : (texts (a ++ b)).length = (texts (a ++ '\n' :: part ++ b)).length) :
    ∀ c ∈ part, Text.isBreak c = false := by
  have h1 := Text.length_texts_append a b
  have h2 := Text.length_texts_append a ('\n' :: (part ++ b))
  have h3 := Text.length_texts_append part b
  have h4 := Text.texts_length_pos part
  have h5 : cut a ('\n' :: (part ++ b)) = 1 := if_pos ⟨hr, rfl⟩
  rw [Text.cut_eq_zero hb] at h1 h3
  rw [List.append_assoc, List.cons_append] at h
  rw [Text.texts_feed_cons, List.length_cons] at h2
  have hlen : (texts part).length = 1 := by omega
  rw [texts, List.length_map] at hlen
  exact Text.no_break_of_length_linesFrom hlen

/-- What goes starts with the feed of a pair if there is a pair at the seam only before it goes. -/
theorem exists_feed_of_cut_lt {a m b : List Char} (h : cut a b < cut a (m ++ b)) :
    a.getLast? = some '\r' ∧ b.head? ≠ some '\n' ∧ ∃ part, m = '\n' :: part := by
  obtain ⟨⟨hr, hn⟩, huncut⟩ : CutsPair a (m ++ b) ∧ ¬ CutsPair a b := by
    unfold cut at h
    split_ifs at h <;> first | exact ⟨‹_›, ‹_›⟩ | omega
  have hb : b.head? ≠ some '\n' := fun h => huncut ⟨hr, h⟩
  refine ⟨hr, hb, ?_⟩
  cases m with
  | nil => exact absurd hn hb
  | cons c part => exact ⟨part, by simpa using hn⟩

/-- **The report of a removal fits, as far as the upkeep of states needs it, unless a pair is torn.** -/
theorem remove_matches_or_tears (b : Buffer) (start stop : Nat) :
    (b.remove start stop).2.Matches (b.remove start stop).2.reach b.source.texts
        (b.remove start stop).1.source.texts ∨ b.TearsPair start stop := by
  obtain ⟨above, gone, below, htext, hnew, hfirst, hlast, -, hadded, hstart, hcount⟩ :=
    b.remove_eq start stop
  have h1 := Text.length_texts_append above below
  have h2 := Text.length_texts_le above below []
  have hreach := (b.remove start stop).2.reach_cases
  have hle := (b.remove start stop).2.lastChangedLine_le_reach
  rw [texts_source, texts_source, htext, hnew]
  simp only [List.append_nil] at h2
  have hone := Text.cut_le_one above (gone ++ below)
  by_cases hfits : (b.remove start stop).2.linesRemoved ≠ 0 ∨
      cut above (gone ++ below) ≤ cut above below
  · left
    have hmatches : (b.remove start stop).2.Matches (b.remove start stop).2.reach
        (texts (above ++ gone ++ below)) (texts (above ++ [] ++ below)) := by
      refine Edit.matches_of_splice hstart ?_ ?_ hle ?_
      all_goals simp only [List.append_nil, Edit.lastChangedLine]; omega
    rwa [List.append_nil] at hmatches
  -- The removal starts inside a pair, leaves no other one there, and keeps the number of lines.
  obtain ⟨hremoved, hcut⟩ : (b.remove start stop).2.linesRemoved = 0 ∧
      cut above below < cut above (gone ++ below) := by omega
  obtain ⟨hr, hb, part, rfl⟩ := exists_feed_of_cut_lt hcut
  have hpart : ∀ c ∈ part, Text.isBreak c = false := no_break_of_length_texts hr hb (by omega)
  cases part with
  | nil =>
    left
    obtain ⟨above', first, below', -, hold, hnew'⟩ := texts_torn hr hpart hb
    have hsame : texts (above ++ ['\n'] ++ below) = texts (above ++ below) := by
      rw [hold, hnew', List.nil_append]
    rw [hsame]
    exact Edit.matches_self hadded hremoved (by omega) _
  | cons c part =>
    right
    obtain ⟨a, rfl⟩ := List.getLast?_eq_some_iff.mp hr
    simp only [List.length_append, List.length_cons, List.length_nil] at hlast hfirst
    have hall : b.length = a.length + 1 + (part.length + 1 + 1) + below.length := by
      unfold length
      rw [htext]
      simp only [List.length_append, List.length_cons, List.length_nil]
    refine ⟨a, c :: part, below, ?_, ?_, ?_, by simp, hpart, hb⟩
    · rw [htext]; simp
    · omega
    · simp only [List.length_cons]; omega

/-- **What is reported when a pair is torn**: an edit of the line above the one that has changed. -/
theorem TearsPair.report {b : Buffer} {start stop : Nat} (h : b.TearsPair start stop) :
    ∃ above part first below, part ≠ [] ∧
      (b.remove start stop).2.startLine + 1 = above.length ∧
      (b.remove start stop).2.linesAdded = 0 ∧ (b.remove start stop).2.linesRemoved = 0 ∧
      (b.remove start stop).2.length ≠ 0 ∧
      b.source.texts = above ++ (part ++ first) :: below ∧
      (b.remove start stop).1.source.texts = above ++ first :: below := by
  obtain ⟨a, part, rest, ht, hfirst, hlast, hne, hpart, hrest⟩ := h
  obtain ⟨above, gone, below, htext, hnew, hfirst', hlast', hgone, hadded, hstart, hcount⟩ :=
    b.remove_eq start stop
  have hall : b.length = a.length + (part.length + rest.length + 1 + 1) := by
    unfold length
    rw [ht]
    simp only [List.length_append, List.length_cons]
  have hsplit : above ++ (gone ++ below) = (a ++ ['\r']) ++ ('\n' :: part ++ rest) := by
    rw [← List.append_assoc, ← htext, ht]
    simp
  obtain ⟨rfl, htail⟩ := List.append_inj hsplit (by
    simp only [List.length_append, List.length_cons, List.length_nil]; omega)
  obtain ⟨rfl, rfl⟩ := List.append_inj htail (by
    simp only [List.length_cons] at hlast ⊢; omega)
  have hr : (a ++ ['\r']).getLast? = some '\r' := by simp
  have hcut : cut (a ++ ['\r']) ('\n' :: part ++ below) = 1 := if_pos ⟨hr, rfl⟩
  obtain ⟨above, first, rest, hlen, hold, hnew'⟩ := texts_torn hr hpart hrest
  rw [hold, hnew'] at hcount
  simp only [List.length_append, List.length_cons] at hcount
  refine ⟨above, part, first, rest, hne, by omega, hadded, by omega, ?_, ?_, ?_⟩
  · rw [hgone, List.length_cons]
    omega
  · rw [texts_source, htext, hold]
  · rw [texts_source, hnew, hnew']

/-! ### Changes -/

/-- A change of a text. -/
inductive Change where
  | insert (offset : Nat) (inserted : List Char)
  | remove (start stop : Nat)
  deriving DecidableEq, Repr

/-- Makes a change, and reports it. -/
def change (b : Buffer) : Change → Buffer × Edit
  | .insert offset inserted => b.insert offset inserted
  | .remove start stop => b.remove start stop

/-- A change that tears a pair of carriage return and line feed. -/
def TearsPairBy (b : Buffer) : Change → Prop
  | .insert _ _ => False
  | .remove start stop => b.TearsPair start stop

/-- A change that brings no carriage return into the text. -/
def Change.BringsNoReturn : Change → Prop
  | .insert _ inserted => '\r' ∉ inserted
  | .remove _ _ => True

theorem change_matches_or_tears (b : Buffer) (c : Change) :
    (b.change c).2.Matches (b.change c).2.reach b.source.texts (b.change c).1.source.texts ∨
      b.TearsPairBy c := by
  cases c with
  | insert offset inserted =>
    exact Or.inl ((b.insert_describes offset inserted).mono (Edit.lastChangedLine_le_reach _))
  | remove start stop => exact b.remove_matches_or_tears start stop

/-- **The report of a change always fits the new text and some old one** of as many lines as there were. If a
pair is torn this is the new text itself: as many lines are there as before, and the report claims no more. -/
theorem exists_source_matches (b : Buffer) (c : Change) :
    ∃ old : Source, old.lineCount = b.lineCount ∧
      (b.change c).2.Matches (b.change c).2.reach old.texts (b.change c).1.source.texts := by
  rcases b.change_matches_or_tears c with hm | htears
  · exact ⟨b.source, b.lineCount_source, hm⟩
  cases c with
  | insert offset inserted => exact htears.elim
  | remove start stop =>
    obtain ⟨above, part, first, below, -, hstart, hadded, hremoved, -, hold, hnew⟩ := htears.report
    refine ⟨(b.remove start stop).1.source, ?_, Edit.matches_self hadded hremoved ?_ _⟩
    · rw [← b.lineCount_source, ← Source.length_texts, ← Source.length_texts, hold, hnew, List.length_append,
        List.length_append]
      rfl
    · rw [hnew, List.length_append]
      omega

/-- Insertions take no lines, and removals bring none: neither number of a report is cut off at zero. -/
theorem lineCount_change (b : Buffer) (c : Change) :
    (b.change c).1.lineCount + (b.change c).2.linesRemoved =
      b.lineCount + (b.change c).2.linesAdded := by
  obtain ⟨old, hcount, hm⟩ := b.exists_source_matches c
  have heq := hm.length_eq
  rwa [Source.length_texts, Source.length_texts, lineCount_source, hcount] at heq

section NoReturn
variable {b : Buffer} {c : Change}

theorem not_tearsPairBy (h : '\r' ∉ b.text) : ¬ b.TearsPairBy c := by
  cases c with
  | insert offset inserted => exact id
  | remove start stop => exact not_tearsPair h start stop

theorem change_matches (h : '\r' ∉ b.text) :
    (b.change c).2.Matches (b.change c).2.reach b.source.texts (b.change c).1.source.texts :=
  (b.change_matches_or_tears c).resolve_right (not_tearsPairBy h)

theorem no_return_change (h : '\r' ∉ b.text) (hc : c.BringsNoReturn) : '\r' ∉ (b.change c).1.text := by
  cases c with
  | insert offset inserted =>
    show '\r' ∉ b.text.take (min offset b.length) ++ inserted ++ b.text.drop (min offset b.length)
    intro hmem
    rcases List.mem_append.mp hmem with hmem | hmem
    · rcases List.mem_append.mp hmem with hmem | hmem
      · exact h (List.mem_of_mem_take hmem)
      · exact hc hmem
    · exact h (List.mem_of_mem_drop hmem)
  | remove start stop =>
    obtain ⟨above, gone, below, htext, hnew, -⟩ := b.remove_eq start stop
    show '\r' ∉ (b.remove start stop).1.text
    rw [htext] at h
    rw [hnew]
    intro hmem
    exact h (by rcases List.mem_append.mp hmem with hmem | hmem <;> simp [hmem])

end NoReturn

end Buffer

end Linewise
