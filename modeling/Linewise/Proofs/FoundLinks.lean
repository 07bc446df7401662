import Linewise.Proofs.Addresses
import Linewise.Proofs.ErrorNotices

/-!
# Links that are found

The search for links cuts the text of a token into pieces (`Hyperlink.Cuts`): a link is an address where it stands in
the text, and what lies between links holds no address and does not start with an opening. So a piece that is cut
again stays what it is (`cut_eq_singleton`).

* `Hyperlink.linksFound_mark`: **what the search for links finds, and that it finds the same again**.
-/

namespace Linewise.Hyperlink

open Token (Contiguous)

/-! ### The pieces of a text -/

/-- The length of the address at a position of a text. -/
def addressAt? (text : List Char) (i : Nat) : Option Nat := address? (text.take i).getLast? (text.drop i)

/-- **Pieces that a text is cut into** from a position on. -/
inductive Cuts (text : List Char) : Nat → List Piece → Prop
  | nil : Cuts text text.length []
  | plain {k m : Nat} {ps : List Piece} (hnone : ∀ i, k ≤ i → i < k + m → addressAt? text i = none)
      (hstart : 0 < k → opening? (text.drop k) = none) (hrest : Cuts text (k + m) ps) :
      Cuts text k (⟨m, false⟩ :: ps)
  | link {k n : Nat} {ps : List Piece} (haddress : addressAt? text k = some n) (hrest : Cuts text (k + n) ps) :
      Cuts text k (⟨n, true⟩ :: ps)

theorem one_lt_of_address? {before : Option Char} {cs : List Char} {n : Nat} (h : address? before cs = some n) :
    1 < n := by
  obtain ⟨o, hopening, -, hne, rfl⟩ := address?_eq_some_iff.mp h
  obtain ⟨w, hw, -, rfl⟩ := opening?_eq_some_iff.mp hopening
  have hall : ∀ w ∈ openings, 1 ≤ w.length := by decide
  have hlength := hall w hw
  have hpos := List.length_pos_iff.mpr hne
  omega

/-- **A text is cut into links and what holds none.** -/
theorem cuts_pieces {text : List Char} {k m : Nat} (hle : k + m ≤ text.length)
    (hnone : ∀ i, k ≤ i → i < k + m → addressAt? text i = none)
    (hstart : 0 < k → opening? (text.drop k) = none) :
    Cuts text k (pieces (text.take (k + m)).getLast? m (text.drop (k + m))) := by
  generalize hbefore : (text.take (k + m)).getLast? = before
  generalize hcs : text.drop (k + m) = cs
  fun_induction pieces before m cs generalizing k with
  | case1 before plain =>
    have hend : k + plain = text.length := Nat.le_antisymm hle (List.drop_eq_nil_iff.mp hcs)
    exact .plain hnone hstart (hend ▸ .nil)
  | case2 before plain c rest haddress ih =>
    have hlt : k + plain < text.length := by
      have hlength := congrArg List.length hcs
      rw [List.length_drop, List.length_cons] at hlength
      omega
    obtain ⟨hget, hdrop⟩ := List.cons.inj ((List.drop_eq_getElem_cons hlt).symm.trans hcs)
    refine ih (k := k) (by omega) (fun i hi hlast => ?_) hstart ?_ hdrop
    · by_cases hlt : i < k + plain
      · exact hnone i hi hlt
      · obtain rfl : i = k + plain := by omega
        rw [addressAt?, hbefore, hcs, haddress]
    · rw [← Nat.add_assoc, List.take_succ_eq_append_getElem hlt, List.getLast?_concat, hget]
  | case3 before plain c rest n haddress ih =>
    have hone := one_lt_of_address? haddress
    have hbounds := (address?_bounds haddress).2
    rw [List.length_cons] at hbounds
    have hplace : addressAt? text (k + plain) = some n := by
      rw [addressAt?, hbefore, hcs, haddress]
    have hsplit : (c :: rest).take n = c :: rest.take (n - 1) ∧ (c :: rest).drop n = rest.drop (n - 1) := by
      rw [← Nat.sub_add_cancel (Nat.le_of_lt hone), List.take_succ_cons, List.drop_succ_cons, Nat.add_sub_cancel]
      exact ⟨rfl, rfl⟩
    refine .plain hnone hstart (.link hplace (ih (k := k + plain + n) ?_ ?_ (fun _ => ?_) ?_ ?_))
    · have hlength := congrArg List.length hcs
      rw [List.length_drop, List.length_cons] at hlength
      omega
    · exact fun i hi hlast => absurd hi (Nat.not_le.mpr hlast)
    · rw [← List.drop_drop, hcs]
      exact opening?_drop_of_address? haddress
    · -- An address is longer than one character, so the last one of the link does not depend on the first.
      rw [Nat.add_zero, List.take_add, hcs, hsplit.1, List.append_cons, List.getLast?_append]
      cases hlast : (rest.take (n - 1)).getLast? with
      | none =>
        have hlength := congrArg List.length (List.getLast?_eq_none_iff.mp hlast)
        rw [List.length_take, List.length_nil] at hlength
        omega
      | some x => rfl
    · rw [Nat.add_zero, ← List.drop_drop, hcs, hsplit.2]

theorem cuts_text (text : List Char) : Cuts text 0 (pieces none 0 text) :=
  cuts_pieces (k := 0) (m := 0) (Nat.zero_le _) (fun _ hi hlast => absurd hlast (Nat.not_lt.mpr hi)) fun hpos =>
    absurd hpos (Nat.lt_irrefl 0)

section Cuts
variable {text : List Char} {k : Nat} {ps : List Piece}

theorem Cuts.no_link (h : Cuts text k ps) (hnone : ∀ i, addressAt? text i = none) : ∀ p ∈ ps, p.isLink = false := by
  induction h with
  | nil => nofun
  | plain _ _ _ ih => exact List.forall_mem_cons.mpr ⟨rfl, ih⟩
  | link haddress _ _ => cases (hnone _).symm.trans haddress

theorem Cuts.length_eq (h : Cuts text k ps) : k + (ps.map (·.length)).sum = text.length := by
  induction h with
  | nil => rfl
  | plain _ _ _ ih => simpa only [List.map_cons, List.sum_cons, ← Nat.add_assoc] using ih
  | link _ _ ih => simpa only [List.map_cons, List.sum_cons, ← Nat.add_assoc] using ih

end Cuts

theorem pieces_of_no_address {text : List Char} (h : ∀ i, addressAt? text i = none) :
    pieces none 0 text = [⟨text.length, false⟩] := by
  rw [pieces_of_no_link ((cuts_text text).no_link h), Nat.zero_add]

/-- An address is cut into itself, between pieces without characters. -/
theorem pieces_of_address {text : List Char} (h : address? none text = some text.length) :
    pieces none 0 text = [⟨0, false⟩, ⟨text.length, true⟩, ⟨0, false⟩] := by
  cases text with
  | nil => cases h
  | cons c rest =>
    rw [pieces, h]
    dsimp only
    rw [List.length_cons, Nat.add_sub_cancel, List.drop_length, pieces]

/-! ### The pieces of a token -/

/-- The part of a token from one of its characters on. -/
def part (t : Token) (i length : Nat) (isLink : Bool) : Token :=
  { t with start := t.start + i, length := length, offset := t.offset + .ofNat i, isLink := isLink }

@[simp] theorem part_start (t : Token) (i length : Nat) (isLink : Bool) :
    (part t i length isLink).start = t.start + i := rfl

@[simp] theorem part_stop (t : Token) (i length : Nat) (isLink : Bool) :
    (part t i length isLink).stop = t.start + i + length := rfl

theorem placePieces_cons (t : Token) (k : Nat) (p : Piece) (ps : List Piece) :
    placePieces t (t.start + k) (p :: ps) =
      if p.length = 0 then placePieces t (t.start + k) ps
      else part t k p.length p.isLink :: placePieces t (t.start + (k + p.length)) ps := by
  rw [placePieces]
  split_ifs with hempty
  · rw [hempty]
    rfl
  · rw [part, Nat.add_sub_cancel_left, Nat.add_assoc]

/-- **What a token with a given text is cut into**: addresses, and parts that hold none and do not start with an
opening. -/
inductive Cut (text : List Char) (t : Token) : Token → Prop
  | link {i n : Nat} (haddress : addressAt? text i = some n) : Cut text t (part t i n true)
  | plain {i m : Nat} (hpos : 0 < m) (hle : i + m ≤ text.length)
      (hnone : ∀ j, i ≤ j → j < i + m → addressAt? text j = none) (hstart : 0 < i → opening? (text.drop i) = none) :
      Cut text t (part t i m false)

section Token
variable {line text : List Char} {t u : Token} {k : Nat} {ps : List Piece}

theorem cut_of_mem_placePieces (h : Cuts text k ps) (hu : u ∈ placePieces t (t.start + k) ps) : Cut text t u := by
  induction h with
  | nil => cases hu
  | plain hnone hstart hrest ih =>
    rw [placePieces_cons] at hu
    split_ifs at hu with hempty
    · dsimp only at hempty
      subst hempty
      exact ih hu
    · rcases List.mem_cons.mp hu with rfl | hu
      · exact .plain (Nat.pos_of_ne_zero hempty) (Nat.le.intro hrest.length_eq) hnone hstart
      · exact ih hu
  | link haddress hrest ih =>
    have hpos := (address?_bounds haddress).1
    rw [placePieces_cons, if_neg (Nat.ne_of_gt hpos)] at hu
    rcases List.mem_cons.mp hu with rfl | hu
    · exact .link haddress
    · exact ih hu

/-- **An address is part of a link.** -/
theorem exists_link_of_address {i m : Nat} (h : Cuts text k ps) (hi : k ≤ i) (haddress : addressAt? text i = some m) :
    ∃ u ∈ placePieces t (t.start + k) ps, u.isLink = true ∧ u.start ≤ t.start + i ∧ t.start + i + m ≤ u.stop := by
  induction h with
  | nil =>
    rw [addressAt?, List.drop_eq_nil_of_le hi] at haddress
    cases haddress
  | @plain k length ps hnone hstart hrest ih =>
    have hmore : k + length ≤ i := by
      refine Nat.le_of_not_lt fun hlt => ?_
      cases (hnone i hi hlt).symm.trans haddress
    obtain ⟨u, hu, hlink⟩ := ih hmore
    rw [placePieces_cons]
    split_ifs with hempty
    · dsimp only at hempty
      subst hempty
      exact ⟨u, hu, hlink⟩
    · exact ⟨u, List.mem_cons_of_mem _ hu, hlink⟩
  | @link k n ps hlinked hrest ih =>
    rw [placePieces_cons, if_neg (Nat.ne_of_gt (address?_bounds hlinked).1)]
    by_cases hmore : k + n ≤ i
    · obtain ⟨u, hu, hlink⟩ := ih hmore
      exact ⟨u, List.mem_cons_of_mem _ hu, hlink⟩
    · have hwithin : address? (text.take i).getLast? ((text.drop k).drop (i - k)) = some m := by
        rwa [List.drop_drop, Nat.add_sub_cancel' hi]
      have hend := add_of_address? hlinked (by omega) hwithin
      refine ⟨part t k n true, List.mem_cons_self, rfl, ?_, ?_⟩
      · rw [part_start]
        omega
      · rw [part_stop]
        omega

theorem length_text_le (line : List Char) (t : Token) : (t.text line).length ≤ t.length := by
  rw [Token.text, List.length_take]
  exact Nat.min_le_left ..

theorem text_part (line : List Char) (t : Token) {i length : Nat} (isLink : Bool)
    (hle : i + length ≤ (t.text line).length) :
    (part t i length isLink).text line = ((t.text line).drop i).take length := by
  have hlength := length_text_le line t
  rw [Token.text, Token.text, List.drop_take, List.take_take, Nat.min_eq_left (by omega), List.drop_drop]
  rfl

theorem tokenPieces_eq_pieces (h : (t.text line).length = t.length) :
    tokenPieces line t = pieces none 0 (t.text line) := by
  obtain ⟨front, last, hpieces, htoken⟩ := tokenPieces_eq line t
  rw [htoken, hpieces, h, Nat.sub_self]
  rfl

theorem getLast?_take {n : Nat} (hpos : 0 < n) (hle : n ≤ text.length) : (text.take n).getLast? = text[n - 1]? := by
  rw [List.getLast?_take, if_neg (Nat.ne_of_gt hpos), List.getElem?_eq_getElem (by omega), Option.some_or]

/-- In a part of a text that does not start with an opening, there are no addresses but those of the text. -/
theorem addressAt?_part {i j m : Nat} (hstart : 0 < i → opening? (text.drop i) = none)
    (hnone : j < m → addressAt? text (i + j) = none) : addressAt? ((text.drop i).take m) j = none := by
  rw [Option.eq_none_iff_forall_ne_some]
  intro n haddress
  have hbounds := address?_bounds haddress
  rw [List.length_drop, List.length_take, List.length_drop] at hbounds
  rw [addressAt?, List.take_take, Nat.min_eq_left (by omega), List.drop_take, List.drop_drop] at haddress
  obtain ⟨p, hp⟩ := exists_address?_of_take haddress
  by_cases hinside : 0 < i ∧ j = 0
  · obtain ⟨hpos, rfl⟩ := hinside
    obtain ⟨o, hopening, -⟩ := address?_eq_some_iff.mp hp
    cases (hstart hpos).symm.trans hopening
  · have hlast : ((text.drop i).take j).getLast? = (text.take (i + j)).getLast? := by
      by_cases hzero : i = 0
      · rw [hzero, List.drop_zero, Nat.zero_add]
      · rw [getLast?_take (by omega) (by rw [List.length_drop]; omega), getLast?_take (by omega) (by omega),
          List.getElem?_drop, ← Nat.add_sub_assoc (by omega)]
    rw [hlast] at hp
    cases (hnone (by omega)).symm.trans hp

theorem placePieces_whole (hpos : 0 < u.length) : placePieces u u.start [⟨u.length, u.isLink⟩] = [u] := by
  rw [placePieces, if_neg (Nat.ne_of_gt hpos), placePieces, Nat.sub_self]
  simp

/-- **What a token is cut into is not cut again.** -/
theorem cut_eq_singleton (h : Cut (t.text line) t u) : cut line u = [u] := by
  unfold cut
  split_ifs with hcandidate
  swap
  · rfl
  cases h with
  | @link i n haddress =>
    have hbounds := address?_bounds haddress
    have hlength : (((t.text line).drop i).take n).length = n := List.length_take_of_le hbounds.2
    rw [List.length_drop] at hbounds
    have htext := text_part line t true (show i + n ≤ (t.text line).length by omega)
    have hagain : address? none (((t.text line).drop i).take n) = some (((t.text line).drop i).take n).length := by
      rw [hlength]
      exact address?_take haddress
    rw [tokenPieces_eq_pieces (by rw [htext, hlength]; rfl), htext, pieces_of_address hagain, hlength]
    exact placePieces_whole (u := part t i n true) hbounds.1
  | @plain i m hpos hle hnone hstart =>
    have hlength : (((t.text line).drop i).take m).length = m := by
      rw [List.length_take_of_le]
      rw [List.length_drop]
      omega
    have htext := text_part line t false hle
    have hagain (j : Nat) : addressAt? (((t.text line).drop i).take m) j = none :=
      addressAt?_part hstart fun hj => hnone (i + j) (Nat.le_add_right i j) (by omega)
    rw [tokenPieces_eq_pieces (by rw [htext, hlength]; rfl), htext, pieces_of_no_address hagain, hlength]
    exact placePieces_whole (u := part t i m false) hpos

theorem cut_of_no_link (hpos : 0 < t.length) (hlink : t.isLink = false)
    (hnone : isCandidate t = true → ∀ p ∈ tokenPieces line t, p.isLink = false) : cut line t = [t] := by
  unfold cut
  split_ifs with hcandidate
  · obtain ⟨p, hp⟩ := tokenPieces_of_no_link (hnone hcandidate)
    have hsum := sum_length_tokenPieces line t
    have hp' := hnone hcandidate p (hp ▸ List.mem_cons_self)
    rw [hp, List.map_singleton, List.sum_singleton] at hsum
    have hpiece : p = ⟨t.length, t.isLink⟩ := by
      cases p
      simp_all
    rw [hp, hpiece]
    exact placePieces_whole hpos
  · rfl

end Token

/-! ### The links of a line -/

section Line
variable {line : List Char} {ts : List Token}

theorem countP_placePieces (t : Token) (start : Nat) {ps : List Piece}
    (h : ∀ p ∈ ps, p.isLink = true → 0 < p.length) :
    (placePieces t start ps).countP (·.isLink) = ps.countP (·.isLink) := by
  induction ps generalizing start with
  | nil => rfl
  | cons p ps ih =>
    rw [List.forall_mem_cons] at h
    rw [placePieces]
    split_ifs with hempty
    · have hplain : p.isLink = false := Bool.eq_false_iff.mpr fun hlink => Nat.ne_of_gt (h.1 hlink) hempty
      rw [ih _ h.2, List.countP_cons_of_neg (by rw [hplain]; exact Bool.noConfusion)]
    · rw [List.countP_cons, List.countP_cons, ih _ h.2]

/-- The links that are counted are those that are made, if none is there but in comments and literals. -/
theorem linkCount_eq (h : ∀ t ∈ ts, isCandidate t = false → t.isLink = false) :
    linkCount line ts = (ts.flatMap (cut line)).countP (·.isLink) := by
  unfold linkCount
  induction ts with
  | nil => rfl
  | cons t ts ih =>
    rw [List.forall_mem_cons] at h
    rw [List.flatMap_cons, List.countP_append, ← ih h.2]
    by_cases hcandidate : isCandidate t = true
    · rw [List.filter_cons_of_pos hcandidate, List.flatMap_cons, List.countP_append, cut, if_pos hcandidate,
        countP_placePieces _ _ fun p hp hlink => length_pos_of_mem_tokenPieces hp hlink]
    · rw [Bool.not_eq_true] at hcandidate
      rw [List.filter_cons_of_neg (by rw [hcandidate]; exact Bool.noConfusion), cut,
        if_neg (by rw [hcandidate]; exact Bool.noConfusion), List.countP_cons, h.1 hcandidate]
      simp

theorem flatMap_cut_eq_self (h : ∀ t ∈ ts, cut line t = [t]) : ts.flatMap (cut line) = ts := by
  rw [List.flatMap_congr h]
  exact List.flatMap_singleton' ts

theorem mark_eq {s : Token.Sequence} (hpos : ∀ t ∈ s.tokens, 0 < t.length)
    (hfree : ∀ t ∈ s.tokens, t.isLink = false) :
    mark line s =
      ((s.tokens.flatMap (cut line)).countP (·.isLink), { s with tokens := s.tokens.flatMap (cut line) }) := by
  rw [← linkCount_eq fun t ht _ => hfree t ht, mark]
  split_ifs with hnone
  · have hself : ∀ t ∈ s.tokens, cut line t = [t] := fun t ht =>
      cut_of_no_link (hpos t ht) (hfree t ht) fun hcandidate p hp => Bool.eq_false_iff.mpr
        (List.countP_eq_zero.mp hnone p (List.mem_flatMap.mpr ⟨t, List.mem_filter.mpr ⟨ht, hcandidate⟩, hp⟩))
    rw [flatMap_cut_eq_self hself, hnone]
  · rfl

/-- What is cut into pieces is not cut again. -/
theorem cut_eq_singleton_of_mem (hlength : ∀ t ∈ ts, (t.text line).length = t.length) :
    ∀ u ∈ ts.flatMap (cut line), cut line u = [u] := by
  intro u hu
  obtain ⟨t, ht, hu⟩ := List.mem_flatMap.mp hu
  by_cases hcandidate : isCandidate t = true
  · rw [cut, if_pos hcandidate, tokenPieces_eq_pieces (hlength t ht)] at hu
    exact cut_eq_singleton (cut_of_mem_placePieces (cuts_text _) hu)
  · rw [cut, if_neg hcandidate, List.mem_singleton] at hu
    rw [hu, cut, if_neg hcandidate]

theorem mark_of_cut_eq {s : Token.Sequence} (hcut : ∀ u ∈ s.tokens, cut line u = [u])
    (hplain : ∀ u ∈ s.tokens, isCandidate u = false → u.isLink = false) :
    mark line s = (s.tokens.countP (·.isLink), s) := by
  have hcount : linkCount line s.tokens = s.tokens.countP (·.isLink) := by
    rw [linkCount_eq hplain, flatMap_cut_eq_self hcut]
  rw [mark, hcount, flatMap_cut_eq_self hcut]
  split_ifs with hnone
  · rw [hnone]
  · rfl

end Line

/-! ### What the search finds -/

/-- In its token, no letter and no number stands in front of a column of a line. -/
def Unpreceded (line : List Char) (t : Token) (column : Nat) : Prop :=
  t.start < column → ∀ c ∈ (line)[column - 1]?, Text.isAlphanumeric c = false

/-- **What the search for links makes of the tokens of a line.** -/
structure LinksFound (line : List Char) (s : Token.Sequence) (count : Nat) (marked : Token.Sequence) : Prop where
  startOffset_eq : marked.startOffset = s.startOffset
  endOffset_eq : marked.endOffset = s.endOffset
  endState_eq : marked.endState = s.endState
  flaw?_eq_none : marked.flaw? line.length = none
  labelAt?_eq : ∀ column, marked.labelAt? column = s.labelAt? column
  /-- The answer is the number of links that are there now. -/
  count_eq : count = marked.tokens.countP (·.isLink)
  /-- A link is an address in a comment or a literal, in front of which there is no letter and no number. -/
  isAddress : ∀ u ∈ marked.tokens, u.isLink = true → ∃ t ∈ s.tokens, isCandidate t = true ∧ t.start ≤ u.start ∧
    u.stop ≤ t.stop ∧ IsAddress (u.text line) ∧ Unpreceded line t u.start
  /-- An opening in a comment or a literal is part of a link, if in front of it there is no letter and no number, and
  what follows it is not punctuation alone. -/
  found : ∀ t ∈ s.tokens, isCandidate t = true → ∀ column n, t.start ≤ column →
    opening? ((line.take t.stop).drop column) = some n → Unpreceded line t column →
    (∃ c ∈ ((line.take t.stop).drop (column + n)).takeWhile isAddressChar, isTrailing c = false) →
    ∃ u ∈ marked.tokens, u.isLink = true ∧ u.start ≤ column ∧ column + n ≤ u.stop
  /-- A further search finds the same, and changes nothing. -/
  again : mark line marked = (count, marked)

section Found
variable {line : List Char} {t u : Token}

theorem text_eq_drop (line : List Char) (t : Token) : t.text line = (line.take t.stop).drop t.start := by
  rw [Token.text, List.drop_take, Token.stop, Nat.add_sub_cancel_left]

theorem unpreceded_iff {i : Nat} (hi : i ≤ (t.text line).length) :
    Unpreceded line t (t.start + i) ↔ ((t.text line).take i).getLast?.any Text.isAlphanumeric = false := by
  rcases Nat.eq_zero_or_pos i with rfl | hpos
  · simp [Unpreceded]
  · have hlength := length_text_le line t
    have hchar : (t.text line)[i - 1]? = (line)[t.start + i - 1]? := by
      rw [Token.text, List.getElem?_take_of_lt (by omega), List.getElem?_drop, Nat.add_sub_assoc hpos]
    rw [getLast?_take hpos hi, hchar, Unpreceded, forall_prop_of_true (Nat.lt_add_of_pos_right hpos)]
    cases (line)[t.start + i - 1]? <;> simp

theorem isAddress_of_mem_cut (hlink : t.isLink = false) (hlength : (t.text line).length = t.length)
    (hu : u ∈ cut line t) (hulink : u.isLink = true) : isCandidate t = true ∧ t.start ≤ u.start ∧
      u.stop ≤ t.stop ∧ IsAddress (u.text line) ∧ Unpreceded line t u.start := by
  by_cases hcandidate : isCandidate t = true
  · rw [cut, if_pos hcandidate, tokenPieces_eq_pieces hlength] at hu
    cases cut_of_mem_placePieces (cuts_text _) hu with
    | @link i n haddress =>
      have hbounds := address?_bounds haddress
      rw [List.length_drop] at hbounds
      obtain ⟨o, -, hbefore, -⟩ := address?_eq_some_iff.mp haddress
      refine ⟨hcandidate, Nat.le_add_right .., ?_, ?_, (unpreceded_iff (by omega)).mpr hbefore⟩
      · rw [part_stop, Token.stop]
        omega
      · rw [text_part line t true (by omega)]
        exact isAddress_of_address? haddress
    | plain => cases hulink
  · rw [cut, if_neg hcandidate, List.mem_singleton] at hu
    rw [hu, hlink] at hulink
    cases hulink

theorem exists_link_of_opening (hcandidate : isCandidate t = true) (hlength : (t.text line).length = t.length)
    {column n : Nat} (hstart : t.start ≤ column) (hopening : opening? ((line.take t.stop).drop column) = some n)
    (hbefore : Unpreceded line t column)
    (hmore : ∃ c ∈ ((line.take t.stop).drop (column + n)).takeWhile isAddressChar, isTrailing c = false) :
    ∃ u ∈ cut line t, u.isLink = true ∧ u.start ≤ column ∧ column + n ≤ u.stop := by
  obtain ⟨i, rfl⟩ := Nat.exists_eq_add_of_le hstart
  rw [← List.drop_drop, ← text_eq_drop] at hopening
  rw [Nat.add_assoc, ← List.drop_drop, ← text_eq_drop, ← List.drop_drop] at hmore
  have hi : i ≤ (t.text line).length := by
    obtain ⟨c, hc, -⟩ := head_of_opening? hopening
    by_contra hlt
    rw [List.drop_eq_nil_of_le (by omega)] at hc
    cases hc
  have haddress : addressAt? (t.text line) i = some (n + (tail (((t.text line).drop i).drop n)).length) :=
    address?_eq_some_iff.mpr ⟨n, hopening, (unpreceded_iff hi).mp hbefore, tail_ne_nil_iff.mpr hmore, rfl⟩
  obtain ⟨u, hu, hlink, hle, hstop⟩ := exists_link_of_address (cuts_text _) (Nat.zero_le i) haddress
  rw [cut, if_pos hcandidate, tokenPieces_eq_pieces hlength]
  exact ⟨u, hu, hlink, hle, by omega⟩

end Found

/-- **What the search for links finds.** Let a line have sound tokens, none of which is a link. The search leaves
alone where the line starts and ends, its state and what is said of its characters, and the tokens are still sound.
Its answer is the number of links. A link is an address in a comment or a literal, and all addresses there are parts
of links. Searched again, the tokens stay the same. -/
theorem linksFound_mark (line : List Char) (s : Token.Sequence) (hvalid : s.flaw? line.length = none)
    (hfree : ∀ t ∈ s.tokens, t.isLink = false) : LinksFound line s (mark line s).1 (mark line s).2 := by
  obtain ⟨hsound, hcontiguous, hkind, hoffset⟩ := Token.Sequence.flaw?_eq_none_iff.mp hvalid
  have hlength : ∀ t ∈ s.tokens, (t.text line).length = t.length := fun t ht => by
    have hstop := (hcontiguous.stop_le ht).2
    rw [Token.stop] at hstop
    rw [Token.text, List.length_take_of_le]
    rw [List.length_drop]
    omega
  rw [mark_eq (fun t ht => (hsound t ht).length_pos) hfree]
  have hsound' : ∀ u ∈ s.tokens.flatMap (cut line), u.Sound s.startOffset := fun u hu => by
    obtain ⟨t, ht, hu⟩ := List.mem_flatMap.mp hu
    exact sound_cut line (hsound t ht) u hu
  have hcontiguous' := contiguous_flatMap_cut line hcontiguous
  have hstart : Token.Sequence.startOffset { s with tokens := s.tokens.flatMap (cut line) } = s.startOffset :=
    Token.Sequence.startOffset_eq hsound' hcontiguous' hoffset
  constructor
  case startOffset_eq => exact hstart
  case endOffset_eq => rfl
  case endState_eq => rfl
  case flaw?_eq_none =>
    rw [Token.Sequence.flaw?_eq_none_iff, hstart]
    exact ⟨hsound', hcontiguous', hkind, hoffset⟩
  case labelAt?_eq => exact fun column => label_find?_flatMap_cut line hcontiguous (Nat.zero_le column)
  case count_eq => rfl
  case isAddress =>
    intro u hu hlink
    obtain ⟨t, ht, hu⟩ := List.mem_flatMap.mp hu
    exact ⟨t, ht, isAddress_of_mem_cut (hfree t ht) (hlength t ht) hu hlink⟩
  case found =>
    intro t ht hcandidate column n hcolumn hopening hbefore hmore
    obtain ⟨u, hu, hlink⟩ := exists_link_of_opening hcandidate (hlength t ht) hcolumn hopening hbefore hmore
    exact ⟨u, List.mem_flatMap.mpr ⟨t, ht, hu⟩, hlink⟩
  case again =>
    refine mark_of_cut_eq (cut_eq_singleton_of_mem hlength) fun u hu hplain => ?_
    obtain ⟨t, ht, hu⟩ := List.mem_flatMap.mp hu
    by_contra hlink
    rw [Bool.not_eq_false] at hlink
    have hcandidate := (isAddress_of_mem_cut (hfree t ht) (hlength t ht) hu hlink).1
    rw [isCandidate, ← kind_cut line u hu] at hcandidate
    exact Bool.noConfusion (hplain.symm.trans hcandidate)

/-- A comment with an address in capital letters, an opening inside it, and punctuation behind it. -/
theorem linksFound_mark_comment :
    let line := "x //(WWW.www.a).".toList
    let s := (CFamily.scanner .java).tokenize line .neutral 100
    s.flaw? line.length = none ∧ (∀ t ∈ s.tokens, t.isLink = false) ∧ (mark line s).1 = 1 ∧
      LinksFound line s (mark line s).1 (mark line s).2 := by
  intro line s
  have hvalid : s.flaw? line.length = none := by decide +kernel
  have hfree : ∀ t ∈ s.tokens, t.isLink = false := by decide +kernel
  exact ⟨hvalid, hfree, by decide +kernel, linksFound_mark line s hvalid hfree⟩

end Linewise.Hyperlink
