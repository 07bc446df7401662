import Linewise.CFamily.Bounds
import Linewise.CFamily.InPlace.Number
import Linewise.Proofs.OpenConstructs

/-!
# What a line end does to a scan

Two lines may be read as one, with the character of the line end between them (`Text.joined`). That character
is blank, belongs to no word, number or operator, and closes nothing, so what starts on the first line reads
as before unless it reaches the end of it. A construct that is open there goes on behind the line end as if
the second line started with it (`Extent.ContinuesAs`): a comment at the depth that it has, and a quoted
literal also where its last character is a backslash, which the line end then takes.

* `Text.firstSuffix?_joined`: a search for what ends at a line end goes over the first line, and then over the
  second.
* `CFamily.resume_continues`: so it is with a construct that is open in front of the first line.
* `CFamily.next_continues`: **and with what starts at a character of the first line**, if no regular expression
  can start there.
-/

namespace Linewise

namespace Text

/-- Two lines as one, with a line end between them. -/
def joined (cs rest : List Char) : List Char := cs ++ '\n' :: rest

theorem joined_nil (rest : List Char) : joined [] rest = '\n' :: rest := rfl

theorem joined_cons (c : Char) (cs rest : List Char) : joined (c :: cs) rest = c :: joined cs rest := rfl

theorem drop_joined {cs : List Char} {n : Nat} (h : n ≤ cs.length) (rest : List Char) :
    (joined cs rest).drop n = joined (cs.drop n) rest :=
  List.drop_append_of_le_length h

theorem take_joined {cs : List Char} {n : Nat} (h : n ≤ cs.length) (rest : List Char) :
    (joined cs rest).take n = cs.take n :=
  List.take_append_of_le_length h

theorem drop_joined_add (cs rest : List Char) (n : Nat) :
    (joined cs rest).drop (cs.length + 1 + n) = rest.drop n := by
  rw [joined, Nat.add_assoc, List.drop_length_add_append, Nat.add_comm 1 n, List.drop_succ_cons]

theorem take_joined_add (cs rest : List Char) (n : Nat) :
    (joined cs rest).take (cs.length + 1 + n) = cs ++ '\n' :: rest.take n := by
  rw [joined, Nat.add_assoc, List.take_length_add_append, Nat.add_comm 1 n, List.take_succ_cons]

theorem head?_joined {p : Char → Bool} (hp : p '\n' = false) (cs rest : List Char) :
    (joined cs rest).head?.any p = cs.head?.any p := by
  cases cs with
  | nil => exact hp
  | cons c cs => rfl

theorem head?_joined_iff {c : Char} (hc : c ≠ '\n') (cs rest : List Char) :
    (joined cs rest).head? = some c ↔ cs.head? = some c := by
  cases cs with
  | nil => exact iff_of_false (fun hhead => hc (Option.some.inj hhead).symm) (Option.some_ne_none c).symm
  | cons x cs => rfl

theorem head?_joined_ne {c : Char} (hc : c ≠ '\n') {cs : List Char} (h : cs.head? ≠ some c) (rest : List Char) :
    (joined cs rest).head? ≠ some c :=
  mt (head?_joined_iff hc cs rest).1 h

theorem takeWhile_joined {p : Char → Bool} (hp : p '\n' = false) (cs rest : List Char) :
    (joined cs rest).takeWhile p = cs.takeWhile p := by
  induction cs with
  | nil => rw [joined_nil, List.takeWhile_cons_of_neg (by rw [hp]; exact Bool.noConfusion), List.takeWhile_nil]
  | cons c cs ih => rw [joined_cons, List.takeWhile_cons, List.takeWhile_cons, ih]

theorem run_joined {p : Char → Bool} (hp : p '\n' = false) (cs rest : List Char) :
    run p (joined cs rest) = run p cs :=
  congrArg List.length (takeWhile_joined hp cs rest)

theorem length_joined (cs rest : List Char) : (joined cs rest).length = cs.length + 1 + rest.length := by
  rw [joined, List.length_append, List.length_cons]
  omega

theorem run_joined_of_lt {p : Char → Bool} {cs : List Char} (h : run p cs < cs.length) (rest : List Char) :
    run p (joined cs rest) = run p cs := by
  have hne : (cs.takeWhile p).length ≠ cs.length := Nat.ne_of_lt h
  rw [run, joined, List.takeWhile_append, if_neg hne, run]

theorem run_joined_of_eq {p : Char → Bool} (hp : p '\n' = true) {cs : List Char} (h : run p cs = cs.length)
    (rest : List Char) : run p (joined cs rest) = cs.length + 1 + run p rest := by
  have hall : (cs.takeWhile p).length = cs.length := h
  rw [run, joined, List.takeWhile_append, if_pos hall, List.takeWhile_cons_of_pos hp, List.length_append,
    List.length_cons, run]
  omega

theorem isPrefixOf_joined {pat : List Char} (hpat : '\n' ∉ pat) (cs rest : List Char) :
    pat.isPrefixOf (joined cs rest) = pat.isPrefixOf cs := by
  induction pat generalizing cs with
  | nil => rfl
  | cons p pat ih =>
    rw [List.mem_cons, not_or] at hpat
    cases cs with
    | nil => rw [joined_nil, List.isPrefixOf_cons_cons, beq_false_of_ne (Ne.symm hpat.1)]; rfl
    | cons c cs => rw [joined_cons, List.isPrefixOf_cons_cons, List.isPrefixOf_cons_cons, ih hpat.2]

theorem startsWithFolded_joined {pat : List Char} (hpat : '\n' ∉ pat) (cs rest : List Char) :
    startsWithFolded pat (joined cs rest) = startsWithFolded pat cs := by
  induction pat generalizing cs with
  | nil => rfl
  | cons p pat ih =>
    rw [List.mem_cons, not_or] at hpat
    cases cs with
    | nil =>
      have hfold : ('\n'.toLower == p) = false := beq_false_of_ne hpat.1
      show ('\n'.toLower == p && startsWithFolded pat rest) = false
      rw [hfold]
      rfl
    | cons c cs => rw [joined_cons, startsWithFolded, startsWithFolded, ih hpat.2]

theorem firstSuffix?_joined {p : List Char → Bool} (hp : ∀ cs rest, p (joined cs rest) = p cs)
    (hnil : p [] = false) (cs rest : List Char) :
    firstSuffix? p (joined cs rest) =
      (firstSuffix? p cs).or ((firstSuffix? p rest).map (cs.length + 1 + ·)) := by
  induction cs with
  | nil =>
    have hend : p ('\n' :: rest) = false := (hp [] rest).trans hnil
    have hfind : firstSuffix? p ('\n' :: rest) = (firstSuffix? p rest).map (· + 1) :=
      if_neg (by rw [hend]; exact Bool.noConfusion)
    rw [joined_nil, hfind, firstSuffix?, Option.none_or]
    congr 1
    funext n
    exact Nat.add_comm ..
  | cons c cs ih =>
    rw [joined_cons, firstSuffix?, firstSuffix?, ← joined_cons, hp]
    split
    · rfl
    · rw [ih]
      cases firstSuffix? p cs with
      | some n => rfl
      | none =>
        rw [Option.none_or, Option.map_none, Option.none_or, Option.map_map]
        congr 1
        funext n
        show cs.length + 1 + n + 1 = cs.length + 1 + 1 + n
        omega

theorem find?_joined {pat : List Char} (hpat : '\n' ∉ pat) (hne : pat ≠ []) (cs rest : List Char) :
    find? pat (joined cs rest) = (find? pat cs).or ((find? pat rest).map (cs.length + 1 + ·)) := by
  refine firstSuffix?_joined (isPrefixOf_joined hpat) ?_ cs rest
  cases pat with
  | nil => exact absurd rfl hne
  | cons p pat => rfl

end Text

namespace CFamily

open Text (joined joined_nil joined_cons drop_joined take_joined drop_joined_add take_joined_add
  head?_joined head?_joined_ne run_joined)

/-! ### Numbers -/

namespace Number

theorem digits_joined {isDigit : Char → Bool} (h : isDigit '\n' = false) (cs rest : List Char) :
    digits isDigit (joined cs rest) = digits isDigit cs :=
  run_joined (by rw [h]; rfl) cs rest

theorem pointAllowed_joined (cs rest : List Char) :
    pointAllowed (joined cs rest).head? = pointAllowed cs.head? := by
  cases cs with
  | nil => exact show pointAllowed (some '\n') = pointAllowed none by decide
  | cons c cs => rfl

variable {cs : List Char} {n : Number}

theorem withFraction_of_point {more : List Char} (h : cs.drop n.length = '.' :: more) :
    withFraction cs n =
      if pointAllowed more.head? then ⟨.float, n.length + 1 + digits Char.isDigit more⟩ else n := by
  rw [withFraction, h]
  rfl

theorem withFraction_of_ne (h : (cs.drop n.length).head? ≠ some '.') : withFraction cs n = n := by
  unfold withFraction
  split
  · next hdrop => exact absurd (by rw [hdrop]; rfl) h
  · rfl

theorem withFraction_joined (h : n.length ≤ cs.length) (rest : List Char) :
    withFraction (joined cs rest) n = withFraction cs n := by
  have hdrop := drop_joined h rest
  by_cases hpoint : (cs.drop n.length).head? = some '.'
  · obtain ⟨more, hmore⟩ := List.head?_eq_some_iff.1 hpoint
    rw [hmore, joined_cons] at hdrop
    rw [withFraction_of_point hdrop, withFraction_of_point hmore, pointAllowed_joined, digits_joined rfl]
  · rw [withFraction_of_ne hpoint, withFraction_of_ne]
    rw [hdrop]
    exact head?_joined_ne (by decide) hpoint rest

theorem withExponent_joined (h : n.length ≤ cs.length) (rest : List Char) :
    withExponent (joined cs rest) n = withExponent cs n := by
  have hdrop := drop_joined h rest
  cases hrest : cs.drop n.length with
  | nil =>
    rw [hrest] at hdrop
    rw [withExponent, withExponent, hdrop, hrest]
    rfl
  | cons e more =>
    rw [hrest, joined_cons] at hdrop
    by_cases he : e = 'e' ∨ e = 'E'
    · have hsign := head?_joined (p := InPlace.isSign) (by decide) more rest
      have hle : (if more.head?.any InPlace.isSign then 1 else 0) ≤ more.length := by
        cases more with
        | nil => exact Nat.le_refl 0
        | cons c more => split <;> simp
      rw [InPlace.withExponent_of_letter hdrop he rfl, InPlace.withExponent_of_letter hrest he rfl, hsign,
        drop_joined hle, digits_joined rfl]
    · rw [withExponent, withExponent, hdrop, hrest]
      dsimp only
      rw [if_neg he, if_neg he]

theorem decimal_joined (cs rest : List Char) : decimal (joined cs rest) = decimal cs := by
  have hdigits := digits_le Char.isDigit cs
  unfold decimal
  rw [digits_joined rfl, withFraction_joined hdigits, withExponent_joined (length_withFraction_le hdigits)]

theorem unsuffixed_of_decimal {a : Char} {more : List Char}
    (h : ¬ (a = '0' ∧ more.head?.any InPlace.startsHexadecimal = true)) :
    unsuffixed (a :: more) = decimal (a :: more) := by
  unfold unsuffixed
  split
  · next x more hcons =>
    obtain ⟨rfl, rfl⟩ := List.cons.inj hcons
    rw [if_neg]
    exact fun hx => h ⟨rfl, by simpa [InPlace.startsHexadecimal] using hx⟩
  · rfl

theorem unsuffixed_joined (cs rest : List Char) : unsuffixed (joined cs rest) = unsuffixed cs := by
  cases cs with
  | nil => exact (unsuffixed_of_decimal fun h => absurd h.1 (by decide)).trans (decimal_joined [] rest)
  | cons a cs =>
    by_cases hhexadecimal : a = '0' ∧ cs.head?.any InPlace.startsHexadecimal = true
    · obtain ⟨rfl, hx⟩ := hhexadecimal
      obtain ⟨x, hhead, hx⟩ := (Option.any_eq_true ..).1 hx
      obtain ⟨more, rfl⟩ := List.head?_eq_some_iff.1 hhead
      have hletter : x = 'x' ∨ x = 'X' := by simpa [InPlace.startsHexadecimal] using hx
      rw [joined_cons, joined_cons, unsuffixed, unsuffixed, digits_joined (by decide), if_pos hletter,
        if_pos hletter]
    · have hjoined : ¬ (a = '0' ∧ (joined cs rest).head?.any InPlace.startsHexadecimal = true) := by
        rwa [head?_joined (by decide)]
      rw [joined_cons, unsuffixed_of_decimal hjoined, unsuffixed_of_decimal hhexadecimal, ← joined_cons,
        decimal_joined]

theorem withSuffix_joined (h : n.length ≤ cs.length) (rest : List Char) :
    withSuffix (joined cs rest) n = withSuffix cs n := by
  have hletters := Text.run_le_length isSuffixLetter (cs.drop n.length)
  unfold withSuffix
  dsimp only
  rw [drop_joined h, run_joined (p := isSuffixLetter) (by decide), drop_joined hletters,
    run_joined (p := Char.isDigit) (by decide), head?_joined (p := isFloatSuffix) (by decide)]

theorem withGlued_joined {isWordChar : Char → Bool} (hword : isWordChar '\n' = false) (h : n.length ≤ cs.length)
    (rest : List Char) : withGlued isWordChar (joined cs rest) n = withGlued isWordChar cs n := by
  unfold withGlued
  rw [drop_joined h, run_joined hword]

/-- A number ends in front of the line end. -/
theorem scan_joined {isWordChar : Char → Bool} (hword : isWordChar '\n' = false) (cs rest : List Char) :
    scan isWordChar (joined cs rest) = scan isWordChar cs := by
  have hunsuffixed := length_unsuffixed_le cs
  unfold scan
  rw [unsuffixed_joined, withSuffix_joined hunsuffixed,
    withGlued_joined hword (length_withSuffix_le hunsuffixed)]

end Number

/-! ### Comments and quotes -/

/-- An end that is looked for on the first line, and then on the second. -/
def CommentEnd.orElseAt (e : CommentEnd) (length : Nat) (more : Nat → CommentEnd) : CommentEnd :=
  match e with
  | .closed n => .closed n
  | .stillOpen left => (more left).shift (length + 1)

theorem CommentEnd.orElseAt_shift (e : CommentEnd) (length n : Nat) (more : Nat → CommentEnd) :
    (e.shift n).orElseAt (length + n) more = (e.orElseAt length more).shift n := by
  cases e with
  | closed m => rfl
  | stillOpen left =>
    show (more left).shift (length + n + 1) = ((more left).shift (length + 1)).shift n
    rw [CommentEnd.shift_shift]
    congr 1
    omega

theorem nestedEnd_cons {depth : Nat} {c : Char} {cs : List Char} (hclosing : c = '*' → cs.head? ≠ some '/')
    (hopening : c = '/' → cs.head? ≠ some '*') : nestedEnd depth (c :: cs) = (nestedEnd depth cs).shift 1 := by
  rw [nestedEnd]
  · rintro cs rfl rfl
    exact hclosing rfl rfl
  · rintro cs rfl rfl
    exact hopening rfl rfl

theorem nestedEnd_joined (depth : Nat) (cs rest : List Char) :
    nestedEnd depth (joined cs rest) = (nestedEnd depth cs).orElseAt cs.length (nestedEnd · rest) := by
  fun_induction nestedEnd depth cs with
  | case1 depth => exact nestedEnd_cons (fun h => absurd h (by decide)) (fun h => absurd h (by decide))
  | case2 depth cs hdepth => rw [joined_cons, joined_cons, nestedEnd, if_pos hdepth]; rfl
  | case3 depth cs hdepth ih =>
    rw [joined_cons, joined_cons, nestedEnd, if_neg hdepth, ih]
    exact (CommentEnd.orElseAt_shift ..).symm
  | case4 depth cs ih =>
    rw [joined_cons, joined_cons, nestedEnd, ih]
    exact (CommentEnd.orElseAt_shift ..).symm
  | case5 depth c cs hclosing hopening ih =>
    have hhead {mark next : Char} (h : ∀ tail, c = mark → cs = next :: tail → False) :
        c = mark → cs.head? ≠ some next := by
      intro hc hhead
      cases cs with
      | nil => cases hhead
      | cons x tail => exact h tail hc (by rw [Option.some.inj hhead])
    rw [joined_cons, nestedEnd_cons (fun hc => head?_joined_ne (by decide) (hhead hclosing hc) rest)
      (fun hc => head?_joined_ne (by decide) (hhead hopening hc) rest), ih]
    exact (CommentEnd.orElseAt_shift ..).symm

theorem flatEnd_joined (depth : Nat) (cs rest : List Char) :
    flatEnd depth (joined cs rest) = (flatEnd depth cs).orElseAt cs.length (flatEnd · rest) := by
  unfold flatEnd
  rw [Text.find?_joined (by decide) (by decide)]
  cases Text.find? ['*', '/'] cs with
  | some n => rfl
  | none =>
    cases Text.find? ['*', '/'] rest with
    | none => rfl
    | some n => rfl

/-- A comment that is open at the line end goes on behind it, at the depth that it has. -/
theorem commentEnd_joined (d : Dialect) (depth : Nat) (cs rest : List Char) :
    commentEnd d depth (joined cs rest) = (commentEnd d depth cs).orElseAt cs.length (commentEnd d · rest) := by
  unfold commentEnd
  split
  · exact nestedEnd_joined depth cs rest
  · exact flatEnd_joined depth cs rest

/-- An end that is looked for on the first line, and then on the second. -/
def QuoteEnd.orElseAt (e : QuoteEnd) (length : Nat) (more : QuoteEnd) : QuoteEnd :=
  match e with
  | .closed n => .closed n
  | _ => more.shift (length + 1)

theorem QuoteEnd.orElseAt_shift (e : QuoteEnd) (length n : Nat) (more : QuoteEnd) :
    (e.shift n).orElseAt (length + n) more = (e.orElseAt length more).shift n := by
  have hmore : more.shift (length + n + 1) = (more.shift (length + 1)).shift n := by
    rw [QuoteEnd.shift_shift]
    congr 1
    omega
  cases e with
  | closed m => rfl
  | continued => exact hmore
  | unterminated => exact hmore

theorem ne_backslash {c : Char} {cs : List Char} (hlast : c = '\x5c' → cs = [] → False)
    (hescape : ∀ x tail, c = '\x5c' → cs = x :: tail → False) : ¬ c = '\x5c' := by
  intro hc
  cases cs with
  | nil => exact hlast hc rfl
  | cons x tail => exact hescape x tail hc rfl

/-- A quoted literal that is open at the line end goes on behind it, which takes a last backslash with it. -/
theorem quoteEnd_joined {quote : Char} (hquote : quote ≠ '\n') (continuable : Bool) (cs rest : List Char) :
    quoteEnd quote continuable (joined cs rest) =
      (quoteEnd quote continuable cs).orElseAt cs.length (quoteEnd quote continuable rest) := by
  fun_induction quoteEnd quote continuable cs with
  | case1 =>
    rw [joined_nil, quoteEnd_cons (by decide), if_neg (Ne.symm hquote)]
    rfl
  | case2 =>
    rw [joined_cons, joined_nil, quoteEnd]
    rfl
  | case3 =>
    rw [joined_cons, joined_nil, quoteEnd]
    rfl
  | case4 c cs ih =>
    rw [joined_cons, joined_cons, quoteEnd, ih]
    exact (QuoteEnd.orElseAt_shift ..).symm
  | case5 cs hlast hescape =>
    rw [joined_cons, quoteEnd_cons (ne_backslash hlast hescape), if_pos rfl]
    rfl
  | case6 c cs hlast hescape hne ih =>
    rw [joined_cons, quoteEnd_cons (ne_backslash hlast hescape), if_neg hne, ih]
    exact (QuoteEnd.orElseAt_shift ..).symm

/-! ### What starts on the first line -/

section Continues
variable {d : Dialect} {seen cs rest : List Char} {c : Char}

/-- What an extent on the first line becomes in the joined lines. One that ends in front of the line end stays
as it is. A construct that is open there goes on as the second line does that starts in it. -/
def Extent.ContinuesAs (d : Dialect) (cs rest : List Char) : Extent → Extent → Prop
  | .upTo kind length, e => length < cs.length → e = .upTo kind length
  | .toEnd _ none, _ => True
  | .toEnd _ (some construct), e =>
    construct.KnownTo d ∧ e = (resume d construct rest).shift (cs.length + 1)

theorem Extent.ContinuesAs.refl_upTo (kind : Token.Kind) (length : Nat) :
    ContinuesAs d cs rest (.upTo kind length) (.upTo kind length) :=
  fun _ => rfl

theorem Extent.ContinuesAs.shift_one {e e' : Extent} (h : ContinuesAs d cs rest e e') (c : Char) :
    ContinuesAs d (c :: cs) rest (e.shift 1) (e'.shift 1) := by
  match e with
  | .upTo kind length =>
    intro hlt
    rw [h (by rw [List.length_cons] at hlt; omega)]
    rfl
  | .toEnd _ none => trivial
  | .toEnd _ (some construct) =>
    refine ⟨h.1, ?_⟩
    rw [h.2, Extent.shift_shift, List.length_cons, Nat.add_comm 1]

theorem commentExtent_continues (d : Dialect) (depth : Nat) (doc : Bool) (cs rest : List Char) :
    Extent.ContinuesAs d cs rest (commentExtent d depth doc cs) (commentExtent d depth doc (joined cs rest)) := by
  unfold commentExtent
  rw [commentEnd_joined]
  cases commentEnd d depth cs with
  | closed length => exact Extent.ContinuesAs.refl_upTo (commentKind doc) length
  | stillOpen left =>
    refine ⟨trivial, ?_⟩
    show _ = (commentExtent d left doc rest).shift (cs.length + 1)
    unfold commentExtent
    rw [CommentEnd.orElseAt]
    cases commentEnd d left rest <;> rfl

theorem stringExtent_eq_shift {m : Nat} {cs rest : List Char}
    (h : quoteEnd '\x22' true cs = (quoteEnd '\x22' true rest).shift m) :
    stringExtent d cs = (stringExtent d rest).shift m := by
  unfold stringExtent
  rw [h]
  cases quoteEnd '\x22' true rest with
  | closed length => rfl
  | continued => rfl
  | unterminated =>
    dsimp only [QuoteEnd.shift]
    split <;> rfl

theorem stringExtent_continues (d : Dialect) (cs rest : List Char) :
    Extent.ContinuesAs d cs rest (stringExtent d cs) (stringExtent d (joined cs rest)) := by
  have hjoined := quoteEnd_joined (show '\x22' ≠ '\n' by decide) true cs rest
  cases hend : quoteEnd '\x22' true cs with
  | closed length =>
    rw [hend] at hjoined
    rw [stringExtent, stringExtent, hjoined, hend]
    exact Extent.ContinuesAs.refl_upTo .string length
  | continued =>
    rw [hend] at hjoined
    rw [stringExtent_eq_shift hjoined, stringExtent, hend]
    exact ⟨trivial, rfl⟩
  | unterminated =>
    rw [hend] at hjoined
    rw [stringExtent_eq_shift hjoined, stringExtent.eq_def d cs, hend]
    dsimp only
    split
    · exact ⟨trivial, rfl⟩
    · trivial

theorem templateExtent_eq_shift {m : Nat} {cs rest : List Char}
    (h : quoteEnd '\x60' false cs = (quoteEnd '\x60' false rest).shift m) :
    templateExtent cs = (templateExtent rest).shift m := by
  unfold templateExtent
  rw [h]
  cases quoteEnd '\x60' false rest <;> rfl

theorem templateExtent_continues (hd : d.templateStrings = true) (cs rest : List Char) :
    Extent.ContinuesAs d cs rest (templateExtent cs) (templateExtent (joined cs rest)) := by
  have hjoined := quoteEnd_joined (show '\x60' ≠ '\n' by decide) false cs rest
  cases hend : quoteEnd '\x60' false cs with
  | closed length =>
    rw [hend] at hjoined
    rw [templateExtent, templateExtent, hjoined, hend]
    exact Extent.ContinuesAs.refl_upTo .template length
  | continued =>
    rw [hend] at hjoined
    rw [templateExtent_eq_shift hjoined, templateExtent, hend]
    exact ⟨hd, rfl⟩
  | unterminated =>
    rw [hend] at hjoined
    rw [templateExtent_eq_shift hjoined, templateExtent, hend]
    exact ⟨hd, rfl⟩

theorem singleQuoteExtent_continues (d : Dialect) (cs rest : List Char) :
    Extent.ContinuesAs d cs rest (singleQuoteExtent d cs) (singleQuoteExtent d (joined cs rest)) := by
  have hjoined := quoteEnd_joined (show '\x27' ≠ '\n' by decide) false cs rest
  unfold singleQuoteExtent
  cases hend : quoteEnd '\x27' false cs with
  | closed length =>
    have hbody : (joined cs rest).take (length - 1) = cs.take (length - 1) :=
      take_joined (Nat.le_trans (Nat.sub_le ..) (bounds_of_quoteEnd hend).2) rest
    rw [hend] at hjoined
    rw [hjoined]
    dsimp only [QuoteEnd.orElseAt]
    rw [hbody]
    split
    · exact Extent.ContinuesAs.refl_upTo .string length
    · split
      · exact Extent.ContinuesAs.refl_upTo .char length
      · exact Extent.ContinuesAs.refl_upTo .errorChar length
  | continued => trivial
  | unterminated => trivial

theorem resume_continues {construct : Construct} (h : construct.KnownTo d) (cs rest : List Char) :
    Extent.ContinuesAs d cs rest (resume d construct cs) (resume d construct (joined cs rest)) := by
  cases construct with
  | comment depth doc => exact commentExtent_continues d depth doc cs rest
  | string => exact stringExtent_continues d cs rest
  | template => exact templateExtent_continues h cs rest

/-! What can start at a character starts there in the joined lines as well, and goes on as it does. -/

/-- What is found on the first line continues as what is found in the joined lines. -/
abbrev FoundContinues (d : Dialect) (cs rest : List Char) : Option Extent → Option Extent → Prop :=
  Option.Rel (Extent.ContinuesAs d cs rest)

theorem foundContinues_upTo (kind : Token.Kind) (length : Nat) :
    FoundContinues d cs rest (some (.upTo kind length)) (some (.upTo kind length)) :=
  .some (.refl_upTo kind length)

theorem foundContinues_orElse {x y x' y' : Option Extent} (hx : FoundContinues d cs rest x x')
    (hy : FoundContinues d cs rest y y') : FoundContinues d cs rest (x <|> y) (x' <|> y') := by
  cases hx with
  | some h => exact .some h
  | none => exact hy

/-- Blanks at the end of the first line are the one thing that a line end prolongs. -/
theorem blank?_continues : FoundContinues d cs rest (blank? c cs) (blank? c (joined cs rest)) := by
  unfold blank?
  split
  · exact .some fun hlt => by rw [Text.run_joined_of_lt hlt]
  · exact .none

theorem comment?_block (body : List Char) :
    comment? d '/' ('*' :: body) =
      some ((commentExtent d 1 (body.head? == some '*' && body[1]? != some '/') body).shift 1) :=
  rfl

theorem comment?_of_ne {x : Char} (hline : x ≠ '/') (hblock : x ≠ '*') (cs : List Char) :
    comment? d '/' (x :: cs) = none := by
  simp [comment?, hline, hblock]

theorem comment?_continues : FoundContinues d cs rest (comment? d c cs) (comment? d c (joined cs rest)) := by
  by_cases hc : c = '/'
  · subst hc
    cases cs with
    | nil => exact .none
    | cons x body =>
      rw [joined_cons]
      by_cases hline : x = '/'
      · subst hline
        exact .some trivial
      · by_cases hblock : x = '*'
        · subst hblock
          have hdoc : ((joined body rest).head? == some '*' && (joined body rest)[1]? != some '/') =
              (body.head? == some '*' && body[1]? != some '/') := by
            cases body with
            | nil => rfl
            | cons y body => cases body <;> rfl
          rw [comment?_block, comment?_block, hdoc]
          exact .some ((commentExtent_continues d 1 _ body rest).shift_one '*')
        · rw [comment?_of_ne hline hblock, comment?_of_ne hline hblock]
          exact .none
  · unfold comment?
    rw [if_neg hc, if_neg hc]
    exact .none

theorem isWordStart_lineEnd (d : Dialect) : d.isWordStart '\n' = false := by
  have halphabetic : Text.isAlphabetic '\n' = false := by decide
  simp [Dialect.isWordStart, halphabetic]

theorem isWordChar_lineEnd (d : Dialect) : d.isWordChar '\n' = false := by
  have halphanumeric : Text.isAlphanumeric '\n' = false := by decide
  simp [Dialect.isWordChar, halphanumeric]

theorem quoted?_continues : FoundContinues d cs rest (quoted? d c cs) (quoted? d c (joined cs rest)) := by
  have hlifetime :
      (d.lifetimes && (joined cs rest).head?.any d.isWordStart && (joined cs rest)[1]? != some '\x27') =
        (d.lifetimes && cs.head?.any d.isWordStart && cs[1]? != some '\x27') := by
    rw [head?_joined (isWordStart_lineEnd d)]
    cases cs with
    | nil => simp
    | cons x cs => cases cs <;> rfl
  unfold quoted?
  rw [hlifetime, run_joined (isWordChar_lineEnd d)]
  split
  · exact .some (stringExtent_continues d cs rest)
  · split
    · next htemplate => exact .some (templateExtent_continues htemplate.2 cs rest)
    · split
      · split
        · exact foundContinues_upTo ..
        · exact .some (singleQuoteExtent_continues d cs rest)
      · exact .none

theorem number?_continues : FoundContinues d cs rest (number? d c cs) (number? d c (joined cs rest)) := by
  unfold number?
  rw [head?_joined (p := Char.isDigit) (by decide), ← joined_cons, Number.scan_joined (isWordChar_lineEnd d)]
  split
  · exact foundContinues_upTo ..
  · exact .none

theorem wordKind_joined (word : List Char) {n : Nat} (hn : n ≤ cs.length) :
    wordKind d word ((joined cs rest).drop n).head? = wordKind d word (cs.drop n).head? := by
  rw [drop_joined hn]
  cases cs.drop n with
  | nil => rfl
  | cons x more => rfl

theorem word?_continues : FoundContinues d cs rest (word? d c cs) (word? d c (joined cs rest)) := by
  have hle := Text.run_le_length d.isWordChar cs
  unfold word?
  dsimp only
  rw [run_joined (isWordChar_lineEnd d), take_joined hle, wordKind_joined _ hle]
  split
  · exact foundContinues_upTo ..
  · exact .none

theorem directive?_continues :
    FoundContinues d cs rest (directive? d seen c cs) (directive? d seen c (joined cs rest)) := by
  unfold directive?
  rw [run_joined (by decide)]
  split
  · exact foundContinues_upTo ..
  · exact .none

theorem annotated?_continues :
    FoundContinues d cs rest (annotated? d c cs) (annotated? d c (joined cs rest)) := by
  unfold annotated?
  rw [run_joined (isWordChar_lineEnd d)]
  split
  · exact foundContinues_upTo ..
  · exact .none

theorem opensComment_joined (cs rest : List Char) : opensComment (joined cs rest) = opensComment cs := by
  rw [opensComment, opensComment, Text.isPrefixOf_joined (by decide), Text.isPrefixOf_joined (by decide)]

theorem operatorRest_joined (cs rest : List Char) : operatorRest (joined cs rest) = operatorRest cs := by
  induction cs with
  | nil => rfl
  | cons c cs ih => rw [joined_cons, operatorRest, operatorRest, ← joined_cons, opensComment_joined, ih]

theorem punctuation_continues (c : Char) (cs rest : List Char) :
    Extent.ContinuesAs d cs rest (punctuation c cs) (punctuation c (joined cs rest)) := by
  unfold punctuation
  rw [operatorRest_joined]
  split
  · exact Extent.ContinuesAs.refl_upTo .separator 0
  · split
    · exact Extent.ContinuesAs.refl_upTo .operator (operatorRest cs)
    · exact Extent.ContinuesAs.refl_upTo .errorWord 0

theorem pattern?_eq_none (hpatterns : d.patterns = false) (seen : List Char) (c : Char) (cs : List Char) :
    pattern? d seen c cs = none :=
  if_neg fun h => Bool.false_ne_true (hpatterns.symm.trans h.2.1)

/-- **What starts at a character of the first line** starts there in the joined lines, and goes on as the
second line does, if no slash opens a regular expression. -/
theorem next_continues (hpatterns : d.patterns = false) (seen : List Char) (c : Char) (cs rest : List Char) :
    Extent.ContinuesAs d cs rest (next d seen c cs) (next d seen c (joined cs rest)) := by
  have hpattern : FoundContinues d cs rest (pattern? d seen c cs) (pattern? d seen c (joined cs rest)) := by
    rw [pattern?_eq_none hpatterns, pattern?_eq_none hpatterns]
    exact .none
  have hfound : FoundContinues d cs rest
      (blank? c cs <|> comment? d c cs <|> pattern? d seen c cs <|> quoted? d c cs <|> number? d c cs <|>
        word? d c cs <|> directive? d seen c cs <|> annotated? d c cs)
      (blank? c (joined cs rest) <|> comment? d c (joined cs rest) <|> pattern? d seen c (joined cs rest) <|>
        quoted? d c (joined cs rest) <|> number? d c (joined cs rest) <|> word? d c (joined cs rest) <|>
        directive? d seen c (joined cs rest) <|> annotated? d c (joined cs rest)) :=
    foundContinues_orElse blank?_continues <| foundContinues_orElse comment?_continues <|
      foundContinues_orElse hpattern <| foundContinues_orElse quoted?_continues <|
      foundContinues_orElse number?_continues <| foundContinues_orElse word?_continues <|
      foundContinues_orElse directive?_continues annotated?_continues
  unfold next
  generalize (blank? c cs <|> _ : Option Extent) = found at hfound ⊢
  generalize (blank? c (joined cs rest) <|> _ : Option Extent) = found' at hfound ⊢
  cases hfound with
  | some h => exact h
  | none => exact punctuation_continues c cs rest

end Continues

end CFamily

end Linewise
