import Linewise.Proofs.NumberTexts
import Linewise.Proofs.TokenOrigins
import Mathlib.Data.List.Basic

/-!
# Numbers with a type

In Rust the name of a number type may follow the digits of a number. The scan knows nothing of these names: it takes
letters of a small set and then a width of digits for a suffix, and whatever else is glued to it spoils the number
(`Number.scan_typed`). The number is read as a whole either way, but it is well formed only if the name is one letter
in front of a width, which the names of the two machine-sized types are not.

* `typed_number_isError_iff`: **which numbers with a type are read as malformed**.
-/

namespace Linewise

namespace Text

theorem run_append {p : Char → Bool} {front rest : List Char} (hfront : ∀ c ∈ front, p c = true)
    (hrest : ∀ c ∈ rest.head?, p c = false) : run p (front ++ rest) = front.length := by
  rw [run, List.takeWhile_append_of_pos hfront]
  cases rest with
  | nil => simp
  | cons c rest => simp [hrest c rfl]

theorem exists_run_append (p : Char → Bool) (cs : List Char) :
    ∃ front rest, cs = front ++ rest ∧ (∀ c ∈ front, p c = true) ∧ ∀ c ∈ rest.head?, p c = false :=
  ⟨cs.take (run p cs), cs.drop (run p cs), (List.take_append_drop ..).symm, fun _ => of_mem_take_run,
    fun _ => of_mem_head?_drop_run⟩

end Text

namespace CFamily

open Token (Kind)

namespace Number

variable {ds more rest : List Char} {letter : Char} {isWordChar : Char → Bool}

/-- In front of a character that carries no number on, the digits are all there is of it. -/
theorem unsuffixed_append (hdigit : ds.head?.any Char.isDigit = true) (hds : ∀ c ∈ ds, isDecimalChar c = true)
    (hrest : ∀ c ∈ rest.head?, isDecimalChar c = false ∧ c ∉ ['.', 'e', 'E', 'x', 'X']) :
    unsuffixed (ds ++ rest) = ⟨.decimal, ds.length⟩ := by
  have hdigits : digits Char.isDigit (ds ++ rest) = ds.length := Text.run_append hds fun c hc => (hrest c hc).1
  have hdrop : (ds ++ rest).drop ds.length = rest := List.drop_left
  have hdecimal : decimal (ds ++ rest) = ⟨.decimal, ds.length⟩ := by
    rw [decimal, hdigits, withFraction_of_ne]
    · unfold withExponent
      rw [hdrop]
      cases rest with
      | nil => rfl
      | cons c rest =>
        have hc := (hrest c rfl).2
        dsimp only
        rw [if_neg]
        rintro (rfl | rfl)
        · exact hc (by decide)
        · exact hc (by decide)
    · intro hpoint
      rw [hdrop] at hpoint
      exact (hrest '.' hpoint).2 (by decide)
  obtain ⟨d, ds, rfl⟩ : ∃ d ds', ds = d :: ds' := by
    cases ds with
    | nil => cases hdigit
    | cons d ds => exact ⟨d, ds, rfl⟩
  rw [List.cons_append, unsuffixed_of_decimal, ← List.cons_append, hdecimal]
  rintro ⟨-, hx⟩
  obtain ⟨x, hhead, hx⟩ := (Option.any_eq_true ..).mp hx
  have hletter : x = 'x' ∨ x = 'X' := by simpa [InPlace.startsHexadecimal] using hx
  cases ds with
  | nil =>
    refine (hrest x hhead).2 ?_
    rcases hletter with rfl | rfl <;> decide
  | cons y ds =>
    obtain rfl := Option.some.inj hhead
    have hy := hds y (by simp)
    rcases hletter with rfl | rfl <;> exact absurd hy (by decide)

theorem withSuffix_append {width : List Char} (hletter : isSuffixLetter letter = true)
    (hwidth : ∀ c ∈ width, c.isDigit = true) (hbehind : ∀ c ∈ (width ++ rest).head?, isSuffixLetter c = false)
    (hrest : ∀ c ∈ rest.head?, c.isDigit = false) :
    withSuffix (ds ++ letter :: (width ++ rest)) ⟨.decimal, ds.length⟩ =
      ⟨if isFloatSuffix letter then .float else .decimal, ds.length + 1 + width.length⟩ := by
  have hletters : Text.run isSuffixLetter ([letter] ++ (width ++ rest)) = [letter].length :=
    Text.run_append (by simpa using hletter) hbehind
  have hdrop : (letter :: (width ++ rest)).drop 1 = width ++ rest := rfl
  rw [withSuffix, if_neg (show ¬ Kind.decimal = .errorNumber by decide)]
  dsimp only
  rw [List.drop_left, show Text.run isSuffixLetter (letter :: (width ++ rest)) = 1 from hletters, hdrop,
    Text.run_append hwidth hrest]
  simp

/-- What is glued to a number spoils it. -/
theorem withGlued_append {front glued : List Char} {kind : Kind} (hglued : ∀ c ∈ glued, isWordChar c = true)
    (hrest : ∀ c ∈ rest.head?, isWordChar c = false) :
    withGlued isWordChar (front ++ (glued ++ rest)) ⟨kind, front.length⟩ =
      ⟨if glued = [] then kind else .errorNumber, front.length + glued.length⟩ := by
  rw [withGlued]
  dsimp only
  rw [List.drop_left, Text.run_append hglued hrest]
  by_cases hnil : glued = []
  · simp [hnil]
  · rw [if_neg (mt List.length_eq_zero_iff.mp hnil), if_neg hnil]

/-- **A number with a letter and more behind its digits** is read to the end of it. It is well formed if what
follows the letter is a width. -/
theorem scan_typed (hdigit : ds.head?.any Char.isDigit = true) (hds : ∀ c ∈ ds, isDecimalChar c = true)
    (hletter : isSuffixLetter letter = true) (hne : more ≠ []) (hmore : ∀ c ∈ more.head?, isSuffixLetter c = false)
    (hword : ∀ c ∈ more, isWordChar c = true) (hnumeral : ∀ c, c.isDigit = true → isWordChar c = true)
    (hrest : ∀ c ∈ rest.head?, isWordChar c = false) :
    scan isWordChar (ds ++ letter :: (more ++ rest)) =
      ⟨if more.all Char.isDigit = false then .errorNumber else if isFloatSuffix letter then .float else .decimal,
        ds.length + 1 + more.length⟩ := by
  -- The width is what `more` starts with; the rest of `more` is glued to it.
  obtain ⟨width, glued, rfl, hwidth, hglued⟩ := Text.exists_run_append Char.isDigit more
  have hstop : ∀ c ∈ (glued ++ rest).head?, c.isDigit = false := by
    intro c hc
    cases glued with
    | nil => exact Bool.eq_false_iff.mpr fun hnum => Bool.noConfusion ((hrest c hc).symm.trans (hnumeral c hnum))
    | cons x glued => exact hglued c hc
  have hhead : ∀ c ∈ (width ++ (glued ++ rest)).head?, isSuffixLetter c = false := by
    intro c hc
    rw [← List.append_assoc, List.head?_append, List.head?_eq_some_head hne, Option.some_or,
      ← List.head?_eq_some_head hne] at hc
    exact hmore c hc
  have hletters : ∀ c ∈ ['u', 'U', 'l', 'L', 'f', 'F', 'd', 'D', 'i'],
      isDecimalChar c = false ∧ c ∉ ['.', 'e', 'E', 'x', 'X'] := List.forall_iff_forall_mem.mp (by decide)
  have hunsuffixed : unsuffixed (ds ++ letter :: (width ++ (glued ++ rest))) = ⟨.decimal, ds.length⟩ :=
    unsuffixed_append hdigit hds fun c hc =>
      hletters c (by obtain rfl := Option.some.inj hc; simpa [isSuffixLetter] using hletter)
  have hall : (width ++ glued).all Char.isDigit = false ↔ glued ≠ [] := by
    rw [List.all_append, List.all_eq_true.mpr hwidth, Bool.true_and]
    cases glued with
    | nil => simp
    | cons x glued => simp [hglued x rfl]
  have hlength : (ds ++ letter :: width).length = ds.length + 1 + width.length := by
    rw [List.length_append, List.length_cons]
    omega
  have hgluedWord : ∀ c ∈ glued, isWordChar c = true := fun c hc => hword c (List.mem_append_right _ hc)
  calc scan isWordChar (ds ++ letter :: (width ++ glued ++ rest))
      = withGlued isWordChar ((ds ++ letter :: width) ++ (glued ++ rest))
          ⟨if isFloatSuffix letter then .float else .decimal, (ds ++ letter :: width).length⟩ := by
        rw [scan, List.append_assoc width, hunsuffixed, withSuffix_append hletter hwidth hhead hstop, hlength,
          List.append_assoc ds, List.cons_append]
    _ = ⟨if glued = [] then if isFloatSuffix letter then .float else .decimal else .errorNumber,
          (ds ++ letter :: width).length + glued.length⟩ := withGlued_append hgluedWord hrest
    _ = _ := by
        rw [hlength, Nat.add_assoc, ← List.length_append]
        by_cases hnil : glued = []
        · rw [if_pos hnil, if_neg (fun hfalse => hall.mp hfalse hnil)]
        · rw [if_neg hnil, if_pos (hall.mpr hnil)]

end Number

/-! ### Tokens -/

/-- The names of the types that a number of Rust can have: all type names of the dialect but those of truth values,
characters and strings. -/
def Dialect.numberTypes : List String :=
  rust.typeNames.filter (· ∉ ["bool", "char", "str", "String"])

example : Dialect.numberTypes =
    ["f32", "f64", "i8", "i16", "i32", "i64", "i128", "isize", "u8", "u16", "u32", "u64", "u128", "usize"] := by
  decide +kernel

/-- The name of a number type is a letter of a suffix, and behind it a width, unless the machine sets the width. -/
theorem exists_letter_of_mem_numberTypes {name : String} (h : name ∈ Dialect.numberTypes) :
    ∃ letter more, name.toList = letter :: more ∧ Number.isSuffixLetter letter = true ∧ more ≠ [] ∧
      (∀ x ∈ more.head?, Number.isSuffixLetter x = false) ∧ (∀ x ∈ more, Dialect.rust.isWordChar x = true) ∧
      (more.all Char.isDigit = false ↔ name = "isize" ∨ name = "usize") := by
  have hall : ∀ name ∈ Dialect.numberTypes, name.toList.head?.any Number.isSuffixLetter = true ∧
      name.toList.tail ≠ [] ∧ name.toList.tail.head?.any Number.isSuffixLetter = false ∧
      name.toList.tail.all Dialect.rust.isWordChar = true ∧
      (name.toList.tail.all Char.isDigit = false ↔ name = "isize" ∨ name = "usize") := by
    decide +kernel
  obtain ⟨hletter, hne, hmore, hword, hwidth⟩ := hall name h
  obtain ⟨letter, hhead, hletter⟩ := (Option.any_eq_true ..).mp hletter
  obtain ⟨more, htext⟩ := List.head?_eq_some_iff.mp hhead
  rw [htext, List.tail_cons] at hne hmore hword hwidth
  exact ⟨letter, more, htext, hletter, hne, (Option.any_eq_false ..).mp hmore, List.all_eq_true.mp hword, hwidth⟩

section Tokens
variable {d : Dialect} {seen line cs ds rest : List Char} {c : Char} {t : Token} {initial : LineState}
  {lineStart : UInt64} {name : String}

theorem next_of_isDigit (hc : c.isDigit = true) (seen cs : List Char) :
    next d seen c cs =
      .upTo (Number.scan d.isWordChar (c :: cs)).kind ((Number.scan d.isWordChar (c :: cs)).length - 1) := by
  have hne {x : Char} (hx : x.isDigit = false) : c ≠ x := by
    rintro rfl
    exact Bool.noConfusion (hx.symm.trans hc)
  have hblank : blank? c cs = none := by
    refine if_neg fun hblank => ?_
    exact Bool.noConfusion
      ((Text.isAlphanumeric_eq_false_of_isBlank hblank).symm.trans (Text.isAlphanumeric_of_isDigit hc))
  have hcomment : comment? d c cs = none := if_neg (hne (by decide))
  have hpattern : pattern? d seen c cs = none := if_neg fun h => hne (by decide) h.1
  have hquoted : quoted? d c cs = none := by
    rw [quoted?, if_neg (hne (by decide)), if_neg fun h => hne (by decide) h.1, if_neg (hne (by decide))]
  have hnumber : number? d c cs = some (.upTo (Number.scan d.isWordChar (c :: cs)).kind
      ((Number.scan d.isWordChar (c :: cs)).length - 1)) := by
    rw [number?, hc, Bool.true_or, if_pos rfl]
  rw [next, hblank, hcomment, hpattern, hquoted, hnumber]
  rfl

theorem Resumed.isComment_or_isStringLike {construct : Construct} (h : Resumed d initial line t construct) :
    t.kind.isComment = true ∨ t.kind.isStringLike = true := by
  rw [h.kind_eq]
  cases construct with
  | comment depth doc =>
    rw [show (resume d (.comment depth doc) line).kind = commentKind doc from kind_commentExtent ..]
    cases doc <;> decide
  | string =>
    have hall : ∀ k ∈ [Kind.string, .errorString], k.isComment = true ∨ k.isStringLike = true := by decide
    exact hall _ (kind_stringExtent d line)
  | template =>
    rw [show (resume d .template line).kind = .template from kind_templateExtent line]
    decide

theorem eq_scan_of_isDigit (ht : t ∈ ((scanner d).tokenize line initial lineStart).tokens)
    (hcomment : t.kind.isComment = false) (hstring : t.kind.isStringLike = false)
    (hline : line.drop t.start = c :: cs) (hc : c.isDigit = true) :
    Number.scan d.isWordChar (c :: cs) = ⟨t.kind, t.length⟩ := by
  rcases origin_of_mem ht with ⟨construct, hresumed⟩ | ⟨x, rest, horigin⟩
  · rcases hresumed.isComment_or_isStringLike with h | h
    · exact Bool.noConfusion (hcomment.symm.trans h)
    · exact Bool.noConfusion (hstring.symm.trans h)
  · obtain ⟨rfl, rfl⟩ := List.cons.inj (horigin.drop_start.symm.trans hline)
    have hkind := horigin.kind_eq
    have hlength := horigin.length_eq
    rw [next_of_isDigit hc] at hkind hlength
    have hpos : 0 < (Number.scan d.isWordChar (x :: rest)).length := Number.length_scan_pos d.isWordChar (Or.inl hc)
    rw [hkind, hlength]
    exact congrArg (Number.mk _) (Nat.sub_add_cancel hpos).symm

/-- **Which numbers with a type are read as malformed.** Whatever the line and the state in front of it, where digits
and the name of a number type stand outside of comments and literals, in front of no further character of a word, they
are one token and a number. It is malformed just if the type is one of the two of the size of the machine. -/
theorem typed_number_isError_iff (ht : t ∈ ((scanner .rust).tokenize line initial lineStart).tokens)
    (hcomment : t.kind.isComment = false) (hstring : t.kind.isStringLike = false)
    (hline : line.drop t.start = ds ++ name.toList ++ rest) (hdigit : ds.head?.any Char.isDigit = true)
    (hds : ∀ c ∈ ds, c.isDigit = true ∨ c = '_') (hname : name ∈ Dialect.numberTypes)
    (hrest : ∀ c ∈ rest.head?, Dialect.rust.isWordChar c = false) :
    t.length = (ds ++ name.toList).length ∧ t.kind ∈ Number.kinds ∧
      (t.kind.isError = true ↔ name = "isize" ∨ name = "usize") := by
  obtain ⟨letter, more, hletters, hletter, hne, hmore, hword, hwidth⟩ := exists_letter_of_mem_numberTypes hname
  obtain ⟨c, hhead, hc⟩ := (Option.any_eq_true ..).mp hdigit
  obtain ⟨cs, rfl⟩ := List.head?_eq_some_iff.mp hhead
  have hdecimal : ∀ x ∈ c :: cs, Number.isDecimalChar x = true := by
    intro x hx
    simpa [Number.isDecimalChar] using hds x hx
  have htext : line.drop t.start = c :: (cs ++ letter :: (more ++ rest)) := by
    rw [hline, hletters]
    simp
  have hnumeral (x : Char) (hx : x.isDigit = true) : Dialect.rust.isWordChar x = true := by
    rw [Dialect.isWordChar, Text.isAlphanumeric_of_isDigit hx, Bool.true_or, Bool.true_or]
  have hscan := Number.scan_typed hdigit hdecimal hletter hne hmore hword hnumeral hrest
  rw [List.cons_append, eq_scan_of_isDigit ht hcomment hstring htext hc] at hscan
  obtain ⟨hkind, hlength⟩ := Number.mk.inj hscan
  refine ⟨?_, ?_, ?_⟩
  · rw [hlength, hletters]
    simp only [List.length_append, List.length_cons]
    omega
  · rw [hkind]
    split_ifs <;> decide
  · rw [hkind, ← hwidth]
    split_ifs with hspoilt hfloat
    · exact iff_of_true rfl hspoilt
    · exact iff_of_false (by decide) hspoilt
    · exact iff_of_false (by decide) hspoilt

/-- A number of a type with a width, with underscores, behind an operator. -/
theorem typed_number_isError_iff_width :
    let line := "x=1_0u64;".toList
    let t : Token := ⟨.decimal, 2, 6, 2, 0, false⟩
    t ∈ ((scanner .rust).tokenize line .neutral 0).tokens ∧ t.kind.isComment = false ∧
      t.kind.isStringLike = false ∧ line.drop t.start = ['1', '_', '0'] ++ "u64".toList ++ [';'] ∧
      ['1', '_', '0'].head?.any Char.isDigit = true ∧ (∀ c ∈ ['1', '_', '0'], c.isDigit = true ∨ c = '_') ∧
      "u64" ∈ Dialect.numberTypes ∧ (∀ c ∈ [';'].head?, Dialect.rust.isWordChar c = false) ∧
      t.length = (['1', '_', '0'] ++ "u64".toList).length ∧ t.kind ∈ Number.kinds ∧
      (t.kind.isError = true ↔ "u64" = "isize" ∨ "u64" = "usize") := by
  intro line t
  have ht : t ∈ ((scanner .rust).tokenize line .neutral 0).tokens := by decide +kernel
  have hline : line.drop t.start = ['1', '_', '0'] ++ "u64".toList ++ [';'] := by decide +kernel
  have hname : "u64" ∈ Dialect.numberTypes := by decide +kernel
  have hdigits : ∀ c ∈ ['1', '_', '0'], c.isDigit = true ∨ c = '_' := List.forall_iff_forall_mem.mp (by decide)
  have hrest : ∀ c ∈ [';'].head?, Dialect.rust.isWordChar c = false := by
    intro c hc
    obtain rfl := Option.some.inj hc
    decide +kernel
  exact ⟨ht, rfl, rfl, hline, rfl, hdigits, hname, hrest,
    typed_number_isError_iff ht rfl rfl hline rfl hdigits hname hrest⟩

/-- **A number whose type is of the size of the machine is read as malformed.** -/
theorem typed_number_read_as_malformed :
    ((scanner .rust).tokenize "1usize".toList .neutral 0).tokens = [⟨.errorNumber, 0, 6, 0, 0, false⟩] ∧
      "usize" ∈ Dialect.numberTypes := by
  decide +kernel

end Tokens

end CFamily

end Linewise
