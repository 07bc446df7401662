import Linewise.CFamily.Bounds

/-!
# Marks that close

A comment, a quoted literal or a regular expression that ends on its line ends with the mark that closes it
(`CFamily.Extent.ClosedBy`).
-/

namespace Linewise.CFamily

section Ends
variable {cs : List Char} {n : Nat} {x : Char}

theorem getLast?_take_append (front : List Char) (h : (cs.take n).getLast? = some x) :
    ((front ++ cs).take (front.length + n)).getLast? = some x := by
  rw [List.take_length_add_append, List.getLast?_append, h, Option.some_or]

theorem getLast?_take_of_nestedEnd {depth : Nat} (h : nestedEnd depth cs = .closed n) :
    (cs.take n).getLast? = some '/' := by
  fun_induction nestedEnd depth cs generalizing n with
  | case1 => cases h
  | case2 depth cs _ =>
    obtain rfl := CommentEnd.closed.inj h
    rfl
  | case3 depth cs _ ih =>
    obtain ⟨length, hlength, rfl⟩ := CommentEnd.shift_eq_closed h
    exact getLast?_take_append ['*', '/'] (ih hlength)
  | case4 depth cs ih =>
    obtain ⟨length, hlength, rfl⟩ := CommentEnd.shift_eq_closed h
    exact getLast?_take_append ['/', '*'] (ih hlength)
  | case5 depth c cs _ _ ih =>
    obtain ⟨length, hlength, rfl⟩ := CommentEnd.shift_eq_closed h
    exact getLast?_take_append [c] (ih hlength)

theorem getLast?_take_of_flatEnd {depth : Nat} (h : flatEnd depth cs = .closed n) :
    (cs.take n).getLast? = some '/' := by
  unfold flatEnd at h
  split at h
  · next i hfind =>
    obtain rfl := CommentEnd.closed.inj h
    obtain ⟨tail, htail⟩ := List.isPrefixOf_iff_prefix.1 (Text.firstSuffix?_eq_some hfind).2
    rw [List.take_add, List.getLast?_append, ← htail]
    rfl
  · cases h

theorem getLast?_take_of_commentEnd {d : Dialect} {depth : Nat} (h : commentEnd d depth cs = .closed n) :
    (cs.take n).getLast? = some '/' := by
  unfold commentEnd at h
  split at h
  · exact getLast?_take_of_nestedEnd h
  · exact getLast?_take_of_flatEnd h

theorem getLast?_take_of_quoteEnd {quote : Char} {continuable : Bool}
    (h : quoteEnd quote continuable cs = .closed n) : (cs.take n).getLast? = some quote := by
  fun_induction quoteEnd quote continuable cs generalizing n with
  | case1 => cases h
  | case2 => cases h
  | case3 => cases h
  | case4 c cs ih =>
    obtain ⟨length, hlength, rfl⟩ := QuoteEnd.shift_eq_closed h
    exact getLast?_take_append ['\x5c', c] (ih hlength)
  | case5 cs _ _ =>
    obtain rfl := QuoteEnd.closed.inj h
    rfl
  | case6 c cs _ _ _ ih =>
    obtain ⟨length, hlength, rfl⟩ := QuoteEnd.shift_eq_closed h
    exact getLast?_take_append [c] (ih hlength)

theorem Pattern.getLast?_take_of_close? {inClass : Bool} (h : close? inClass cs = some n) :
    (cs.take n).getLast? = some '/' := by
  fun_induction close? inClass cs generalizing n with
  | case1 => cases h
  | case2 => cases h
  | case3 inClass c cs ih =>
    obtain ⟨m, hm, rfl⟩ := Option.map_eq_some_iff.1 h
    rw [Nat.add_comm]
    exact getLast?_take_append ['\x5c', c] (ih hm)
  | case4 inClass cs _ _ ih =>
    obtain ⟨m, hm, rfl⟩ := Option.map_eq_some_iff.1 h
    rw [Nat.add_comm]
    exact getLast?_take_append ['['] (ih hm)
  | case5 inClass cs _ _ _ ih =>
    obtain ⟨m, hm, rfl⟩ := Option.map_eq_some_iff.1 h
    rw [Nat.add_comm]
    exact getLast?_take_append [']'] (ih hm)
  | case6 inClass c cs _ _ _ _ hslash =>
    obtain rfl := Option.some.inj h
    rw [hslash.1]
    rfl
  | case7 inClass c cs _ _ _ _ _ ih =>
    obtain ⟨m, hm, rfl⟩ := Option.map_eq_some_iff.1 h
    rw [Nat.add_comm]
    exact getLast?_take_append [c] (ih hm)

end Ends

/-! ### Extents -/

/-- **An extent that ends on its line** ends with a given character. -/
def Extent.ClosedBy (x : Char) (cs : List Char) : Extent → Prop
  | .upTo _ length => (cs.take length).getLast? = some x
  | .toEnd _ _ => True

theorem Extent.ClosedBy.shift {x : Char} {cs : List Char} {e : Extent} (h : e.ClosedBy x cs) (front : List Char) :
    (e.shift front.length).ClosedBy x (front ++ cs) := by
  cases e with
  | upTo kind length => exact getLast?_take_append front h
  | toEnd kind left => trivial

section Closed
variable (d : Dialect) (cs : List Char)

theorem closedBy_commentExtent (depth : Nat) (doc : Bool) : (commentExtent d depth doc cs).ClosedBy '/' cs := by
  unfold commentExtent
  split
  · next n h => exact getLast?_take_of_commentEnd h
  · trivial

theorem closedBy_stringExtent : (stringExtent d cs).ClosedBy '\x22' cs := by
  unfold stringExtent
  split
  · next n h => exact getLast?_take_of_quoteEnd h
  · trivial
  · split <;> trivial

theorem closedBy_templateExtent : (templateExtent cs).ClosedBy '\x60' cs := by
  unfold templateExtent
  split
  · next n h => exact getLast?_take_of_quoteEnd h
  · trivial

theorem closedBy_singleQuoteExtent : (singleQuoteExtent d cs).ClosedBy '\x27' cs := by
  unfold singleQuoteExtent
  split
  · next n h =>
    have hlast := getLast?_take_of_quoteEnd h
    split
    · exact hlast
    · split <;> exact hlast
  · trivial

theorem exists_closedBy_resume (construct : Construct) :
    ∃ x ∈ ['/', '\x22', '\x60'], (resume d construct cs).ClosedBy x cs := by
  cases construct with
  | comment depth doc => exact ⟨_, by decide, closedBy_commentExtent d cs depth doc⟩
  | string => exact ⟨_, by decide, closedBy_stringExtent d cs⟩
  | template => exact ⟨_, by decide, closedBy_templateExtent cs⟩

end Closed

end Linewise.CFamily
