/-!
# Searching in a line

A scanner looks ahead in the characters it has not read yet. Three questions cover all of it: how long
is the run of characters of one class, does the rest start with a given text, and where does the
first suffix of a given form begin. Every answer is a number of characters counted from the front.
-/

namespace Linewise.Text

/-- Number of characters at the front that satisfy `p`. -/
def run (p : Char → Bool) (cs : List Char) : Nat := (cs.takeWhile p).length

/-- Number of characters in front of the first non-empty suffix that satisfies `p`. -/
def firstSuffix? (p : List Char → Bool) : List Char → Option Nat
  | [] => none
  | c :: cs => if p (c :: cs) then some 0 else (firstSuffix? p cs).map (· + 1)

/-- Number of characters in front of the first occurrence of `pat`, which is not empty. -/
def find? (pat cs : List Char) : Option Nat := firstSuffix? pat.isPrefixOf cs

/-- Whether a text starts with `pat`, in lower case, when its ASCII capitals are read as small. -/
def startsWithFolded : (pat cs : List Char) → Bool
  | [], _ => true
  | _ :: _, [] => false
  | p :: pat, c :: cs => c.toLower == p && startsWithFolded pat cs

theorem run_le_length (p : Char → Bool) (cs : List Char) : run p cs ≤ cs.length :=
  (cs.takeWhile_sublist p).length_le

theorem take_run (p : Char → Bool) (cs : List Char) : cs.take (run p cs) = cs.takeWhile p := by
  induction cs with
  | nil => rfl
  | cons c cs ih =>
    by_cases h : p c = true <;> simp_all [run]

theorem drop_run (p : Char → Bool) (cs : List Char) : cs.drop (run p cs) = cs.dropWhile p := by
  induction cs with
  | nil => rfl
  | cons c cs ih =>
    by_cases h : p c = true <;> simp_all [run]

/-- A text starts with another one, ASCII capitals read as small, if its first characters are that text. -/
theorem startsWithFolded_iff {pat cs : List Char} :
    startsWithFolded pat cs = true ↔ pat <+: cs.map Char.toLower := by
  induction pat generalizing cs with
  | nil => simp [startsWithFolded]
  | cons p pat ih =>
    cases cs with
    | nil => simp [startsWithFolded]
    | cons c cs =>
      rw [startsWithFolded, Bool.and_eq_true, beq_iff_eq, ih, List.map_cons, List.cons_prefix_cons, eq_comm]

theorem firstSuffix?_eq_some {p : List Char → Bool} {cs : List Char} {n : Nat}
    (h : firstSuffix? p cs = some n) : n < cs.length ∧ p (cs.drop n) = true := by
  induction cs generalizing n with
  | nil => simp [firstSuffix?] at h
  | cons c cs ih =>
    unfold firstSuffix? at h
    split at h
    · next hp => cases h; simpa using hp
    · obtain ⟨m, hm, rfl⟩ := Option.map_eq_some_iff.1 h
      have := ih hm
      simpa using this

theorem add_length_le_of_find? {pat cs : List Char} {n : Nat} (h : find? pat cs = some n) :
    n + pat.length ≤ cs.length := by
  obtain ⟨hlt, hpat⟩ := firstSuffix?_eq_some h
  have hle := (List.isPrefixOf_iff_prefix.1 hpat).length_le
  rw [List.length_drop] at hle
  omega

end Linewise.Text
