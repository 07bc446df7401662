import Linewise.Failure
import Linewise.Language

/-!
# Registries

A registry maps the identifiers of languages to scanners. Its entries are kept in the order of their
identifiers, each of which occurs once.
-/

namespace Linewise

/-- The scanners that can be chosen. -/
structure Registry where
  entries : List (String × Scanner)

namespace Registry

/-- No languages. -/
def empty : Registry := ⟨[]⟩

/-- Puts a scanner at its place among entries, in the stead of an earlier one of the same identifier. -/
def insertEntry (id : String) (scanner : Scanner) :
    List (String × Scanner) → List (String × Scanner)
  | [] => [(id, scanner)]
  | e :: es =>
    if id = e.1 then (id, scanner) :: es
    else if id < e.1 then (id, scanner) :: e :: es
    else e :: insertEntry id scanner es

/-- Registers a scanner. -/
def register (r : Registry) (id : String) (scanner : Scanner) : Registry :=
  ⟨insertEntry id scanner r.entries⟩

/-- Every built-in language. -/
def builtin : Registry := Language.all.foldl (fun r l => r.register l.id l.scanner) empty

/-- The scanner of an identifier, if there is one. -/
def find? (r : Registry) (id : String) : Option Scanner :=
  (r.entries.find? fun e => e.1 == id).map (·.2)

/-- The scanner of an identifier. -/
def get (r : Registry) (id : String) : Except Failure Scanner :=
  match r.find? id with
  | some scanner => .ok scanner
  | none => .error (.unknownLanguage id)

/-- Whether an identifier is registered. -/
def contains (r : Registry) (id : String) : Bool := (r.find? id).isSome

/-- The registered identifiers, in order. -/
def ids (r : Registry) : List String := r.entries.map (·.1)

end Registry

end Linewise
