/-!
# Values of a TOML document

A document is a tree of tables. A table can come into being in three ways: by a header, by being passed
through on the way to a header's table, and by dotted keys. Which of them it was decides what may be
added later: no table is given two headers, and no key two values. What a value holds is kept only
where a setting could take it.
-/

namespace Linewise.Toml

/-- A value. -/
inductive Value where
  | string (text : String)
  | integer (n : Int)
  | boolean (b : Bool)
  /-- A number with a fraction or an exponent, an infinity, or not a number. -/
  | float
  /-- A date, a time, or both. -/
  | moment
  | array
  | inlineTable
  deriving DecidableEq, Repr

/-- What a key stands for. -/
inductive Item where
  | value (v : Value)
  /-- A table: `implicit` until a header names it, and `dotted` if dotted keys made it. -/
  | table (implicit dotted : Bool) (entries : List (String × Item))
  /-- An array of tables, of which only the last one can still grow. -/
  | tables (last : List (String × Item))

/-- The keys of a table and what they stand for. -/
abbrev Entries := List (String × Item)

namespace Entries

/-- What a key stands for. -/
def get? (es : Entries) (key : String) : Option Item := List.lookup key es

/-- A table without a key. -/
def remove (es : Entries) (key : String) : Entries := es.filter fun e => e.1 != key

/-- Gives a key its meaning, in the stead of an earlier one. -/
def put (es : Entries) (key : String) (item : Item) : Entries := (key, item) :: es.remove key

/-- Adds a value under a dotted key, whose parts before the last are `path`. Of the tables on the way,
none may have been named by a header; the one that takes the value must be made by dotted keys, unless
it is the table the path starts from. -/
def putValue (es : Entries) (path : List String) (key : String) (v : Value) (mayEnd : Bool) :
    Option Entries :=
  match path with
  | [] => if mayEnd && (get? es key).isNone then some (es.put key (.value v)) else none
  | p :: ps =>
    match get? es p with
    | none => (putValue [] ps key v true).map fun inner => es.put p (.table true true inner)
    | some (.table implicit dotted inner) =>
      if !implicit then none
      else (putValue inner ps key v dotted).map fun inner => es.put p (.table implicit dotted inner)
    | some (.tables last) => (putValue last ps key v false).map fun last => es.put p (.tables last)
    | some (.value _) => none

/-- Changes the table that the parts of a header before its last one lead to. Tables that are not there
are made on the way. -/
def alter {α : Type} (es : Entries) (path : List String) (f : Entries → Option (Entries × α)) :
    Option (Entries × α) :=
  match path with
  | [] => f es
  | p :: ps =>
    match get? es p with
    | none => (alter [] ps f).map fun (inner, a) => (es.put p (.table true false inner), a)
    | some (.table implicit dotted inner) =>
      (alter inner ps f).map fun (inner, a) => (es.put p (.table implicit dotted inner), a)
    | some (.tables last) => (alter last ps f).map fun (last, a) => (es.put p (.tables last), a)
    | some (.value _) => none

end Entries

/-- A document while it is being read: the tables that are complete, and the one under the last
header. -/
structure Draft where
  root : Entries
  /-- The header: the parts before the last one, and the last one. Before the first header there is
  none. -/
  header : Option (List String × String)
  /-- Whether the header is that of an array of tables. -/
  inArray : Bool
  /-- The table under the header. -/
  current : Entries

namespace Draft

/-- Nothing has been read. -/
def start : Draft := ⟨[], none, false, []⟩

/-- Puts the table under the last header in its place. -/
def close (d : Draft) : Option Entries :=
  match d.header with
  | none => some d.current
  | some (path, key) =>
    (d.root.alter path fun es =>
      match es.get? key, d.inArray with
      | none, true | some (.tables _), true => some (es.put key (.tables d.current), ())
      | none, false => some (es.put key (.table false false d.current), ())
      | some (.table true _ _), false => some (es.put key (.table false false d.current), ())
      | _, _ => none).map (·.1)

/-- Starts the table of a header. A table that was only passed through so far keeps what it holds. -/
def openTable (d : Draft) (path : List String) (key : String) : Option Draft := do
  let root ← d.close
  let (root, current) ← root.alter path fun es =>
    match es.get? key with
    | none => some (es, [])
    | some (.table true false inner) => some (es.remove key, inner)
    | _ => none
  return ⟨root, some (path, key), false, current⟩

/-- Starts another table of an array of tables. -/
def openArrayTable (d : Draft) (path : List String) (key : String) : Option Draft := do
  let root ← d.close
  let (root, _) ← root.alter path fun es =>
    match es.get? key with
    | none | some (.tables _) => some (es, ())
    | _ => none
  return ⟨root, some (path, key), true, []⟩

/-- Adds a value to the table under the last header. -/
def putValue (d : Draft) (path : List String) (key : String) (v : Value) : Option Draft := do
  let current ← d.current.putValue path key v true
  return { d with current := current }

end Draft

end Linewise.Toml
