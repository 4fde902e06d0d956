/-!
# ForgeChores.Toml

TOML values and how the lines of a document put them together.

A table remembers how it came to be, because that decides what may still be added to it: a header
opens a table once, a table that was only implied by a longer header may still get a header of its
own, one that was made by dotted keys only grows by dotted keys, and an inline table is complete.
-/

namespace ForgeChores
namespace Toml

/-- How a table came to be. -/
inductive Origin where
  | header
  | implied
  | dotted
  | inline
deriving DecidableEq

inductive Value where
  | string (s : String)
  | integer (n : Int)
  /-- A float, a boolean or a date. -/
  | other
  | array (items : List Value)
  | table (origin : Origin) (entries : List (String × Value))
  /-- Tables under a header with double brackets. -/
  | tables (elements : List (List (String × Value)))

abbrev Entries := List (String × Value)

/-- A table and how it came to be. -/
structure Table where
  origin : Origin
  entries : Entries

/-- Replaces the value of a key, or adds it at the end. -/
def put (key : String) (v : Value) : Entries → Entries
  | [] => [(key, v)]
  | (k, w) :: rest => if k = key then (key, v) :: rest else (k, w) :: put key v rest

/-- Changes the last of several tables. -/
def changeLast (change : Entries → Option Entries) : List Entries → Option (List Entries)
  | [] => none
  | [t] => do return [← change t]
  | t :: rest => do return t :: (← changeLast change rest)

/-- Changes the table that `path` leads to and makes the missing ones on the way. A path through
an array of tables goes to the last of them. Dotted keys stay out of tables with a header. -/
def alter (dotted : Bool) (change : Table → Option Table) :
    (path : List String) → Table → Option Table
  | [], t => change t
  | key :: path, t =>
    match t.entries.lookup key with
    | none => do
      let new ← alter dotted change path ⟨if dotted then .dotted else .implied, []⟩
      return { t with entries := put key (.table new.origin new.entries) t.entries }
    | some (.table origin entries) =>
      if origin = .inline || (dotted && origin = .header) then none
      else do
        let new ← alter dotted change path ⟨origin, entries⟩
        return { t with entries := put key (.table new.origin new.entries) t.entries }
    | some (.tables elements) => do
      let elements ← changeLast
        (fun entries => (alter dotted change path ⟨.header, entries⟩).map (·.entries)) elements
      return { t with entries := put key (.tables elements) t.entries }
    | some _ => none

/-- Adds a value under a dotted key. The last table on the way has to be one that dotted keys
made, and without dots it must not. -/
def assign (path : List String) (key : String) (v : Value) : Table → Option Table :=
  alter true
    (fun t =>
      if (t.origin == .dotted) == path.isEmpty then none
      else
        match t.entries.lookup key with
        | none => some { t with entries := t.entries ++ [(key, v)] }
        | some _ => none)
    path

/-- Opens the table of a header. -/
def openTable (path : List String) (key : String) : Table → Option Table :=
  alter false
    (fun t =>
      match t.entries.lookup key with
      | none => some { t with entries := t.entries ++ [(key, .table .header [])] }
      | some (.table .implied entries) =>
        some { t with entries := put key (.table .header entries) t.entries }
      | some _ => none)
    path

/-- Opens one more table of a header with double brackets. -/
def openElement (path : List String) (key : String) : Table → Option Table :=
  alter false
    (fun t =>
      match t.entries.lookup key with
      | none => some { t with entries := t.entries ++ [(key, .tables [[]])] }
      | some (.tables elements) =>
        some { t with entries := put key (.tables (elements ++ [[]])) t.entries }
      | some _ => none)
    path

/-- What one line of a document says. Keys are split at their last dot. -/
inductive Statement where
  | header (path : List String) (key : String)
  | element (path : List String) (key : String)
  | assignment (path : List String) (key : String) (v : Value)

/-- A document so far, and the path of the table that assignments go to. -/
structure Progress where
  root : Table
  current : List String

def Progress.start : Progress := ⟨⟨.header, []⟩, []⟩

def Progress.step (p : Progress) : Statement → Option Progress
  | .header path key => do
    return ⟨← openTable path key p.root, path ++ [key]⟩
  | .element path key => do
    return ⟨← openElement path key p.root, path ++ [key]⟩
  | .assignment path key v => do
    return { p with root := ← alter false (assign path key v) p.current p.root }

/-- The entries of a document. -/
def build (statements : List Statement) : Option Entries := do
  let p ← statements.foldlM Progress.step .start
  return p.root.entries

end Toml
end ForgeChores
