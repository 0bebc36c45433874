import TypedSql.Toml

/-!
# Tables while they are read

The tables of a document come in pieces: a header opens a table, a key with points makes tables
on its way. A table may be opened once, also if it was passed through on the way to a table
inside it before. A key with points may add to tables that such keys made, but not to an opened
table, and no key is given twice.
-/

namespace TypedSql

namespace Toml

/-- How a table came about. -/
inductive Origin where
  /-- A header opened it. -/
  | opened
  /-- A header of a table inside it passed through it. -/
  | passed
  /-- A key with points made it. -/
  | dotted
  deriving DecidableEq

/-- What stands under a key while a document is read. -/
inductive Entry where
  /-- A finished value. -/
  | value (v : Toml)
  | table (origin : Origin) (entries : List (String × Entry))
  /-- Tables that were opened one after another under the same key. -/
  | tables (elements : List (List (String × Entry)))

/-- The entries of a table. -/
abbrev Entries := List (String × Entry)

namespace Entries

/-- Put another entry under a key that is there. -/
def replace (key : String) (entry : Entry) (entries : Entries) : Entries :=
  entries.map fun (k, e) => if k = key then (k, entry) else (k, e)

/-- Change the table at the end of a way of keys, starting from a table of the given origin.
Tables that are missing on the way are made. -/
def change (dotted : Bool) (f : Origin → Entries → Option Entries) :
    (way : List String) → Origin → Entries → Option Entries
  | [], origin, entries => f origin entries
  | key :: way, _, entries =>
    match entries.lookup key with
    | none =>
      let origin : Origin := if dotted then .dotted else .passed
      (change dotted f way origin []).map fun inner => entries ++ [(key, .table origin inner)]
    | some (.value _) => none
    | some (.table origin inner) =>
      if dotted && origin = .opened then none
      else (change dotted f way origin inner).map fun inner =>
        replace key (.table origin inner) entries
    | some (.tables elements) =>
      match elements.getLast? with
      | none => none
      | some last => (change dotted f way .opened last).map fun last =>
          replace key (.tables (elements.dropLast ++ [last])) entries

/-- Add a value to a table under a key with points. -/
def addValue (way : List String) (key : String) (v : Toml) (entries : Entries) :
    Option Entries :=
  change true (fun origin inner =>
    if !way.isEmpty && origin ≠ .dotted then none
    else if (inner.lookup key).isSome then none
    else some (inner ++ [(key, .value v)])) way .opened entries

/-- Add a value to the table of the last header. -/
def addValueAt (header way : List String) (key : String) (v : Toml) (entries : Entries) :
    Option Entries :=
  change false (fun _ inner => addValue way key v inner) header .opened entries

/-- Open a table. -/
def openTable (way : List String) (key : String) (entries : Entries) : Option Entries :=
  change false (fun _ inner =>
    match inner.lookup key with
    | none => some (inner ++ [(key, .table .opened [])])
    | some (.table .passed found) => some (replace key (.table .opened found) inner)
    | some _ => none) way .opened entries

/-- Open one more table under a key of such tables. -/
def openElement (way : List String) (key : String) (entries : Entries) : Option Entries :=
  change false (fun _ inner =>
    match inner.lookup key with
    | none => some (inner ++ [(key, .tables [[]])])
    | some (.tables elements) => some (replace key (.tables (elements ++ [[]])) inner)
    | some _ => none) way .opened entries

end Entries

mutual

/-- The value of a finished entry. -/
def Entry.toToml : Entry → Toml
  | .value v => v
  | .table _ entries => .table (Entries.toTable entries)
  | .tables elements => .array (Entries.toTables elements)

def Entries.toTable : List (String × Entry) → List (String × Toml)
  | [] => []
  | (key, entry) :: rest => (key, entry.toToml) :: Entries.toTable rest

def Entries.toTables : List (List (String × Entry)) → List Toml
  | [] => []
  | entries :: rest => .table (Entries.toTable entries) :: Entries.toTables rest

end

end Toml

end TypedSql
