import Std.Data.ExtTreeMap
import TypedSql.SqlType.Builtin

/-!
# Caches of a run

Resolved types and table columns are kept for a whole run. Entries are only ever added: an entry
that is there already stays as it is (`TypeCache.get?_insert`, `ColumnCache.get?_insert`), so
what was answered from a cache once is answered the same way ever after.
-/

namespace TypedSql

/-- Resolved types by their identifiers. -/
abbrev TypeMap := Std.ExtTreeMap Oid SqlType

/-- The types resolved so far. -/
structure TypeCache where
  entries : TypeMap

namespace TypeCache

def empty : TypeCache := ⟨∅⟩

def get? (c : TypeCache) (oid : Oid) : Option SqlType := c.entries[oid]?

def contains (c : TypeCache) (oid : Oid) : Bool := c.entries.contains oid

def size (c : TypeCache) : Nat := c.entries.size

/-- Add a type, unless there is one with its identifier. -/
def insert (c : TypeCache) (t : SqlType) : TypeCache :=
  ⟨c.entries.insertIfNew t.oid t⟩

/-- Add types one after another. -/
def extend (c : TypeCache) (types : List SqlType) : TypeCache :=
  types.foldl insert c

/-- The cache of a new run: every database has these types. -/
def builtin : TypeCache := empty.extend Builtin.types

/-- The cached ones of some types, and the others, each once, in order. -/
def split (c : TypeCache) (oids : List Oid) : TypeMap × List Oid :=
  (oids.foldl (fun found oid =>
    match c.get? oid with
    | some t => found.insert oid t
    | none => found) ∅,
   (oids.filter fun oid => !c.contains oid).eraseDups)

@[simp] theorem get?_empty (oid : Oid) : empty.get? oid = none := by
  simp [empty, get?]

theorem contains_eq_isSome (c : TypeCache) (oid : Oid) : c.contains oid = (c.get? oid).isSome := by
  simp [contains, get?, Std.ExtTreeMap.isSome_getElem?_eq_contains]

theorem get?_insert (c : TypeCache) (t : SqlType) (oid : Oid) :
    (c.insert t).get? oid = (c.get? oid).or (if t.oid = oid then some t else none) := by
  simp only [insert, get?, Std.ExtTreeMap.getElem?_insertIfNew, Std.LawfulEqCmp.compare_eq_iff_eq]
  by_cases h : t.oid = oid
  · subst h
    by_cases hm : t.oid ∈ c.entries <;> simp [hm]
  · simp [h]

/-- Of several types with one identifier the first is kept. -/
theorem get?_extend (c : TypeCache) (types : List SqlType) (oid : Oid) :
    (c.extend types).get? oid = (c.get? oid).or (types.find? fun t => t.oid == oid) := by
  induction types generalizing c with
  | nil => simp [extend]
  | cons t types ih =>
    have h : c.extend (t :: types) = (c.insert t).extend types := rfl
    rw [h, ih, get?_insert, Option.or_assoc]
    by_cases ht : t.oid = oid <;> simp [ht]

theorem get?_extend_of_eq_some {c : TypeCache} {oid : Oid} {t : SqlType}
    (h : c.get? oid = some t) (types : List SqlType) : (c.extend types).get? oid = some t := by
  simp [get?_extend, h]

end TypeCache

/-- The table columns fetched so far. -/
structure ColumnCache where
  entries : Std.ExtTreeMap ColumnKey Column

namespace ColumnCache

def empty : ColumnCache := ⟨∅⟩

def get? (c : ColumnCache) (key : ColumnKey) : Option Column := c.entries[key]?

def contains (c : ColumnCache) (key : ColumnKey) : Bool := c.entries.contains key

def size (c : ColumnCache) : Nat := c.entries.size

/-- Add a column, unless there is one with its key. -/
def insert (c : ColumnCache) (column : Column) : ColumnCache :=
  ⟨c.entries.insertIfNew column.key column⟩

/-- The keys that are not cached, each once, in order. -/
def missing (c : ColumnCache) (keys : List ColumnKey) : List ColumnKey :=
  (keys.filter fun key => !c.contains key).eraseDups

@[simp] theorem get?_empty (key : ColumnKey) : empty.get? key = none := by
  simp [empty, get?]

theorem contains_eq_isSome (c : ColumnCache) (key : ColumnKey) :
    c.contains key = (c.get? key).isSome := by
  simp [contains, get?, Std.ExtTreeMap.isSome_getElem?_eq_contains]

theorem get?_insert (c : ColumnCache) (column : Column) (key : ColumnKey) :
    (c.insert column).get? key =
      (c.get? key).or (if column.key = key then some column else none) := by
  simp only [insert, get?, Std.ExtTreeMap.getElem?_insertIfNew, Std.LawfulEqCmp.compare_eq_iff_eq]
  by_cases h : column.key = key
  · subst h
    by_cases hm : column.key ∈ c.entries <;> simp [hm]
  · simp [h]

end ColumnCache

/-- The caches of a run. -/
structure Caches where
  types : TypeCache
  columns : ColumnCache

namespace Caches

/-- The caches of a new run. -/
def new : Caches := ⟨.builtin, .empty⟩

end Caches

end TypedSql
