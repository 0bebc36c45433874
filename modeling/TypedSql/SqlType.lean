import TypedSql.Decimal.Single
import TypedSql.Named

/-!
# SQL types

A type of the database is known by its object identifier, which has a meaning only inside one
database. A resolved type holds the types it is made of: an array its element type, a composite
the types of its columns. A domain holds only the identifier and the name of its base.
-/

namespace TypedSql

/-- The identifier of a catalog object. -/
abbrev Oid := UInt32

/-- What kind of type the catalog says a type is. -/
inductive TypeKind where
  /-- A scalar or an array. -/
  | base
  | composite
  | domain
  | enum
  | pseudo
  | range
  | multirange
  deriving DecidableEq

namespace TypeKind

instance : Named TypeKind where
  all := [.base, .composite, .domain, .enum, .pseudo, .range, .multirange]
  name
    | .base => "base"
    | .composite => "composite"
    | .domain => "domain"
    | .enum => "enum"
    | .pseudo => "pseudo"
    | .range => "range"
    | .multirange => "multirange"
  find_name := by intro a; cases a <;> decide

/-- The letter by which the catalog stores a kind. -/
def letter : TypeKind → Char
  | .base => 'b'
  | .composite => 'c'
  | .domain => 'd'
  | .enum => 'e'
  | .pseudo => 'p'
  | .range => 'r'
  | .multirange => 'm'

/-- The kind of a letter. -/
def ofLetter? (c : Char) : Option TypeKind :=
  (Named.all : List TypeKind).find? fun k => k.letter == c

@[simp] theorem ofLetter?_letter (k : TypeKind) : ofLetter? k.letter = some k := by
  cases k <;> decide

end TypeKind

/-- A type without further structure. -/
structure BaseType where
  oid : Oid
  name : String
  deriving DecidableEq

/-- A type with a fixed, ordered list of labels. -/
structure EnumType where
  oid : Oid
  name : String
  /-- The labels in order. -/
  labels : List String
  /-- The number by which the catalog orders each label. -/
  sortOrders : List Single
  /-- The identifier of each label. -/
  labelOids : List Oid
  deriving DecidableEq

/-- A type with constraints over another one. -/
structure DomainType where
  oid : Oid
  name : String
  notNull : Bool
  hasDefault : Bool
  base : BaseType
  /-- The number of array dimensions, zero for no array. -/
  dimensions : Int32
  deriving DecidableEq

/-- A type that is not looked into. -/
structure UnknownType where
  oid : Oid
  name : String
  kind : TypeKind
  deriving DecidableEq

/-- A resolved type. -/
inductive SqlType where
  | base (type : BaseType)
  | array (oid : Oid) (name : String) (element : SqlType)
  | enum (type : EnumType)
  | domain (type : DomainType)
  | composite (oid : Oid) (name : String) (columnNames : List String)
      (columnTypes : List SqlType)
  | unknown (type : UnknownType)
  /-- The type of a result without a value. -/
  | void

namespace SqlType

/-- The identifier of the void type. -/
def voidOid : Oid := 2278

def oid : SqlType → Oid
  | .base t => t.oid
  | .array oid _ _ => oid
  | .enum t => t.oid
  | .domain t => t.oid
  | .composite oid _ _ _ => oid
  | .unknown t => t.oid
  | .void => voidOid

/-- The name in the catalog. -/
def name : SqlType → String
  | .base t => t.name
  | .array _ name _ => name
  | .enum t => t.name
  | .domain t => t.name
  | .composite _ name _ _ => name
  | .unknown t => t.name
  | .void => "void"

def isVoid : SqlType → Bool
  | .void => true
  | _ => false

/-- The form in messages: an array is its element type with brackets behind it. -/
def text : SqlType → String
  | .array _ _ element => element.text ++ "[]"
  | t => t.name

end SqlType

/-- The key of a table column: its table and its number in the table, from one. -/
structure ColumnKey where
  table : Oid
  order : Int16
  deriving DecidableEq

namespace ColumnKey

/-- The form in messages. -/
def text (k : ColumnKey) : String :=
  s!"{k.table.toNat}#{k.order.toInt}"

/-- Keys are ordered by table, then by number. -/
instance : Ord ColumnKey :=
  ⟨compareLex (compareOn table) (compareOn order)⟩

instance : Std.TransOrd ColumnKey :=
  inferInstanceAs (Std.TransCmp (compareLex (compareOn table) (compareOn order)))

instance : Std.LawfulEqOrd ColumnKey where
  eq_of_compare {a b} h := by
    obtain ⟨ht, ho⟩ := compareLex_eq_eq.mp h
    obtain ⟨ta, oa⟩ := a
    obtain ⟨tb, ob⟩ := b
    simp only [compareOn, Std.LawfulEqCmp.compare_eq_iff_eq] at ht ho
    rw [ht, ho]

end ColumnKey

/-- A table column with its resolved type. -/
structure Column where
  name : String
  table : Oid
  tableName : String
  order : Int16
  type : SqlType
  /-- False when the catalog forbids null in it. -/
  nullable : Bool

namespace Column

def key (c : Column) : ColumnKey := ⟨c.table, c.order⟩

end Column

end TypedSql
