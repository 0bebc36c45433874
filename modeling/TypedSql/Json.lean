import TypedSql.Decimal.Single

/-!
# JSON values

Plans come from the database as JSON, and reports are written and read as JSON. A number is an
integer or a binary number; one of single precision is written with fewer digits. The members of
an object are kept in order, repeated keys included, so that a reader can refuse them.

A document may hold parts that have a form but no value: a number that is too large for double
precision, a text with half of a surrogate pair, an object with such a key, and an array or an
object that stands too deep. They are harmless as long as nobody asks for them.
-/

namespace TypedSql

/-- A JSON value. -/
inductive Json where
  | null
  | bool (value : Bool)
  | int (value : Int)
  | single (value : Single)
  | double (value : Double)
  | string (value : String)
  | array (items : List Json)
  | object (members : List (String × Json))
  /-- A part that has a form but no value. -/
  | unreadable

namespace Json

/-- An array of texts. -/
def ofStrings (texts : List String) : Json :=
  .array (texts.map .string)

/-- Null for nothing. -/
def ofOption {α : Type} (write : α → Json) : Option α → Json
  | none => .null
  | some a => write a

/-- The values of a key. -/
def valuesOf (key : String) (members : List (String × Json)) : List Json :=
  members.filterMap fun (k, v) => if k = key then some v else none

mutual

/-- How many values stand inside each other, at most. -/
def depth : Json → Nat
  | .array items => depthItems items + 1
  | .object members => depthMembers members + 1
  | _ => 1

def depthItems : List Json → Nat
  | [] => 0
  | item :: items => max (depth item) (depthItems items)

def depthMembers : List (String × Json) → Nat
  | [] => 0
  | (_, value) :: members => max (depth value) (depthMembers members)

end

mutual

/-- Whether every part has a value. -/
def isReadable : Json → Bool
  | .array items => areItemsReadable items
  | .object members => areMembersReadable members
  | .unreadable => false
  | _ => true

def areItemsReadable : List Json → Bool
  | [] => true
  | item :: items => item.isReadable && areItemsReadable items

def areMembersReadable : List (String × Json) → Bool
  | [] => true
  | (_, value) :: members => value.isReadable && areMembersReadable members

end

end Json

end TypedSql
