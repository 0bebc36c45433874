import TypedSql.Json
import TypedSql.Named

/-!
# Records in JSON

A record is read by the names of its fields. It may stand in JSON as an object, whose other
members are ignored and whose own may not repeat, or as an array with the fields in order. A
field that is missing from an object can still be an absent option; one that is missing at the
end of an array must have a default.
-/

namespace TypedSql

namespace Json

/-- The fields of a record that were found. -/
structure Record where
  /-- Whether they were found by place and not by name. -/
  positional : Bool
  found : List (String × Json)

/-- The fields with the given names. -/
def record? (names : List String) : Json → Option Record
  | .object members =>
    if names.all fun name => (valuesOf name members).length ≤ 1 then
      some ⟨false, members.filter fun (key, _) => names.contains key⟩
    else none
  | .array items =>
    if items.length ≤ names.length then some ⟨true, names.zip items⟩ else none
  | _ => none

namespace Record

variable {α : Type}

/-- A field that must be there. -/
def required (r : Record) (name : String) (read : Json → Option α) : Option α :=
  match r.found.lookup name with
  | some value => read value
  | none => none

/-- A field with a value for its absence. -/
def defaulted (r : Record) (name : String) (default : α) (read : Json → Option α) : Option α :=
  match r.found.lookup name with
  | some value => read value
  | none => some default

/-- A value that may be null. -/
def orNull (read : Json → Option α) : Json → Option (Option α)
  | .null => some none
  | value => (read value).map some

/-- A field that may be null, or missing from an object. -/
def optional (r : Record) (name : String) (read : Json → Option α) : Option (Option α) :=
  if r.positional then r.required name (orNull read) else r.defaulted name none (orNull read)

/-- A field that may be null or missing. -/
def omittable (r : Record) (name : String) (read : Json → Option α) : Option (Option α) :=
  r.defaulted name none (orNull read)

end Record

/-- The tag of a record that is one of several, and the record without it: the member `key` of an
object, or the first item of an array. -/
def tagged? {α : Type} (key : String) (readTag : Json → Option α) : Json → Option (α × Json)
  | .object members =>
    match valuesOf key members with
    | [value] =>
      (readTag value).map fun tag => (tag, .object (members.filter fun (k, _) => k != key))
    | _ => none
  | .array (value :: items) => (readTag value).map fun tag => (tag, .array items)
  | _ => none

def bool? : Json → Option Bool
  | .bool b => some b
  | _ => none

def string? : Json → Option String
  | .string s => some s
  | _ => none

/-- An integer from `low` to `high`. -/
def intIn? (low high : Int) : Json → Option Int
  | .int n => if low ≤ n ∧ n ≤ high then some n else none
  | _ => none

/-- A count: a natural number of 64 bits. -/
def count? (j : Json) : Option Nat :=
  (j.intIn? 0 18446744073709551615).map Int.toNat

def uint32? (j : Json) : Option UInt32 :=
  (j.intIn? 0 4294967295).map fun n => UInt32.ofNat n.toNat

def int16? (j : Json) : Option Int16 :=
  (j.intIn? (-32768) 32767).map Int16.ofInt

def int32? (j : Json) : Option Int32 :=
  (j.intIn? (-2147483648) 2147483647).map Int32.ofInt

/-- A single-precision number; an integer is one too. -/
def single? : Json → Option Single
  | .int n => some (Single.ofInt n)
  | .single x => some x
  | .double x => some (Single.ofDouble x)
  | _ => none

/-- An array of values of one kind. -/
def list? {α : Type} (read : Json → Option α) : Json → Option (List α)
  | .array items => items.mapM read
  | _ => none

/-- A value of a finite type: its name, or an object with its name and null. -/
def named? {α : Type} [Named α] : Json → Option α
  | .string name => Named.ofName? name
  | .object [(name, .null)] => Named.ofName? name
  | _ => none

/-- A value of a finite type inside a tagged record, where an empty object does for null. -/
def namedInTagged? {α : Type} [Named α] : Json → Option α
  | .object [(name, .object [])] => Named.ofName? name
  | j => j.named?

/-- The name of a value of a finite type. -/
def ofNamed {α : Type} [Named α] (a : α) : Json :=
  .string (Named.name a)

@[simp] theorem named?_ofNamed {α : Type} [Named α] (a : α) : named? (ofNamed a) = some a :=
  Named.ofName?_name a

def ofUInt32 (n : UInt32) : Json := .int n.toNat

@[simp] theorem uint32?_ofUInt32 (n : UInt32) : (ofUInt32 n).uint32? = some n := by
  have h := n.toNat_lt
  have h₂ : (0 : Int) ≤ n.toNat ∧ (n.toNat : Int) ≤ 4294967295 := by omega
  simp [ofUInt32, uint32?, intIn?, h₂]

def ofInt16 (n : Int16) : Json := .int n.toInt

def ofInt32 (n : Int32) : Json := .int n.toInt

end Json

end TypedSql
