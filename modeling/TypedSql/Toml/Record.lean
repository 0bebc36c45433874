import TypedSql.Toml

/-!
# Records in TOML

A record is a table whose other entries are ignored, or an array with the values of the fields
in their order. A field that is missing takes its default, also at the end of an array. A moment
of time is a record without any of the fields.
-/

namespace TypedSql

namespace Toml

/-- The fields with the given names. -/
def record? (names : List String) : Toml → Option (List (String × Toml))
  | .table entries => some (entries.filter fun (key, _) => names.contains key)
  | .array items => some (names.zip items)
  | .moment _ => some []
  | _ => none

variable {α : Type}

/-- A field with a value for its absence. -/
def defaulted (fields : List (String × Toml)) (name : String) (default : α)
    (read : Toml → Option α) : Option α :=
  match fields.lookup name with
  | some value => read value
  | none => some default

/-- A field that may be absent. -/
def optional (fields : List (String × Toml)) (name : String) (read : Toml → Option α) :
    Option (Option α) :=
  defaulted fields name none fun value => (read value).map some

def string? : Toml → Option String
  | .string text => some text
  | _ => none

def bool? : Toml → Option Bool
  | .bool value => some value
  | _ => none

/-- A number that is not negative. -/
def natural? : Toml → Option Nat
  | .int value => if 0 ≤ value then some value.toNat else none
  | _ => none

def uint16? (t : Toml) : Option UInt16 :=
  (t.natural?.filter (· ≤ 65535)).map UInt16.ofNat

/-- An array of values of one kind. -/
def list? (read : Toml → Option α) : Toml → Option (List α)
  | .array items => items.mapM read
  | _ => none

end Toml

end TypedSql
