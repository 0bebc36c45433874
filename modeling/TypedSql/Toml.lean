/-!
# TOML values

Settings are written in TOML. Numbers with a point and moments of time are kept as they are
written, since no setting is one; everything else has its value.
-/

namespace TypedSql

/-- A TOML value. The keys of a table do not repeat. -/
inductive Toml where
  | string (text : String)
  | int (value : Int)
  | float (written : List Char)
  | bool (value : Bool)
  /-- A date, a time or both. -/
  | moment (written : List Char)
  | array (items : List Toml)
  | table (entries : List (String × Toml))

end TypedSql
