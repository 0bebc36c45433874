import TypedSql.Named

/-!
# Declared row counts

A query declares how many rows it returns, by a marker in its annotation.
-/

namespace TypedSql

/-- How many rows a query is declared to return. -/
inductive ResultKind where
  /-- Any number of rows. -/
  | many
  /-- Exactly one row. -/
  | one
  /-- None: it is run for its effect. -/
  | exec
  deriving DecidableEq

namespace ResultKind

instance : Named ResultKind where
  all := [.many, .one, .exec]
  name
    | .many => "many"
    | .one => "one"
    | .exec => "exec"
  find_name := by intro a; cases a <;> decide

/-- The marker in an annotation. -/
def marker : ResultKind → String
  | .many => ":many"
  | .one => ":one"
  | .exec => ":exec"

/-- The kind of a marker. -/
def ofMarker? (text : String) : Option ResultKind :=
  [ResultKind.many, .one, .exec].find? fun k => k.marker == text

@[simp] theorem ofMarker?_marker (k : ResultKind) : ofMarker? k.marker = some k := by
  cases k <;> decide

/-- The complaint about a text that is no marker. -/
def unknownMessage (text : String) : String :=
  s!"unknown result kind '{text}'"

end ResultKind

end TypedSql
