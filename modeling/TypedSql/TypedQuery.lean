import TypedSql.ResultKind
import TypedSql.SqlType

/-!
# Typed queries

A typed query is what a code generator needs: the statement with numbered parameters, and the
types of its parameters and of its result columns, in order.
-/

namespace TypedSql

/-- What a statement does. -/
inductive CommandTag where
  | select
  | insert
  | update
  | delete
  deriving DecidableEq

namespace CommandTag

instance : Named CommandTag where
  all := [.select, .insert, .update, .delete]
  name
    | .select => "select"
    | .insert => "insert"
    | .update => "update"
    | .delete => "delete"
  find_name := by intro a; cases a <;> decide

/-- The form in messages and reports. -/
def text (t : CommandTag) : String := Named.name t

end CommandTag

/-- A parameter of a query. -/
structure InputParam where
  name : String
  /-- An expression for its value when none is given. -/
  defaultValue : Option String
  type : SqlType

/-- A result column of a query. -/
structure OutputColumn where
  name : String
  type : SqlType
  /-- False only if the value is proved not to be null. -/
  nullable : Bool

/-- A query with all its types. -/
structure TypedQuery where
  name : String
  tag : CommandTag
  kind : ResultKind
  /-- The lines of its comment in front of the annotation. -/
  doc : List String
  /-- The statement with numbered parameters. -/
  sql : String
  inputs : List InputParam
  outputs : List OutputColumn
  protoType : Option String

end TypedSql
