import TypedSql.Plan
import TypedSql.Plan.Expression

/-!
# Which results are never null

A result column is called nullable unless one of two things is known: its expression is a string
or a number, or it is a bare column that the catalog forbids to be null and the rows of whose
table reach the result as they are. The second holds for a scan of that table alone and for a
statement that modifies that table. Joins, subqueries and functions are never looked into.
-/

namespace TypedSql

namespace Nullability

/-- Whether the rows of `table` reach the result as they are. -/
def preserves (plan : Plan) (top : TopNode) (table : String) : Bool :=
  match top with
  | .modify _ relation => relation == some table
  | .select | .limit => plan.scannedRelation == some table

/-- Whether the result of an expression may be null, given the column behind it if there is
one. -/
def ofExpression (plan : Plan) (top : TopNode) (expr : String) (column : Option Column) : Bool :=
  if Expression.isLiteral expr then false
  else
    match column with
    | some c =>
      if Expression.isColumn expr && !c.nullable then !preserves plan top c.tableName else true
    | none => true

/-- Whether each result may be null. If the plan does not put out one expression for each
result, nothing is known. -/
def infer (plan : Plan) (top : TopNode) (columns : List (Option Column)) : List Bool :=
  if plan.output.length = columns.length then
    List.zipWith (ofExpression plan top) plan.output columns
  else columns.map fun _ => true

end Nullability

end TypedSql
