import TypedSql.Json.Record
import TypedSql.Plan

/-!
# Plans in JSON

The database explains a statement as an array with one entry for each statement it planned. All
entries have to be well formed, and the first one is the plan.
-/

namespace TypedSql

namespace Plan

/-- Read a node in which at most `depth` values stand inside each other. -/
def ofNodeWithin? : (depth : Nat) → Json → Option Plan
  | 0, _ => none
  | depth + 1, j => do
    let r ← j.record?
      ["Node Type", "Operation", "Relation Name", "Alias", "Output", "Plans"]
    some
      { nodeType := ← r.required "Node Type" Json.string?
        operation := ← r.omittable "Operation" Json.string?
        relation := ← r.omittable "Relation Name" Json.string?
        aliasName := ← r.omittable "Alias" Json.string?
        output := ← r.defaulted "Output" [] (Json.list? Json.string?)
        plans := ← r.defaulted "Plans" [] (Json.list? (ofNodeWithin? depth)) }

def ofNode? (j : Json) : Option Plan :=
  ofNodeWithin? j.depth j

/-- Read the entry of one statement. -/
def ofEntry? (j : Json) : Option Plan := do
  let r ← j.record? ["Plan"]
  r.required "Plan" ofNode?

/-- Read an explanation. -/
def ofJson (j : Json) : Except PlanError Plan :=
  match j.list? ofEntry? with
  | none => .error .malformed
  | some [] => .error .empty
  | some (p :: _) => .ok p

end Plan

end TypedSql
