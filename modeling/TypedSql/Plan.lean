import TypedSql.TypedQuery

/-!
# Query plans

A plan is the tree by which the database would run a statement. Typing looks at very little of
it: what the top node does, the expressions it puts out, and whether all its rows come from one
relation without being combined with others.
-/

namespace TypedSql

/-- A node of a plan with the nodes below it. -/
structure Plan where
  nodeType : String
  /-- What a modifying node does. -/
  operation : Option String
  /-- The relation that the node reads or writes. -/
  relation : Option String
  /-- What the statement calls the relation. -/
  aliasName : Option String
  /-- The expressions that the node puts out. -/
  output : List String
  plans : List Plan

/-- Why a plan is of no use. -/
inductive PlanError where
  /-- It is not the plan of any statement. Where it goes wrong is not kept. -/
  | malformed
  /-- It plans no statement. -/
  | empty
  /-- It modifies a table in an unknown way. -/
  | unknownOperation (operation : String)
  deriving DecidableEq

namespace PlanError

def message : PlanError → String
  | .malformed => "malformed plan"
  | .empty => "plan contains no statements"
  | .unknownOperation operation => s!"unsupported ModifyTable operation '{operation}'"

end PlanError

/-- What the top node of a plan does. -/
inductive TopNode where
  /-- It only reads. -/
  | select
  /-- It passes on the first rows of the node below. -/
  | limit
  /-- It writes a relation. -/
  | modify (tag : CommandTag) (relation : Option String)
  deriving DecidableEq

namespace TopNode

/-- The command of a statement with this top node. -/
def tag : TopNode → CommandTag
  | .select | .limit => .select
  | .modify tag _ => tag

end TopNode

namespace Plan

/-- The node type of a node that writes a table. -/
def modifyType : String := "ModifyTable"

/-- The node type of a node that passes on the first rows. -/
def limitType : String := "Limit"

/-- What the top node does. -/
def top (p : Plan) : Except PlanError TopNode :=
  if p.nodeType = modifyType then
    match p.operation.getD "" with
    | "Insert" => .ok (.modify .insert p.relation)
    | "Update" => .ok (.modify .update p.relation)
    | "Delete" => .ok (.modify .delete p.relation)
    | operation => .error (.unknownOperation operation)
  else if p.nodeType = limitType then .ok .limit
  else .ok .select

mutual

/-- Whether the node or a node below it names a relation. -/
def readsRelation : Plan → Bool
  | ⟨_, _, relation, _, _, plans⟩ => relation.isSome || anyReadsRelation plans

/-- Whether one of the nodes, or a node below one, names a relation. -/
def anyReadsRelation : List Plan → Bool
  | [] => false
  | p :: ps => p.readsRelation || anyReadsRelation ps

end

/-- The relation of a plan that scans one relation and reads no other, perhaps under nodes that
pass on the first rows. -/
def scannedRelation : Plan → Option String
  | ⟨nodeType, _, relation, _, _, plans⟩ =>
    if nodeType = limitType then
      match plans with
      | [child] => child.scannedRelation
      | _ => none
    else if nodeType = modifyType || anyReadsRelation plans then none
    else relation

end Plan

end TypedSql
