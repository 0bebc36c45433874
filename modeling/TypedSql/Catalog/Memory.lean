import Std.Data.ExtTreeMap
import TypedSql.Catalog.Rows
import TypedSql.SqlType.Builtin
import TypedSql.Text.Quoted

/-!
# Catalogs in memory

A catalog in memory answers from types, tables, statements and plans that were put into it. It
can be made slow, and each kind of request can be made to fail. Of two entries for one thing the
later one counts.
-/

namespace TypedSql

/-- What a catalog in memory knows. -/
structure MemoryCatalog where
  types : TypeRows
  columns : Std.ExtTreeMap ColumnKey ColumnRow
  /-- The descriptions by statement. -/
  statements : Std.ExtTreeMap String Description
  /-- The plans by statement. -/
  plans : Std.ExtTreeMap String Json
  /-- The complaint of each kind of request that fails. -/
  failure : Operation → Option String
  /-- The time that every reply takes. -/
  latency : Duration

namespace MemoryCatalog

/-- The name of this kind of catalog in messages. -/
def name : String := "Mock"

def empty : MemoryCatalog :=
  { types := ∅
    columns := ∅
    statements := ∅
    plans := ∅
    failure := fun _ => none
    latency := ⟨0⟩ }

def addType (c : MemoryCatalog) (row : TypeRow) : MemoryCatalog :=
  { c with types := c.types.insert row.oid row }

/-- Add an enum. Its labels are numbered in order, and so are their identifiers, from a hundred
times that of the type. -/
def addEnum (c : MemoryCatalog) (oid : Oid) (name : String) (labels : List String) :
    MemoryCatalog :=
  let numbers : List Nat := (List.range labels.length).map (· + 1)
  c.addType (.enum
    { oid := oid
      name := name
      labels := labels
      sortOrders := numbers.map fun (n : Nat) => Single.ofInt n
      labelOids := numbers.map fun n => oid * 100 + UInt32.ofNat n })

def addDomain (c : MemoryCatalog) (oid : Oid) (name : String) (baseOid : Oid) (notNull : Bool) :
    MemoryCatalog :=
  c.addType (.domain ⟨oid, name, notNull, false, baseOid, 0⟩)

def addComposite (c : MemoryCatalog) (oid : Oid) (name : String)
    (columns : List (String × Oid)) : MemoryCatalog :=
  c.addType (.composite ⟨oid, name, columns.map Prod.fst, columns.map Prod.snd⟩)

def addArray (c : MemoryCatalog) (oid : Oid) (name : String) (elementOid : Oid) :
    MemoryCatalog :=
  c.addType (.array ⟨oid, name, elementOid⟩)

/-- Add a type of which only name and kind are known. -/
def addUnknown (c : MemoryCatalog) (oid : Oid) (name : String) (kind : TypeKind) :
    MemoryCatalog :=
  c.addType (.unknown ⟨oid, name, kind⟩)

def addColumn (c : MemoryCatalog) (row : ColumnRow) : MemoryCatalog :=
  { c with columns := c.columns.insert row.key row }

/-- Add a table. Its columns, each with its type and whether it forbids null, are numbered from
one. -/
def addTable (c : MemoryCatalog) (table : Oid) (tableName : String)
    (columns : List (String × Oid × Bool)) : MemoryCatalog :=
  columns.zipIdx.foldl (fun c ((name, typeOid, notNull), i) =>
    c.addColumn ⟨table, tableName, Int16.ofNat i + 1, name, typeOid, notNull⟩) c

def addStatement (c : MemoryCatalog) (sql : String) (description : Description) :
    MemoryCatalog :=
  { c with statements := c.statements.insert sql description }

def addPlan (c : MemoryCatalog) (sql : String) (plan : Json) : MemoryCatalog :=
  { c with plans := c.plans.insert sql plan }

/-- Make a kind of request fail. -/
def addFailure (c : MemoryCatalog) (operation : Operation) (message : String) : MemoryCatalog :=
  { c with failure := fun o => if o = operation then some message else c.failure o }

/-- Make every reply slow. -/
def withLatency (c : MemoryCatalog) (latency : Duration) : MemoryCatalog :=
  { c with latency := latency }

/-- Follow the types on the stack and what they are made of, last first. The types that were not
entered yet are `left`, and those that were met already, latest first, `seen`. -/
def descend (left : TypeRows) : (stack seen : List Oid) → List Oid
  | [], seen => seen.reverse
  | oid :: stack, seen =>
    if seen.contains oid then descend left stack seen
    else
      match _h : left[oid]? with
      | some row => descend (left.erase oid) (row.dependencies.reverse ++ stack) (oid :: seen)
      | none => descend left stack (oid :: seen)
termination_by stack => (left.size, stack.length)
decreasing_by
  all_goals simp_wf
  · exact .right _ (by simp)
  · exact .left _ _ (TypeRows.size_erase_lt _h)
  · exact .right _ (by simp)

/-- The given types and all that they are made of. -/
def descendants (c : MemoryCatalog) (oids : List Oid) : List Oid :=
  descend c.types oids.reverse []

/-- The rows of a kind among those of some types. -/
def rowsOf {α : Type} (c : MemoryCatalog) (oids : List Oid) (select : TypeRow → Option α) :
    List α :=
  oids.filterMap fun oid => c.types[oid]?.bind select

/-- Name and kind of a type. Every database has the built-in types. -/
def nameAndKind? (c : MemoryCatalog) (oid : Oid) : Option UnknownType :=
  match c.types[oid]? with
  | some row => some ⟨oid, row.name, row.kind⟩
  | none => (Builtin.type? oid).map fun t => ⟨oid, t.name, .base⟩

/-- What a request finds. -/
def find (c : MemoryCatalog) : (request : Request) → Except CatalogError request.Answer
  | .describe sql =>
    match c.statements[sql]? with
    | some description => .ok description
    | none => .error (.query ("no statement registered for " ++ Text.quoted sql))
  | .explain sql _ =>
    match c.plans[sql]? with
    | some plan => .ok plan
    | none => .error (.query ("no plan registered for " ++ Text.quoted sql))
  | .findDescendants oids => .ok (c.descendants oids)
  | .findEnums oids => .ok (c.rowsOf oids fun | .enum row => some row | _ => none)
  | .findDomains oids => .ok (c.rowsOf oids fun | .domain row => some row | _ => none)
  | .findComposites oids => .ok (c.rowsOf oids fun | .composite row => some row | _ => none)
  | .findArrays oids => .ok (c.rowsOf oids fun | .array row => some row | _ => none)
  | .findUnknown oids => .ok (oids.filterMap c.nameAndKind?)
  | .findColumns keys => .ok (keys.filterMap fun key => c.columns[key]?)

/-- The catalog that answers from memory. -/
def catalog (c : MemoryCatalog) : Catalog where
  reply request :=
    ⟨c.latency,
      match c.failure request.operation with
      | some message => .error (.query message)
      | none => c.find request⟩

end MemoryCatalog

/-- How often each kind of request was made. -/
structure CallCounts where
  describe : Nat
  explain : Nat
  descendants : Nat
  enums : Nat
  domains : Nat
  composites : Nat
  arrays : Nat
  unknown : Nat
  columns : Nat
  deriving DecidableEq

namespace CallCounts

/-- Count requests by their kinds. -/
def ofRequests (requests : List Request) : CallCounts :=
  let count (operation : Operation) : Nat :=
    (requests.filter fun request => request.operation = operation).length
  { describe := count .describe
    explain := count .explain
    descendants := count .findDescendants
    enums := count .findEnums
    domains := count .findDomains
    composites := count .findComposites
    arrays := count .findArrays
    unknown := count .findUnknown
    columns := count .findColumns }

/-- The number of all requests. -/
def total (c : CallCounts) : Nat :=
  c.describe + c.explain + c.descendants + c.enums + c.domains + c.composites + c.arrays +
    c.unknown + c.columns

end CallCounts

end TypedSql
