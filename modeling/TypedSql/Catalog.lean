import TypedSql.Diagnostic
import TypedSql.Duration
import TypedSql.Json
import TypedSql.SqlType

/-!
# The catalog of a database

The catalog describes statements without running them, explains by which plan they would run,
and answers questions about types and columns. Such a question asks about several objects at
once; the answer has a row for each object that the catalog knows and leaves out the others.

A catalog is a function from requests to replies. A reply comes after a delay, and a request is
given up when the delay is longer than the deadline.
-/

namespace TypedSql

/-- A result column of a described statement. -/
structure Field where
  name : String
  typeOid : Oid
  /-- The table it comes from, zero if it is not just a column of a table. -/
  table : Oid
  /-- Its number in that table. -/
  order : Int16
  deriving DecidableEq

namespace Field

/-- A result column that is not just a column of a table. -/
def computed (name : String) (typeOid : Oid) : Field := ⟨name, typeOid, 0, 0⟩

/-- The same result, read from a column. -/
def fromColumn (f : Field) (table : Oid) (order : Int16) : Field :=
  { f with table, order }

/-- The column behind a result. System columns, whose numbers are not positive, do not count. -/
def key? (f : Field) : Option ColumnKey :=
  if f.table ≠ 0 ∧ 0 < f.order then some ⟨f.table, f.order⟩ else none

end Field

/-- The types of a statement, as far as the database tells them. -/
structure Description where
  /-- The types of the parameters, by number. -/
  params : List Oid
  fields : List Field
  deriving DecidableEq

/-- A domain, before its base is resolved. -/
structure DomainRow where
  oid : Oid
  name : String
  notNull : Bool
  hasDefault : Bool
  baseOid : Oid
  dimensions : Int32
  deriving DecidableEq

/-- A composite, before the types of its columns are resolved. -/
structure CompositeRow where
  oid : Oid
  name : String
  columnNames : List String
  columnOids : List Oid
  deriving DecidableEq

/-- An array, before its element type is resolved. -/
structure ArrayRow where
  oid : Oid
  name : String
  elementOid : Oid
  deriving DecidableEq

/-- What the catalog says about one type. -/
inductive TypeRow where
  | enum (type : EnumType)
  | domain (row : DomainRow)
  | composite (row : CompositeRow)
  | array (row : ArrayRow)
  /-- A type that none of the other questions finds. -/
  | unknown (type : UnknownType)
  deriving DecidableEq

namespace TypeRow

def oid : TypeRow → Oid
  | .enum row => row.oid
  | .domain row => row.oid
  | .composite row => row.oid
  | .array row => row.oid
  | .unknown row => row.oid

def name : TypeRow → String
  | .enum row => row.name
  | .domain row => row.name
  | .composite row => row.name
  | .array row => row.name
  | .unknown row => row.name

def kind : TypeRow → TypeKind
  | .enum _ => .enum
  | .domain _ => .domain
  | .composite _ => .composite
  | .array _ => .base
  | .unknown row => row.kind

/-- The types that the type is made of, in order. -/
def dependencies : TypeRow → List Oid
  | .domain row => [row.baseOid]
  | .composite row => row.columnOids
  | .array row => [row.elementOid]
  | .enum _ | .unknown _ => []

end TypeRow

/-- What the catalog says about one column of a table. -/
structure ColumnRow where
  table : Oid
  tableName : String
  order : Int16
  name : String
  typeOid : Oid
  notNull : Bool
  deriving DecidableEq

namespace ColumnRow

def key (row : ColumnRow) : ColumnKey := ⟨row.table, row.order⟩

/-- The column with its type. -/
def column (row : ColumnRow) (type : SqlType) : Column :=
  { name := row.name
    table := row.table
    tableName := row.tableName
    order := row.order
    type := type
    nullable := !row.notNull }

@[simp] theorem key_column (row : ColumnRow) (type : SqlType) :
    (row.column type).key = row.key := rfl

end ColumnRow

/-- The kinds of requests. -/
inductive Operation where
  | describe
  | explain
  | findDescendants
  | findEnums
  | findDomains
  | findComposites
  | findArrays
  | findUnknown
  | findColumns
  deriving DecidableEq

namespace Operation

instance : Named Operation where
  all := [.describe, .explain, .findDescendants, .findEnums, .findDomains, .findComposites,
    .findArrays, .findUnknown, .findColumns]
  name
    | .describe => "describe"
    | .explain => "explain"
    | .findDescendants => "find_descendant_oids"
    | .findEnums => "find_enum_types"
    | .findDomains => "find_domain_types"
    | .findComposites => "find_composite_types"
    | .findArrays => "find_array_types"
    | .findUnknown => "find_unknown_types"
    | .findColumns => "find_columns"
  find_name := by intro a; cases a <;> decide

end Operation

/-- A request to the catalog. -/
inductive Request where
  /-- Find the types of a statement without running it. -/
  | describe (sql : String)
  /-- Plan a statement with null for each parameter. -/
  | explain (sql : String) (params : List Oid)
  /-- Find the types that the given ones are made of, however deep, and these themselves. -/
  | findDescendants (oids : List Oid)
  | findEnums (oids : List Oid)
  | findDomains (oids : List Oid)
  | findComposites (oids : List Oid)
  | findArrays (oids : List Oid)
  /-- Find name and kind of types of any kind. -/
  | findUnknown (oids : List Oid)
  | findColumns (keys : List ColumnKey)
  deriving DecidableEq

namespace Request

def operation : Request → Operation
  | .describe _ => .describe
  | .explain _ _ => .explain
  | .findDescendants _ => .findDescendants
  | .findEnums _ => .findEnums
  | .findDomains _ => .findDomains
  | .findComposites _ => .findComposites
  | .findArrays _ => .findArrays
  | .findUnknown _ => .findUnknown
  | .findColumns _ => .findColumns

/-- What a request is answered with. -/
abbrev Answer : Request → Type
  | .describe _ => Description
  | .explain _ _ => Json
  | .findDescendants _ => List Oid
  | .findEnums _ => List EnumType
  | .findDomains _ => List DomainRow
  | .findComposites _ => List CompositeRow
  | .findArrays _ => List ArrayRow
  | .findUnknown _ => List UnknownType
  | .findColumns _ => List ColumnRow

end Request

/-- Why a request was not answered. -/
inductive CatalogError where
  | connection (message : String)
  | query (message : String)
  | timeout (operation : String) (deadline : Duration)
  | invalidResponse (message : String)
  | config (message : String)
  deriving DecidableEq

namespace CatalogError

def message : CatalogError → String
  | .connection message => s!"Connection failed: {message}"
  | .query message => s!"Catalog query failed: {message}"
  | .timeout operation deadline =>
    s!"Catalog operation {operation} timed out after {deadline.text}"
  | .invalidResponse message => s!"Invalid response: {message}"
  | .config message => s!"Configuration error: {message}"

/-- The code under which the error is reported. -/
def code : CatalogError → DiagnosticCode
  | .timeout _ _ => .catalogTimeout
  | _ => .catalogQueryFailed

end CatalogError

/-- What becomes of a request. -/
structure Reply (α : Type) where
  delay : Duration
  result : Except CatalogError α

/-- A catalog that does not change. -/
structure Catalog where
  reply : (request : Request) → Reply request.Answer

namespace Catalog

/-- What a request comes to when it is given up after a deadline. -/
def answer (catalog : Catalog) (deadline : Duration) (request : Request) :
    Except CatalogError request.Answer :=
  let reply := catalog.reply request
  if deadline.milliseconds < reply.delay.milliseconds then
    .error (.timeout (Named.name request.operation) deadline)
  else reply.result

end Catalog

end TypedSql
