import TypedSql.Json.Record
import TypedSql.SqlType

/-!
# SQL types in JSON

A type is a record whose member `type` says which of the seven forms it has. A type inside a type
may give the form by its place among the seven. Since the form is known only when the whole
record has been seen, every part of it must have a value, the ignored ones included. A column is
a record without such a member.
-/

namespace TypedSql

namespace BaseType

def members (t : BaseType) : List (String × Json) :=
  [("oid", .ofUInt32 t.oid), ("name", .string t.name)]

def ofJson? (j : Json) : Option BaseType := do
  let r ← j.record? ["oid", "name"]
  some ⟨← r.required "oid" Json.uint32?, ← r.required "name" Json.string?⟩

end BaseType

namespace EnumType

def members (t : EnumType) : List (String × Json) :=
  [("oid", .ofUInt32 t.oid), ("name", .string t.name), ("labels", .ofStrings t.labels),
    ("sort_orders", .array (t.sortOrders.map .single)),
    ("child_oids", .array (t.labelOids.map .ofUInt32))]

def ofJson? (j : Json) : Option EnumType := do
  let r ← j.record? ["oid", "name", "labels", "sort_orders", "child_oids"]
  some
    { oid := ← r.required "oid" Json.uint32?
      name := ← r.required "name" Json.string?
      labels := ← r.required "labels" (Json.list? Json.string?)
      sortOrders := ← r.required "sort_orders" (Json.list? Json.single?)
      labelOids := ← r.required "child_oids" (Json.list? Json.uint32?) }

end EnumType

namespace DomainType

def members (t : DomainType) : List (String × Json) :=
  [("oid", .ofUInt32 t.oid), ("name", .string t.name), ("not_null", .bool t.notNull),
    ("has_default", .bool t.hasDefault), ("base", .object t.base.members),
    ("dimensions", .ofInt32 t.dimensions)]

def ofJson? (j : Json) : Option DomainType := do
  let r ← j.record? ["oid", "name", "not_null", "has_default", "base", "dimensions"]
  some
    { oid := ← r.required "oid" Json.uint32?
      name := ← r.required "name" Json.string?
      notNull := ← r.required "not_null" Json.bool?
      hasDefault := ← r.required "has_default" Json.bool?
      base := ← r.required "base" BaseType.ofJson?
      dimensions := ← r.required "dimensions" Json.int32? }

end DomainType

namespace UnknownType

def members (t : UnknownType) : List (String × Json) :=
  [("oid", .ofUInt32 t.oid), ("name", .string t.name), ("kind", .ofNamed t.kind)]

def ofJson? (j : Json) : Option UnknownType := do
  let r ← j.record? ["oid", "name", "kind"]
  some ⟨← r.required "oid" Json.uint32?, ← r.required "name" Json.string?,
    ← r.required "kind" Json.namedInTagged?⟩

end UnknownType

namespace SqlType

/-- The forms of types. -/
inductive Form where
  | base
  | array
  | enum
  | domain
  | composite
  | unknown
  | void
  deriving DecidableEq

namespace Form

instance : Named Form where
  all := [.base, .array, .enum, .domain, .composite, .unknown, .void]
  name
    | .base => "base"
    | .array => "array"
    | .enum => "enum"
    | .domain => "domain"
    | .composite => "composite"
    | .unknown => "unknown"
    | .void => "void"
  find_name := by intro a; cases a <;> decide

/-- The member that says the form. -/
def member (f : Form) : String × Json := ("type", .ofNamed f)

/-- The form of a type that stands alone: its name. -/
def ofJson? : Json → Option Form
  | .string name => Named.ofName? name
  | _ => none

/-- The form of a type inside a type: its name or its place among the forms. -/
def ofJsonInside? : Json → Option Form
  | .int place => if 0 ≤ place then (Named.all : List Form)[place.toNat]? else none
  | j => ofJson? j

end Form

mutual

def toJson : SqlType → Json
  | .base t => .object (Form.base.member :: t.members)
  | .array oid name element =>
    .object [Form.array.member, ("oid", .ofUInt32 oid), ("name", .string name),
      ("elem", element.toJson)]
  | .enum t => .object (Form.enum.member :: t.members)
  | .domain t => .object (Form.domain.member :: t.members)
  | .composite oid name columnNames columnTypes =>
    .object [Form.composite.member, ("oid", .ofUInt32 oid), ("name", .string name),
      ("column_names", .ofStrings columnNames), ("column_types", .array (toJsons columnTypes))]
  | .unknown t => .object (Form.unknown.member :: t.members)
  | .void => .object [Form.void.member]

def toJsons : List SqlType → List Json
  | [] => []
  | t :: ts => t.toJson :: toJsons ts

end

/-- Read a type in which at most `depth` values stand inside each other. -/
def ofJsonWithin? (form? : Json → Option Form) : (depth : Nat) → Json → Option SqlType
  | 0, _ => none
  | depth + 1, j => do
    let inner? := ofJsonWithin? Form.ofJsonInside? depth
    let (form, j) ← j.tagged? "type" form?
    match form with
    | .base => (BaseType.ofJson? j).map .base
    | .array =>
      let r ← j.record? ["oid", "name", "elem"]
      some (.array (← r.required "oid" Json.uint32?) (← r.required "name" Json.string?)
        (← r.required "elem" inner?))
    | .enum => (EnumType.ofJson? j).map .enum
    | .domain => (DomainType.ofJson? j).map .domain
    | .composite =>
      let r ← j.record? ["oid", "name", "column_names", "column_types"]
      some (.composite (← r.required "oid" Json.uint32?) (← r.required "name" Json.string?)
        (← r.required "column_names" (Json.list? Json.string?))
        (← r.required "column_types" (Json.list? inner?)))
    | .unknown => (UnknownType.ofJson? j).map .unknown
    | .void => (j.record? []).map fun _ => .void

/-- Read a type. -/
def ofJson? (j : Json) : Option SqlType :=
  if j.isReadable then ofJsonWithin? Form.ofJson? j.depth j else none

end SqlType

namespace Column

def toJson (c : Column) : Json :=
  .object [("name", .string c.name), ("table_oid", .ofUInt32 c.table),
    ("table_name", .string c.tableName), ("order", .ofInt16 c.order), ("ty", c.type.toJson),
    ("nullable", .bool c.nullable)]

def ofJson? (j : Json) : Option Column := do
  let r ← j.record? ["name", "table_oid", "table_name", "order", "ty", "nullable"]
  some
    { name := ← r.required "name" Json.string?
      table := ← r.required "table_oid" Json.uint32?
      tableName := ← r.required "table_name" Json.string?
      order := ← r.required "order" Json.int16?
      type := ← r.required "ty" SqlType.ofJson?
      nullable := ← r.required "nullable" Json.bool? }

end Column

end TypedSql
