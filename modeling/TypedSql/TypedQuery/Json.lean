import TypedSql.SqlType.Json
import TypedSql.TypedQuery

/-!
# Typed queries in JSON

Comments, default values and the option of the annotation are left out when there are none.
-/

namespace TypedSql

namespace Json

/-- A member that is left out when there is no text. -/
def memberOfText (key : String) (text : Option String) : List (String × Json) :=
  text.toList.map fun t => (key, .string t)

/-- A member that is left out when there are no lines. -/
def memberOfLines (key : String) (lines : List String) : List (String × Json) :=
  if lines.isEmpty then [] else [(key, .ofStrings lines)]

end Json

namespace InputParam

def toJson (p : InputParam) : Json :=
  .object ([("name", .string p.name)] ++ Json.memberOfText "default_value" p.defaultValue ++
    [("type", p.type.toJson)])

def ofJson? (j : Json) : Option InputParam := do
  let r ← j.record? ["name", "default_value", "type"]
  some
    { name := ← r.required "name" Json.string?
      defaultValue := ← r.omittable "default_value" Json.string?
      type := ← r.required "type" SqlType.ofJson? }

end InputParam

namespace OutputColumn

def toJson (c : OutputColumn) : Json :=
  .object [("name", .string c.name), ("type", c.type.toJson), ("nullable", .bool c.nullable)]

def ofJson? (j : Json) : Option OutputColumn := do
  let r ← j.record? ["name", "type", "nullable"]
  some
    { name := ← r.required "name" Json.string?
      type := ← r.required "type" SqlType.ofJson?
      nullable := ← r.required "nullable" Json.bool? }

end OutputColumn

namespace TypedQuery

def toJson (q : TypedQuery) : Json :=
  .object ([("name", .string q.name), ("tag", .ofNamed q.tag), ("result_kind", .ofNamed q.kind)] ++
    Json.memberOfLines "doc_comment" q.doc ++
    [("prepared_sql", .string q.sql), ("inputs", .array (q.inputs.map InputParam.toJson)),
      ("outputs", .array (q.outputs.map OutputColumn.toJson))] ++
    Json.memberOfText "proto_type" q.protoType)

def ofJson? (j : Json) : Option TypedQuery := do
  let r ← j.record? ["name", "tag", "result_kind", "doc_comment", "prepared_sql", "inputs",
    "outputs", "proto_type"]
  some
    { name := ← r.required "name" Json.string?
      tag := ← r.required "tag" Json.named?
      kind := ← r.required "result_kind" Json.named?
      doc := ← r.defaulted "doc_comment" [] (Json.list? Json.string?)
      sql := ← r.required "prepared_sql" Json.string?
      inputs := ← r.required "inputs" (Json.list? InputParam.ofJson?)
      outputs := ← r.required "outputs" (Json.list? OutputColumn.ofJson?)
      protoType := ← r.omittable "proto_type" Json.string? }

end TypedQuery

end TypedSql
