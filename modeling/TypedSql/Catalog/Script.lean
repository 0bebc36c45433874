import TypedSql.Catalog

/-!
# Scripted catalogs

A script takes the place of a catalog for some kinds of requests: it lets them fail, or answers
them with rows of its own. All other requests go through to the catalog behind it. So a catalog can
be had whose answers do not fit together, as those of a memory catalog always do.
-/

namespace TypedSql

/-- A scripted row about a type. -/
structure ScriptedRow (α : Type) where
  row : α
  /-- Whether it is given also to those that did not ask for its type. -/
  loose : Bool

/-- The answers of a script. -/
inductive ScriptedAnswer where
  | error (error : CatalogError)
  | descendants (oids : List Oid)
  | enums (rows : List (ScriptedRow EnumType))
  | domains (rows : List (ScriptedRow DomainRow))
  | composites (rows : List (ScriptedRow CompositeRow))
  | arrays (rows : List (ScriptedRow ArrayRow))
  | unknown (rows : List (ScriptedRow UnknownType))
  | columns (rows : List ColumnRow)

/-- A script: an answer for each kind of request that it takes over. -/
def Script := Operation → Option ScriptedAnswer

namespace Script

/-- The script that leaves everything to the catalog. -/
def silent : Script := fun _ => none

/-- The rows that were asked for. -/
def asked {α : Type} (oid : α → Oid) (oids : List Oid) (rows : List (ScriptedRow α)) : List α :=
  (rows.filter fun r => r.loose || oids.contains (oid r.row)).map (·.row)

/-- The rows of an answer that a request is given, if the answer is of the right kind. -/
def rows? : ScriptedAnswer → (request : Request) → Option request.Answer
  | .descendants oids, .findDescendants _ => some oids
  | .enums rows, .findEnums oids => some (asked EnumType.oid oids rows)
  | .domains rows, .findDomains oids => some (asked DomainRow.oid oids rows)
  | .composites rows, .findComposites oids => some (asked CompositeRow.oid oids rows)
  | .arrays rows, .findArrays oids => some (asked ArrayRow.oid oids rows)
  | .unknown rows, .findUnknown oids => some (asked UnknownType.oid oids rows)
  | .columns rows, .findColumns _ => some rows
  | _, _ => none

/-- The scripted answer to a request. -/
def answer? (s : Script) (request : Request) : Option (Except CatalogError request.Answer) :=
  match s request.operation with
  | some (.error error) => some (.error error)
  | some answer => (rows? answer request).map .ok
  | none => none

/-- The script in front of a catalog. Scripted answers take no time. -/
def onTopOf (s : Script) (catalog : Catalog) : Catalog where
  reply request :=
    match s.answer? request with
    | some result => ⟨⟨0⟩, result⟩
    | none => catalog.reply request

/-- The requests that get through to the catalog behind the script. -/
def passed (s : Script) (requests : List Request) : List Request :=
  requests.filter fun request => (s.answer? request).isNone

end Script

end TypedSql
