import TypedSql.Plan.Json
import TypedSql.Plan.Nullability
import TypedSql.QueryFile
import TypedSql.Report
import TypedSql.Resolution.Columns

/-!
# Typing queries

A query is typed by asking the catalog to describe it and to plan it, and by resolving all types
that the description names. It gets all its types or fails: nothing is guessed. The typing of a
file stops at its first query that fails, and the typing of several files at the first file.
-/

namespace TypedSql

/-- Why a query could not be typed. -/
inductive QueryError where
  | catalog (error : CatalogError)
  | resolve (error : ResolveError)
  | plan (error : PlanError)
  /-- The query has another number of parameters than the catalog says. -/
  | paramMismatch (declared described : Nat)
  deriving DecidableEq

namespace QueryError

def message : QueryError → String
  | .catalog error => error.message
  | .resolve error => error.message
  | .plan error => error.message
  | .paramMismatch declared described =>
    s!"query declares {declared} parameter(s) but the catalog describes {described}"

/-- The code under which the error is reported. -/
def code : QueryError → DiagnosticCode
  | .catalog error => error.code
  | .resolve error => error.code
  | .plan _ => .catalogQueryFailed
  | .paramMismatch _ _ => .catalogParamMismatch

end QueryError

/-- Why a file could not be typed. -/
inductive InferenceError where
  | query (name : String) (error : QueryError)
  /-- A statement of the file is malformed. -/
  | badQuery (file : String) (line : Nat)
  deriving DecidableEq

namespace InferenceError

def message : InferenceError → String
  | .query name error => s!"query {name}: {error.message}"
  | .badQuery file line => s!"{file}:{line}: malformed query cannot be inferred"

/-- The code under which the error is reported. -/
def code : InferenceError → DiagnosticCode
  | .query _ error => error.code
  | .badQuery _ _ => .parseBadQuery

/-- The error in a report. What is wrong with a query does not repeat its name. -/
def diagnostic (e : InferenceError) (file : String) : Diagnostic :=
  match e with
  | .query name error =>
    ((Diagnostic.error error.code error.message).withLocation (.ofFile file)).withQuery name
  | .badQuery _ line => (Diagnostic.error e.code e.message).withLocation (.point file line 1)

end InferenceError

namespace Inference

/-- The parameters with their types. -/
def inputs (types : TypeMap) : List (String × Oid) → Task QueryError (List InputParam)
  | [] => pure []
  | (name, oid) :: params =>
    match types[oid]? with
    | none => .fail (.resolve (.unresolved [oid]))
    | some type => do
      let rest ← inputs types params
      pure (⟨name, none, type⟩ :: rest)

/-- The results with their types. A result of the void type has no value and is left out. -/
def outputs (types : TypeMap) : List (Field × Bool) → Task QueryError (List OutputColumn)
  | [] => pure []
  | (field, nullable) :: fields =>
    match types[field.typeOid]? with
    | none => .fail (.resolve (.unresolved [field.typeOid]))
    | some type => do
      let rest ← outputs types fields
      pure (if type.isVoid then rest else ⟨field.name, type, nullable⟩ :: rest)

/-- The column behind a result, among the fetched ones. -/
def columnOf (columns : List Column) (field : Field) : Option Column :=
  field.key?.bind fun key => columns.find? fun column => column.key == key

/-- Type one query. -/
def inferQuery (q : SourceQuery) : Task QueryError TypedQuery := do
  let description ← Task.request .catalog (.describe q.preparedSql)
  if description.params.length ≠ q.params.length then
    .fail (.paramMismatch q.params.length description.params.length)
  else
    let explained ← Task.request .catalog (.explain q.preparedSql description.params)
    let plan ← Task.ofExcept ((Plan.ofJson explained).mapError .plan)
    let top ← Task.ofExcept (plan.top.mapError .plan)
    let keys := description.fields.filterMap Field.key?
    let columns ← (Resolution.fetchColumns keys).mapError .resolve
    let nullable := Nullability.infer plan top (description.fields.map (columnOf columns))
    let oids := description.params ++ description.fields.map (·.typeOid)
    let types ← (Resolution.resolveTypes oids).mapError .resolve
    let inputs ← inputs types (q.params.zip description.params)
    let outputs ← outputs types (description.fields.zip nullable)
    pure
      { name := q.name
        tag := top.tag
        kind := q.kind
        doc := q.doc
        sql := q.preparedSql
        inputs := inputs
        outputs := outputs
        protoType := q.protoType }

/-- Type one query, naming it in the failure. -/
def infer (q : SourceQuery) : Task InferenceError TypedQuery :=
  (inferQuery q).mapError (.query q.name)

/-- Type the statements of the file `name`, stopping at the first that fails. -/
def inferStatements (name : String) : List Query → Task InferenceError (List TypedQuery)
  | [] => pure []
  | .bad span :: _ => .fail (.badQuery name span.start.line)
  | .source q :: queries => do
    let typed ← infer q
    let rest ← inferStatements name queries
    pure (typed :: rest)

/-- Type a file. -/
def inferFile (file : QueryFile) : Task InferenceError (List TypedQuery) :=
  inferStatements file.name file.queries

/-- Type files and add them to a report, stopping at the first that fails: its error is then the
last diagnostic. The flag says whether all were typed. -/
def inferFiles (report : Report) : List QueryFile → Task Empty (Bool × Report)
  | [] => pure (true, report)
  | file :: files => do
    match ← (inferFile file).attempt with
    | .ok queries => inferFiles (report.addFile ⟨file.name, file.doc, queries⟩) files
    | .error error => pure (false, report.addDiagnostic (error.diagnostic file.name))

end Inference

end TypedSql
