import TypedSql.Catalog.Rows
import TypedSql.Task

/-!
# Resolving types

The catalog knows types by identifiers that point to each other. Resolving makes full types of
them, in a number of requests that does not grow with the number of types: one for everything
that the wanted types are made of, one for each kind of type, and one more for types that are of
none of these kinds. Whatever is resolved goes into the cache, and what is in the cache is not
asked for again.

Building the types needs no request, only the types that are known already. It is written for
any way of looking these up, so that a task can look into the shared cache each time
(`Resolution.types`), while a proof can take them from a table.
-/

namespace TypedSql

/-- Why types or columns could not be resolved. -/
inductive ResolveError where
  | catalog (error : CatalogError)
  /-- The catalog does not know the types. Their number in the message is that of the list. -/
  | unresolved (oids : List Oid)
  /-- The catalog does not know a type that another one is made of. -/
  | missingDependency (oid dependency : Oid)
  /-- The types are part of a circle of dependencies, or made of types that are. -/
  | cycle (oids : List Oid)
  /-- The catalog does not know the column. -/
  | missingColumn (key : ColumnKey)
  deriving DecidableEq

namespace ResolveError

/-- A list of identifiers in a message. -/
def listText (oids : List Oid) : String :=
  let items := ", ".intercalate (oids.map fun oid => toString oid.toNat)
  s!"[{items}]"

def message : ResolveError → String
  | .catalog error => error.message
  | .unresolved oids =>
    let list := listText oids
    s!"{oids.length} type(s) could not be resolved: {list}"
  | .missingDependency oid dependency =>
    s!"type {oid.toNat} depends on type {dependency.toNat}, which the catalog did not describe"
  | .cycle oids =>
    let list := listText oids
    s!"dependency cycle among types {list}"
  | .missingColumn key => s!"column {key.text} not found in catalog"

/-- The code under which the error is reported. -/
def code : ResolveError → DiagnosticCode
  | .catalog error => error.code
  | .unresolved _ | .missingDependency _ _ => .resolveUnresolvedType
  | .cycle _ => .resolveDependencyCycle
  | .missingColumn _ => .resolveMissingColumn

end ResolveError

namespace Resolution

section Building

variable {m : Type → Type} [Monad m] (known : Oid → m (Option SqlType))

/-- The first of some types that is neither a row nor known. -/
def firstMissing (rows : TypeRows) : List Oid → m (Option Oid)
  | [] => pure none
  | oid :: oids =>
    if rows.contains oid then firstMissing rows oids
    else do
      match ← known oid with
      | some _ => firstMissing rows oids
      | none => pure (some oid)

/-- The first of some rows that depends on a type which is neither a row nor known, with that
type. -/
def missingDependency (rows : TypeRows) : List TypeRow → m (Option (Oid × Oid))
  | [] => pure none
  | row :: rest => do
    match ← firstMissing known rows row.dependencies with
    | some dependency => pure (some (row.oid, dependency))
    | none => missingDependency rows rest

/-- Look up a type among those built already, and then among the known ones. -/
def lookup (built : TypeMap) (oid : Oid) : m (Option SqlType) :=
  match built[oid]? with
  | some t => pure (some t)
  | none => known oid

/-- Look up types until one is not found. -/
def lookupAll (built : TypeMap) : List Oid → m (Option (List SqlType))
  | [] => pure (some [])
  | oid :: oids => do
    match ← lookup known built oid with
    | none => pure none
    | some t =>
      match ← lookupAll built oids with
      | none => pure none
      | some ts => pure (some (t :: ts))

/-- The name and the identifier of the base of a domain. -/
def baseOf (t : SqlType) : BaseType := ⟨t.oid, t.name⟩

/-- The type of a row. -/
def build (built : TypeMap) : TypeRow → m (Option SqlType)
  | .enum t => pure (some (.enum t))
  | .unknown t => pure (some (.unknown t))
  | .domain row => do
    let base ← lookup known built row.baseOid
    pure (base.map fun t =>
      .domain ⟨row.oid, row.name, row.notNull, row.hasDefault, baseOf t, row.dimensions⟩)
  | .composite row => do
    let columns ← lookupAll known built row.columnOids
    pure (columns.map fun ts => .composite row.oid row.name row.columnNames ts)
  | .array row => do
    let element ← lookup known built row.elementOid
    pure (element.map fun t => .array row.oid row.name t)

/-- Build rows one after another. -/
def buildAll (built : TypeMap) : List TypeRow → m (Except ResolveError TypeMap)
  | [] => pure (.ok built)
  | row :: rest => do
    match ← build known built row with
    | some t => buildAll (built.insert row.oid t) rest
    | none => pure (.error (.unresolved [row.oid]))

/-- The types of some rows that depend on each other and on known types. -/
def types (rows : TypeRows) : m (Except ResolveError TypeMap) := do
  match ← missingDependency known rows rows.values with
  | some (oid, dependency) => pure (.error (.missingDependency oid dependency))
  | none =>
    match rows.ordered with
    | .error oids => pure (.error (.cycle oids))
    | .ok order => buildAll known ∅ order

end Building

/-- Ask the catalog for types of every kind. -/
def fetchRows (oids : List Oid) : Task ResolveError TypeRows := do
  let enums ← Task.request .catalog (.findEnums oids)
  let domains ← Task.request .catalog (.findDomains oids)
  let composites ← Task.request .catalog (.findComposites oids)
  let arrays ← Task.request .catalog (.findArrays oids)
  let rows := TypeRows.ofRows (enums.map .enum ++ domains.map .domain ++
    composites.map .composite ++ arrays.map .array)
  match oids.filter fun oid => !rows.contains oid with
  | [] => pure rows
  | rest =>
    let unknown ← Task.request .catalog (.findUnknown rest)
    pure (unknown.foldl (fun rows t => rows.insertNew (.unknown t)) rows)

/-- Ask the catalog for types, build them and put them into the cache. -/
def load (oids : List Oid) : Task ResolveError Unit := do
  let rows ← fetchRows oids
  let built ← types Task.cachedType rows
  match built with
  | .error error => .fail error
  | .ok built => .addTypes built.values (pure ())

/-- Those of some types that are not cached when they are looked up. -/
def uncached : List Oid → Task ResolveError (List Oid)
  | [] => pure []
  | oid :: oids => do
    let found ← Task.cachedType oid
    let rest ← uncached oids
    pure (if found.isSome then rest else oid :: rest)

/-- Look up cached types. Those found go to the resolved ones, the others to the missing ones. -/
def collect : List Oid → TypeMap → List Oid → Task ResolveError (TypeMap × List Oid)
  | [], resolved, missing => pure (resolved, missing)
  | oid :: oids, resolved, missing => do
    match ← Task.cachedType oid with
    | some t => collect oids (resolved.insert oid t) missing
    | none => collect oids resolved (if missing.contains oid then missing else missing ++ [oid])

/-- Resolve all of some types, or fail. -/
def resolveTypes (oids : List Oid) : Task ResolveError TypeMap :=
  .readTypes fun cache =>
    let (resolved, unresolved) := cache.split oids
    if unresolved.isEmpty then pure resolved
    else do
      let closure ← Task.request .catalog (.findDescendants unresolved)
      let wanted := (unresolved ++ closure).eraseDups
      .readTypes fun cache => do
        let pending := (cache.split wanted).2
        if !pending.isEmpty then load pending
        let missing ← uncached pending
        let (resolved, missing) ← collect unresolved resolved missing
        if missing.isEmpty then pure resolved
        else .fail (.unresolved (missing.mergeSort fun a b => decide (a ≤ b)))

/-- Resolve one type, or fail. -/
def resolveType (oid : Oid) : Task ResolveError SqlType := do
  let resolved ← resolveTypes [oid]
  match resolved[oid]? with
  | some t => pure t
  | none => .fail (.unresolved [oid])

end Resolution

end TypedSql
