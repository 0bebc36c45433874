import TypedSql.Resolution

/-!
# Fetching columns

Columns of any tables are fetched with one request for all that are not cached, and the types of
all of them are resolved together.
-/

namespace TypedSql

namespace ColumnKey

/-- The condition for one key: the table and the number are two parameters. -/
def condition (index : Nat) : String :=
  s!"(cls.oid = ${2 * index + 1} AND attr.attnum = ${2 * index + 2})"

/-- The statement by which a database finds columns. Each key gives two parameters, its table
and its number. -/
def statement (keys : List ColumnKey) : String :=
  let conditions :=
    if keys.isEmpty then "false"
    else "\n   OR ".intercalate ((List.range keys.length).map condition)
  "SELECT cls.oid::int8, cls.relname::text, attr.attnum, attr.attname::text, " ++
  "attr.atttypid::int8, attr.attnotnull\n" ++
  "FROM pg_catalog.pg_class cls\n" ++
  "JOIN pg_catalog.pg_attribute attr ON attr.attrelid = cls.oid\n" ++
  "WHERE " ++ conditions

end ColumnKey

namespace Resolution

/-- Put columns into the cache, one after another. -/
def storeColumns (types : TypeMap) : List ColumnRow → Task ResolveError Unit
  | [] => pure ()
  | row :: rows =>
    match types[row.typeOid]? with
    | some t => .addColumn (row.column t) (storeColumns types rows)
    | none => .fail (.unresolved [row.typeOid])

/-- Look up cached columns until one is not found. -/
def readColumns : List ColumnKey → Task ResolveError (List Column)
  | [] => pure []
  | key :: keys => do
    match ← Task.cachedColumn key with
    | some column => do
      let rest ← readColumns keys
      pure (column :: rest)
    | none => .fail (.missingColumn key)

/-- The columns of some keys, in order, or fail. -/
def fetchColumns (keys : List ColumnKey) : Task ResolveError (List Column) :=
  .readColumns fun cache => do
    let missing := cache.missing keys
    if !missing.isEmpty then
      let rows ← Task.request .catalog (.findColumns missing)
      let types ← resolveTypes (rows.map (·.typeOid))
      storeColumns types rows
    readColumns keys

end Resolution

end TypedSql
