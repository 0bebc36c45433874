import TypedSql.SqlType

/-!
# Built-in types

The types that every database knows under the same identifiers. They need no catalog: a scalar
is its identifier and name, an array is given by its element, and there is the void type.
-/

namespace TypedSql

namespace Builtin

/-- The built-in scalars. -/
def scalars : List (Oid × String) := [
  (16, "bool"), (17, "bytea"), (18, "char"), (19, "name"), (20, "int8"), (21, "int2"),
  (23, "int4"), (24, "regproc"), (25, "text"), (26, "oid"), (27, "tid"), (28, "xid"),
  (29, "cid"), (114, "json"), (142, "xml"), (600, "point"), (601, "lseg"), (602, "path"),
  (603, "box"), (604, "polygon"), (628, "line"), (650, "cidr"), (700, "float4"), (701, "float8"),
  (718, "circle"), (774, "macaddr8"), (790, "money"), (829, "macaddr"), (869, "inet"),
  (1042, "bpchar"), (1043, "varchar"), (1082, "date"), (1083, "time"), (1114, "timestamp"),
  (1184, "timestamptz"), (1186, "interval"), (1266, "timetz"), (1560, "bit"), (1562, "varbit"),
  (1700, "numeric"), (2205, "regclass"), (2206, "regtype"), (2950, "uuid"), (3614, "tsvector"),
  (3615, "tsquery"), (3802, "jsonb"), (3904, "int4range"), (3906, "numrange"), (3908, "tsrange"),
  (3910, "tstzrange"), (3912, "daterange"), (3926, "int8range")]

/-- The built-in arrays, with the scalar of their elements. -/
def arrays : List (Oid × String × Oid) := [
  (143, "_xml", 142), (199, "_json", 114), (651, "_cidr", 650), (1000, "_bool", 16),
  (1001, "_bytea", 17), (1002, "_char", 18), (1003, "_name", 19), (1005, "_int2", 21),
  (1007, "_int4", 23), (1009, "_text", 25), (1014, "_bpchar", 1042), (1015, "_varchar", 1043),
  (1016, "_int8", 20), (1021, "_float4", 700), (1022, "_float8", 701), (1028, "_oid", 26),
  (1040, "_macaddr", 829), (1041, "_inet", 869), (1115, "_timestamp", 1114),
  (1182, "_date", 1082), (1183, "_time", 1083), (1185, "_timestamptz", 1184),
  (1187, "_interval", 1186), (1231, "_numeric", 1700), (2951, "_uuid", 2950),
  (3807, "_jsonb", 3802)]

/-- The built-in scalar of an identifier. -/
def scalar? (oid : Oid) : Option SqlType :=
  (scalars.lookup oid).map fun name => .base ⟨oid, name⟩

/-- The built-in array of an identifier. -/
def array? (oid : Oid) : Option SqlType := do
  let (name, element) ← arrays.lookup oid
  let element ← scalar? element
  some (.array oid name element)

/-- The built-in type of an identifier. -/
def type? (oid : Oid) : Option SqlType :=
  if oid = SqlType.voidOid then some .void
  else
    match scalar? oid with
    | some t => some t
    | none => array? oid

/-- All built-in types: scalars, arrays, void. -/
def types : List SqlType :=
  scalars.filterMap (fun (oid, _) => scalar? oid) ++
    arrays.filterMap (fun (oid, _) => array? oid) ++ [.void]

end Builtin

end TypedSql
