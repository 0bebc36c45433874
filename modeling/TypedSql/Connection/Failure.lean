import TypedSql.Catalog
import TypedSql.Connection.Url

/-!
# Connections that fail

A connection fails because its connection string cannot be read, or because no server answers
where the string says. Only the first host and the first port are named.
-/

namespace TypedSql

namespace ConnectionSettings

/-- Why a connection fails where no server answers. -/
def failure (s : ConnectionSettings) : CatalogError :=
  match ConnectionTarget.ofText? s.text with
  | none => .config "Invalid connection string"
  | some target =>
    let place := s!"{target.hostText}:{target.port.toNat}"
    let way := if s.tls then " with TLS" else ""
    .connection s!"Failed to connect to PostgreSQL at {place}{way}"

end ConnectionSettings

end TypedSql
