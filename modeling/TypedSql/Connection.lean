/-!
# Connection settings

How to reach the database is given by one connection string, or by parts of which a connection
string is made. A connection string wins over the parts.
-/

namespace TypedSql

/-- The settings of a connection. -/
structure ConnectionSettings where
  /-- A whole connection string. -/
  url : Option String
  host : Option String
  port : Option UInt16
  database : Option String
  user : Option String
  password : Option String
  /-- Whether to connect over TLS. -/
  tls : Bool
  deriving DecidableEq

namespace ConnectionSettings

/-- Nothing set. -/
def unset : ConnectionSettings :=
  { url := none
    host := none
    port := none
    database := none
    user := none
    password := none
    tls := false }

def ofUrl (url : String) : ConnectionSettings :=
  { unset with url := some url }

/-- The port of a database that does not say otherwise. -/
def defaultPort : UInt16 := 5432

/-- The connection string. Parts are written as they are. -/
def text (s : ConnectionSettings) : String :=
  match s.url with
  | some url => url
  | none =>
    let pair (name value : String) : String := s!"{name}={value}"
    let pairOf (name : String) (value : Option String) : List String :=
      (value.map (pair name)).toList
    " ".intercalate
      ([pair "host" (s.host.getD "localhost"),
          pair "port" (toString (s.port.getD defaultPort).toNat)] ++
        pairOf "dbname" s.database ++ pairOf "user" s.user ++ pairOf "password" s.password)

end ConnectionSettings

end TypedSql
