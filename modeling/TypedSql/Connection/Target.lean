import TypedSql.Connection
import TypedSql.Connection.Address
import TypedSql.Text.Bytes

/-!
# What a connection string says

A connection string is a list of settings, each a key with a value. Most of them are only
checked here; what is kept is whom to connect as, with which database, and where the server may
listen. Later settings win, except that hosts and ports add up.
-/

namespace TypedSql

/-- Where a server listens. -/
inductive Host where
  | network (name : String)
  /-- A directory with a socket. -/
  | socket (directory : Bytes)
  deriving DecidableEq

namespace Host

/-- A host that starts with a slash is a directory. -/
def ofText (s : String) : Host :=
  if s.toList.head? = some '/' then .socket (.ofText s) else .network s

/-- The form in messages. -/
def text : Host → String
  | .network name => "Tcp(" ++ Text.quoted name ++ ")"
  | .socket directory => "Unix(" ++ directory.quoted ++ ")"

end Host

/-- The settings of a connection string. -/
structure ConnectionTarget where
  user : Option String
  password : Option Bytes
  database : Option String
  hosts : List Host
  ports : List UInt16
  /-- The other settings, in order. -/
  others : List (String × String)
  deriving DecidableEq

namespace ConnectionTarget

/-- No settings. -/
def empty : ConnectionTarget :=
  { user := none
    password := none
    database := none
    hosts := []
    ports := []
    others := [] }

/-- A port in a list of ports; an empty one is the usual one. -/
def port? (s : List Char) : Option UInt16 :=
  if s.isEmpty then some ConnectionSettings.defaultPort
  else (Text.natural? 65535 s).map UInt16.ofNat

/-- Whether a setting that is not kept has a value of its kind. -/
def accepts (key value : String) : Bool :=
  let s := value.toList
  let isInt64 := (Text.integer? (-9223372036854775808) 9223372036854775807 s).isSome
  match key with
  | "options" | "application_name" => true
  | "sslmode" => ["disable", "prefer", "require"].contains value
  | "sslnegotiation" => ["postgres", "direct"].contains value
  | "hostaddr" => (Text.pieces ',' s).all Address.isNumeric
  | "connect_timeout" | "tcp_user_timeout" | "keepalives_idle" | "keepalives_interval" => isInt64
  | "keepalives" => (Text.natural? 18446744073709551615 s).isSome
  | "keepalives_retries" => (Text.natural? 4294967295 s).isSome
  | "target_session_attrs" => ["any", "read-write", "read-only"].contains value
  | "channel_binding" => ["disable", "prefer", "require"].contains value
  | "load_balance_hosts" => ["disable", "random"].contains value
  | _ => false

/-- Add a setting. -/
def set? (t : ConnectionTarget) (key value : String) : Option ConnectionTarget :=
  match key with
  | "user" => some { t with user := some value }
  | "password" => some { t with password := some (.ofText value) }
  | "dbname" => some { t with database := some value }
  | "host" =>
    let hosts := (Text.pieces ',' value.toList).map fun s => Host.ofText (String.ofList s)
    some { t with hosts := t.hosts ++ hosts }
  | "port" =>
    ((Text.pieces ',' value.toList).mapM port?).map fun ports =>
      { t with ports := t.ports ++ ports }
  | _ => if accepts key value then some { t with others := t.others ++ [(key, value)] } else none

/-- The host that is named first. -/
def hostText (t : ConnectionTarget) : String :=
  match t.hosts with
  | host :: _ => host.text
  | [] => "localhost"

/-- The port that is named first. -/
def port (t : ConnectionTarget) : UInt16 :=
  t.ports.head?.getD ConnectionSettings.defaultPort

end ConnectionTarget

end TypedSql
