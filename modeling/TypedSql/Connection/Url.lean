import TypedSql.Connection.Pairs

/-!
# Connection strings in the form of an address

An address starts with a scheme. Behind it stand, all of them optional, a user with a password
before an at sign, hosts with ports, a database behind a slash, and further settings behind a
question mark. All parts may hold bytes that are written by percent signs.
-/

namespace TypedSql

namespace ConnectionTarget

/-- The address behind its scheme. -/
def afterScheme? (s : List Char) : Option (List Char) :=
  (Text.afterStart "postgres://".toList s).or (Text.afterStart "postgresql://".toList s)

/-- Add the user and the password, if there are any. The rest of the address comes second. -/
def credentials? (s : List Char) : Option (ConnectionTarget × List Char) :=
  match Text.splitAtFirst '@' s with
  | none => some (empty, s)
  | some (credentials, rest) =>
    match Text.splitAtFirst ':' credentials with
    | none => do
      let user ← Text.percentDecoded? credentials
      some ({ empty with user := some user }, rest)
    | some (user, password) => do
      let user ← Text.percentDecoded? user
      some ({ empty with user := some user, password := some (Text.percentDecode password) },
        rest)

/-- Add a host. A directory may hold any bytes. -/
def addHost? (t : ConnectionTarget) (s : List Char) : Option ConnectionTarget :=
  let bytes := Text.percentDecode s
  if bytes.head? = some 47 then some { t with hosts := t.hosts ++ [.socket bytes] }
  else bytes.text?.map fun name => { t with hosts := t.hosts ++ [Host.ofText name] }

/-- A host and the port behind its colon. A host between square brackets may hold colons. -/
def hostAndPort? (s : List Char) : Option (List Char × Option (List Char)) :=
  match s with
  | '[' :: inner =>
    match Text.splitAtFirst ']' inner with
    | none => none
    | some (host, []) => some (host, none)
    | some (host, ':' :: port) => some (host, some port)
    | some _ => none
  | s =>
    match Text.splitAtFirst ':' s with
    | none => some (s, none)
    | some (host, port) => some (host, some port)

/-- Add hosts, each with its port. -/
def addHosts? : List (List Char) → ConnectionTarget → Option ConnectionTarget
  | [], t => some t
  | s :: rest, t => do
    let (host, port) ← hostAndPort? s
    let t ← t.addHost? host
    let port ← Text.percentDecoded? (port.getD ['5', '4', '3', '2'])
    addHosts? rest (← t.set? "port" port)

/-- Add the settings behind the question mark. -/
def addSettings? : (fuel : Nat) → List Char → ConnectionTarget → Option ConnectionTarget
  | 0, _, t => some t
  | _, [], t => some t
  | fuel + 1, s, t => do
    let (key, rest) ← Text.splitAtFirst '=' s
    let key ← Text.percentDecoded? key
    let (value, rest) := (Text.splitAtFirst '&' rest).getD (rest, [])
    let t ← if key = "host" then t.addHost? value else do t.set? key (← Text.percentDecoded? value)
    addSettings? fuel rest t

/-- Read an address behind its scheme. -/
def ofAddress? (s : List Char) : Option ConnectionTarget := do
  let (t, s) ← credentials? s
  let isEnd (c : Char) : Bool := c == '/' || c == '?'
  let hosts := s.takeWhile fun c => !isEnd c
  let s := s.dropWhile fun c => !isEnd c
  let t ← if hosts.isEmpty then some t else addHosts? (Text.pieces ',' hosts) t
  let (database, s) := match s with
    | '/' :: rest => (rest.takeWhile (· != '?'), rest.dropWhile (· != '?'))
    | s => ([], s)
  let t ← if database.isEmpty then some t else
    (Text.percentDecoded? database).map fun name => { t with database := some name }
  match s with
  | '?' :: settings => addSettings? settings.length settings t
  | _ => some t

/-- Read a connection string of either form. -/
def ofText? (text : String) : Option ConnectionTarget :=
  match afterScheme? text.toList with
  | some address => ofAddress? address
  | none => ofPairs? text.toList

end ConnectionTarget

end TypedSql
