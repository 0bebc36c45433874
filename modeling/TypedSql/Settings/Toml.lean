import TypedSql.Settings
import TypedSql.Toml.Read
import TypedSql.Toml.Record
import TypedSql.Toml.Write

/-!
# Settings in TOML

Settings are read from a TOML file and can be written to one. All entries can be left out of the
file, and entries that are no settings are ignored.
-/

namespace TypedSql

namespace ConnectionSettings

/-- Read the settings of a connection. -/
def ofToml? (t : Toml) : Option ConnectionSettings := do
  let r ← t.record? ["url", "host", "port", "dbname", "user", "password", "tls"]
  some
    { url := ← Toml.optional r "url" Toml.string?
      host := ← Toml.optional r "host" Toml.string?
      port := ← Toml.optional r "port" Toml.uint16?
      database := ← Toml.optional r "dbname" Toml.string?
      user := ← Toml.optional r "user" Toml.string?
      password := ← Toml.optional r "password" Toml.string?
      tls := ← Toml.defaulted r "tls" false Toml.bool? }

/-- The lines of the settings of a connection. -/
def tomlLines (s : ConnectionSettings) : List Char :=
  let line (key : String) (value : Option String) : List Char :=
    match value with
    | some text => Toml.writeTextLine key text
    | none => []
  let portLine := match s.port with
    | some port => Toml.writeNatLine "port" port.toNat
    | none => []
  line "url" s.url ++ line "host" s.host ++ portLine ++ line "dbname" s.database ++
    line "user" s.user ++ line "password" s.password ++ Toml.writeBoolLine "tls" s.tls

end ConnectionSettings

namespace Settings

/-- Read settings, valid or not. -/
def ofToml? (t : Toml) : Option Settings := do
  let r ← t.record? ["namespace", "catalog_timeout_ms", "connection", "exclude"]
  some
    { ns := ← Toml.defaulted r "namespace" default.ns Toml.string?
      catalogTimeout :=
        ⟨← Toml.defaulted r "catalog_timeout_ms" default.catalogTimeout.milliseconds
          Toml.natural?⟩
      connection := ← Toml.optional r "connection" ConnectionSettings.ofToml?
      exclude := ← Toml.defaulted r "exclude" default.exclude (Toml.list? Toml.string?)
      root := default.root }

/-- Read settings from the text of a file. -/
def ofText (text : String) : Except SettingsError Settings :=
  match (Toml.read? text).bind ofToml? with
  | some s => s.validated
  | none => .error .malformed

/-- The text of a file with these settings. -/
def text (s : Settings) : String :=
  let connection := match s.connection with
    | some connection => Toml.writeTable "connection" connection.tomlLines
    | none => []
  String.ofList
    (Toml.writeTextLine "namespace" s.ns ++
      Toml.writeNatLine "catalog_timeout_ms" s.catalogTimeout.milliseconds ++
      Toml.writeLine "exclude" (Toml.writeTexts s.exclude) ++ connection)

variable {m : Type → Type} [Monad m]

/-- Read settings from a file. They belong to the directory of the file. -/
def load (disk : Disk m) (path : Path) : m (Except SettingsError Settings) := do
  match ← disk.readText path with
  | .error cause => pure (.error (.unreadable cause))
  | .ok text => pure ((ofText text).map fun s => { s with root := path.parent })

/-- Write settings to a file. -/
def save (disk : Disk m) (path : Path) (s : Settings) : m (Except SettingsError Unit) := do
  match ← disk.write path (.ofText s.text) with
  | .error cause => pure (.error (.unwritable cause))
  | .ok () => pure (.ok ())

end Settings

end TypedSql
