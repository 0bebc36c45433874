import TypedSql.Command
import TypedSql.EnvFile
import TypedSql.Inference
import TypedSql.QueryFile.Collect
import TypedSql.Report.Check
import TypedSql.Report.Json
import TypedSql.Report.Summary
import TypedSql.Settings.Toml

/-!
# Running commands

A run reads the settings and the query files, does what the command asks for, and shows the
summary of the report. It ends without a summary at the first failure outside of the query
files. The report of an inference is written only when every file was typed.

A run knows the world by its `Surroundings` alone: a disk, the environment, the time and a way to
connect to a database.
-/

namespace TypedSql

/-- A connected database. -/
structure Server where
  catalog : Catalog
  host : String
  port : UInt16
  database : String

/-- What a run knows of the world. -/
structure Surroundings (m : Type → Type) where
  disk : Disk m
  /-- The value of a name in the environment. -/
  environment : String → m (Option String)
  /-- How many directories the working directory is below. -/
  depth : Nat
  /-- The time of the report. -/
  timestamp : String
  connect : ConnectionSettings → m (Except CatalogError Server)

/-- Why a run ends without a report. -/
inductive Failure where
  /-- The usual file of the settings is no good. -/
  | settings (cause : SettingsError)
  /-- A file of settings that was asked for is no good. -/
  | settingsFile (path : Path) (cause : SettingsError)
  /-- There is nothing at a path. -/
  | pathNotFound (path : Path)
  | queryFile (path : Path) (cause : FileError)
  /-- Nothing says which database to connect to. -/
  | noConnection
  | catalog (cause : CatalogError)
  /-- The report could not be written. -/
  | reportFile (cause : FileError)

namespace Failure

def message : Failure → String
  | .settings cause => cause.message
  | .settingsFile path _ => s!"Failed to load {path.text}"
  | .pathNotFound path => s!"Query path not found: {path.text}"
  | .queryFile path cause => s!"failed to read query file {path.text}: {cause.message}"
  | .noConnection =>
    "No database connection configured. Add a [connection] section to querygen.toml or set " ++
      "DATABASE_URL."
  | .catalog cause => cause.message
  | .reportFile cause => cause.message

/-- What is shown as the cause of the failure. -/
def cause? : Failure → Option String
  | .settingsFile _ cause => some cause.message
  | .queryFile _ cause => some cause.message
  | _ => none

/-- A text with each of its lines moved to the right. -/
def indented (text : String) : List String :=
  (Text.pieces '\n' text.toList).map fun line => "    " ++ String.ofList line

/-- The lines about a failure. -/
def lines (f : Failure) : List String :=
  s!"Error: {f.message}" ::
    match f.cause? with
    | some cause => "" :: "Caused by:" :: indented cause
    | none => []

end Failure

/-- What a run leaves behind. Line by line, without line ends. -/
structure Outcome where
  exitCode : UInt8
  output : List String
  /-- What was said beside the output. -/
  messages : List String
  deriving DecidableEq

/-- A part of a run: it may fail, and it may say something on the way. -/
abbrev Running (m : Type → Type) := ExceptT Failure (StateT (List String) m)

namespace Command

variable {m : Type → Type} [Monad m]

/-- Say something if the user wants to hear of it. -/
def say (options : CommandOptions) (line : String) : Running m Unit :=
  if options.verbose then modify (· ++ [line]) else pure ()

/-- Do something that may fail. -/
def orFail {α ε : Type} (wrap : ε → Failure) (act : m (Except ε α)) : Running m α := do
  match ← (liftM act : Running m (Except ε α)) with
  | .ok value => pure value
  | .error cause => throw (wrap cause)

/-- The settings of a run. The usual file need not be there. -/
def settings (s : Surroundings m) (options : CommandOptions) : Running m Settings := do
  match options.config with
  | some path => orFail (.settingsFile path) (Settings.load s.disk path)
  | none =>
    match ← (liftM (s.disk.kind? usualConfig) : Running m (Option FileKind)) with
    | some _ => orFail .settings (Settings.load s.disk usualConfig)
    | none =>
      say options "No config file found, using defaults"
      pure Settings.default

/-- How a file that was read is told of. -/
def fileLine (p : ParsedFile) : String :=
  if p.hasErrors then s!"  ✗ {p.file.name} ({p.errors.length} errors)" else s!"  ✓ {p.file.name}"

/-- Read query files. -/
def readFiles (s : Surroundings m) (options : CommandOptions) (ns : String) :
    List Path → Running m (List ParsedFile)
  | [] => pure []
  | path :: rest => do
    let p ← orFail (.queryFile path) (QueryFile.load s.disk ns path)
    say options (fileLine p)
    let more ← readFiles s options ns rest
    pure (p :: more)

/-- Read the query files that paths name. -/
def readPaths (s : Surroundings m) (options : CommandOptions) (settings : Settings)
    (paths : List Path) : Running m (List ParsedFile) := do
  let files ← orFail .pathNotFound (QueryFile.collect s.disk settings paths)
  say options s!"Parsing {files.length} query files"
  readFiles s options settings.ns files

/-- The environment file of the directory `up` levels above the working directory. -/
def envFileAbove (up : Nat) : Path :=
  ⟨String.join (List.replicate up "../") ++ ".env"⟩

/-- The first of several files that is there. -/
def firstFile? (disk : Disk m) : List Path → m (Option Path)
  | [] => pure none
  | path :: rest => do
    if (← disk.kind? path) = some .file then pure (some path) else firstFile? disk rest

/-- The name under which the environment has a connection string. -/
def urlName : String := "DATABASE_URL"

/-- The connection string of the environment, or else of the nearest environment file. -/
def urlFromEnvironment (s : Surroundings m) : m (Option String) := do
  let path ← firstFile? s.disk ((List.range (s.depth + 1)).map envFileAbove)
  let file ← match path with
    | some path => s.disk.read path
    | none => pure (.ok [])
  let assignments := match file with
    | .ok bytes => EnvFile.assignments bytes
    | .error _ => []
  let assigned ← EnvFile.evaluate s.environment [] assignments
  EnvFile.valueOf s.environment assigned urlName

/-- How to reach the database. -/
def connection (s : Surroundings m) (settings : Settings) (tls : Bool) :
    Running m ConnectionSettings := do
  let found : ConnectionSettings ← match settings.connection with
    | some found => pure found
    | none =>
      match ← (liftM (urlFromEnvironment s) : Running m (Option String)) with
      | some url => pure (.ofUrl url)
      | none => throw .noConnection
  pure { found with tls := found.tls || tls }

/-- Check query files. -/
def runCheck (s : Surroundings m) (options : CommandOptions) (settings : Settings)
    (paths : List Path) : Running m Report := do
  let files ← readPaths s options settings paths
  pure (Report.ofParsed s.timestamp files)

/-- How a file that was typed is told of. -/
def typedLine (file : FileReport) : String :=
  s!"  ✓ {file.path} ({file.queries.length} queries)"

/-- Type query files. Nothing is asked of the database when a file has errors. -/
def runInfer (s : Surroundings m) (options : CommandOptions) (settings : Settings)
    (paths : List Path) (output : Path) (tls : Bool) : Running m Report := do
  let files ← readPaths s options settings paths
  let report := Report.ofErrors s.timestamp files
  if report.hasErrors then pure report
  else
    let target ← connection s settings tls
    let server ← orFail .catalog (s.connect target)
    say options s!"Connected to {server.host}:{server.port.toNat}/{server.database}"
    let task := Inference.inferFiles report (files.map (·.file))
    match (task.run server.catalog settings.catalogTimeout .new).result with
    | .ok (complete, report) =>
      report.files.forM fun file => say options (typedLine file)
      if complete then
        orFail .reportFile (s.disk.write output (.ofText report.text))
        say options s!"Report saved to: {output.text}"
      pure report

/-- Carry out a command. -/
def report (s : Surroundings m) (options : CommandOptions) (command : Command) :
    Running m Report := do
  let settings ← settings s options
  say options s!"Using namespace: {settings.ns}"
  match command with
  | .check paths => runCheck s options settings paths
  | .infer paths output tls => runInfer s options settings paths output tls

/-- Carry out a command and show what came of it. -/
def run (s : Surroundings m) (options : CommandOptions) (command : Command) : m Outcome := do
  let (result, messages) ← ((report s options command).run).run []
  match result with
  | .ok report => pure ⟨if report.hasErrors then 1 else 0, report.summaryLines, messages⟩
  | .error failure => pure ⟨1, [], messages ++ failure.lines⟩

end Command

namespace Invocation

/-- Do what the arguments ask for. -/
def carryOut {m : Type → Type} [Monad m] (s : Surroundings m) : Invocation → m Outcome
  | .run options command => command.run s options
  | .help topic => pure ⟨0, topic.lines, []⟩
  | .version => pure ⟨0, [Command.versionLine], []⟩
  | .misuse => pure ⟨2, [], HelpTopic.program.lines⟩

end Invocation

end TypedSql
