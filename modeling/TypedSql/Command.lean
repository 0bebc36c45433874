import TypedSql.Path

/-!
# Commands

The program has two commands. Checking reads query files and reports their errors. Inference
also types the queries against a database and writes the report. Options that belong to no
command in particular may stand before its name or behind it.
-/

namespace TypedSql

/-- What the program is asked to do with query files. -/
inductive Command where
  | check (paths : List Path)
  /-- The report is written to `output`. -/
  | infer (paths : List Path) (output : Path) (tls : Bool)
  deriving DecidableEq

/-- The options of all commands. -/
structure CommandOptions where
  /-- The file of the settings, if it is not the usual one. -/
  config : Option Path
  verbose : Bool
  deriving DecidableEq

/-- What a text of help is about. -/
inductive HelpTopic where
  | program
  | check
  | infer
  | help
  deriving DecidableEq

/-- What the arguments of the program ask for. -/
inductive Invocation where
  | run (options : CommandOptions) (command : Command)
  | help (topic : HelpTopic)
  | version
  /-- The arguments make no sense. -/
  | misuse
  deriving DecidableEq

namespace Command

/-- The usual file of the settings. -/
def usualConfig : Path := ⟨"querygen.toml"⟩

/-- The usual file of the report. -/
def usualOutput : Path := ⟨"report.json"⟩

/-- The name and the version of the program. -/
def versionLine : String := "querygen 0.1.0"

end Command

namespace HelpTopic

/-- The option for the file of the settings. -/
def configLine : String :=
  "  -c, --config <CONFIG>  Path to config file (default: querygen.toml)"

/-- The option for more output. -/
def verboseLine : String := "  -v, --verbose          Enable verbose output"

/-- The option for help. -/
def helpLine : String := "  -h, --help             Print help"

/-- The operands of both commands. -/
def pathLines : List String :=
  ["Arguments:", "  <PATHS>...  Query files or directories of query files"]

/-- The lines of a text of help. -/
def lines : HelpTopic → List String
  | .program =>
    ["querygen - typed query descriptors from annotated SQL", "",
      "Usage: querygen [OPTIONS] <COMMAND>", "",
      "Commands:",
      "  check  Parse query files and report syntax errors",
      "  infer  Infer query types against the catalog database",
      "  help   Print this message or the help of the given subcommand(s)", "",
      "Options:", configLine, verboseLine, helpLine,
      "  -V, --version          Print version"]
  | .check =>
    ["Parse query files and report syntax errors", "",
      "Usage: querygen check [OPTIONS] <PATHS>...", ""] ++ pathLines ++
    ["", "Options:", configLine, verboseLine, helpLine]
  | .infer =>
    ["Infer query types against the catalog database", "",
      "Usage: querygen infer [OPTIONS] <PATHS>...", ""] ++ pathLines ++
    ["", "Options:", configLine,
      "  -o, --output <OUTPUT>  Output file for report.json [default: report.json]",
      "      --tls              Connect to the database over TLS",
      verboseLine, helpLine]
  | .help =>
    ["Print this message or the help of the given subcommand(s)", "",
      "Usage: querygen help [COMMAND]...", "",
      "Arguments:", "  [COMMAND]...  Print help for the subcommand(s)"]

end HelpTopic

end TypedSql
