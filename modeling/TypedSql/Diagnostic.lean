import TypedSql.Named

/-!
# Diagnostics

A diagnostic is a coded message about a query file, with a severity, an optional place and the
name of the query it speaks of. Codes are a fixed vocabulary that other tools rely on: their
names never change.
-/

namespace TypedSql

/-- How grave a diagnostic is. Only errors fail a run. -/
inductive Severity where
  | info
  | warn
  | error
  deriving DecidableEq

namespace Severity

instance : Named Severity where
  all := [.info, .warn, .error]
  name
    | .info => "info"
    | .warn => "warn"
    | .error => "error"
  find_name := by intro a; cases a <;> decide

/-- The form in messages and reports. -/
def text (s : Severity) : String := Named.name s

/-- The form in a summary for people. -/
def label : Severity → String
  | .info => "INFO"
  | .warn => "WARN"
  | .error => "ERROR"

end Severity

/-- The fixed vocabulary of diagnostics. -/
inductive DiagnosticCode where
  /-- A character that may not stand in a query file. -/
  | scanIllegalCharacter
  /-- A string literal without its closing quote. -/
  | scanUnterminatedString
  /-- A quoted identifier without its closing quote. -/
  | scanUnterminatedIdentifier
  /-- A block comment without its end. -/
  | scanUnterminatedComment
  /-- A statement without an annotation. -/
  | parseAnnotationMissing
  /-- An annotation that breaks its grammar. -/
  | parseAnnotationInvalid
  /-- A statement that runs into the end of the file. -/
  | parseUnterminatedQuery
  /-- A file with more errors than are recorded. -/
  | parseTooManyErrors
  /-- A malformed statement that keeps its file from being typed. -/
  | parseBadQuery
  /-- A type that could not be resolved. -/
  | resolveUnresolvedType
  /-- A table column that the catalog does not know. -/
  | resolveMissingColumn
  /-- Types that depend on each other in a circle. -/
  | resolveDependencyCycle
  /-- A failed catalog request. -/
  | catalogQueryFailed
  /-- A catalog request that ran past its deadline. -/
  | catalogTimeout
  /-- A statement with another number of parameters than it declares. -/
  | catalogParamMismatch
  /-- General information. -/
  | info
  /-- A general warning. -/
  | warning
  deriving DecidableEq

namespace DiagnosticCode

instance : Named DiagnosticCode where
  all := [.scanIllegalCharacter, .scanUnterminatedString, .scanUnterminatedIdentifier,
    .scanUnterminatedComment, .parseAnnotationMissing, .parseAnnotationInvalid,
    .parseUnterminatedQuery, .parseTooManyErrors, .parseBadQuery, .resolveUnresolvedType,
    .resolveMissingColumn, .resolveDependencyCycle, .catalogQueryFailed, .catalogTimeout,
    .catalogParamMismatch, .info, .warning]
  name
    | .scanIllegalCharacter => "SCAN_ILLEGAL_CHARACTER"
    | .scanUnterminatedString => "SCAN_UNTERMINATED_STRING"
    | .scanUnterminatedIdentifier => "SCAN_UNTERMINATED_IDENTIFIER"
    | .scanUnterminatedComment => "SCAN_UNTERMINATED_COMMENT"
    | .parseAnnotationMissing => "PARSE_MISSING_ANNOTATION"
    | .parseAnnotationInvalid => "PARSE_INVALID_ANNOTATION"
    | .parseUnterminatedQuery => "PARSE_UNTERMINATED_QUERY"
    | .parseTooManyErrors => "PARSE_TOO_MANY_ERRORS"
    | .parseBadQuery => "PARSE_BAD_QUERY"
    | .resolveUnresolvedType => "RESOLVE_UNRESOLVED_TYPE"
    | .resolveMissingColumn => "RESOLVE_MISSING_COLUMN"
    | .resolveDependencyCycle => "RESOLVE_DEPENDENCY_CYCLE"
    | .catalogQueryFailed => "CATALOG_QUERY_FAILED"
    | .catalogTimeout => "CATALOG_TIMEOUT"
    | .catalogParamMismatch => "CATALOG_PARAM_MISMATCH"
    | .info => "INFO"
    | .warning => "WARNING"
  find_name := by intro a; cases a <;> decide

/-- The stable name. -/
def text (c : DiagnosticCode) : String := Named.name c

end DiagnosticCode

/-- A place in a query file, as exact as it is known. -/
structure Location where
  /-- The path of the file, as it was given. -/
  file : String
  line : Option Nat
  column : Option Nat
  deriving DecidableEq

namespace Location

/-- A whole file. -/
def ofFile (file : String) : Location := ⟨file, none, none⟩

/-- A character of a file. -/
def point (file : String) (line column : Nat) : Location := ⟨file, some line, some column⟩

/-- The form in messages. A column is shown only behind a line. -/
def text (l : Location) : String :=
  match l.line, l.column with
  | some line, some column => s!"{l.file}:{line}:{column}"
  | some line, none => s!"{l.file}:{line}"
  | none, _ => l.file

end Location

/-- A coded message. -/
structure Diagnostic where
  code : DiagnosticCode
  severity : Severity
  message : String
  location : Option Location
  /-- The name of the query that the message speaks of. -/
  query : Option String
  deriving DecidableEq

namespace Diagnostic

/-- An error about nothing more definite yet. -/
def error (code : DiagnosticCode) (message : String) : Diagnostic :=
  ⟨code, .error, message, none, none⟩

/-- The same message about a place. -/
def withLocation (d : Diagnostic) (location : Location) : Diagnostic :=
  { d with location := some location }

/-- The same message about a query. -/
def withQuery (d : Diagnostic) (query : String) : Diagnostic :=
  { d with query := some query }

/-- The form on one line. -/
def text (d : Diagnostic) : String :=
  let place := match d.location with
    | some location => location.text ++ ": "
    | none => ""
  s!"{place}{d.severity.text} [{d.code.text}] {d.message}"

end Diagnostic

end TypedSql
