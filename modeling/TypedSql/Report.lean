import TypedSql.Diagnostic
import TypedSql.TypedQuery

/-!
# Reports

A report collects the typed queries of a run, file by file, and its diagnostics. Its counters
are kept as entries are added, so a report that was built by adding always counts its own lists.
A report that was read from elsewhere may count anything.
-/

namespace TypedSql

/-- The version of the report format. -/
structure ReportVersion where
  /-- Raised by changes that old readers cannot follow. -/
  major : UInt32
  /-- Raised by additions. -/
  minor : UInt32
  deriving DecidableEq

namespace ReportVersion

def current : ReportVersion := ⟨1, 0⟩

def text (v : ReportVersion) : String :=
  s!"{v.major.toNat}.{v.minor.toNat}"

end ReportVersion

/-- The counters of a report. -/
structure ReportSummary where
  /-- All diagnostics. -/
  total : Nat
  errors : Nat
  warnings : Nat
  info : Nat
  files : Nat
  queries : Nat
  deriving DecidableEq

namespace ReportSummary

def zero : ReportSummary := ⟨0, 0, 0, 0, 0, 0⟩

/-- Count one more diagnostic. -/
def addDiagnostic (s : ReportSummary) (severity : Severity) : ReportSummary :=
  let s := { s with total := s.total + 1 }
  match severity with
  | .error => { s with errors := s.errors + 1 }
  | .warn => { s with warnings := s.warnings + 1 }
  | .info => { s with info := s.info + 1 }

/-- Count one more file with its queries. -/
def addFile (s : ReportSummary) (queries : Nat) : ReportSummary :=
  { s with files := s.files + 1, queries := s.queries + queries }

end ReportSummary

/-- The typed queries of one file. -/
structure FileReport where
  path : String
  /-- The comment of the file itself. -/
  doc : List String
  queries : List TypedQuery

/-- The outcome of a run. -/
structure Report where
  version : ReportVersion
  timestamp : String
  summary : ReportSummary
  files : List FileReport
  diagnostics : List Diagnostic

namespace Report

/-- A report without entries. -/
def empty (timestamp : String) : Report :=
  ⟨.current, timestamp, .zero, [], []⟩

def addFile (r : Report) (file : FileReport) : Report :=
  { r with
    summary := r.summary.addFile file.queries.length
    files := r.files ++ [file] }

def addDiagnostic (r : Report) (d : Diagnostic) : Report :=
  { r with
    summary := r.summary.addDiagnostic d.severity
    diagnostics := r.diagnostics ++ [d] }

def hasErrors (r : Report) : Bool :=
  0 < r.summary.errors

end Report

end TypedSql
