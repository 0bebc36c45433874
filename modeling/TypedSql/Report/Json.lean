import TypedSql.Json.Read
import TypedSql.Json.Write
import TypedSql.Report
import TypedSql.TypedQuery.Json

/-!
# Reports in JSON

The place of a diagnostic is written as null when there is none, and so are its line and column;
the query of a diagnostic and the comment of a file are left out. A report is written on
indented lines.
-/

namespace TypedSql

namespace Location

def toJson (l : Location) : Json :=
  .object [("file", .string l.file), ("line", Json.ofOption (fun n : Nat => .int n) l.line),
    ("column", Json.ofOption (fun n : Nat => .int n) l.column)]

def ofJson? (j : Json) : Option Location := do
  let r ← j.record? ["file", "line", "column"]
  some
    { file := ← r.required "file" Json.string?
      line := ← r.optional "line" Json.count?
      column := ← r.optional "column" Json.count? }

end Location

namespace Diagnostic

def toJson (d : Diagnostic) : Json :=
  .object ([("code", .ofNamed d.code), ("severity", .ofNamed d.severity),
    ("message", .string d.message), ("location", Json.ofOption Location.toJson d.location)] ++
    Json.memberOfText "query" d.query)

def ofJson? (j : Json) : Option Diagnostic := do
  let r ← j.record? ["code", "severity", "message", "location", "query"]
  some
    { code := ← r.required "code" Json.named?
      severity := ← r.required "severity" Json.named?
      message := ← r.required "message" Json.string?
      location := ← r.optional "location" Location.ofJson?
      query := ← r.omittable "query" Json.string? }

end Diagnostic

namespace ReportVersion

def toJson (v : ReportVersion) : Json :=
  .object [("major", .ofUInt32 v.major), ("minor", .ofUInt32 v.minor)]

def ofJson? (j : Json) : Option ReportVersion := do
  let r ← j.record? ["major", "minor"]
  some ⟨← r.required "major" Json.uint32?, ← r.required "minor" Json.uint32?⟩

end ReportVersion

namespace ReportSummary

def toJson (s : ReportSummary) : Json :=
  .object [("total", .int s.total), ("errors", .int s.errors), ("warnings", .int s.warnings),
    ("info", .int s.info), ("files", .int s.files), ("queries", .int s.queries)]

def ofJson? (j : Json) : Option ReportSummary := do
  let r ← j.record? ["total", "errors", "warnings", "info", "files", "queries"]
  some
    { total := ← r.required "total" Json.count?
      errors := ← r.required "errors" Json.count?
      warnings := ← r.required "warnings" Json.count?
      info := ← r.required "info" Json.count?
      files := ← r.required "files" Json.count?
      queries := ← r.required "queries" Json.count? }

end ReportSummary

namespace FileReport

def toJson (f : FileReport) : Json :=
  .object ([("path", .string f.path)] ++ Json.memberOfLines "doc_comment" f.doc ++
    [("queries", .array (f.queries.map TypedQuery.toJson))])

def ofJson? (j : Json) : Option FileReport := do
  let r ← j.record? ["path", "doc_comment", "queries"]
  some
    { path := ← r.required "path" Json.string?
      doc := ← r.defaulted "doc_comment" [] (Json.list? Json.string?)
      queries := ← r.required "queries" (Json.list? TypedQuery.ofJson?) }

end FileReport

namespace Report

def toJson (r : Report) : Json :=
  .object [("version", r.version.toJson), ("timestamp", .string r.timestamp),
    ("summary", r.summary.toJson), ("files", .array (r.files.map FileReport.toJson)),
    ("diagnostics", .array (r.diagnostics.map Diagnostic.toJson))]

def ofJson? (j : Json) : Option Report := do
  let r ← j.record? ["version", "timestamp", "summary", "files", "diagnostics"]
  some
    { version := ← r.required "version" ReportVersion.ofJson?
      timestamp := ← r.required "timestamp" Json.string?
      summary := ← r.required "summary" ReportSummary.ofJson?
      files := ← r.required "files" (Json.list? FileReport.ofJson?)
      diagnostics := ← r.required "diagnostics" (Json.list? Diagnostic.ofJson?) }

/-- The text of a saved report. -/
def text (r : Report) : String :=
  r.toJson.indentedText

/-- The report of a saved text. -/
def ofText? (text : String) : Option Report := do
  ofJson? (← Json.read? text)

end Report

end TypedSql
