import TypedSql.Report

/-!
# Summaries of reports

The outcome of a run for people: the counters of the report, and its diagnostics with their
places. The counters are shown as the report has them, and what is listed are the diagnostics
themselves.
-/

namespace TypedSql

namespace Diagnostic

/-- The lines of a diagnostic in a summary. -/
def summaryLines (d : Diagnostic) : List String :=
  let place := d.location.map fun location => "    at " ++ location.text
  let query := d.query.map fun name => "    in query " ++ name
  s!"  [{d.severity.label}] {d.code.text}: {d.message}" :: (place.toList ++ query.toList)

end Diagnostic

namespace Report

/-- The line above and below the title. -/
def ruler : String := String.ofList (List.replicate 60 '=')

/-- The lines of the summary. -/
def summaryLines (r : Report) : List String :=
  ["", ruler, "Query Type Report", ruler, "",
    s!"Version: {r.version.text}",
    s!"Timestamp: {r.timestamp}", "",
    "Summary:",
    s!"  Files:    {r.summary.files}",
    s!"  Queries:  {r.summary.queries}",
    s!"  Errors:   {r.summary.errors}",
    s!"  Warnings: {r.summary.warnings}", ""] ++
  if r.diagnostics.isEmpty then ["✓ No issues found!"]
  else "Diagnostics:" :: r.diagnostics.flatMap Diagnostic.summaryLines

end Report

end TypedSql
