import TypedSql.QueryFile
import TypedSql.Report

/-!
# Reports of read files

The report on query files that were read but not typed has the errors of all files, in order. A
file with more errors than are recorded gets one more diagnostic that says so. The files of the
report are those without errors; they have no typed queries.
-/

namespace TypedSql

namespace ParsedFile

/-- The error of a file whose reading was given up. -/
def tooManyErrors (p : ParsedFile) : Diagnostic :=
  let message := s!"more than {maxErrors} errors, stopped parsing"
  (Diagnostic.error .parseTooManyErrors message).withLocation (.ofFile p.file.name)

/-- What a report says about the errors of a file. -/
def diagnostics (p : ParsedFile) : List Diagnostic :=
  p.errors.map (ParseError.diagnostic p.file.name) ++
    if maxErrors < p.errors.length then [p.tooManyErrors] else []

end ParsedFile

namespace Report

/-- Add the errors of a file. -/
def addErrors (r : Report) (p : ParsedFile) : Report :=
  p.diagnostics.foldl addDiagnostic r

/-- The report on the errors of files. -/
def ofErrors (timestamp : String) (files : List ParsedFile) : Report :=
  files.foldl addErrors (empty timestamp)

/-- Add a file without typed queries, unless it has errors. -/
def addChecked (r : Report) (p : ParsedFile) : Report :=
  if p.hasErrors then r else r.addFile ⟨p.file.name, p.file.doc, []⟩

/-- The report on read files. -/
def ofParsed (timestamp : String) (files : List ParsedFile) : Report :=
  files.foldl addChecked (ofErrors timestamp files)

end Report

end TypedSql
