import Mathlib.Algebra.Ring.Nat
import TypedSql.Report

/-!
# What a report gains

Files and diagnostics are added to a report at the end of its lists, and its counters go with them.
A report that was built by adding to an empty one therefore counts its own lists
(`Report.Gains.summary_eq_recount`).
-/

namespace TypedSql

namespace Report

variable {r r' : Report} {entries : List FileReport} {messages : List Diagnostic}

/-- The entries and the diagnostics that were added to a report, and what its counters come to. -/
structure Gains (r : Report) (entries : List FileReport) (messages : List Diagnostic)
    (r' : Report) : Prop where
  version : r'.version = r.version
  timestamp : r'.timestamp = r.timestamp
  files : r'.files = r.files ++ entries
  diagnostics : r'.diagnostics = r.diagnostics ++ messages
  summary : r'.summary =
    { total := r.summary.total + messages.length
      errors := r.summary.errors + messages.countP (·.severity = .error)
      warnings := r.summary.warnings + messages.countP (·.severity = .warn)
      info := r.summary.info + messages.countP (·.severity = .info)
      files := r.summary.files + entries.length
      queries := r.summary.queries + (entries.map (·.queries.length)).sum }

theorem Gains.refl (r : Report) : r.Gains [] [] r :=
  ⟨rfl, rfl, r.files.append_nil.symm, r.diagnostics.append_nil.symm, rfl⟩

theorem Gains.addFile (h : r.Gains entries messages r') (file : FileReport) :
    r.Gains (entries ++ [file]) messages (r'.addFile file) := by
  obtain ⟨hversion, htimestamp, hfiles, hdiagnostics, hsummary⟩ := h
  refine ⟨hversion, htimestamp, ?_, hdiagnostics, ?_⟩
  · rw [Report.addFile, hfiles, List.append_assoc]
  · rw [Report.addFile, hsummary]
    simp [ReportSummary.addFile, Nat.add_assoc]

theorem Gains.addDiagnostic (h : r.Gains entries messages r') (d : Diagnostic) :
    r.Gains entries (messages ++ [d]) (r'.addDiagnostic d) := by
  obtain ⟨hversion, htimestamp, hfiles, hdiagnostics, hsummary⟩ := h
  refine ⟨hversion, htimestamp, hfiles, ?_, ?_⟩
  · rw [Report.addDiagnostic, hdiagnostics, List.append_assoc]
  · rw [Report.addDiagnostic, hsummary]
    cases hs : d.severity <;> simp [ReportSummary.addDiagnostic, hs, Nat.add_assoc]

theorem Gains.addFiles (h : r.Gains entries messages r') (more : List FileReport) :
    r.Gains (entries ++ more) messages (more.foldl Report.addFile r') := by
  induction more generalizing entries r' with
  | nil => rwa [List.append_nil]
  | cons file more ih =>
    rw [List.append_cons]
    exact ih (h.addFile file)

theorem Gains.addDiagnostics (h : r.Gains entries messages r') (more : List Diagnostic) :
    r.Gains entries (messages ++ more) (more.foldl Report.addDiagnostic r') := by
  induction more generalizing messages r' with
  | nil => rwa [List.append_nil]
  | cons d more ih =>
    rw [List.append_cons]
    exact ih (h.addDiagnostic d)

/-- What the counters come to when the lists of a report are counted. -/
def recount (r : Report) : ReportSummary where
  total := r.diagnostics.length
  errors := r.diagnostics.countP (·.severity = .error)
  warnings := r.diagnostics.countP (·.severity = .warn)
  info := r.diagnostics.countP (·.severity = .info)
  files := r.files.length
  queries := (r.files.map (·.queries.length)).sum

/-- A diagnostic has one of the three severities. -/
theorem total_recount (r : Report) :
    r.recount.total = r.recount.errors + r.recount.warnings + r.recount.info := by
  simp only [recount]
  induction r.diagnostics with
  | nil => rfl
  | cons d diagnostics ih =>
    cases hs : d.severity <;> simp [hs, ih] <;> omega

/-- A report that was built by adding counts its own lists. -/
theorem Gains.summary_eq_recount {timestamp : String}
    (h : (empty timestamp).Gains entries messages r) : r.summary = r.recount := by
  obtain ⟨-, -, hfiles, hdiagnostics, hsummary⟩ := h
  rw [hsummary, recount, hfiles, hdiagnostics]
  simp [empty, ReportSummary.zero]

end Report

end TypedSql
