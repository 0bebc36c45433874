import TypedSql.Proofs.Command.Running
import TypedSql.Proofs.QueryFile.Collect
import TypedSql.Proofs.QueryFile.Limit
import TypedSql.Proofs.Report.Check

/-!
# Checking query files

A check reads the files that were collected and reports on them, and whatever the settings are it
comes to a report if all of these files can be read. The report has the errors of each file in
order, its files are those without errors, and its counters count its own lists
(`Command.runCheck_exact`).
-/

namespace TypedSql

namespace Command

open Running

variable {σ : Type} {world : σ} {s : Surroundings (StateM σ)} {settings : Settings}
  {paths : List Path} {entries : List (Path × String)}

theorem returns_runCheck (options : CommandOptions)
    (hcollect : (QueryFile.collect s.disk settings paths).run world =
      (.ok (entries.map Prod.fst), world))
    (h : ∀ e ∈ entries, (s.disk.readText e.1).run world = (.ok e.2, world)) :
    Returns world (runCheck s options settings paths)
      (.ofParsed s.timestamp (parsedFiles settings.ns entries)) :=
  (returns_readPaths options hcollect h).bind (.pure world _)

/-- What is said about the errors of a file. Each is told with its code, its message and its place,
and behind them, if reading has stopped at the limit, that there were too many. -/
theorem diagnostics_parse (path : Path) (src ns : String) :
    (QueryFile.parse path.text src ns).diagnostics =
      ((QueryFile.parse path.text src ns).errors.map fun error =>
        { code := error.code
          severity := .error
          message := error.message
          location := some
            { file := path.text, line := some error.pos.line, column := some error.pos.column }
          query := none }) ++
        if QueryFile.StopsAtLimit src ns then
          [{ code := .parseTooManyErrors
             severity := .error
             message := s!"more than {maxErrors} errors, stopped parsing"
             location := some { file := path.text, line := none, column := none }
             query := none }]
        else [] := by
  rw [ParsedFile.diagnostics,
    if_congr (QueryFile.stopsAtLimit_iff path.text src ns).symm rfl rfl]
  rfl

/-- If the collected files can be read, a check comes to a report. It tells each error of each file,
with its code, its message and its place, and that there were too many if the reading of the file
has stopped at the limit. Its files are those without errors, and these have only statements that
can be used. It counts its own lists, so it has errors exactly if some file has an error or a
statement that cannot be used. -/
theorem runCheck_exact (options : CommandOptions)
    (hcollect : (QueryFile.collect s.disk settings paths).run world =
      (.ok (entries.map Prod.fst), world))
    (htexts : ∀ e ∈ entries, (s.disk.readText e.1).run world = (.ok e.2, world)) :
    let parsed (e : Path × String) := QueryFile.parse e.1.text e.2 settings.ns
    ∃ report, Returns world (runCheck s options settings paths) report ∧
      report.diagnostics = (entries.flatMap fun e =>
        ((parsed e).errors.map fun error =>
          { code := error.code
            severity := .error
            message := error.message
            location := some
              { file := e.1.text, line := some error.pos.line, column := some error.pos.column }
            query := none }) ++
          if QueryFile.StopsAtLimit e.2 settings.ns then
            [{ code := .parseTooManyErrors
               severity := .error
               message := s!"more than {maxErrors} errors, stopped parsing"
               location := some { file := e.1.text, line := none, column := none }
               query := none }]
          else []) ∧
      report.files = ((entries.filter fun e => (parsed e).errors.isEmpty).map fun e =>
        ⟨e.1.text, (parsed e).file.doc, []⟩) ∧
      (∀ e ∈ entries, (parsed e).errors = [] → (parsed e).file.hasBad = false) ∧
      report.summary = report.recount ∧
      report.summary.total =
        report.summary.errors + report.summary.warnings + report.summary.info ∧
      (report.hasErrors = true ↔
        ∃ e ∈ entries, (parsed e).errors ≠ [] ∨ (parsed e).file.hasBad = true) := by
  intro parsed
  have hgains := Report.gains_ofParsed s.timestamp (parsedFiles settings.ns entries)
  have hcounts := hgains.summary_eq_recount
  refine ⟨_, returns_runCheck options hcollect htexts, ?_, ?_, ?_, hcounts, ?_, ?_⟩
  · rw [hgains.diagnostics, parsedFiles, List.flatMap_map]
    exact List.flatMap_congr fun e _ => diagnostics_parse e.1 e.2 settings.ns
  · rw [hgains.files, parsedFiles, List.filter_map, List.map_map]
    simp only [ParsedFile.hasErrors, Bool.not_not]
    rfl
  · exact fun e _ => QueryFile.hasBad_parse
  · rw [hcounts]
    exact Report.total_recount _
  · rw [Report.hasErrors_ofParsed_iff]
    simp only [parsedFiles, List.mem_map, exists_exists_and_eq_and]
    refine exists_congr fun e => and_congr_right fun _ => ?_
    rw [iff_self_or]
    intro hbad herrors
    rw [QueryFile.hasBad_parse herrors] at hbad
    contradiction

/-- A file without errors is in the report. Of another one eleven errors are reported, and that it
was given up. -/
theorem runCheck_exact_files :
    let good := "-- name: A :one\nSELECT 1;"
    let bad := String.join (List.replicate 12 "x;\n")
    let tree : FileTree :=
      .directory [("a.sql", .file (.ofText good)), ("b.sql", .file (.ofText bad))]
    let s : Surroundings (StateM FileTree) :=
      ⟨FileTree.disk, fun _ => pure none, 0, "T", fun _ => pure (.error (.connection ""))⟩
    let entries : List (Path × String) := [(⟨"a.sql"⟩, good), (⟨"b.sql"⟩, bad)]
    let missing (line : Nat) : Diagnostic :=
      { code := .parseAnnotationMissing
        severity := .error
        message := "query must be preceded by a 'name: <Name> :many|:one|:exec' comment"
        location := some { file := "b.sql", line := some line, column := some 1 }
        query := none }
    let givenUp : Diagnostic :=
      { code := .parseTooManyErrors
        severity := .error
        message := "more than 10 errors, stopped parsing"
        location := some { file := "b.sql", line := none, column := none }
        query := none }
    (QueryFile.collect s.disk .default [⟨"a.sql"⟩, ⟨"b.sql"⟩]).run tree =
        (.ok (entries.map Prod.fst), tree) ∧
      (∀ e ∈ entries, (s.disk.readText e.1).run tree = (.ok e.2, tree)) ∧
        ∃ report, Returns tree (runCheck s ⟨none, true⟩ .default [⟨"a.sql"⟩, ⟨"b.sql"⟩]) report ∧
          report.diagnostics = (List.range' 1 11).map missing ++ [givenUp] ∧
          report.files = [⟨"a.sql", [], []⟩] ∧ report.hasErrors = true := by
  intro good bad tree s entries missing givenUp
  have ha : tree.follow ⟨"a.sql"⟩ = .ok (.file (.ofText good)) := by rfl
  have hb : tree.follow ⟨"b.sql"⟩ = .ok (.file (.ofText bad)) := by rfl
  have hcollect : (QueryFile.collect s.disk .default [⟨"a.sql"⟩, ⟨"b.sql"⟩]).run tree =
      (.ok (entries.map Prod.fst), tree) := by
    have hthere : ∀ path ∈ [⟨"a.sql"⟩, ⟨"b.sql"⟩], tree.IsThere path := by
      simpa using ⟨⟨_, ha⟩, ⟨_, hb⟩⟩
    have hfiles :
        QueryFile.dropRepeats (QueryFile.candidates tree .default [⟨"a.sql"⟩, ⟨"b.sql"⟩]) =
          entries.map Prod.fst := by
      simp only [QueryFile.candidates, QueryFile.namedIn, List.flatMap_cons, ha, hb]
      decide +kernel
    rw [QueryFile.run_collect _ hthere, hfiles]
  have htexts : ∀ e ∈ entries, (s.disk.readText e.1).run tree = (.ok e.2, tree) := by
    simp only [entries, List.forall_mem_cons]
    refine ⟨FileTree.run_readText ha ?_, FileTree.run_readText hb ?_, by simp⟩
    · decide +kernel
    · decide +kernel
  refine ⟨hcollect, htexts, ?_⟩
  obtain ⟨report, hreturns, hdiagnostics, hfiles, -, -, -, herrors⟩ :=
    runCheck_exact ⟨none, true⟩ hcollect htexts
  have hgood : (QueryFile.parse "a.sql" good "querygen").errors = [] :=
    QueryFile.errors_parse_of_pairwise "a.sql" (by decide +kernel) .nil
  have hdoc : (QueryFile.parse "a.sql" good "querygen").file.doc = [] := by decide +kernel
  let errors : List ParseError := (List.range 11).map fun i => .of ⟨3 * i, i + 1, 1⟩ .noComment
  have hbad : (QueryFile.parse "b.sql" bad "querygen").errors = errors :=
    QueryFile.errors_parse_of_pairwise "b.sql" (by decide +kernel) (by decide +kernel)
  have hreads : ¬ QueryFile.StopsAtLimit good "querygen" := by decide +kernel
  have hstops : QueryFile.StopsAtLimit bad "querygen" := by decide +kernel
  refine ⟨report, hreturns, ?_, ?_, herrors.mpr ?_⟩
  · rw [hdiagnostics]
    simp only [entries, Settings.default, List.flatMap_cons, List.flatMap_nil, hgood, hbad, hreads,
      hstops]
    decide +kernel
  · rw [hfiles]
    simp [entries, Settings.default, hgood, hbad, hdoc, errors]
  · refine ⟨(⟨"b.sql"⟩, bad), by simp [entries], .inl ?_⟩
    exact fun hnone => List.cons_ne_nil _ _ (hbad.symm.trans hnone)

end Command

end TypedSql
