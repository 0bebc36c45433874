import TypedSql.Proofs.Report.Gains
import TypedSql.Report.Check

/-!
# Reports of read files

The report on read files gains what is to be said about the errors of each file, file by file, and
the files without errors (`Report.gains_ofParsed`). All that is said is an error, and about a file
without errors nothing is said; so the report has errors exactly if a file has any.
-/

namespace TypedSql

namespace ParsedFile

variable {p : ParsedFile} {d : Diagnostic}

theorem severity_of_mem_diagnostics (h : d ∈ p.diagnostics) : d.severity = .error := by
  rw [diagnostics, List.mem_append] at h
  rcases h with h | h
  · obtain ⟨e, -, rfl⟩ := List.mem_map.mp h
    rfl
  · obtain rfl : d = p.tooManyErrors := by
      split at h
      · exact List.mem_singleton.mp h
      · contradiction
    rfl

theorem diagnostics_eq_nil_iff : p.diagnostics = [] ↔ p.errors = [] := by
  rw [diagnostics, List.append_eq_nil_iff, List.map_eq_nil_iff, and_iff_left_iff_imp]
  intro h
  simp [h]

end ParsedFile

namespace Report

variable {r r' : Report} {entries : List FileReport} {messages : List Diagnostic}

theorem Gains.addErrors (h : r.Gains entries messages r') (files : List ParsedFile) :
    r.Gains entries (messages ++ files.flatMap ParsedFile.diagnostics)
      (files.foldl Report.addErrors r') := by
  induction files generalizing messages r' with
  | nil => rwa [List.flatMap_nil, List.append_nil]
  | cons p files ih =>
    rw [List.flatMap_cons, ← List.append_assoc]
    exact ih (h.addDiagnostics p.diagnostics)

/-- The entry of a file without typed queries. -/
def checked (p : ParsedFile) : FileReport :=
  ⟨p.file.name, p.file.doc, []⟩

theorem Gains.addChecked (h : r.Gains entries messages r') (files : List ParsedFile) :
    r.Gains (entries ++ (files.filter (!·.hasErrors)).map checked) messages
      (files.foldl Report.addChecked r') := by
  induction files generalizing entries r' with
  | nil => rwa [List.filter_nil, List.map_nil, List.append_nil]
  | cons p files ih =>
    rw [List.foldl_cons, Report.addChecked]
    cases hp : p.hasErrors with
    | true =>
      rw [List.filter_cons_of_neg (by simp [hp]), if_pos rfl]
      exact ih h
    | false =>
      rw [List.filter_cons_of_pos (by simp [hp]), List.map_cons, List.append_cons]
      exact ih (h.addFile (checked p))

theorem gains_ofParsed (timestamp : String) (files : List ParsedFile) :
    (empty timestamp).Gains ((files.filter (!·.hasErrors)).map checked)
      (files.flatMap ParsedFile.diagnostics) (ofParsed timestamp files) :=
  ((Gains.refl _).addErrors files).addChecked files

theorem hasErrors_ofParsed_iff (timestamp : String) (files : List ParsedFile) :
    (ofParsed timestamp files).hasErrors = true ↔ ∃ p ∈ files, p.errors ≠ [] := by
  have hgains := gains_ofParsed timestamp files
  have hdiagnostics : (ofParsed timestamp files).diagnostics =
      files.flatMap ParsedFile.diagnostics := hgains.diagnostics
  rw [hasErrors, decide_eq_true_iff, hgains.summary_eq_recount, recount, hdiagnostics,
    List.countP_pos_iff]
  constructor
  · rintro ⟨d, hd, -⟩
    obtain ⟨p, hp, hd⟩ := List.mem_flatMap.mp hd
    exact ⟨p, hp, mt ParsedFile.diagnostics_eq_nil_iff.mpr (List.ne_nil_of_mem hd)⟩
  · rintro ⟨p, hp, herrors⟩
    obtain ⟨d, hd⟩ := List.exists_mem_of_ne_nil _ (mt ParsedFile.diagnostics_eq_nil_iff.mp herrors)
    refine ⟨d, List.mem_flatMap.mpr ⟨p, hp, hd⟩, ?_⟩
    rw [decide_eq_true_iff]
    exact ParsedFile.severity_of_mem_diagnostics hd

end Report

end TypedSql
