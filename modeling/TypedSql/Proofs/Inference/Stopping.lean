import TypedSql.Catalog.Memory
import TypedSql.Proofs.Inference.Stages
import TypedSql.Proofs.Report.Gains

/-!
# Typing stops at the first failure

Files are typed until one fails, and the statements of a file until one fails or is malformed. What
comes in front of the failure is typed one by one, in order, and the report gains one file for each
file in front of it, one diagnostic that tells of the failure (`Inference.Tells`), and nothing else.
Nothing behind the failure is begun (`Inference.inferFiles_ends`).

How far typing has come is part of what is said at each level: a file begins where the one in front
of it has ended, a statement likewise, and a failure ends where its stage does. The failure is the
end of everything, so no request is made behind it.
-/

namespace TypedSql

namespace Inference

variable {replies : Replies} {p p' : Progress} {name : String} {queries : List Query}
  {typed : List TypedQuery} {error : InferenceError}

/-! ### The statements of a file -/

/-- The query is typed. -/
def TypesQuery (replies : Replies) (q : SourceQuery) (p : Progress) (typed : TypedQuery)
    (p' : Progress) : Prop :=
  (infer q).proceed replies p = (.ok typed, p')

/-- How the statements of the file `name` fail: those in front of the first that fails or is
malformed are typed, and those behind it, `later`, do not matter. -/
inductive StatementsFail (replies : Replies) (name : String) (queries : List Query)
    (p : Progress) : InferenceError → Progress → Prop where
  | bad {sources : List SourceQuery} {span : Span} {later : List Query} {typed : List TypedQuery}
    {p' : Progress} (split : queries = sources.map .source ++ .bad span :: later)
    (before : Chain (TypesQuery replies) sources p typed p') :
    StatementsFail replies name queries p (.badQuery name span.start.line) p'
  | query {sources : List SourceQuery} {q : SourceQuery} {later : List Query}
    {typed : List TypedQuery} {error : QueryError} {p₁ p' : Progress}
    (split : queries = sources.map .source ++ .source q :: later)
    (before : Chain (TypesQuery replies) sources p typed p₁)
    (fails : QueryFails replies q p₁ error p') :
    StatementsFail replies name queries p (.query q.name error) p'

theorem StatementsFail.cons {q : SourceQuery} {first : TypedQuery} {p₁ : Progress}
    (hq : TypesQuery replies q p first p₁) (h : StatementsFail replies name queries p₁ error p') :
    StatementsFail replies name (.source q :: queries) p error p' := by
  cases h with
  | bad split before => exact .bad (by rw [split]; rfl) (.cons hq before)
  | query split before fails => exact .query (by rw [split]; rfl) (.cons hq before) fails

/-- Statements that are typed are all well-formed, and are typed one by one. -/
theorem exists_sources_of_proceed
    (h : (inferStatements name queries).proceed replies p = (.ok typed, p')) :
    ∃ sources, queries = sources.map .source ∧ Chain (TypesQuery replies) sources p typed p' := by
  induction queries generalizing p typed with
  | nil =>
    cases h
    exact ⟨[], rfl, .nil⟩
  | cons query queries ih =>
    cases query with
    | bad span => cases h
    | source q =>
      obtain ⟨first, p₁, hq, h⟩ := Task.proceed_bind_eq_ok.mp h
      obtain ⟨rest, p₂, hrest, h⟩ := Task.proceed_bind_eq_ok.mp h
      cases h
      obtain ⟨sources, rfl, hsources⟩ := ih hrest
      exact ⟨q :: sources, rfl, .cons hq hsources⟩

/-- Statements that fail do so at the first one that cannot be typed. -/
theorem statementsFail_of_proceed
    (h : (inferStatements name queries).proceed replies p = (.error error, p')) :
    StatementsFail replies name queries p error p' := by
  induction queries generalizing p with
  | nil => cases h
  | cons query queries ih =>
    cases query with
    | bad span =>
      cases h
      exact .bad (by rfl) .nil
    | source q =>
      rcases Task.proceed_bind_eq_error.mp h with h | ⟨first, p₁, hq, h⟩
      · obtain ⟨reason, hfails, rfl⟩ := Task.proceed_mapError_eq_error.mp h
        exact .query (by rfl) .nil (queryFails_of_proceed hfails)
      rcases Task.proceed_bind_eq_error.mp h with h | ⟨rest, p₂, -, h⟩
      · exact .cons hq (ih h)
      · cases h

theorem failsAtRefusal_inferStatements (name : String) (queries : List Query) :
    (inferStatements name queries).FailsAtRefusal := by
  induction queries with
  | nil => trivial
  | cons query queries ih =>
    cases query with
    | bad span => trivial
    | source q => exact (failsAtRefusal_infer q).bind fun _ => ih.bind fun _ => trivial

/-! ### Files -/

/-- The file is typed: its statements are all well-formed, and its entry in a report has their typed
queries, one for one and in order. -/
structure TypesFile (replies : Replies) (file : QueryFile) (p : Progress) (entry : FileReport)
    (p' : Progress) : Prop where
  typed : (inferFile file).proceed replies p = (.ok entry.queries, p')
  path : entry.path = file.name
  doc : entry.doc = file.doc
  queries : ∃ sources, file.queries = sources.map .source ∧
    Chain (TypesQuery replies) sources p entry.queries p'

/-- The file fails at one of its statements. -/
structure FileFails (replies : Replies) (file : QueryFile) (p : Progress) (error : InferenceError)
    (p' : Progress) : Prop where
  failed : (inferFile file).proceed replies p = (.error error, p')
  statement : StatementsFail replies file.name file.queries p error p'

/-- What a report tells of a file that fails. Of a query it tells what is wrong with it, with the
file and the name of the query, and of a malformed statement the line on which it starts. -/
inductive Tells (file : QueryFile) : InferenceError → Diagnostic → Prop where
  | query (name : String) (error : QueryError) : Tells file (.query name error)
      { code := error.code
        severity := .error
        message := error.message
        location := some { file := file.name, line := none, column := none }
        query := some name }
  | badQuery (line : Nat) : Tells file (.badQuery file.name line)
      { code := .parseBadQuery
        severity := .error
        message := s!"{file.name}:{line}: malformed query cannot be inferred"
        location := some { file := file.name, line := some line, column := some 1 }
        query := none }

theorem FileFails.tells {file : QueryFile} (h : FileFails replies file p error p') :
    Tells file error (error.diagnostic file.name) := by
  cases h.statement with
  | bad => exact .badQuery _
  | query => exact .query _ _

/-- What the typing of files comes to. -/
inductive Ends (replies : Replies) (report : Report) (files : List QueryFile) (p : Progress) :
    Bool → Report → Progress → Prop where
  /-- All files are typed. -/
  | typed {entries : List FileReport} {report' : Report} {p' : Progress}
    (all : Chain (TypesFile replies) files p entries p')
    (gains : report.Gains entries [] report') : Ends replies report files p true report' p'
  /-- The files in front of `file` are typed, and it fails. -/
  | failed {before later : List QueryFile} {file : QueryFile} {entries : List FileReport}
    {error : InferenceError} {report' : Report} {p₁ p' : Progress}
    (split : files = before ++ file :: later)
    (all : Chain (TypesFile replies) before p entries p₁)
    (fails : FileFails replies file p₁ error p')
    (tells : Tells file error (error.diagnostic file.name))
    (gains : report.Gains entries [error.diagnostic file.name] report') :
    Ends replies report files p false report' p'

/-- All files are typed, or there is a first one that fails. -/
theorem typesFiles_or_fileFails (replies : Replies) (files : List QueryFile) (p : Progress) :
    (∃ entries p', Chain (TypesFile replies) files p entries p') ∨
      ∃ before file later entries p₁ error p', files = before ++ file :: later ∧
        Chain (TypesFile replies) before p entries p₁ ∧ FileFails replies file p₁ error p' := by
  induction files generalizing p with
  | nil => exact .inl ⟨[], p, .nil⟩
  | cons file files ih =>
    cases h : (inferFile file).proceed replies p with
    | mk result p₁ =>
    cases result with
    | error error =>
      exact .inr ⟨[], file, files, [], p, error, p₁, rfl, .nil, h, statementsFail_of_proceed h⟩
    | ok queries =>
      have hfile : TypesFile replies file p ⟨file.name, file.doc, queries⟩ p₁ :=
        ⟨h, rfl, rfl, exists_sources_of_proceed h⟩
      obtain ⟨entries, p', hall⟩ | ⟨before, failing, later, entries, p₂, error, p', rfl, hall,
        hfails⟩ := ih p₁
      · exact .inl ⟨_, p', .cons hfile hall⟩
      · exact .inr ⟨file :: before, failing, later, _, p₂, error, p', rfl, .cons hfile hall, hfails⟩

/-- Files that are typed are added to the report, and typing goes on behind them. -/
theorem proceed_inferFiles_append {before : List QueryFile} {entries : List FileReport}
    (h : Chain (TypesFile replies) before p entries p') (report : Report)
    (rest : List QueryFile) :
    (inferFiles report (before ++ rest)).proceed replies p =
      (inferFiles (entries.foldl Report.addFile report) rest).proceed replies p' := by
  induction h generalizing report with
  | nil => rfl
  | @cons file before entry entries p p₁ p' head tail ih =>
    have hentry : (⟨file.name, file.doc, entry.queries⟩ : FileReport) = entry := by
      rw [← head.path, ← head.doc]
    rw [List.cons_append, inferFiles, Task.bind_eq, Task.proceed_bind, Task.proceed_attempt,
      head.typed]
    dsimp only
    rw [hentry, ih, List.foldl_cons]

/-- A file that fails ends the typing. -/
theorem proceed_inferFiles_fail {file : QueryFile} (h : FileFails replies file p error p')
    (report : Report) (later : List QueryFile) :
    (inferFiles report (file :: later)).proceed replies p =
      (.ok (false, report.addDiagnostic (error.diagnostic file.name)), p') := by
  rw [inferFiles, Task.bind_eq, Task.proceed_bind, Task.proceed_attempt, h.failed]
  rfl

/-- No request is made behind one that was refused. -/
theorem endsAtRefusal_inferFiles (report : Report) (files : List QueryFile) :
    (inferFiles report files).EndsAtRefusal := by
  induction files generalizing report with
  | nil => trivial
  | cons file files ih =>
    exact (failsAtRefusal_inferStatements file.name file.queries).attempt_bind
      (fun _ => trivial) fun _ => ih _

/-- Typing files has an end, which is at the first failure or behind all files. -/
theorem inferFiles_ends (replies : Replies) (report : Report) (files : List QueryFile)
    (p : Progress) :
    ∃ all report' p',
      (inferFiles report files).proceed replies p = (.ok (all, report'), p') ∧
        Ends replies report files p all report' p' ∧
        (all = true ↔ ∃ entries p', Chain (TypesFile replies) files p entries p') ∧
        p.RefusedLast replies p' := by
  have hlast : p.RefusedLast replies ((inferFiles report files).proceed replies p).2 :=
    (endsAtRefusal_inferFiles report files).refusedLast p
  have hall {entries : List FileReport} {p' : Progress}
      (h : Chain (TypesFile replies) files p entries p') :
      (inferFiles report files).proceed replies p =
        (.ok (true, entries.foldl Report.addFile report), p') := by
    have happend := proceed_inferFiles_append h report []
    rwa [List.append_nil] at happend
  obtain ⟨entries, p', htyped⟩ | ⟨before, file, later, entries, p₁, error, p', hsplit, hbefore,
    hfails⟩ := typesFiles_or_fileFails replies files p
  · have heq := hall htyped
    rw [heq] at hlast
    exact ⟨true, _, p', heq, .typed htyped ((Report.Gains.refl report).addFiles entries),
      iff_of_true rfl ⟨entries, p', htyped⟩, hlast⟩
  · have heq : (inferFiles report files).proceed replies p = (.ok (false,
        (entries.foldl Report.addFile report).addDiagnostic (error.diagnostic file.name)), p') := by
      rw [hsplit, proceed_inferFiles_append hbefore, proceed_inferFiles_fail hfails]
    have hnot : ¬∃ entries p', Chain (TypesFile replies) files p entries p' := by
      rintro ⟨entries, p', htyped⟩
      rw [hall htyped] at heq
      cases heq
    rw [heq] at hlast
    exact ⟨false, _, p', heq, .failed hsplit hbefore hfails hfails.tells
      (((Report.Gains.refl report).addFiles entries).addDiagnostic _),
      iff_of_false Bool.false_ne_true hnot, hlast⟩

-- A catalog that knows no statement refuses the first one, and is asked for no other.
example :
    let lookup (sql : String) : Query :=
      .source ⟨"lookup", [], sql, sql, [], .many, none, ⟨⟨0, 1, 1⟩, ⟨0, 1, 1⟩⟩⟩
    let run := (inferFiles (.empty "") [⟨"a.sql", [], [lookup "SELECT 1;", lookup "SELECT 2;"], []⟩,
      ⟨"b.sql", [], [lookup "SELECT 3;"], []⟩]).run MemoryCatalog.empty.catalog ⟨5000⟩
        ⟨.empty, .empty⟩
    run.requests = [.describe "SELECT 1;"] := by
  rfl

end Inference

end TypedSql
