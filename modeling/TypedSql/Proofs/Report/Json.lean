import TypedSql.Proofs.SqlType.Json
import TypedSql.Report.Json

/-!
# Reports that are written and read

Reading a saved report gives the report that was saved: its omitted comments, defaults and queries
included, and with the places that are written as null. The same holds of each part of a report
that is written on one line.
-/

namespace TypedSql

open Json

namespace InputParam

theorem roundTrips (p : InputParam) (h : ∀ x ∈ p.type.sortOrders, x.IsLossless) :
    RoundTrips toJson ofJson? p where
  isLossless := by simp [toJson, (p.type.roundTrips h).isLossless]
  read_reread := by
    rw [toJson, ofJson?, record?_reread]
    · simp [List.lookup_append, List.lookup_cons, string?, (p.type.roundTrips h).read_reread]
    · simpa using (keys_memberOfText "default_value" p.defaultValue).append_right ["type"]
    · decide

end InputParam

namespace OutputColumn

theorem roundTrips (c : OutputColumn) (h : ∀ x ∈ c.type.sortOrders, x.IsLossless) :
    RoundTrips toJson ofJson? c where
  isLossless := by simp [toJson, (c.type.roundTrips h).isLossless]
  read_reread := by
    rw [toJson, ofJson?, record?_reread]
    · simp [List.lookup_cons, string?, bool?, (c.type.roundTrips h).read_reread]
    · exact List.Sublist.refl _
    · decide

end OutputColumn

namespace TypedQuery

/-- The numbers by which the labels inside the types of a query are ordered. -/
def sortOrders (q : TypedQuery) : List Single :=
  q.inputs.flatMap (·.type.sortOrders) ++ q.outputs.flatMap (·.type.sortOrders)

theorem roundTrips (q : TypedQuery) (h : ∀ x ∈ q.sortOrders, x.IsLossless) :
    RoundTrips toJson ofJson? q := by
  have hinputs : RoundTrips (fun ps => .array (ps.map InputParam.toJson))
      (list? InputParam.ofJson?) q.inputs :=
    .list fun p hp => p.roundTrips fun x hx => h x (by grind [sortOrders])
  have houtputs : RoundTrips (fun cs => .array (cs.map OutputColumn.toJson))
      (list? OutputColumn.ofJson?) q.outputs :=
    .list fun c hc => c.roundTrips fun x hx => h x (by grind [sortOrders])
  refine ⟨by simp [toJson, hinputs.isLossless, houtputs.isLossless], ?_⟩
  rw [toJson, ofJson?, record?_reread]
  · simp [List.lookup_append, List.lookup_cons, string?, hinputs.read_reread,
      houtputs.read_reread]
  · simpa using (keys_memberOfLines "doc_comment" q.doc).append
      ((keys_memberOfText "proto_type" q.protoType).append_left
        ["prepared_sql", "inputs", "outputs"])
  · decide

end TypedQuery

namespace Location

/-- The line and the column are numbers of 64 bits. -/
structure Fits (l : Location) : Prop where
  line : ∀ n ∈ l.line, n < UInt64.size
  column : ∀ n ∈ l.column, n < UInt64.size

theorem roundTrips_number {o : Option Nat} (h : ∀ n ∈ o, n < UInt64.size) :
    RoundTrips (ofOption fun n : Nat => .int n) (Record.orNull count?) o :=
  .orNull (fun _ => nofun) fun n hn => ⟨isLossless_int_of_lt (h n hn), count?_int (h n hn)⟩

theorem roundTrips (l : Location) (h : l.Fits) : RoundTrips toJson ofJson? l := by
  have hline := roundTrips_number h.line
  have hcolumn := roundTrips_number h.column
  refine ⟨by simp [toJson, hline.isLossless, hcolumn.isLossless], ?_⟩
  rw [toJson, ofJson?, record?_reread]
  · simp [List.lookup_cons, string?, hline.read_reread, hcolumn.read_reread]
  · exact List.Sublist.refl _
  · decide

end Location

namespace Diagnostic

/-- The place of a diagnostic has a line and a column of 64 bits. -/
def Fits (d : Diagnostic) : Prop :=
  ∀ l ∈ d.location, l.Fits

theorem roundTrips (d : Diagnostic) (h : d.Fits) : RoundTrips toJson ofJson? d := by
  have hlocation : RoundTrips (ofOption Location.toJson) (Record.orNull Location.ofJson?)
      d.location :=
    .orNull (fun l => by simp [Location.toJson, reread_object]) fun l hl => l.roundTrips (h l hl)
  refine ⟨by simp [toJson, hlocation.isLossless], ?_⟩
  rw [toJson, ofJson?, record?_reread]
  · simp [List.lookup_cons, string?, hlocation.read_reread]
  · simpa using keys_memberOfText "query" d.query
  · decide

end Diagnostic

theorem ReportVersion.roundTrips (v : ReportVersion) : RoundTrips toJson ofJson? v where
  isLossless := by simp [toJson]
  read_reread := by
    rw [toJson, ofJson?, record?_reread]
    · simp [List.lookup_cons]
    · exact List.Sublist.refl _
    · decide

namespace ReportSummary

/-- The counters are numbers of 64 bits. -/
structure Fits (s : ReportSummary) : Prop where
  total : s.total < UInt64.size
  errors : s.errors < UInt64.size
  warnings : s.warnings < UInt64.size
  info : s.info < UInt64.size
  files : s.files < UInt64.size
  queries : s.queries < UInt64.size

theorem roundTrips (s : ReportSummary) (h : s.Fits) : RoundTrips toJson ofJson? s := by
  refine ⟨by simp [toJson, isLossless_int_of_lt h.total, isLossless_int_of_lt h.errors,
    isLossless_int_of_lt h.warnings, isLossless_int_of_lt h.info, isLossless_int_of_lt h.files,
    isLossless_int_of_lt h.queries], ?_⟩
  rw [toJson, ofJson?, record?_reread]
  · simp [List.lookup_cons, count?_int h.total, count?_int h.errors, count?_int h.warnings,
      count?_int h.info, count?_int h.files, count?_int h.queries]
  · exact List.Sublist.refl _
  · decide

end ReportSummary

namespace FileReport

/-- The numbers by which the labels inside the types of a file are ordered. -/
def sortOrders (f : FileReport) : List Single :=
  f.queries.flatMap TypedQuery.sortOrders

theorem roundTrips (f : FileReport) (h : ∀ x ∈ f.sortOrders, x.IsLossless) :
    RoundTrips toJson ofJson? f := by
  have hqueries : RoundTrips (fun qs => .array (qs.map TypedQuery.toJson))
      (list? TypedQuery.ofJson?) f.queries :=
    .list fun q hq => q.roundTrips fun x hx => h x (List.mem_flatMap.mpr ⟨q, hq, hx⟩)
  refine ⟨by simp [toJson, hqueries.isLossless], ?_⟩
  rw [toJson, ofJson?, record?_reread]
  · simp [List.lookup_append, List.lookup_cons, string?, hqueries.read_reread]
  · simpa using (keys_memberOfLines "doc_comment" f.doc).append_right ["queries"]
  · decide

end FileReport

namespace Report

/-- The counters of a report and the places of its diagnostics are numbers of 64 bits. -/
structure Fits (r : Report) : Prop where
  summary : r.summary.Fits
  diagnostics : ∀ d ∈ r.diagnostics, d.Fits

/-- The numbers by which the labels inside the types of a report are ordered. -/
def sortOrders (r : Report) : List Single :=
  r.files.flatMap FileReport.sortOrders

theorem roundTrips (r : Report) (h : r.Fits) (horders : ∀ x ∈ r.sortOrders, x.IsLossless) :
    RoundTrips toJson ofJson? r := by
  have hsummary := r.summary.roundTrips h.summary
  have hfiles : RoundTrips (fun fs => .array (fs.map FileReport.toJson))
      (list? FileReport.ofJson?) r.files :=
    .list fun f hf => f.roundTrips fun x hx => horders x (List.mem_flatMap.mpr ⟨f, hf, hx⟩)
  have hdiagnostics : RoundTrips (fun ds => .array (ds.map Diagnostic.toJson))
      (list? Diagnostic.ofJson?) r.diagnostics :=
    .list fun d hd => d.roundTrips (h.diagnostics d hd)
  refine ⟨by simp [toJson, r.version.roundTrips.isLossless, hsummary.isLossless,
    hfiles.isLossless, hdiagnostics.isLossless], ?_⟩
  rw [toJson, ofJson?, record?_reread]
  · simp [List.lookup_cons, string?, r.version.roundTrips.read_reread, hsummary.read_reread,
      hfiles.read_reread, hdiagnostics.read_reread]
  · exact List.Sublist.refl _
  · decide

end Report

theorem Diagnostic.nesting_toJson_le (d : Diagnostic) : d.toJson.nesting ≤ 2 := by
  rcases d with ⟨code, severity, message, _ | ⟨file, _ | line, _ | column⟩, _ | query⟩ <;>
    exact Nat.le_of_ble_eq_true rfl

/-- A saved report is read as the report that it was, and so is the line of each type, column,
query and diagnostic. -/
theorem Report.ofText?_text_and_parts :
    (∀ r : Report, r.Fits → (∀ x ∈ r.sortOrders, x.IsLossless) → r.toJson.nesting ≤ maxDepth →
      ofText? r.text = some r) ∧
    (∀ t : SqlType, (∀ x ∈ t.sortOrders, x.IsLossless) → t.toJson.nesting ≤ maxDepth →
      (read? t.toJson.text).bind SqlType.ofJson? = some t) ∧
    (∀ c : Column, (∀ x ∈ c.type.sortOrders, x.IsLossless) → c.toJson.nesting ≤ maxDepth →
      (read? c.toJson.text).bind Column.ofJson? = some c) ∧
    (∀ q : TypedQuery, (∀ x ∈ q.sortOrders, x.IsLossless) → q.toJson.nesting ≤ maxDepth →
      (read? q.toJson.text).bind TypedQuery.ofJson? = some q) ∧
    ∀ d : Diagnostic, d.Fits → (read? d.toJson.text).bind Diagnostic.ofJson? = some d := by
  refine ⟨fun r hr horders hnesting => ?_, fun t horders hnesting => ?_,
    fun c horders hnesting => ?_, fun q horders hnesting => ?_, fun d hd => ?_⟩
  · exact (r.roundTrips hr horders).read?_indentedText hnesting
  · exact (t.roundTrips horders).read?_text hnesting
  · exact (c.roundTrips horders).read?_text hnesting
  · exact (q.roundTrips horders).read?_text hnesting
  · exact (d.roundTrips hd).read?_text (Nat.le_trans d.nesting_toJson_le (by decide))

/-- A type of every form, with labels at 1, 2.5 and -0.1. -/
def SqlType.diary : SqlType :=
  .composite 16410 "diary" ["moods", "free", "span", "nothing"]
    [.array 16405 "_mood" (.enum
        { oid := 16400
          name := "mood"
          labels := ["calm", "\"wild\"", "tab\tbed"]
          sortOrders := [.ofInt 1, ⟨false, some (5 * Nat.pow 2 148)⟩,
            ⟨true, some (13421773 * Nat.pow 2 122)⟩]
          labelOids := [16401, 16403, 4294967295] }),
      .domain ⟨16420, "free", true, false, ⟨25, "text"⟩, -1⟩,
      .unknown ⟨16430, "span", .range⟩, .void]

/-- A query with one parameter that has a default and one that has none. -/
def TypedQuery.diaries : TypedQuery where
  name := "Diaries"
  tag := .select
  kind := .many
  doc := []
  sql := "SELECT d FROM diaries d WHERE d = $1 AND d.note = $2"
  inputs := [⟨"d", none, .diary⟩, ⟨"note", some "''", .base ⟨25, "text"⟩⟩]
  outputs := [⟨"d", .diary, true⟩]
  protoType := none

def Diagnostic.slow : Diagnostic :=
  ⟨.catalogTimeout, .warn, "took \x1f long\n", some ⟨"diary.sql", some 3, none⟩, none⟩

/-- A report with an empty file and two kinds of diagnostics. -/
def Report.diaries : Report where
  version := .current
  timestamp := "2025-01-01T00:00:00+00:00"
  summary := ⟨2, 1, 1, 0, 2, 1⟩
  files := [⟨"diary.sql", ["All diaries."], [.diaries]⟩, ⟨"empty.sql", [], []⟩]
  diagnostics := [.slow, ⟨.parseBadQuery, .error, "", none, some "Diaries"⟩]

theorem Diagnostic.fits_slow : Diagnostic.slow.Fits := by
  rintro _ ⟨⟩
  exact ⟨by rintro _ ⟨⟩; decide, nofun⟩

theorem Report.fits_diaries : Report.diaries.Fits where
  summary := by constructor <;> decide
  diagnostics := List.forall_mem_cons.mpr ⟨Diagnostic.fits_slow, by rintro _ (_ | ⟨_, ⟨⟩⟩); nofun⟩

/-- The report of the diaries and its parts are read back. -/
theorem Report.ofText?_text_diaries :
    (∀ x ∈ Report.diaries.sortOrders, x.IsLossless) ∧
      Report.diaries.toJson.nesting ≤ maxDepth ∧
      ofText? Report.diaries.text = some .diaries ∧
      (read? SqlType.diary.toJson.text).bind SqlType.ofJson? = some .diary ∧
      (read? (Column.mk "d" 16440 "diaries" (-2) .diary true).toJson.text).bind Column.ofJson? =
        some (Column.mk "d" 16440 "diaries" (-2) .diary true) ∧
      (read? TypedQuery.diaries.toJson.text).bind TypedQuery.ofJson? = some .diaries ∧
      (read? Diagnostic.slow.toJson.text).bind Diagnostic.ofJson? = some .slow := by
  have horders : ∀ x ∈ Report.diaries.sortOrders, x.IsLossless := by decide +kernel
  have hnesting : Report.diaries.toJson.nesting ≤ maxDepth := by decide +kernel
  obtain ⟨report, type, column, query, diagnostic⟩ := ofText?_text_and_parts
  exact ⟨horders, hnesting, report _ fits_diaries horders hnesting,
    type _ (by decide +kernel) (by decide +kernel),
    column _ (by decide +kernel) (by decide +kernel),
    query _ (by decide +kernel) (by decide +kernel), diagnostic _ Diagnostic.fits_slow⟩

end TypedSql
