import Mathlib.Data.List.Forall2
import TypedSql.Inference
import TypedSql.Proofs.Plan.Nullability
import TypedSql.Proofs.Resolution.ColumnCourse

/-!
# Typed queries and what the catalog says of them

Typing a query puts together lists from several sources: the names of the parameters, the types and
results that the catalog describes, what the plan puts out, the columns behind the results and the
resolved types. What stands at one place in a typed query comes from one place in all of these
(`Inference.infer_aligned`), though columns are looked up by keys that may repeat and results
without a value are left out.

Nothing is assumed of the catalog. The cached columns stand under their own keys, as all do that
were ever added (`Task.isKeyed_run`).
-/

namespace TypedSql

/-! ### Cached columns -/

namespace ColumnCache

/-- Each column stands under its own key. -/
def IsKeyed (cache : ColumnCache) : Prop :=
  ∀ key column, cache.get? key = some column → column.key = key

theorem isKeyed_empty : empty.IsKeyed := by
  intro key column h
  rw [get?_empty] at h
  cases h

theorem IsKeyed.insert {cache : ColumnCache} (h : cache.IsKeyed) (column : Column) :
    (cache.insert column).IsKeyed := by
  intro key found hg
  rw [get?_insert, Option.or_eq_some_iff, Option.ite_none_right_eq_some] at hg
  obtain hg | ⟨-, rfl, hg⟩ := hg
  · exact h key found hg
  · rw [Option.some.inj hg]

end ColumnCache

theorem Task.isKeyed_run {ε α : Type} {catalog : Catalog} {deadline : Duration} {caches : Caches}
    (t : Task ε α) (h : caches.columns.IsKeyed) :
    (t.run catalog deadline caches).caches.columns.IsKeyed :=
  caches_run_induction (motive := fun after => after.columns.IsKeyed)
    (fun _ _ h => h) (fun _ column h => h.insert column) t h

namespace Inference

open Resolution

variable {catalog : Catalog} {deadline : Duration} {caches : Caches} {q : SourceQuery}
  {types : TypeMap}

/-! ### Parameters and results -/

/-- A parameter has its name and the resolved type of its described one. -/
def IsInput (types : TypeMap) (param : String × Oid) (input : InputParam) : Prop :=
  input.name = param.1 ∧ types[param.2]? = some input.type

theorem forall₂_of_inputs {params : List (String × Oid)} {ins : List InputParam}
    (h : ((inputs types params).run catalog deadline caches).result = .ok ins) :
    List.Forall₂ (IsInput types) params ins := by
  induction params generalizing ins with
  | nil =>
    obtain rfl := Except.ok.inj h
    exact .nil
  | cons param params ih =>
    obtain ⟨name, oid⟩ := param
    rw [inputs] at h
    cases ht : types[oid]? with
    | none =>
      rw [ht] at h
      cases h
    | some type =>
      rw [ht] at h
      obtain ⟨rest, hrest, h⟩ := Task.result_run_bind_eq_ok.mp h
      obtain rfl := Except.ok.inj h
      exact .cons ⟨rfl, ht⟩ (ih hrest)

/-- A result has its name, the resolved type of its described one, and the flag at its place. -/
def IsOutput (types : TypeMap) (flags : List Bool) (field : Field × Nat) (output : OutputColumn) :
    Prop :=
  output.name = field.1.name ∧ types[field.1.typeOid]? = some output.type ∧
    flags[field.2]? = some output.nullable

/-- The result has a value. -/
def HasValue (types : TypeMap) (field : Field × Nat) : Bool :=
  types[field.1.typeOid]?.any fun type => !type.isVoid

/-- The results keep their places when those without a value are left out. The flags that are
left, `rest`, begin at the place of the first of the fields that are left. -/
theorem forall₂_of_outputs {fields : List Field} {flags rest : List Bool} {place : Nat}
    {outs : List OutputColumn} (hlength : rest.length = fields.length)
    (hrest : flags.drop place = rest)
    (h : ((outputs types (fields.zip rest)).run catalog deadline caches).result = .ok outs) :
    List.Forall₂ (IsOutput types flags) ((fields.zipIdx place).filter (HasValue types)) outs := by
  induction fields generalizing rest place outs with
  | nil =>
    obtain rfl := Except.ok.inj h
    exact .nil
  | cons field fields ih =>
    cases rest with
    | nil => cases hlength
    | cons flag rest =>
    have hflag : flags[place]? = some flag := by
      rw [← List.head?_drop, hrest, List.head?_cons]
    have hrest' : flags.drop (place + 1) = rest := by
      rw [← List.drop_drop, hrest, List.drop_one, List.tail_cons]
    rw [List.zip_cons_cons, outputs] at h
    rw [List.zipIdx_cons]
    cases ht : types[field.typeOid]? with
    | none =>
      rw [ht] at h
      cases h
    | some type =>
      rw [ht] at h
      obtain ⟨others, hothers, h⟩ := Task.result_run_bind_eq_ok.mp h
      have hall := ih (Nat.succ.inj hlength) hrest' hothers
      obtain rfl := Except.ok.inj h
      cases hv : type.isVoid with
      | true =>
        rw [if_pos rfl, List.filter_cons_of_neg (by simp [HasValue, ht, hv])]
        exact hall
      | false =>
        rw [if_neg Bool.false_ne_true, List.filter_cons_of_pos (by simp [HasValue, ht, hv])]
        exact .cons ⟨rfl, ht, hflag⟩ hall

/-! ### The columns behind the results -/

/-- The column behind a result, if there is one, was fetched and has the key of the result. -/
def IsBehind (columns : List Column) (field : Field) : Option Column → Prop
  | some column => field.table ≠ 0 ∧ 0 < field.order ∧
    column ∈ columns ∧ column.key = ⟨field.table, field.order⟩
  | none => field.table = 0 ∨ field.order ≤ 0

theorem key?_eq_some_iff {field : Field} {key : ColumnKey} : field.key? = some key ↔
    field.table ≠ 0 ∧ 0 < field.order ∧ key = ⟨field.table, field.order⟩ := by
  rw [Field.key?, Option.ite_none_right_eq_some, Option.some_inj, and_assoc, eq_comm (a := key)]

/-- Every result that has a key has a column behind it, if there is a column for each key. -/
theorem isBehind_columnOf {columns : List Column} {field : Field}
    (h : ∀ key, field.key? = some key → ∃ column ∈ columns, column.key = key) :
    IsBehind columns field (columnOf columns field) := by
  rw [columnOf]
  cases hk : field.key? with
  | none =>
    rw [Field.key?, ite_eq_right_iff] at hk
    rw [Option.bind_none, IsBehind, ← Int16.not_lt, ← not_ne_iff, ← not_and_or]
    exact fun hkey => Option.some_ne_none _ (hk hkey)
  | some key =>
    obtain ⟨htable, horder, rfl⟩ := key?_eq_some_iff.mp hk
    obtain ⟨column, hc, hkey⟩ := h _ hk
    rw [Option.bind_some]
    cases hf : columns.find? fun column => column.key == ⟨field.table, field.order⟩ with
    | none =>
      have hn := List.find?_eq_none.mp hf column hc
      rw [hkey, beq_self_eq_true] at hn
      exact absurd rfl hn
    | some found =>
      have hfound := List.find?_some hf
      exact ⟨htable, horder, List.mem_of_find?_eq_some hf, beq_iff_eq.mp hfound⟩

/-! ### The whole query -/

/-- What a query is typed from: the answers of the catalog, the plan, and what was fetched and
resolved. -/
structure Sources (catalog : Catalog) (deadline : Duration) (caches : Caches) (q : SourceQuery)
    where
  description : Description
  explained : Json
  plan : Plan
  top : TopNode
  columns : List Column
  types : TypeMap
  describe : catalog.answer deadline (.describe q.preparedSql) = .ok description
  explain : catalog.answer deadline (.explain q.preparedSql description.params) = .ok explained
  plan_eq : Plan.ofJson explained = .ok plan
  top_eq : plan.top = .ok top
  fetched : ((fetchColumns (description.fields.filterMap Field.key?)).run catalog deadline
    caches).result = .ok columns
  resolved : ((resolveTypes (description.params ++ description.fields.map (·.typeOid))).run catalog
    deadline ((fetchColumns (description.fields.filterMap Field.key?)).run catalog deadline
      caches).caches).result = .ok types

/-- The columns in the cache when the types of a query are resolved. -/
def Sources.cached (s : Sources catalog deadline caches q) : ColumnCache :=
  ((fetchColumns (s.description.fields.filterMap Field.key?)).run catalog deadline
    caches).caches.columns

/-- The columns behind the results. -/
def Sources.behind (s : Sources catalog deadline caches q) : List (Option Column) :=
  s.description.fields.map (columnOf s.columns)

/-- The flags of the described results. -/
def Sources.nullable (s : Sources catalog deadline caches q) : List Bool :=
  Nullability.infer s.plan s.top s.behind

/-- A query that is typed has come across all its sources, and its parameters and results have been
put together from them. -/
theorem exists_sources {typed : TypedQuery}
    (h : ((inferQuery q).run catalog deadline caches).result = .ok typed) :
    ∃ s : Sources catalog deadline caches q, s.description.params.length = q.params.length ∧
      List.Forall₂ (IsInput s.types) (q.params.zip s.description.params) typed.inputs ∧
      List.Forall₂ (IsOutput s.types s.nullable)
        (s.description.fields.zipIdx.filter (HasValue s.types)) typed.outputs := by
  obtain ⟨description, hd, h⟩ := Task.result_run_request_bind.mp h
  split at h
  · cases h
  next hlength =>
  obtain ⟨explained, he, h⟩ := Task.result_run_request_bind.mp h
  obtain ⟨plan, hp, h⟩ := Task.result_run_ofExcept_bind.mp h
  obtain ⟨top, ht, h⟩ := Task.result_run_ofExcept_bind.mp h
  obtain ⟨columns, hc, h⟩ := Task.result_run_mapError_bind.mp h
  obtain ⟨types, hr, h⟩ := Task.result_run_mapError_bind.mp h
  obtain ⟨ins, hi, h⟩ := Task.result_run_bind_eq_ok.mp h
  obtain ⟨outs, ho, h⟩ := Task.result_run_bind_eq_ok.mp h
  obtain rfl := Except.ok.inj h
  let s : Sources catalog deadline caches q :=
    { description, explained, plan, top, columns, types
      describe := hd
      explain := he
      plan_eq := hp
      top_eq := ht
      fetched := hc
      resolved := hr }
  have hflags : s.nullable.length = s.description.fields.length := by
    rw [Sources.nullable, Nullability.length_infer, Sources.behind, List.length_map]
  exact ⟨s, not_ne_iff.mp hlength, forall₂_of_inputs hi,
    forall₂_of_outputs hflags List.drop_zero ho⟩

/-- The parameters and results of a typed query stand where they belong. -/
structure Sources.IsAligned (s : Sources catalog deadline caches q) (typed : TypedQuery) :
    Prop where
  /-- No parameter is left out. -/
  length_params : s.description.params.length = q.params.length
  /-- Each parameter has the type that is described for its place. -/
  inputs : List.Forall₂ (IsInput s.types) (q.params.zip s.description.params) typed.inputs
  /-- The results are the described ones that have a value, in order, each with the flag of its
  place among all described ones. -/
  outputs : List.Forall₂ (IsOutput s.types s.nullable)
    (s.description.fields.zipIdx.filter (HasValue s.types)) typed.outputs
  length_nullable : s.nullable.length = s.description.fields.length
  /-- A flag is inferred with the column that was fetched under the key of its result. -/
  behind : List.Forall₂ (IsBehind s.columns) s.description.fields s.behind
  /-- There is only one such column. -/
  cached : ∀ column ∈ s.columns, s.cached.get? column.key = some column

/-- A query that is typed is aligned with what the catalog describes. -/
theorem infer_aligned (hk : caches.columns.IsKeyed) {typed : TypedQuery}
    (h : ((infer q).run catalog deadline caches).result = .ok typed) :
    ∃ s : Sources catalog deadline caches q, s.IsAligned typed := by
  rw [infer, Task.result_run_mapError] at h
  obtain ⟨s, hlength, hins, houts⟩ := exists_sources h
  obtain ⟨hall, hcolumns⟩ := fetchColumns_eq_ok s.fetched
  have hkeyed : s.cached.IsKeyed := (fetchColumns _).isKeyed_run hk
  have hcached : ∀ column, column ∈ s.columns ↔
      ∃ key ∈ s.description.fields.filterMap Field.key?, s.cached.get? key = some column := by
    intro column
    rw [hcolumns, List.mem_filterMap]
    rfl
  refine ⟨s, hlength, hins, houts, ?_, ?_, fun column hc => ?_⟩
  · rw [Sources.nullable, Nullability.length_infer, Sources.behind, List.length_map]
  · rw [Sources.behind, List.forall₂_map_right_iff, List.forall₂_same]
    refine fun field hf => isBehind_columnOf fun key hkey => ?_
    have hm : key ∈ s.description.fields.filterMap Field.key? :=
      List.mem_filterMap.mpr ⟨field, hf, hkey⟩
    obtain ⟨column, hc⟩ := hall key hm
    exact ⟨column, (hcached column).mpr ⟨key, hm, hc⟩, hkeyed key column hc⟩
  · obtain ⟨key, -, hg⟩ := (hcached column).mp hc
    rwa [hkeyed key column hg]

/-- A statement whose first result has no value. -/
def insertNote : SourceQuery :=
  let sql := "INSERT INTO notes (words) VALUES ($1) RETURNING notify() AS done, id;"
  ⟨"add", [], sql, sql, ["words"], .one, none, ⟨⟨0, 1, 1⟩, ⟨0, 1, 1⟩⟩⟩

/-- A catalog that describes and plans the statement. -/
def notebook : MemoryCatalog :=
  ((MemoryCatalog.empty.addTable 16400 "notes" [("id", 23, true)]).addStatement
    insertNote.preparedSql
    ⟨[25], [.computed "done" 2278, (Field.computed "id" 23).fromColumn 16400 1]⟩).addPlan
      insertNote.preparedSql
      (.array [.object [("Plan", .object [("Node Type", .string "ModifyTable"),
        ("Operation", .string "Insert"), ("Relation Name", .string "notes"),
        ("Output", .array [.string "notify()", .string "notes.id"])])]])

/-- Caches with the types of the statement. -/
def noteTypes : Caches :=
  ⟨TypeCache.empty.extend [.base ⟨23, "int4"⟩, .base ⟨25, "text"⟩, .void], .empty⟩

/-- The flag of the second result does not move to the first place. -/
theorem infer_aligned_insertNote :
    noteTypes.columns.IsKeyed ∧
      ∃ typed : TypedQuery,
        ((infer insertNote).run notebook.catalog ⟨5000⟩ noteTypes).result = .ok typed ∧
          typed.outputs = [⟨"id", .base ⟨23, "int4"⟩, false⟩] ∧
          ∃ s : Sources notebook.catalog ⟨5000⟩ noteTypes insertNote, s.IsAligned typed := by
  have htyped : ((infer insertNote).run notebook.catalog ⟨5000⟩ noteTypes).result = .ok
      ⟨"add", .insert, .one, [], insertNote.preparedSql,
        [⟨"words", none, .base ⟨25, "text"⟩⟩], [⟨"id", .base ⟨23, "int4"⟩, false⟩], none⟩ := rfl
  exact ⟨ColumnCache.isKeyed_empty, _, htyped, rfl,
    infer_aligned ColumnCache.isKeyed_empty htyped⟩

end Inference

end TypedSql
