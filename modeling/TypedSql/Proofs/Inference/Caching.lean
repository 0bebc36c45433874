import TypedSql.Inference
import TypedSql.Proofs.Resolution.Reachable

/-!
# Typing with shared caches

Typing a query asks the catalog, which does not change, and uses the caches only through requests
for types and columns, whose outcomes do not depend on what is cached. So its result is determined
by the query alone (`Inference.determined_infer`). Queries that are typed one after another with
the same caches are typed as each would be with new ones, failures included
(`Inference.results_eq_map`).
-/

namespace TypedSql

namespace Task

variable {ε ε' α β : Type} {c : MemoryCatalog} {deadline : Duration} {t : Task ε α}
  {next : α → Task ε β}

/-- Whatever sound caches a task starts from and whatever others do to them, it comes to the
same. -/
def Determined (c : MemoryCatalog) (deadline : Duration) (t : Task ε α) : Prop :=
  ∃ r, ∀ caches : Caches, caches.types.IsSound c → caches.columns.IsSound c →
    t.Gives (c.sharing deadline) r caches

theorem determined_pure (value : α) : (pure value : Task ε α).Determined c deadline :=
  ⟨.ok value, fun _ _ _ => gives_done⟩

theorem determined_fail (error : ε) : (fail error : Task ε α).Determined c deadline :=
  ⟨.error error, fun _ _ _ => gives_fail⟩

theorem determined_ofExcept (r : Except ε α) : (ofExcept r).Determined c deadline :=
  ⟨r, fun _ _ _ => gives_ofExcept⟩

theorem determined_request (wrap : CatalogError → ε) (request : Request) :
    (Task.request wrap request).Determined c deadline :=
  ⟨_, fun _ _ _ => gives_request wrap request⟩

theorem Determined.bind (ht : t.Determined c deadline)
    (hn : ∀ value, (next value).Determined c deadline) : (t.bind next).Determined c deadline := by
  obtain ⟨r, hr⟩ := ht
  cases r with
  | error error => exact ⟨.error error, fun caches hs hcs => (hr caches hs hcs).bind_error⟩
  | ok value =>
    obtain ⟨r, hv⟩ := hn value
    exact ⟨r, fun caches hs hcs => (hr caches hs hcs).bind fun found ha =>
      hv found (ha.sound hs) (ha.soundColumns hcs)⟩

theorem Determined.mapError (f : ε → ε') (ht : t.Determined c deadline) :
    (t.mapError f).Determined c deadline := by
  obtain ⟨r, hr⟩ := ht
  exact ⟨r.mapError f, fun caches hs hcs => (hr caches hs hcs).mapError f⟩

/-- A task that can end in one way only is determined. -/
theorem determined_of_unique {outcome : Except ε α → Prop}
    (h : ∀ caches : Caches, caches.types.IsSound c → caches.columns.IsSound c →
      t.Ensures (c.sharing deadline) (fun r _ => outcome r) caches)
    (hu : ∀ r r', outcome r → outcome r' → r = r') : t.Determined c deadline := by
  have hnew := (h Caches.new (TypeCache.isSound_builtin c) ColumnCache.isSound_empty).run
  exact ⟨_, fun caches hs hcs => (h caches hs hcs).imp fun r _ _ hr => hu _ _ hr hnew⟩

/-- What a determined task comes to on its own does not depend on sound caches. -/
theorem Determined.result_eq (ht : t.Determined c deadline) {a b : Caches}
    (ha : a.types.IsSound c) (hca : a.columns.IsSound c) (hb : b.types.IsSound c)
    (hcb : b.columns.IsSound c) :
    (t.run c.catalog deadline a).result = (t.run c.catalog deadline b).result := by
  obtain ⟨r, hr⟩ := ht
  exact (hr a ha hca).run.trans (hr b hb hcb).run.symm

end Task

namespace Resolution

variable {c : MemoryCatalog} {deadline : Duration}

theorem determined_resolveTypes (hc : c.IsPlain) (oids : List Oid) :
    (resolveTypes oids).Determined c deadline :=
  Task.determined_of_unique
    (fun _ hs _ => ensures_resolveTypes hc (c.servesColumns deadline).toServes hs)
    fun _ _ => Outcome.unique hc

theorem determined_fetchColumns (hc : c.IsPlain) (keys : List ColumnKey) :
    (fetchColumns keys).Determined c deadline :=
  Task.determined_of_unique
    (fun _ hs hcs => (ensures_fetchColumns hc (c.servesColumns deadline) hs).imp
      fun _ _ _ h => h hcs)
    fun _ _ => ColumnsOutcome.unique hc

end Resolution

namespace Inference

variable {c : MemoryCatalog} {deadline : Duration} {types : TypeMap}

theorem determined_inputs (params : List (String × Oid)) :
    (inputs types params).Determined c deadline := by
  induction params with
  | nil => exact Task.determined_pure _
  | cons param params ih =>
    obtain ⟨name, oid⟩ := param
    rw [inputs]
    cases types[oid]? with
    | none => exact Task.determined_fail _
    | some type => exact ih.bind fun _ => Task.determined_pure _

theorem determined_outputs (fields : List (Field × Bool)) :
    (outputs types fields).Determined c deadline := by
  induction fields with
  | nil => exact Task.determined_pure _
  | cons field fields ih =>
    obtain ⟨field, nullable⟩ := field
    rw [outputs]
    cases types[field.typeOid]? with
    | none => exact Task.determined_fail _
    | some type => exact ih.bind fun _ => Task.determined_pure _

theorem determined_inferQuery (hc : c.IsPlain) (q : SourceQuery) :
    (inferQuery q).Determined c deadline := by
  refine (Task.determined_request _ _).bind fun description => ?_
  split
  · exact Task.determined_fail _
  · refine (Task.determined_request _ _).bind fun explained => ?_
    refine (Task.determined_ofExcept _).bind fun plan => ?_
    refine (Task.determined_ofExcept _).bind fun top => ?_
    refine ((Resolution.determined_fetchColumns hc _).mapError _).bind fun columns => ?_
    refine ((Resolution.determined_resolveTypes hc _).mapError _).bind fun types => ?_
    refine (determined_inputs _).bind fun inputs => ?_
    exact (determined_outputs _).bind fun _ => Task.determined_pure _

theorem determined_infer (hc : c.IsPlain) (q : SourceQuery) :
    (infer q).Determined c deadline :=
  (determined_inferQuery hc q).mapError _

/-- The results of typing queries one after another, each up to its own deadline, with the same
caches. -/
def results (catalog : Catalog) :
    List (Duration × SourceQuery) → Caches → List (Except InferenceError TypedQuery)
  | [], _ => []
  | (deadline, q) :: calls, caches =>
    let run := (infer q).run catalog deadline caches
    run.result :: results catalog calls run.caches

/-- Each query is typed as it would be with new caches. -/
theorem results_eq_map (hc : c.IsPlain) (calls : List (Duration × SourceQuery)) :
    results c.catalog calls .new =
      calls.map fun (deadline, q) => ((infer q).run c.catalog deadline .new).result := by
  have hnew : Caches.new.types.IsSound c := TypeCache.isSound_builtin c
  have hcnew : Caches.new.columns.IsSound c := ColumnCache.isSound_empty
  have h : ∀ caches : Caches, caches.types.IsSound c → caches.columns.IsSound c →
      results c.catalog calls caches =
        calls.map fun (deadline, q) => ((infer q).run c.catalog deadline .new).result := by
    induction calls with
    | nil => exact fun _ _ _ => rfl
    | cons call calls ih =>
      obtain ⟨deadline, q⟩ := call
      intro caches hs hcs
      have hd : (infer q).Determined c deadline := determined_infer hc q
      have ha : Caches.Grows c caches ((infer q).run c.catalog deadline caches).caches := by
        obtain ⟨r, hr⟩ := hd
        exact (hr caches hs hcs).allowed_run
      rw [results, List.map_cons, ih _ (ha.sound hs) (ha.soundColumns hcs),
        hd.result_eq hs hcs hnew hcnew]
  exact h .new hnew hcnew

/-- A catalog with a statement whose result type cannot be resolved. -/
def unresolvable : MemoryCatalog :=
  (Resolution.dangling.addStatement "SELECT m;" ⟨[], [.computed "m" 90001]⟩).addPlan "SELECT m;"
    (.array [.object [("Plan", .object [("Node Type", .string "Result")])]])

theorem isPlain_unresolvable : unresolvable.IsPlain where
  built := .addPlan _ _ (.addStatement _ _ Resolution.isPlain_dangling.built)
  failure := Resolution.isPlain_dangling.failure
  latency := rfl
  builtin := Resolution.isPlain_dangling.builtin

/-- A query for one row without parameters. -/
def plainQuery (name sql : String) : SourceQuery :=
  ⟨name, [], sql, sql, [], .one, none, ⟨⟨0, 1, 1⟩, ⟨0, 1, 1⟩⟩⟩

/-- Queries that fail for their types, for the catalog, and for their types again. -/
def failingCalls : List (Duration × SourceQuery) :=
  [(⟨5000⟩, plainQuery "first" "SELECT m;"), (⟨1⟩, plainQuery "other" "SELECT 1;"),
    (⟨5000⟩, plainQuery "second" "SELECT m;")]

theorem results_unresolvable :
    results unresolvable.catalog failingCalls .new = failingCalls.map fun (deadline, q) =>
      ((infer q).run unresolvable.catalog deadline .new).result :=
  results_eq_map isPlain_unresolvable failingCalls

end Inference

end TypedSql
