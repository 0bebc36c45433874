import TypedSql.Inference
import TypedSql.Proofs.Resolution.ColumnCourse
import TypedSql.Proofs.Task.Progress

/-!
# The stages of typing a query

A query is described, then planned, then its columns are fetched, and then its types are resolved.
When one of these stages fails, those behind it are not begun, so how far a query has come that
fails is said by the stage (`Inference.QueryFails`, `Inference.queryFails_of_proceed`). Behind the
last one nothing can fail: the types that are resolved are all that the description names
(`Resolution.mem_of_proceed_resolveTypes`).

Inside of a stage, a request that is refused is the last one (`Inference.failsAtRefusal_infer`).
Nothing is assumed of the replies, which may depend on all requests before.
-/

namespace TypedSql

namespace Resolution

variable {replies : Replies} {p p' : Progress} {oids : List Oid}

/-! ### Refusals -/

theorem failsAtRefusal_fetchRows (oids : List Oid) : (fetchRows oids).FailsAtRefusal := by
  refine (Task.failsAtRefusal_request ..).bind fun enums => ?_
  refine (Task.failsAtRefusal_request ..).bind fun domains => ?_
  refine (Task.failsAtRefusal_request ..).bind fun composites => ?_
  refine (Task.failsAtRefusal_request ..).bind fun arrays => ?_
  dsimp only
  split
  · trivial
  · exact (Task.failsAtRefusal_request ..).bind fun _ => trivial

theorem failsAtRefusal_load (oids : List Oid) : (load oids).FailsAtRefusal := by
  refine (failsAtRefusal_fetchRows oids).bind fun rows => ?_
  refine (isSilent_types rows).failsAtRefusal.bind fun built => ?_
  cases built <;> trivial

/-- Load types, if there are some to load. -/
def loadAny (pending : List Oid) : Task ResolveError Unit :=
  if !pending.isEmpty then load pending else .done ()

theorem failsAtRefusal_loadAny (pending : List Oid) : (loadAny pending).FailsAtRefusal := by
  rw [loadAny]
  split
  · exact failsAtRefusal_load pending
  · trivial

theorem isSilent_finish (pending unresolved : List Oid) (resolved : TypeMap) :
    (finish pending unresolved resolved).IsSilent := by
  refine (isSilent_uncached pending).bind fun missing => ?_
  refine (isSilent_collect unresolved resolved missing).bind fun found => ?_
  dsimp only
  split <;> trivial

/-- A request for types, with the loading as a part of its own. -/
theorem resolveTypes_eq (oids : List Oid) :
    resolveTypes oids = .readTypes fun cache =>
      if (cache.split oids).2.isEmpty then .done (cache.split oids).1
      else (Task.request .catalog (.findDescendants (cache.split oids).2)).bind fun closure =>
        .readTypes fun now =>
          (loadAny (now.split ((cache.split oids).2 ++ closure).eraseDups).2).bind fun _ =>
            finish (now.split ((cache.split oids).2 ++ closure).eraseDups).2
              (cache.split oids).2 (cache.split oids).1 := by
  rw [resolveTypes]
  simp only [loadAny, Task.bind_eq, Task.pure_eq]
  congr 1
  funext cache
  split
  · rfl
  · congr 1
    funext closure
    congr 1
    funext now
    split <;> rfl

theorem failsAtRefusal_resolveTypes (oids : List Oid) : (resolveTypes oids).FailsAtRefusal := by
  rw [resolveTypes_eq]
  intro cache
  dsimp only
  split
  · trivial
  · refine (Task.failsAtRefusal_request ..).bind fun closure now => ?_
    exact (failsAtRefusal_loadAny _).bind fun _ => (isSilent_finish ..).failsAtRefusal

theorem isSilent_storeColumns (types : TypeMap) (rows : List ColumnRow) :
    (storeColumns types rows).IsSilent := by
  induction rows with
  | nil => trivial
  | cons row rows ih =>
    rw [storeColumns]
    split
    · exact ih
    · trivial

theorem isSilent_readColumns (keys : List ColumnKey) : (readColumns keys).IsSilent := by
  induction keys with
  | nil => trivial
  | cons key keys ih =>
    refine Task.IsSilent.bind (fun cache => trivial) fun found => ?_
    cases found with
    | none => trivial
    | some column => exact ih.bind fun _ => trivial

theorem failsAtRefusal_fetchColumns (keys : List ColumnKey) :
    (fetchColumns keys).FailsAtRefusal := by
  intro cache
  dsimp only
  split
  · refine (Task.failsAtRefusal_request ..).bind fun rows => ?_
    refine (failsAtRefusal_resolveTypes _).bind fun types => ?_
    exact (isSilent_storeColumns types rows).failsAtRefusal.bind fun _ =>
      (isSilent_readColumns keys).failsAtRefusal
  · exact (isSilent_readColumns keys).failsAtRefusal

/-! ### Resolved types -/

/-- Each type that is looked up is found or is missing, and none is lost again. -/
theorem of_proceed_collect {resolved found : TypeMap} {missing lacking : List Oid}
    (h : (collect oids resolved missing).proceed replies p = (.ok (found, lacking), p')) :
    (∀ oid ∈ resolved, oid ∈ found) ∧ missing ⊆ lacking ∧
      ∀ oid ∈ oids, oid ∈ found ∨ oid ∈ lacking := by
  induction oids generalizing resolved missing p with
  | nil =>
    cases h
    exact ⟨fun _ h => h, List.Subset.refl _, fun _ h => absurd h List.not_mem_nil⟩
  | cons oid oids ih =>
    obtain ⟨t, p₁, -, h⟩ := Task.proceed_bind_eq_ok.mp h
    cases t with
    | some t =>
      obtain ⟨hfound, hmissing, hall⟩ := ih h
      simp only [Std.ExtTreeMap.mem_insert, Std.LawfulEqCmp.compare_eq_iff_eq] at hfound
      refine ⟨fun o ho => hfound o (.inr ho), hmissing, ?_⟩
      rw [List.forall_mem_cons]
      exact ⟨.inl (hfound oid (.inl rfl)), hall⟩
    | none =>
      obtain ⟨hfound, hmissing, hall⟩ := ih h
      have hadded : missing ⊆ (if missing.contains oid then missing else missing ++ [oid]) ∧
          oid ∈ if missing.contains oid then missing else missing ++ [oid] := by
        split
        · next hoid => exact ⟨List.Subset.refl _, List.contains_iff_mem.mp hoid⟩
        · exact ⟨List.subset_append_left _ _, List.mem_append_right _ (List.mem_singleton.mpr rfl)⟩
      refine ⟨hfound, List.Subset.trans hadded.1 hmissing, ?_⟩
      rw [List.forall_mem_cons]
      exact ⟨.inr (hmissing hadded.2), hall⟩

/-- What is asked for is missing from the cache or resolved by it. -/
theorem mem_split_or_mem (cache : TypeCache) {oid : Oid} (ho : oid ∈ oids) :
    oid ∈ (cache.split oids).2 ∨ oid ∈ (cache.split oids).1 := by
  rw [TypeCache.mem_split, Std.ExtTreeMap.mem_iff_isSome_getElem?, TypeCache.getElem?_split,
    if_pos ho]
  cases cache.get? oid with
  | none => exact .inl ⟨ho, rfl⟩
  | some t => exact .inr rfl

/-- Types that are resolved are resolved for all that was asked for. -/
theorem mem_of_proceed_resolveTypes {types : TypeMap}
    (h : (resolveTypes oids).proceed replies p = (.ok types, p')) : ∀ oid ∈ oids, oid ∈ types := by
  intro oid ho
  rw [resolveTypes_eq, Task.proceed] at h
  have hsplit := mem_split_or_mem p.caches.types ho
  split at h
  · next hempty =>
    cases h
    rw [List.isEmpty_iff.mp hempty] at hsplit
    exact hsplit.resolve_left List.not_mem_nil
  · obtain ⟨closure, p₁, -, h⟩ := Task.proceed_bind_eq_ok.mp h
    obtain ⟨-, p₂, -, h⟩ := Task.proceed_bind_eq_ok.mp h
    obtain ⟨missing, p₃, -, h⟩ := Task.proceed_bind_eq_ok.mp h
    obtain ⟨⟨found, lacking⟩, p₄, hcollect, h⟩ := Task.proceed_bind_eq_ok.mp h
    obtain ⟨hfound, -, hall⟩ := of_proceed_collect hcollect
    dsimp only at h
    split at h
    · next hempty =>
      cases h
      rw [List.isEmpty_iff.mp hempty] at hall
      rcases hsplit with hmissing | hcached
      · exact (hall oid hmissing).resolve_right List.not_mem_nil
      · exact hfound oid hcached
    · cases h

end Resolution

namespace Inference

open Resolution

variable {replies : Replies} {p p' : Progress} {q : SourceQuery} {types : TypeMap}

/-! ### Parameters and results -/

/-- With all their types resolved, parameters are put together without a failure. -/
theorem exists_inputs_eq {params : List (String × Oid)} (h : ∀ param ∈ params, param.2 ∈ types) :
    ∃ ins, inputs types params = .done ins := by
  induction params with
  | nil => exact ⟨[], rfl⟩
  | cons param params ih =>
    obtain ⟨name, oid⟩ := param
    obtain ⟨hoid, hrest⟩ := List.forall_mem_cons.mp h
    obtain ⟨ins, hins⟩ := ih hrest
    exact ⟨_, by rw [inputs, Std.ExtTreeMap.getElem?_eq_some_getElem hoid, hins]; rfl⟩

theorem exists_outputs_eq {fields : List (Field × Bool)}
    (h : ∀ field ∈ fields, field.1.typeOid ∈ types) :
    ∃ outs, outputs types fields = .done outs := by
  induction fields with
  | nil => exact ⟨[], rfl⟩
  | cons field fields ih =>
    obtain ⟨field, nullable⟩ := field
    obtain ⟨hoid, hrest⟩ := List.forall_mem_cons.mp h
    obtain ⟨outs, houts⟩ := ih hrest
    exact ⟨_, by rw [outputs, Std.ExtTreeMap.getElem?_eq_some_getElem hoid, houts]; rfl⟩

/-! ### Stages -/

/-- The catalog was asked to describe the query. -/
def toDescribe (q : SourceQuery) (p : Progress) : Progress :=
  p.ask (.describe q.preparedSql)

/-- The catalog was asked to describe the query, and then to plan it. -/
def toExplain (q : SourceQuery) (d : Description) (p : Progress) : Progress :=
  (toDescribe q p).ask (.explain q.preparedSql d.params)

/-- The catalog describes the query with the parameters that it has. -/
structure Described (replies : Replies) (q : SourceQuery) (p : Progress) (d : Description) :
    Prop where
  answer : replies p.requests (.describe q.preparedSql) = .ok d
  params : d.params.length = q.params.length

/-- The catalog describes the query and gives a plan of it. -/
structure Planned (replies : Replies) (q : SourceQuery) (p : Progress) (d : Description) : Prop
    extends Described replies q p d where
  plan : ∃ explained top,
    replies (toDescribe q p).requests (.explain q.preparedSql d.params) = .ok explained ∧
      (Plan.ofJson explained >>= Plan.top) = .ok top

/-- How a query can fail, and how far it has come then: no request is made for a stage behind the
one that fails. -/
inductive QueryFails (replies : Replies) (q : SourceQuery) (p : Progress) :
    QueryError → Progress → Prop where
  | describe {reason : CatalogError}
    (refused : replies p.requests (.describe q.preparedSql) = .error reason) :
    QueryFails replies q p (.catalog reason) (toDescribe q p)
  | params {d : Description} (answer : replies p.requests (.describe q.preparedSql) = .ok d)
    (mismatch : d.params.length ≠ q.params.length) :
    QueryFails replies q p (.paramMismatch q.params.length d.params.length) (toDescribe q p)
  | explain {d : Description} {reason : CatalogError} (described : Described replies q p d)
    (refused : replies (toDescribe q p).requests (.explain q.preparedSql d.params) =
      .error reason) :
    QueryFails replies q p (.catalog reason) (toExplain q d p)
  | plan {d : Description} {explained : Json} {reason : PlanError}
    (described : Described replies q p d)
    (answer : replies (toDescribe q p).requests (.explain q.preparedSql d.params) = .ok explained)
    (malformed : (Plan.ofJson explained >>= Plan.top) = .error reason) :
    QueryFails replies q p (.plan reason) (toExplain q d p)
  | columns {d : Description} {reason : ResolveError} {p' : Progress}
    (planned : Planned replies q p d)
    (failed : (fetchColumns (d.fields.filterMap Field.key?)).proceed replies (toExplain q d p) =
      (.error reason, p')) :
    QueryFails replies q p (.resolve reason) p'
  | types {d : Description} {columns : List Column} {reason : ResolveError} {p₁ p' : Progress}
    (planned : Planned replies q p d)
    (fetched : (fetchColumns (d.fields.filterMap Field.key?)).proceed replies (toExplain q d p) =
      (.ok columns, p₁))
    (failed : (resolveTypes (d.params ++ d.fields.map (·.typeOid))).proceed replies p₁ =
      (.error reason, p')) :
    QueryFails replies q p (.resolve reason) p'

/-- A query that fails does so in one of its stages. -/
theorem queryFails_of_proceed {error : QueryError}
    (h : (inferQuery q).proceed replies p = (.error error, p')) :
    QueryFails replies q p error p' := by
  rcases Task.proceed_bind_eq_error.mp h with h | ⟨d, p₁, hdescribe, h⟩
  · obtain ⟨reason, hrefused, rfl, rfl⟩ := Task.proceed_request_eq_error.mp h
    exact .describe hrefused
  obtain ⟨hd, rfl⟩ := Task.proceed_request_eq_ok.mp hdescribe
  split at h
  · next hlength =>
    cases h
    exact .params hd hlength
  next hlength =>
  have hdescribed : Described replies q p d := ⟨hd, not_ne_iff.mp hlength⟩
  rcases Task.proceed_bind_eq_error.mp h with h | ⟨explained, p₂, hexplain, h⟩
  · obtain ⟨reason, hrefused, rfl, rfl⟩ := Task.proceed_request_eq_error.mp h
    exact .explain hdescribed hrefused
  obtain ⟨he, rfl⟩ := Task.proceed_request_eq_ok.mp hexplain
  rcases Task.proceed_bind_eq_error.mp h with h | ⟨plan, p₃, hread, h⟩
  · obtain ⟨reason, hmalformed, rfl, rfl⟩ := Task.proceed_ofExcept_eq_error.mp h
    exact .plan hdescribed he (by rw [hmalformed]; rfl)
  obtain ⟨hplan, rfl⟩ := Task.proceed_ofExcept_eq_ok.mp hread
  rcases Task.proceed_bind_eq_error.mp h with h | ⟨top, p₄, hclassify, h⟩
  · obtain ⟨reason, hmalformed, rfl, rfl⟩ := Task.proceed_ofExcept_eq_error.mp h
    exact .plan hdescribed he (by rw [hplan]; exact hmalformed)
  obtain ⟨htop, rfl⟩ := Task.proceed_ofExcept_eq_ok.mp hclassify
  have hplanned : Planned replies q p d :=
    ⟨hdescribed, explained, top, he, by rw [hplan]; exact htop⟩
  rcases Task.proceed_bind_eq_error.mp h with h | ⟨columns, p₅, hcolumns, h⟩
  · obtain ⟨reason, hfailed, rfl⟩ := Task.proceed_mapError_eq_error.mp h
    exact .columns hplanned hfailed
  have hfetched := Task.proceed_mapError_eq_ok.mp hcolumns
  rcases Task.proceed_bind_eq_error.mp h with h | ⟨types, p₆, htypes, h⟩
  · obtain ⟨reason, hfailed, rfl⟩ := Task.proceed_mapError_eq_error.mp h
    exact .types hplanned hfetched hfailed
  have hresolved := mem_of_proceed_resolveTypes (Task.proceed_mapError_eq_ok.mp htypes)
  -- All types are there, so the parameters and the results are put together without a failure.
  obtain ⟨ins, hins⟩ : ∃ ins, inputs types (q.params.zip d.params) = .done ins := by
    refine exists_inputs_eq fun param hparam => hresolved _ ?_
    exact List.mem_append_left _ (List.of_mem_zip hparam).2
  obtain ⟨outs, houts⟩ : ∃ outs, outputs types (d.fields.zip (Nullability.infer plan top
      (d.fields.map (columnOf columns)))) = .done outs := by
    refine exists_outputs_eq fun field hfield => hresolved _ ?_
    exact List.mem_append_right _ (List.mem_map_of_mem (List.of_mem_zip hfield).1)
  rw [hins, houts] at h
  cases h

/-! ### Refusals -/

theorem isSilent_inputs (types : TypeMap) (params : List (String × Oid)) :
    (inputs types params).IsSilent := by
  induction params with
  | nil => trivial
  | cons param params ih =>
    rw [inputs]
    split
    · trivial
    · exact ih.bind fun _ => trivial

theorem isSilent_outputs (types : TypeMap) (fields : List (Field × Bool)) :
    (outputs types fields).IsSilent := by
  induction fields with
  | nil => trivial
  | cons field fields ih =>
    rw [outputs]
    split
    · trivial
    · exact ih.bind fun _ => trivial

/-- The query fails at once when a request for it is refused. -/
theorem failsAtRefusal_infer (q : SourceQuery) : (infer q).FailsAtRefusal := by
  refine Task.FailsAtRefusal.mapError _ ?_
  refine (Task.failsAtRefusal_request ..).bind fun d => ?_
  split
  · trivial
  refine (Task.failsAtRefusal_request ..).bind fun explained => ?_
  refine (Task.failsAtRefusal_ofExcept _).bind fun plan => ?_
  refine (Task.failsAtRefusal_ofExcept _).bind fun top => ?_
  refine ((failsAtRefusal_fetchColumns _).mapError _).bind fun columns => ?_
  refine ((failsAtRefusal_resolveTypes _).mapError _).bind fun types => ?_
  refine (isSilent_inputs types _).failsAtRefusal.bind fun ins => ?_
  exact (isSilent_outputs types _).failsAtRefusal.bind fun _ => trivial

end Inference

end TypedSql
