import TypedSql.Proofs.Resolution.Types
import TypedSql.Proofs.Task.Requests

/-!
# The course of a request for types

A request for types that runs alone finds the same caches between its own steps, so each part of it
comes to something that can be written down: the rows that are fetched, the types that are built
from them and from the cache, and what is missing in the end. `Resolution.course_resolveTypes` puts
these together, with the caches afterwards and all requests to the catalog. Nothing is assumed of
the catalog or of the cache.

Only `Resolution.fetchRows` asks the catalog for rows; building and collecting are silent. The
cache changes in one place, when all rows have been built.
-/

namespace TypedSql

/-- A request that a request for types is made of. -/
def Request.IsAboutTypes : Request → Prop
  | .findDescendants _ | .findEnums _ | .findDomains _ | .findComposites _ | .findArrays _
  | .findUnknown _ => True
  | .describe _ | .explain _ _ | .findColumns _ => False

namespace Resolution

variable {ε : Type} {catalog : Catalog} {deadline : Duration} {caches : Caches}
  {pending unresolved oids : List Oid} {resolved : TypeMap}

/-! ### Parts without requests -/

section Silent

theorem isSilent_firstMissing (rows : TypeRows) (oids : List Oid) :
    (firstMissing Task.cachedType rows oids : Task ε _).IsSilent := by
  induction oids with
  | nil => trivial
  | cons oid oids ih =>
    rw [firstMissing]
    split
    · exact ih
    · refine (Task.isSilent_cachedType oid).bind fun found => ?_
      cases found with
      | none => trivial
      | some t => exact ih

theorem isSilent_missingDependency (rows : TypeRows) (order : List TypeRow) :
    (missingDependency Task.cachedType rows order : Task ε _).IsSilent := by
  induction order with
  | nil => trivial
  | cons row order ih =>
    refine (isSilent_firstMissing rows row.dependencies).bind fun found => ?_
    cases found with
    | none => exact ih
    | some d => trivial

theorem isSilent_lookup (built : TypeMap) (oid : Oid) :
    (lookup Task.cachedType built oid : Task ε _).IsSilent := by
  rw [lookup]
  split
  · trivial
  · exact Task.isSilent_cachedType oid

theorem isSilent_lookupAll (built : TypeMap) (oids : List Oid) :
    (lookupAll Task.cachedType built oids : Task ε _).IsSilent := by
  induction oids with
  | nil => trivial
  | cons oid oids ih =>
    refine (isSilent_lookup built oid).bind fun found => ?_
    cases found with
    | none => trivial
    | some t =>
      refine ih.bind fun rest => ?_
      cases rest <;> trivial

theorem isSilent_build (built : TypeMap) (row : TypeRow) :
    (build Task.cachedType built row : Task ε _).IsSilent := by
  cases row with
  | enum t | unknown t => trivial
  | domain row | array row => exact (isSilent_lookup built _).bind fun _ => trivial
  | composite row => exact (isSilent_lookupAll built _).bind fun _ => trivial

theorem isSilent_buildAll (built : TypeMap) (order : List TypeRow) :
    (buildAll Task.cachedType built order : Task ε _).IsSilent := by
  induction order generalizing built with
  | nil => trivial
  | cons row order ih =>
    refine (isSilent_build built row).bind fun found => ?_
    cases found with
    | none => trivial
    | some t => exact ih _

theorem isSilent_types (rows : TypeRows) : (types Task.cachedType rows : Task ε _).IsSilent := by
  refine (isSilent_missingDependency rows rows.values).bind fun found => ?_
  cases found with
  | some miss => trivial
  | none =>
    cases rows.ordered with
    | error oids => trivial
    | ok order => exact isSilent_buildAll ∅ order

theorem isSilent_uncached (oids : List Oid) : (uncached oids).IsSilent := by
  induction oids with
  | nil => trivial
  | cons oid oids ih => exact (Task.isSilent_cachedType oid).bind fun _ => ih.bind fun _ => trivial

theorem isSilent_collect (oids : List Oid) (resolved : TypeMap) (missing : List Oid) :
    (collect oids resolved missing).IsSilent := by
  induction oids generalizing resolved missing with
  | nil => trivial
  | cons oid oids ih =>
    refine (Task.isSilent_cachedType oid).bind fun found => ?_
    cases found with
    | none => exact ih _ _
    | some t => exact ih _ _

end Silent

/-! ### Rows and types -/

theorem settles_frozen (caches : Caches) (oid : Oid) :
    (Sharing.frozen catalog deadline).Settles caches caches.types.get? oid := by
  rintro _ rfl
  rfl

/-- Building takes from the cache what was there before. -/
theorem run_types {rows : TypeRows} (hk : rows.IsKeyed) :
    (types Task.cachedType rows : Task ε _).run catalog deadline caches =
      ⟨.ok (types (m := Id) caches.types.get? rows), caches, []⟩ :=
  Task.Gives.run_eq (gives_types hk fun _ d _ _ => settles_frozen caches d) (isSilent_types rows)

section Added

variable {rows : TypeRows} {cache : TypeCache} {built : TypeMap} {oid : Oid} {t : SqlType}
  (hk : rows.IsKeyed) (hn : ∀ oid ∈ rows, cache.get? oid = none)
  (h : types (m := Id) cache.get? rows = Except.ok (ε := ResolveError) built)
include hk h

theorem oid_of_types_eq_ok (ht : built[oid]? = some t) : t.oid = oid := by
  obtain ⟨row, hr, hb⟩ := (getElem?_of_types_eq_ok hk h).mp ht
  exact (oid_of_build hb).trans (hk oid row hr)

include hn

/-- No entry is in the way of a type that is added, so it is found afterwards where it was looked
up when the others were built. -/
theorem lookup_eq_get?_extend (oid : Oid) :
    lookup (m := Id) cache.get? built oid = (cache.extend built.values).get? oid := by
  rw [lookup_eq, TypeCache.get?_extend_values fun _ _ => oid_of_types_eq_ok hk h]
  cases hb : built[oid]? with
  | none => rw [Option.none_or, Option.or_none]
  | some t =>
    obtain ⟨row, hr, -⟩ := (getElem?_of_types_eq_ok hk h).mp hb
    rw [hn oid (mem_map_iff.mpr ⟨row, hr⟩), Option.none_or, Option.some_or]

/-- The types that are added are those of the rows, made of what is cached afterwards. -/
theorem get?_extend_eq_some_iff : (cache.extend built.values).get? oid = some t ↔
    cache.get? oid = some t ∨ ∃ row : TypeRow, rows[oid]? = some row ∧
      build (m := Id) (cache.extend built.values).get? ∅ row = some t := by
  have hbuild (row : TypeRow) : build (m := Id) cache.get? built row =
      build (m := Id) (cache.extend built.values).get? ∅ row := by
    refine build_congr fun d _ => ?_
    rw [lookup_eq_get?_extend hk hn h, lookup_eq, Std.ExtTreeMap.getElem?_empty, Option.none_or]
  simp only [← hbuild, ← getElem?_of_types_eq_ok hk h]
  rw [TypeCache.get?_extend_values fun _ _ => oid_of_types_eq_ok hk h, Option.or_eq_some_iff]
  refine or_congr_right (and_iff_right_of_imp fun hb => ?_)
  obtain ⟨row, hr, -⟩ := (getElem?_of_types_eq_ok hk h).mp hb
  exact hn oid (mem_map_iff.mpr ⟨row, hr⟩)

end Added

theorem isKeyed_ofRows (found : List TypeRow) : (TypeRows.ofRows found).IsKeyed :=
  fun _ _ h => (TypeRows.mem_of_getElem?_ofRows h).2

theorem isKeyed_insertNew {rows : TypeRows} (hk : rows.IsKeyed) (unknown : List UnknownType) :
    (unknown.foldl (fun rows t => rows.insertNew (.unknown t)) rows).IsKeyed := by
  intro oid row hr
  rw [TypeRows.getElem?_foldl_insertNew, Option.or_eq_some_iff] at hr
  obtain hr | ⟨-, hr⟩ := hr
  · exact hk oid row hr
  · obtain ⟨t, ht, rfl⟩ := Option.map_eq_some_iff.mp hr
    have ho := List.find?_some ht
    exact beq_iff_eq.mp ho

/-- Answers to the requests for rows of the four kinds. -/
structure Listing (catalog : Catalog) (deadline : Duration) (pending : List Oid) where
  enums : List EnumType
  domains : List DomainRow
  composites : List CompositeRow
  arrays : List ArrayRow
  answer_enums : catalog.answer deadline (.findEnums pending) = .ok enums
  answer_domains : catalog.answer deadline (.findDomains pending) = .ok domains
  answer_composites : catalog.answer deadline (.findComposites pending) = .ok composites
  answer_arrays : catalog.answer deadline (.findArrays pending) = .ok arrays

/-- The rows of the four kinds. -/
def Listing.found (l : Listing catalog deadline pending) : TypeRows :=
  TypeRows.ofRows (l.enums.map .enum ++ l.domains.map .domain ++ l.composites.map .composite ++
    l.arrays.map .array)

/-- The types that have no row of the four kinds. -/
def Listing.leftovers (l : Listing catalog deadline pending) : List Oid :=
  pending.filter fun oid => !l.found.contains oid

/-- The requests for rows. -/
def Listing.requests (l : Listing catalog deadline pending) : List Request :=
  [.findEnums pending, .findDomains pending, .findComposites pending, .findArrays pending] ++
    if l.leftovers = [] then [] else [.findUnknown l.leftovers]

theorem Listing.requests_of_eq_nil {l : Listing catalog deadline pending} (h : l.leftovers = []) :
    l.requests = [.findEnums pending, .findDomains pending, .findComposites pending,
      .findArrays pending] := by
  rw [requests, if_pos h, List.append_nil]

theorem Listing.requests_of_ne_nil {l : Listing catalog deadline pending} (h : l.leftovers ≠ []) :
    l.requests = [.findEnums pending, .findDomains pending, .findComposites pending,
      .findArrays pending, .findUnknown l.leftovers] := by
  rw [requests, if_neg h]
  rfl

/-- Answers to all requests for rows. -/
structure Fetch (catalog : Catalog) (deadline : Duration) (pending : List Oid) extends
    Listing catalog deadline pending where
  unknown : List UnknownType
  answer_unknown : if toListing.leftovers = [] then unknown = []
    else catalog.answer deadline (.findUnknown toListing.leftovers) = .ok unknown

/-- All rows. -/
def Fetch.rows (f : Fetch catalog deadline pending) : TypeRows :=
  f.unknown.foldl (fun rows t => rows.insertNew (.unknown t)) f.found

theorem Fetch.isKeyed_rows (f : Fetch catalog deadline pending) : f.rows.IsKeyed :=
  isKeyed_insertNew (isKeyed_ofRows _) _

/-- How fetching rows can end: with all answers, or with one that is refused. -/
inductive FetchCourse (catalog : Catalog) (deadline : Duration) (pending : List Oid)
    (caches : Caches) : Task.Run ResolveError TypeRows → Prop where
  | fetched (f : Fetch catalog deadline pending) :
    FetchCourse catalog deadline pending caches ⟨.ok f.rows, caches, f.requests⟩
  | refused {request : Request} {reason : CatalogError} {requests : List Request}
    (refusal : catalog.answer deadline request = .error reason)
    (about_types : request.IsAboutTypes) :
    FetchCourse catalog deadline pending caches ⟨.error (.catalog reason), caches, requests⟩

theorem fetchCourse (pending : List Oid) (caches : Caches) :
    FetchCourse catalog deadline pending caches
      ((fetchRows pending).run catalog deadline caches) := by
  rw [fetchRows, Task.bind_eq]
  cases he : catalog.answer deadline (.findEnums pending) with
  | error reason =>
    rw [Task.run_bind_of_refusal he]
    exact .refused he trivial
  | ok enums =>
  rw [Task.run_bind_of_answer he, Task.bind_eq]
  cases hd : catalog.answer deadline (.findDomains pending) with
  | error reason =>
    rw [Task.run_bind_of_refusal hd]
    exact .refused hd trivial
  | ok domains =>
  rw [Task.run_bind_of_answer hd, Task.bind_eq]
  cases hc : catalog.answer deadline (.findComposites pending) with
  | error reason =>
    rw [Task.run_bind_of_refusal hc]
    exact .refused hc trivial
  | ok composites =>
  rw [Task.run_bind_of_answer hc, Task.bind_eq]
  cases ha : catalog.answer deadline (.findArrays pending) with
  | error reason =>
    rw [Task.run_bind_of_refusal ha]
    exact .refused ha trivial
  | ok arrays =>
  rw [Task.run_bind_of_answer ha]
  let l : Listing catalog deadline pending :=
    ⟨enums, domains, composites, arrays, he, hd, hc, ha⟩
  dsimp only
  split
  · next hl =>
    have hl : l.leftovers = [] := hl
    let f : Fetch catalog deadline pending := ⟨l, [], by rw [if_pos hl]⟩
    have hf : FetchCourse catalog deadline pending caches ⟨.ok f.rows, caches, f.requests⟩ :=
      .fetched f
    rw [Listing.requests_of_eq_nil hl] at hf
    exact hf
  · next hl =>
    have hl : l.leftovers ≠ [] := hl
    rw [Task.bind_eq]
    cases hu : catalog.answer deadline (.findUnknown _) with
    | error reason =>
      rw [Task.run_bind_of_refusal hu]
      exact .refused hu trivial
    | ok unknown =>
    rw [Task.run_bind_of_answer hu]
    let f : Fetch catalog deadline pending := ⟨l, unknown, by rw [if_neg hl]; exact hu⟩
    have hf : FetchCourse catalog deadline pending caches ⟨.ok f.rows, caches, f.requests⟩ :=
      .fetched f
    rw [Listing.requests_of_ne_nil hl] at hf
    exact hf

/-! ### Loading -/

/-- How loading types can end: nothing is added unless all rows were fetched and built. -/
inductive LoadCourse (catalog : Catalog) (deadline : Duration) (pending : List Oid)
    (caches : Caches) : Task.Run ResolveError Unit → Prop where
  | refused {request : Request} {reason : CatalogError} {requests : List Request}
    (refusal : catalog.answer deadline request = .error reason)
    (about_types : request.IsAboutTypes) :
    LoadCourse catalog deadline pending caches ⟨.error (.catalog reason), caches, requests⟩
  | failed (f : Fetch catalog deadline pending) {error : ResolveError}
    (failure : types (m := Id) caches.types.get? f.rows = Except.error error) :
    LoadCourse catalog deadline pending caches ⟨.error error, caches, f.requests⟩
  | loaded (f : Fetch catalog deadline pending) {built : TypeMap}
    (success : types (m := Id) caches.types.get? f.rows = Except.ok (ε := ResolveError) built) :
    LoadCourse catalog deadline pending caches
      ⟨.ok (), { caches with types := caches.types.extend built.values }, f.requests⟩

theorem loadCourse (pending : List Oid) (caches : Caches) :
    LoadCourse catalog deadline pending caches ((load pending).run catalog deadline caches) := by
  rw [load, Task.bind_eq]
  have hfetch : FetchCourse catalog deadline pending caches _ := fetchCourse pending caches
  generalize hrun : (fetchRows pending).run catalog deadline caches = run at hfetch
  cases hfetch with
  | refused refusal about =>
    rw [Task.run_bind_of_error hrun]
    exact .refused refusal about
  | fetched f =>
    rw [Task.run_bind_of_ok hrun, Task.bind_eq, Task.run_bind_of_ok (run_types f.isKeyed_rows)]
    cases ht : types (m := Id) caches.types.get? f.rows with
    | error error =>
      have h : LoadCourse catalog deadline pending caches
          ⟨.error error, caches, f.requests⟩ := .failed f ht
      simpa [Task.run] using h
    | ok built =>
      have h : LoadCourse catalog deadline pending caches
          ⟨.ok (), { caches with types := caches.types.extend built.values }, f.requests⟩ :=
        .loaded f ht
      simpa [Task.run] using h

/-! ### The whole request -/

/-- The end of a request: everything that is missing now is missing for good. -/
def finish (pending unresolved : List Oid) (resolved : TypeMap) : Task ResolveError TypeMap := do
  let missing ← uncached pending
  let (resolved, missing) ← collect unresolved resolved missing
  if missing.isEmpty then pure resolved
  else .fail (.unresolved (missing.mergeSort fun a b => decide (a ≤ b)))

/-- What a request comes to when `cache` holds what there is after loading. -/
def finished (cache : TypeCache) (pending unresolved : List Oid) (resolved : TypeMap) :
    Except ResolveError TypeMap :=
  let missing := pending.filter fun oid => (cache.get? oid).isNone
  if missing.isEmpty then .ok (TypeCache.gather cache.get? resolved unresolved)
  else .error (.unresolved (missing.mergeSort fun a b => decide (a ≤ b)))

/-- A request that succeeds has found everything that was pending. -/
theorem finished_eq_ok {cache : TypeCache} {types : TypeMap}
    (h : finished cache pending unresolved resolved = .ok types) :
    (∀ oid ∈ pending, ∃ t, cache.get? oid = some t) ∧
      types = TypeCache.gather cache.get? resolved unresolved := by
  rw [finished] at h
  split at h
  · next hemp =>
    refine ⟨fun oid ho => ?_, (Except.ok.inj h).symm⟩
    have hm := List.filter_eq_nil_iff.mp (List.isEmpty_iff.mp hemp) oid ho
    rwa [Option.isNone_iff_eq_none, ← ne_eq, Option.ne_none_iff_exists'] at hm
  · cases h

/-- A request that fails in the end reports all that was pending and is not cached. -/
theorem finished_eq_error {cache : TypeCache} {error : ResolveError}
    (h : finished cache pending unresolved resolved = .error error) :
    ∃ reported, error = .unresolved reported ∧
      ∀ oid, oid ∈ reported ↔ oid ∈ pending ∧ cache.get? oid = none := by
  rw [finished] at h
  split at h
  · cases h
  · refine ⟨_, (Except.error.inj h).symm, fun oid => ?_⟩
    rw [List.mem_mergeSort, List.mem_filter, Option.isNone_iff_eq_none]

theorem run_finish (h : ∀ oid ∈ unresolved, caches.types.get? oid = none → oid ∈ pending) :
    (finish pending unresolved resolved).run catalog deadline caches =
      ⟨finished caches.types pending unresolved resolved, caches, []⟩ := by
  have hu : (uncached pending).run catalog deadline caches =
      ⟨.ok (pending.filter fun oid => (caches.types.get? oid).isNone), caches, []⟩ :=
    Task.Gives.run_eq (gives_uncached fun oid _ => settles_frozen caches oid)
      (isSilent_uncached pending)
  have hc : (collect unresolved resolved
      (pending.filter fun oid => (caches.types.get? oid).isNone)).run catalog deadline caches =
      ⟨.ok (TypeCache.gather caches.types.get? resolved unresolved,
        pending.filter fun oid => (caches.types.get? oid).isNone), caches, []⟩ := by
    refine Task.Gives.run_eq (gives_collect (fun oid _ => settles_frozen caches oid) ?_)
      (isSilent_collect ..)
    intro oid ho hn
    exact List.mem_filter.mpr ⟨h oid ho hn, by rw [hn]; rfl⟩
  rw [finish, Task.bind_eq, Task.run_bind_of_ok hu, Task.bind_eq, Task.run_bind_of_ok hc, finished]
  dsimp only
  split <;> rfl

/-- The types that are loaded when some are wanted: the missing ones and what these are made of, as
far as it is not cached. -/
def lacking (cache : TypeCache) (oids closure : List Oid) : List Oid :=
  (cache.split ((cache.split oids).2 ++ closure).eraseDups).2

section Lacking

variable {cache : TypeCache} {closure : List Oid} {oid : Oid}

theorem mem_lacking : oid ∈ lacking cache oids closure ↔
    (oid ∈ (cache.split oids).2 ∨ oid ∈ closure) ∧ cache.get? oid = none := by
  rw [lacking, TypeCache.mem_split, List.mem_eraseDups, List.mem_append]

theorem mem_lacking_of_mem_split (h : oid ∈ (cache.split oids).2) :
    oid ∈ lacking cache oids closure :=
  mem_lacking.mpr ⟨.inl h, (TypeCache.mem_split.mp h).2⟩

theorem nodup_lacking : (lacking cache oids closure).Nodup :=
  TypeCache.nodup_split

theorem lacking_ne_nil (h : (cache.split oids).2 ≠ []) : lacking cache oids closure ≠ [] := by
  obtain ⟨oid, ho⟩ := List.exists_mem_of_ne_nil _ h
  exact List.ne_nil_of_mem (mem_lacking_of_mem_split ho)

end Lacking

/-- Answers to all requests for types that are not cached. -/
structure Retrieval (catalog : Catalog) (deadline : Duration) (oids : List Oid) (cache : TypeCache)
    where
  some_missing : (cache.split oids).2 ≠ []
  closure : List Oid
  answer_closure :
    catalog.answer deadline (.findDescendants (cache.split oids).2) = .ok closure
  fetch : Fetch catalog deadline (lacking cache oids closure)

/-- The requests that are answered. -/
def Retrieval.requests {cache : TypeCache} (a : Retrieval catalog deadline oids cache) :
    List Request :=
  .findDescendants (cache.split oids).2 :: a.fetch.requests

/-- How a request for types can end: in the cache, at a refusal, at rows that cannot be built, or
with what there is after loading. -/
inductive Course (catalog : Catalog) (deadline : Duration) (oids : List Oid) (caches : Caches) :
    Task.Run ResolveError TypeMap → Prop where
  | cached (none_missing : (caches.types.split oids).2 = []) :
    Course catalog deadline oids caches ⟨.ok (caches.types.split oids).1, caches, []⟩
  | refused {request : Request} {reason : CatalogError} {requests : List Request}
    (some_missing : (caches.types.split oids).2 ≠ [])
    (refusal : catalog.answer deadline request = .error reason)
    (about_types : request.IsAboutTypes) :
    Course catalog deadline oids caches ⟨.error (.catalog reason), caches, requests⟩
  | failed (a : Retrieval catalog deadline oids caches.types) {error : ResolveError}
    (failure : types (m := Id) caches.types.get? a.fetch.rows = Except.error error) :
    Course catalog deadline oids caches ⟨.error error, caches, a.requests⟩
  | loaded (a : Retrieval catalog deadline oids caches.types) {built : TypeMap}
    (success : types (m := Id) caches.types.get? a.fetch.rows =
      Except.ok (ε := ResolveError) built) :
    Course catalog deadline oids caches
      ⟨finished (caches.types.extend built.values) (lacking caches.types oids a.closure)
          (caches.types.split oids).2 (caches.types.split oids).1,
        { caches with types := caches.types.extend built.values }, a.requests⟩

/-- When types are missing and the catalog tells what they are made of, all that is not cached is
loaded. -/
theorem run_resolveTypes {closure : List Oid} (hne : (caches.types.split oids).2 ≠ [])
    (hd : catalog.answer deadline (.findDescendants (caches.types.split oids).2) = .ok closure) :
    (resolveTypes oids).run catalog deadline caches =
      let pending := lacking caches.types oids closure
      let second := ((load pending).bind fun _ => finish pending (caches.types.split oids).2
        (caches.types.split oids).1).run catalog deadline caches
      ⟨second.result, second.caches,
        .findDescendants (caches.types.split oids).2 :: second.requests⟩ := by
  have hpending : (caches.types.split
      ((caches.types.split oids).2 ++ closure).eraseDups).2.isEmpty = false :=
    List.isEmpty_eq_false_iff.mpr (lacking_ne_nil hne)
  have hempty : (caches.types.split oids).2.isEmpty = false := List.isEmpty_eq_false_iff.mpr hne
  rw [resolveTypes, Task.run]
  simp only [hempty, Bool.false_eq_true, if_false, Task.bind_eq, Task.run_bind_of_answer hd,
    Task.run, hpending, Bool.not_false, if_true]
  rfl

theorem course_resolveTypes (oids : List Oid) (caches : Caches) :
    Course catalog deadline oids caches ((resolveTypes oids).run catalog deadline caches) := by
  by_cases hne : (caches.types.split oids).2 = []
  · rw [resolveTypes, Task.run]
    simp only [hne, List.isEmpty_nil, if_true]
    exact .cached hne
  · cases hd : catalog.answer deadline (.findDescendants (caches.types.split oids).2) with
    | error reason =>
      have hempty : (caches.types.split oids).2.isEmpty = false :=
        List.isEmpty_eq_false_iff.mpr hne
      rw [resolveTypes, Task.run]
      simp only [hempty, Bool.false_eq_true, if_false, Task.bind_eq, Task.run_bind_of_refusal hd]
      exact .refused hne hd trivial
    | ok closure =>
    rw [run_resolveTypes hne hd]
    dsimp only
    have hload : LoadCourse catalog deadline (lacking caches.types oids closure) caches _ :=
      loadCourse _ caches
    generalize hrun : (load _).run catalog deadline caches = run at hload
    cases hload with
    | refused refusal about =>
      rw [Task.run_bind_of_error hrun]
      exact .refused hne refusal about
    | failed fetch failure =>
      let a : Retrieval catalog deadline oids caches.types := ⟨hne, closure, hd, fetch⟩
      rw [Task.run_bind_of_error hrun]
      exact .failed a failure
    | @loaded fetch built success =>
      let a : Retrieval catalog deadline oids caches.types := ⟨hne, closure, hd, fetch⟩
      have h : Course catalog deadline oids caches _ := .loaded a success
      rw [Task.run_bind_of_ok hrun, run_finish fun oid ho _ => mem_lacking_of_mem_split ho]
      dsimp only
      rw [List.append_nil]
      exact h

/-! ### What is left behind -/

/-- The columns are none of its business. -/
theorem columns_run_resolveTypes (oids : List Oid) (caches : Caches) :
    ((resolveTypes oids).run catalog deadline caches).caches.columns = caches.columns := by
  have hcourse : Course catalog deadline oids caches _ := course_resolveTypes oids caches
  generalize (resolveTypes oids).run catalog deadline caches = run at hcourse ⊢
  cases hcourse <;> rfl

/-- A request that succeeds has all wanted types, and they are cached. -/
theorem exists_of_resolveTypes_eq_ok {types : TypeMap} {oid : Oid}
    (h : ((resolveTypes oids).run catalog deadline caches).result = .ok types) (ho : oid ∈ oids) :
    ∃ t, types[oid]? = some t ∧
      ((resolveTypes oids).run catalog deadline caches).caches.types.get? oid = some t := by
  have hcourse : Course catalog deadline oids caches _ := course_resolveTypes oids caches
  generalize (resolveTypes oids).run catalog deadline caches = run at h hcourse ⊢
  have hsplit : (caches.types.split oids).1[oid]? = caches.types.get? oid := by
    rw [TypeCache.getElem?_split, if_pos ho]
  cases hcourse with
  | refused | failed => cases h
  | cached hnone =>
    obtain rfl := Except.ok.inj h
    have hg : caches.types.get? oid ≠ none := by
      intro hg
      have hm : oid ∈ (caches.types.split oids).2 := TypeCache.mem_split.mpr ⟨ho, hg⟩
      rw [hnone] at hm
      cases hm
    obtain ⟨t, ht⟩ := Option.ne_none_iff_exists'.mp hg
    exact ⟨t, hsplit.trans ht, ht⟩
  | loaded a success =>
    obtain ⟨hall, rfl⟩ := finished_eq_ok h
    rw [TypeCache.getElem?_gather, hsplit]
    cases hg : caches.types.get? oid with
    | some t =>
      have ht := TypeCache.get?_extend_of_eq_some hg
      exact ⟨t, by rw [ht]; split <;> rfl, ht _⟩
    | none =>
      have hm : oid ∈ (caches.types.split oids).2 := TypeCache.mem_split.mpr ⟨ho, hg⟩
      obtain ⟨t, ht⟩ := hall oid (mem_lacking_of_mem_split hm)
      exact ⟨t, by rw [if_pos hm, ht]; rfl, ht⟩

end Resolution

end TypedSql
