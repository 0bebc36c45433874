import TypedSql.Proofs.Resolution.Awaited
import TypedSql.Proofs.Resolution.Coherence

/-!
# The number of requests

A request for types asks a catalog that answers for nothing when all its types are cached, and
otherwise once for everything that these are made of, once for each kind of row, and once more if
some type has none of these (`Resolution.requests_resolveTypes`). Neither the number of types nor
the depth at which they are made of each other matters.

When it has succeeded, everything that it waited for is cached, and with it everything that can be
reached from there: what was not waited for was cached before. Caches only grow, so later requests
for any of this ask for nothing.
-/

namespace TypedSql

/-! ### Later caches -/

/-- The caches after some tasks, each carried out with a catalog of its own time. -/
inductive Caches.Later (caches : Caches) : Caches → Prop where
  | refl : Later caches caches
  | run {ε α : Type} {before : Caches} (t : Task ε α) (catalog : Catalog) (deadline : Duration) :
    Later caches before → Later caches (t.run catalog deadline before).caches

theorem Task.grows_run {ε α : Type} (t : Task ε α) (catalog : Catalog) (deadline : Duration)
    (caches : Caches) : caches.types.Grows (t.run catalog deadline caches).caches.types :=
  caches_run_induction (motive := fun after => caches.types.Grows after.types)
    (fun _ types h => h.trans (TypeCache.grows_extend _ types)) (fun _ _ h => h) t (.refl _)

theorem Caches.Later.grows {caches later : Caches} (h : caches.Later later) :
    caches.types.Grows later.types := by
  induction h with
  | refl => exact .refl _
  | run t catalog deadline _ ih => exact ih.trans (t.grows_run catalog deadline _)

namespace MemoryCatalog

/-- The catalog has a row for the type that is of one of the four kinds. -/
def Describes (c : MemoryCatalog) (oid : Oid) : Prop :=
  ∃ row, c.types[oid]? = some row ∧ ∀ t, row ≠ .unknown t

theorem IsPrompt.not_refused {c : MemoryCatalog} (hc : c.IsPrompt) {deadline : Duration}
    {request : Request} {reason : CatalogError} (hr : request.IsAboutTypes) :
    c.catalog.answer deadline request ≠ .error reason := by
  rw [hc.answer]
  cases request with
  | describe | explain | findColumns => exact hr.elim
  | findDescendants | findEnums | findDomains | findComposites | findArrays | findUnknown =>
    simp [find]

end MemoryCatalog

namespace Resolution

open MemoryCatalog Relation

variable {c : MemoryCatalog} {catalog : Catalog} {deadline : Duration} {cache : TypeCache}
  {caches : Caches} {oids pending unresolved : List Oid} {oid : Oid}

theorem Listing.mem_leftovers (hc : c.Built) (l : Listing c.catalog deadline pending) :
    oid ∈ l.leftovers ↔ oid ∈ pending ∧ ¬ c.Describes oid := by
  rw [leftovers, List.mem_filter, Bool.not_eq_true', ← Bool.not_eq_true,
    Std.ExtTreeMap.contains_iff_mem, mem_map_iff, l.found_eq]
  refine and_congr_right fun ho => not_congr (exists_congr fun row => ?_)
  rw [getElem?_ofRows_listed hc, and_iff_right ho]

/-- After a request has succeeded, everything is cached that can be reached from what it has waited
for. -/
theorem exists_get?_of_awaited {types : TypeMap} {start : Oid}
    (h : ((resolveTypes oids).run c.catalog deadline caches).result = .ok types)
    (hs : Awaited c caches.types oids start) (hr : ReflTransGen c.types.DependsOn start oid) :
    ∃ t, ((resolveTypes oids).run c.catalog deadline caches).caches.types.get? oid = some t := by
  have hcourse : Course c.catalog deadline oids caches _ := course_resolveTypes oids caches
  generalize (resolveTypes oids).run c.catalog deadline caches = run at h hcourse
  cases hcourse with
  | refused | failed => cases h
  | cached hnone =>
    obtain ⟨first, hf, -⟩ := (awaited_iff.mp hs).1
    rw [hnone] at hf
    cases hf
  | loaded a success =>
    cases hg : caches.types.get? oid with
    | some t => exact ⟨t, TypeCache.get?_extend_of_eq_some hg _⟩
    | none =>
      have hawaited : Awaited c caches.types oids oid :=
        awaited_iff.mpr ⟨(awaited_iff.mp hs).1.trans hr, hg⟩
      exact (finished_eq_ok h).1 oid (a.mem_lacking.mpr hawaited)

/-- When all wanted types are cached, nothing is asked for. -/
theorem requests_of_cached (h : ∀ oid ∈ oids, ∃ t, caches.types.get? oid = some t) :
    ((resolveTypes oids).run catalog deadline caches).requests = [] := by
  have hnone : (caches.types.split oids).2 = [] := by
    refine List.eq_nil_iff_forall_not_mem.mpr fun oid ho => ?_
    obtain ⟨t, ht⟩ := h oid (TypeCache.mem_split.mp ho).1
    rw [(TypeCache.mem_split.mp ho).2] at ht
    cases ht
  have hcourse : Course catalog deadline oids caches _ := course_resolveTypes oids caches
  generalize (resolveTypes oids).run catalog deadline caches = run at hcourse
  cases hcourse with
  | cached => rfl
  | refused hne => exact absurd hnone hne
  | failed a | loaded a => exact absurd hnone a.some_missing

theorem ofRequests_fetch (f : Fetch catalog deadline pending) :
    CallCounts.ofRequests (.findDescendants unresolved :: f.requests) =
      ⟨0, 0, 1, 1, 1, 1, 1, if f.leftovers = [] then 0 else 1, 0⟩ := by
  by_cases hl : f.leftovers = []
  · rw [Listing.requests_of_eq_nil hl, if_pos hl]
    rfl
  · rw [Listing.requests_of_ne_nil hl, if_neg hl]
    rfl

/-- When the catalog answers, a request for types that are not all cached asks for everything that
it waits for. -/
theorem exists_retrieval (hc : c.IsPrompt) (deadline : Duration)
    (h : ∃ oid ∈ oids, caches.types.get? oid = none) :
    ∃ a : Retrieval c.catalog deadline oids caches.types,
      ((resolveTypes oids).run c.catalog deadline caches).requests = a.requests := by
  obtain ⟨oid, ho, hg⟩ := h
  have hcourse : Course c.catalog deadline oids caches _ := course_resolveTypes oids caches
  generalize (resolveTypes oids).run c.catalog deadline caches = run at hcourse
  cases hcourse with
  | cached hnone =>
    have hm : oid ∈ (caches.types.split oids).2 := TypeCache.mem_split.mpr ⟨ho, hg⟩
    rw [hnone] at hm
    cases hm
  | refused _ refusal about => exact absurd refusal (hc.not_refused about)
  | failed a | loaded a => exact ⟨a, rfl⟩

/-- The number of requests does not grow with what is asked for, and after a success nothing is
asked for again. -/
theorem requests_resolveTypes (hc : c.IsPrompt) (deadline : Duration) (oids : List Oid)
    (caches : Caches) :
    let run := (resolveTypes oids).run c.catalog deadline caches
    ((∀ oid ∈ oids, ∃ t, caches.types.get? oid = some t) → run.requests = []) ∧
    ((∃ oid ∈ oids, caches.types.get? oid = none) → ∃ unresolved pending leftovers : List Oid,
      (∀ oid, oid ∈ unresolved ↔ oid ∈ oids ∧ caches.types.get? oid = none) ∧
      pending.Nodup ∧ (∀ oid, oid ∈ pending ↔ Awaited c caches.types oids oid) ∧
      (∀ oid, oid ∈ leftovers ↔ oid ∈ pending ∧ ¬ c.Describes oid) ∧
      run.requests = [.findDescendants unresolved, .findEnums pending, .findDomains pending,
        .findComposites pending, .findArrays pending] ++
          (if leftovers = [] then [] else [.findUnknown leftovers]) ∧
      CallCounts.ofRequests run.requests =
        ⟨0, 0, 1, 1, 1, 1, 1, if leftovers = [] then 0 else 1, 0⟩) ∧
    ∀ types, run.result = .ok types → ∀ later, run.caches.Later later →
      ∀ (catalog : Catalog) (deadline : Duration) (more : List Oid),
        (∀ oid ∈ more, ∃ start, Awaited c caches.types oids start ∧
          ReflTransGen c.types.DependsOn start oid) →
        ((resolveTypes more).run catalog deadline later).requests = [] := by
  refine ⟨requests_of_cached, fun h => ?_,
    fun types hok later hlater catalog' deadline' more hm => ?_⟩
  · obtain ⟨a, ha⟩ := exists_retrieval hc deadline h
    refine ⟨(caches.types.split oids).2, lacking caches.types oids a.closure, a.fetch.leftovers,
      fun oid => TypeCache.mem_split, nodup_lacking, fun oid => a.mem_lacking,
      fun oid => a.fetch.mem_leftovers hc.built, ha, ?_⟩
    rw [ha]
    exact ofRequests_fetch a.fetch
  · refine requests_of_cached fun oid ho => ?_
    obtain ⟨start, hs, hr⟩ := hm oid ho
    obtain ⟨t, ht⟩ := exists_get?_of_awaited hok hs hr
    exact ⟨t, hlater.grows oid t ht⟩

/-- One of the types has no row, so there is a request more. -/
theorem requests_moods : moods.IsPrompt ∧
    CallCounts.ofRequests
      ((resolveTypes [90100, 90300]).run moods.catalog ⟨5000⟩ .new).requests =
        ⟨0, 0, 1, 1, 1, 1, 1, 1, 0⟩ := by
  have hmoods : moods.IsPrompt := ⟨.addType _ (.addType _ .empty), fun _ => rfl, rfl⟩
  have hnone : Caches.new.types.get? 90300 = none := by
    rw [show Caches.new.types = .builtin from rfl, TypeCache.get?_builtin]
    decide
  obtain ⟨-, hloads, -⟩ := requests_resolveTypes hmoods ⟨5000⟩ [90100, 90300] .new
  obtain ⟨_, _, leftovers, -, -, hpending, hleft, -, hcounts⟩ := hloads ⟨90300, by simp, hnone⟩
  have hm : (90300 : Oid) ∈ leftovers := by
    refine (hleft _).mpr ⟨(hpending _).mpr ⟨hnone, 90300, by simp, hnone, .refl⟩, ?_⟩
    rintro ⟨row, hr, -⟩
    have hr' : moods.types[(90300 : Oid)]? = none := by decide +kernel
    rw [hr'] at hr
    cases hr
  rw [if_neg (List.ne_nil_of_mem hm)] at hcounts
  exact ⟨hmoods, hcounts⟩

end Resolution

end TypedSql
