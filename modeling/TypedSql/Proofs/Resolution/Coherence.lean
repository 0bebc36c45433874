import TypedSql.Proofs.Catalog.Focus
import TypedSql.Proofs.Resolution.Course

/-!
# Caches that fit together

Requests for types share one cache, while the database may change between them. Still the cached
types fit together (`TypeCache.IsCoherent`): each stands under its own identifier, and what it
holds of other types is what is cached for these. A request builds types only for identifiers
that are not cached, and takes everything else from the cache, so an addition never meets an entry
that is there already (`Resolution.isCoherent_extend`). This carries over to any run of requests,
failing ones included (`Resolution.isCoherent_of_demands`).

Nothing is assumed of the catalogs but that they tell of no types that they were not asked for.
-/

namespace TypedSql

/-! ### Coherent caches -/

namespace TypeCache

variable {cache larger : TypeCache} {known : Oid → Option SqlType} {oid : Oid} {t : SqlType}

/-- What a type holds of other types is what is cached for them. -/
def Supports (cache : TypeCache) : SqlType → Prop
  | .array _ _ element => cache.get? element.oid = some element
  | .composite _ _ _ columnTypes => ∀ t ∈ columnTypes, cache.get? t.oid = some t
  | .domain d => ∃ t, cache.get? d.base.oid = some t ∧ d.base = Resolution.baseOf t
  | .base _ | .enum _ | .unknown _ | .void => True

/-- Every type is cached under its own identifier, together with what it is made of. -/
structure IsCoherent (cache : TypeCache) : Prop where
  oid_eq (oid : Oid) (t : SqlType) : cache.get? oid = some t → t.oid = oid
  supports (oid : Oid) (t : SqlType) : cache.get? oid = some t → cache.Supports t

/-- What is cached stays cached. -/
def Grows (cache larger : TypeCache) : Prop :=
  ∀ oid t, cache.get? oid = some t → larger.get? oid = some t

theorem Grows.refl (cache : TypeCache) : cache.Grows cache :=
  fun _ _ h => h

theorem Grows.trans {largest : TypeCache} (h : cache.Grows larger) (h' : larger.Grows largest) :
    cache.Grows largest :=
  fun oid t ht => h' oid t (h oid t ht)

theorem grows_extend (cache : TypeCache) (types : List SqlType) :
    cache.Grows (cache.extend types) :=
  fun _ _ h => get?_extend_of_eq_some h types

theorem Supports.mono (h : cache.Supports t) (hg : cache.Grows larger) : larger.Supports t := by
  cases t with
  | array oid name element => exact hg _ _ h
  | composite oid name names types => exact fun t ht => hg _ _ (h t ht)
  | domain d =>
    obtain ⟨t, ht, hd⟩ := h
    exact ⟨t, hg _ _ ht, hd⟩
  | base _ | enum _ | unknown _ | void => trivial

theorem isCoherent_builtin : builtin.IsCoherent where
  oid_eq oid t h := Builtin.oid_of_type? (get?_builtin oid ▸ h)
  supports oid t h := by
    rw [get?_builtin, Builtin.type?] at h
    split at h
    · obtain rfl := Option.some.inj h
      trivial
    · split at h
      · next s hs =>
        obtain rfl := Option.some.inj h
        obtain ⟨name, -, rfl⟩ := Option.map_eq_some_iff.mp hs
        trivial
      · obtain ⟨⟨name, element⟩, -, h⟩ := Option.bind_eq_some_iff.mp h
        obtain ⟨s, hs, h⟩ := Option.bind_eq_some_iff.mp h
        obtain rfl := Option.some.inj h
        have hv : element ≠ SqlType.voidOid := by
          rintro rfl
          have hn : Builtin.scalar? SqlType.voidOid = none := by decide
          rw [hn] at hs
          cases hs
        rw [Supports, Builtin.oid_of_scalar? hs, get?_builtin, Builtin.type?, if_neg hv, hs]

end TypeCache

/-! ### One addition -/

namespace Resolution

open TypeCache

variable {cache larger : TypeCache} {known : Oid → Option SqlType} {rows : TypeRows}
  {row : TypeRow} {types : TypeMap} {pending : List Oid} {oid : Oid} {t : SqlType}

/-- A type that is built from what a cache has for its parts is supported by the cache. -/
theorem supports_of_build (h : build (m := Id) known types row = some t)
    (hd : ∀ d ∈ row.dependencies, ∀ s, lookup (m := Id) known types d = some s →
      cache.get? s.oid = some s) : cache.Supports t := by
  cases row with
  | enum e | unknown u =>
    obtain rfl := Option.some.inj h
    trivial
  | domain row =>
    obtain ⟨s, hs, rfl⟩ := Option.map_eq_some_iff.mp h
    exact ⟨s, hd _ (List.mem_singleton.mpr rfl) s hs, rfl⟩
  | array row =>
    obtain ⟨s, hs, rfl⟩ := Option.map_eq_some_iff.mp h
    exact hd _ (List.mem_singleton.mpr rfl) s hs
  | composite row =>
    obtain ⟨ts, hts, rfl⟩ := Option.map_eq_some_iff.mp h
    obtain ⟨hl, hz⟩ := lookupAll_eq_some hts
    intro s hs
    obtain ⟨i, hi, rfl⟩ := List.getElem_of_mem hs
    have hi' : i < row.columnOids.length := hl ▸ hi
    have hm : (row.columnOids[i], ts[i]) ∈ row.columnOids.zip ts :=
      List.mem_iff_getElem.mpr ⟨i, by simp [hi, hi'], by simp⟩
    exact hd _ (List.of_mem_zip hm).1 _ (hz _ hm)

/-- An addition of types for rows that are not cached keeps a cache coherent. -/
theorem isCoherent_extend (hc : cache.IsCoherent) (hk : rows.IsKeyed)
    (hn : ∀ oid ∈ rows, cache.get? oid = none)
    (h : Resolution.types (m := Id) cache.get? rows = Except.ok (ε := ResolveError) types) :
    (cache.extend types.values).IsCoherent := by
  have hoid : ∀ oid t, (cache.extend types.values).get? oid = some t → t.oid = oid := by
    intro oid t ht
    obtain ht | ⟨row, hr, hb⟩ := (get?_extend_eq_some_iff hk hn h).mp ht
    · exact hc.oid_eq oid t ht
    · exact (oid_of_build hb).trans (hk oid row hr)
  refine ⟨hoid, fun oid t ht => ?_⟩
  obtain ht | ⟨row, -, hb⟩ := (get?_extend_eq_some_iff hk hn h).mp ht
  · exact (hc.supports oid t ht).mono (cache.grows_extend types.values)
  · refine supports_of_build hb fun d _ s hs => ?_
    rw [lookup_eq, Std.ExtTreeMap.getElem?_empty, Option.none_or] at hs
    rw [hoid d s hs]
    exact hs

/-! ### One request -/

section Request

variable {catalog : Catalog} {deadline : Duration} {caches : Caches} {oids : List Oid}

/-- Only types that are asked for are fetched. -/
theorem Fetch.mem_of_getElem?_rows (hf : catalog.IsFocused) (f : Fetch catalog deadline pending)
    (h : f.rows[oid]? = some row) : oid ∈ pending := by
  rw [Fetch.rows, TypeRows.getElem?_foldl_insertNew, Option.or_eq_some_iff] at h
  obtain h | ⟨-, h⟩ := h
  · obtain ⟨hm, rfl⟩ := TypeRows.mem_of_getElem?_ofRows h
    simp only [List.mem_append] at hm
    obtain ((hm | hm) | hm) | hm := hm
    · exact hf.of_answer f.answer_enums row hm
    · exact hf.of_answer f.answer_domains row hm
    · exact hf.of_answer f.answer_composites row hm
    · exact hf.of_answer f.answer_arrays row hm
  · obtain ⟨t, ht, rfl⟩ := Option.map_eq_some_iff.mp h
    have ho := List.find?_some ht
    obtain rfl := beq_iff_eq.mp ho
    have ha := f.answer_unknown
    split at ha
    · rw [ha] at ht
      cases ht
    · exact List.mem_of_mem_filter
        (hf.of_answer ha (.unknown t) (List.mem_map_of_mem (List.mem_of_find?_eq_some ht)))

/-- The caches are the same, or they hold more types: those for some rows that were not cached,
built with the cache. -/
def AddsBuilt (caches later : Caches) : Prop :=
  later = caches ∨ ∃ (rows : TypeRows) (types : TypeMap), rows.IsKeyed ∧
    (∀ oid ∈ rows, caches.types.get? oid = none) ∧
    Resolution.types (m := Id) caches.types.get? rows = Except.ok (ε := ResolveError) types ∧
    later = { caches with types := caches.types.extend types.values }

/-- A request for types asks for types that are not cached, and no others. -/
theorem addsBuilt_resolveTypes (hf : catalog.IsFocused) :
    AddsBuilt caches ((resolveTypes oids).run catalog deadline caches).caches := by
  have hcourse : Course catalog deadline oids caches _ := course_resolveTypes oids caches
  generalize (resolveTypes oids).run catalog deadline caches = run at hcourse
  cases hcourse with
  | cached | refused | failed => exact .inl rfl
  | loaded a success =>
    refine .inr ⟨a.fetch.rows, _, a.fetch.isKeyed_rows, fun oid ho => ?_, success, rfl⟩
    obtain ⟨row, hr⟩ := mem_map_iff.mp ho
    exact (mem_lacking.mp (a.fetch.mem_of_getElem?_rows hf hr)).2

theorem AddsBuilt.isCoherent {later : Caches} (h : AddsBuilt caches later)
    (hc : caches.types.IsCoherent) : later.types.IsCoherent := by
  obtain rfl | ⟨rows, types, hk, hn, ht, rfl⟩ := h
  · exact hc
  · exact isCoherent_extend hc hk hn ht

theorem AddsBuilt.grows {later : Caches} (h : AddsBuilt caches later) :
    caches.types.Grows later.types := by
  obtain rfl | ⟨rows, types, -, -, -, rfl⟩ := h
  · exact .refl _
  · exact grows_extend _ _

end Request

/-! ### Any number of requests -/

/-- A request for types to the catalog of its time. -/
structure Demand where
  catalog : Catalog
  deadline : Duration
  oids : List Oid

/-- The caches after a request, whether it fails or not. -/
def Demand.after (demand : Demand) (caches : Caches) : Caches :=
  ((resolveTypes demand.oids).run demand.catalog demand.deadline caches).caches

/-- The caches after requests one after another. -/
def Demand.afterAll (demands : List Demand) (caches : Caches) : Caches :=
  demands.foldl (fun caches demand => demand.after caches) caches

theorem Demand.afterAll_append (before rest : List Demand) (caches : Caches) :
    afterAll (before ++ rest) caches = afterAll rest (afterAll before caches) :=
  List.foldl_append

variable {demands : List Demand} {caches : Caches}

theorem isCoherent_afterAll (hf : ∀ demand ∈ demands, demand.catalog.IsFocused)
    (hc : caches.types.IsCoherent) :
    (Demand.afterAll demands caches).types.IsCoherent ∧
      caches.types.Grows (Demand.afterAll demands caches).types := by
  induction demands generalizing caches with
  | nil => exact ⟨hc, .refl _⟩
  | cons demand demands ih =>
    rw [List.forall_mem_cons] at hf
    have hadds : AddsBuilt caches (demand.after caches) := addsBuilt_resolveTypes hf.1
    obtain ⟨hcoherent, hgrows⟩ := ih hf.2 (hadds.isCoherent hc)
    exact ⟨hcoherent, hadds.grows.trans hgrows⟩

/-- After any requests to any catalogs the cached types fit together, and whatever was cached at
some time is still cached in the end. -/
theorem isCoherent_of_demands (before rest : List Demand) (columns : ColumnCache)
    (hf : ∀ demand ∈ before ++ rest, demand.catalog.IsFocused) :
    (Demand.afterAll (before ++ rest) ⟨.builtin, columns⟩).types.IsCoherent ∧
      (Demand.afterAll before ⟨.builtin, columns⟩).types.Grows
        (Demand.afterAll (before ++ rest) ⟨.builtin, columns⟩).types := by
  rw [List.forall_mem_append] at hf
  have hbuiltin : (⟨.builtin, columns⟩ : Caches).types.IsCoherent := isCoherent_builtin
  obtain ⟨hcoherent, -⟩ := isCoherent_afterAll hf.1 hbuiltin
  rw [Demand.afterAll_append]
  exact isCoherent_afterAll hf.2 hcoherent

/-- A mood is an enum and part of a composite. -/
def moods : MemoryCatalog :=
  (MemoryCatalog.empty.addEnum 90000 "mood" ["sad", "happy"]).addComposite 90100 "entry"
    [("mood", 90000), ("note", 25)]

/-- Later it is a domain, and there is an array of it. -/
def laterMoods : MemoryCatalog :=
  (moods.addDomain 90000 "mood" 25 true).addArray 90200 "_mood" 90000

/-- Ranks are told of by hand. -/
def ranks : Script
  | .findDomains => some (.domains [⟨⟨90300, "rank", true, false, 25, 0⟩, false⟩])
  | _ => none

theorem isStrict_ranks : ranks.IsStrict := by
  intro operation answer h
  cases operation with
  | findDomains =>
    obtain rfl := Option.some.inj h
    simp [ScriptedAnswer.IsStrict]
  | _ => cases h

/-- The array is found with the mood as it was before, and the request for a rank fails until the
catalog is one that tells of ranks. -/
theorem isCoherent_laterMoods :
    let before : List Demand := [⟨moods.catalog, ⟨5000⟩, [90100]⟩]
    let rest : List Demand := [⟨laterMoods.catalog, ⟨5000⟩, [90200, 90000]⟩,
      ⟨moods.catalog, ⟨5000⟩, [90300]⟩, ⟨ranks.onTopOf moods.catalog, ⟨5000⟩, [90300]⟩]
    (Demand.afterAll (before ++ rest) .new).types.IsCoherent ∧
      (Demand.afterAll before .new).types.Grows (Demand.afterAll (before ++ rest) .new).types := by
  have hmoods : moods.Built := .addType _ (.addType _ .empty)
  have hlater : laterMoods.Built := .addType _ (.addType _ hmoods)
  refine isCoherent_of_demands _ _ .empty ?_
  simp [hmoods.isFocused, hlater.isFocused, Script.isFocused_onTopOf isStrict_ranks]

end Resolution

end TypedSql
