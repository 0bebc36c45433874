import TypedSql.Proofs.Resolution.Awaited
import TypedSql.Proofs.Resolution.ColumnCourse

/-!
# Caches after a failure

A request can fail at any of its requests to the catalog and at three later points. Whatever it
has put into the caches by then is complete (`Resolution.soundly_fails`). Types are added all at
once when all of them have been built, so only types that are reported missing leave an addition
behind, and the missing ones are not in it. Columns are added when all their types are there, so
only a column that is reported missing does, and the reported one is the first in order.

The catalog can be any that was built, however slow, and any of its requests can fail. Nothing is
assumed of the caches.
-/

namespace TypedSql

namespace Resolution

open MemoryCatalog

variable {c : MemoryCatalog} {deadline : Duration} {before after : Caches} {oids : List Oid}
  {keys : List ColumnKey} {error : ResolveError}

/-! ### Types -/

/-- The cache has gained the types that a request waits for and that the catalog knows, each made
of what is cached now. -/
structure GainsTypes (c : MemoryCatalog) (oids : List Oid) (before after : TypeCache) : Prop where
  keeps (oid : Oid) (t : SqlType) : before.get? oid = some t → after.get? oid = some t
  gained (oid : Oid) : before.get? oid = none →
    ((∃ t, after.get? oid = some t) ↔ Awaited c before oids oid ∧ c.knows oid = true)
  made (oid : Oid) (t : SqlType) : before.get? oid = none → after.get? oid = some t →
    ∃ row, c.row? oid = some row ∧ build (m := Id) after.get? ∅ row = some t

/-- What a failed request for types leaves behind. -/
def LeftByTypes (c : MemoryCatalog) (oids : List Oid) (before after : Caches) :
    ResolveError → Prop
  | .catalog _ | .missingDependency _ _ | .cycle _ => after = before
  | .unresolved reported => after.columns = before.columns ∧
    GainsTypes c oids before.types after.types ∧
    (∀ oid, oid ∈ reported ↔ Awaited c before.types oids oid ∧ c.knows oid = false) ∧
    ∀ oid ∈ reported, after.types.get? oid = none
  | .missingColumn _ => False

/-- Loading adds all types that the request waits for, as far as the catalog knows them. -/
theorem gainsTypes_extend (hc : c.Built) {cache : TypeCache}
    (a : Retrieval c.catalog deadline oids cache) {built : TypeMap}
    (h : types (m := Id) cache.get? a.fetch.rows = Except.ok (ε := ResolveError) built) :
    GainsTypes c oids cache (cache.extend built.values) where
  keeps oid t ht := TypeCache.get?_extend_of_eq_some ht _
  gained oid hn := by
    rw [← isSome_row?, Option.isSome_iff_exists]
    constructor
    · rintro ⟨t, ht⟩
      obtain ht | ⟨hawaited, row, hr, -⟩ := (a.get?_extend_eq_some_iff hc h).mp ht
      · rw [hn] at ht
        cases ht
      · exact ⟨hawaited, row, hr⟩
    · rintro ⟨hawaited, row, hr⟩
      obtain ⟨t, ht, -⟩ := exists_getElem?_of_types_eq_ok a.fetch.isKeyed_rows h
        ((a.getElem?_rows hc).mpr ⟨hawaited, hr⟩)
      refine ⟨t, ?_⟩
      rw [TypeCache.get?_extend_values fun _ _ => oid_of_types_eq_ok a.fetch.isKeyed_rows h, hn, ht]
      rfl
  made oid t hn ht := by
    obtain ht | ⟨-, hrow⟩ := (a.get?_extend_eq_some_iff hc h).mp ht
    · rw [hn] at ht
      cases ht
    · exact hrow

theorem leftByTypes (hc : c.Built)
    (h : ((resolveTypes oids).run c.catalog deadline before).result = .error error) :
    LeftByTypes c oids before ((resolveTypes oids).run c.catalog deadline before).caches error := by
  have hcourse : Course c.catalog deadline oids before _ := course_resolveTypes oids before
  generalize (resolveTypes oids).run c.catalog deadline before = run at h hcourse
  cases hcourse with
  | cached => cases h
  | refused =>
    obtain rfl := Except.error.inj h
    rfl
  | failed a failure =>
    obtain rfl := Except.error.inj h
    have hb : Building before.types.get? a.fetch.rows _ := building_types a.fetch.isKeyed_rows
    rw [failure] at hb
    cases hb <;> rfl
  | @loaded a built success =>
    have hgains := gainsTypes_extend hc a success
    obtain ⟨reported, rfl, hreported⟩ := finished_eq_error h
    refine ⟨rfl, hgains, fun oid => ?_, fun oid ho => ((hreported oid).mp ho).2⟩
    rw [hreported, a.mem_lacking]
    refine and_congr_right fun hawaited => ?_
    rw [← Bool.not_eq_true, ← and_iff_right hawaited (b := c.knows oid = true),
      ← hgains.gained oid hawaited.1, Option.eq_none_iff_forall_ne_some, not_exists]

/-! ### Columns -/

/-- The cache has gained the requested columns that the catalog knows, each with its type from the
cache. -/
structure GainsColumns (c : MemoryCatalog) (keys : List ColumnKey) (before after : Caches) :
    Prop where
  keeps (key : ColumnKey) (column : Column) : before.columns.get? key = some column →
    after.columns.get? key = some column
  gained (key : ColumnKey) : before.columns.get? key = none →
    ((∃ column, after.columns.get? key = some column) ↔ key ∈ keys ∧ key ∈ c.columns)
  made (key : ColumnKey) (column : Column) : before.columns.get? key = none →
    after.columns.get? key = some column → ∃ row t, c.columns[key]? = some row ∧
      after.types.get? row.typeOid = some t ∧ column = row.column t

/-- What a failed request for columns leaves behind. -/
def LeftByColumns (c : MemoryCatalog) (keys : List ColumnKey) (before after : Caches) :
    ResolveError → Prop
  | .missingColumn key => GainsColumns c keys before after ∧
    keys.find? (fun key => (before.columns.get? key).isNone && !c.columns.contains key) = some key
  | .catalog _ | .unresolved _ | .missingDependency _ _ | .cycle _ =>
    after.columns = before.columns

section Stored

variable {rows : List ColumnRow} {types : TypeMap} (hc : c.Built)
  (hrows : rows = (before.columns.missing keys).filterMap fun key => c.columns[key]?)
  (htypes : ∀ row ∈ rows, ∃ t, types[row.typeOid]? = some t ∧
    after.types.get? row.typeOid = some t)
include hc hrows htypes

/-- The rows that the catalog has for the missing keys are stored, and no others. -/
theorem get?_storeAll_eq_some_iff {key : ColumnKey} {column : Column} :
    (storeAll types before.columns rows).get? key = some column ↔
      before.columns.get? key = some column ∨
        before.columns.get? key = none ∧ key ∈ keys ∧ ∃ row t, c.columns[key]? = some row ∧
          after.types.get? row.typeOid = some t ∧ column = row.column t := by
  have hmem (hn : before.columns.get? key = none) (hk : key ∈ keys) {row : ColumnRow}
      (hr : c.columns[key]? = some row) : row ∈ rows :=
    hrows ▸ List.mem_filterMap.mpr ⟨key, mem_missing.mpr ⟨hk, hn⟩, hr⟩
  rw [get?_storeAll fun row hr => (htypes row hr).imp fun _ => And.left, Option.or_eq_some_iff]
  rw [hrows, find?_filterMap fun _ _ => hc.key_of_getElem?]
  refine or_congr_right (and_congr_right fun hn => ?_)
  simp only [Option.bind_eq_some_iff, Option.map_eq_some_iff, Option.ite_none_right_eq_some,
    mem_missing, hn, and_true]
  constructor
  · rintro ⟨row, ⟨hk, hr⟩, t, ht, rfl⟩
    obtain ⟨s, hs, hs'⟩ := htypes row (hmem hn hk hr)
    obtain rfl := Option.some.inj (hs.symm.trans ht)
    exact ⟨hk, row, s, hr, hs', rfl⟩
  · rintro ⟨hk, row, t, hr, ht, rfl⟩
    obtain ⟨s, hs, hs'⟩ := htypes row (hmem hn hk hr)
    obtain rfl := Option.some.inj (hs'.symm.trans ht)
    exact ⟨row, ⟨hk, hr⟩, s, hs, rfl⟩

theorem gainsColumns_storeAll : GainsColumns c keys before
    { after with columns := storeAll types before.columns rows } where
  keeps key column hg := (get?_storeAll_eq_some_iff hc hrows htypes).mpr (.inl hg)
  gained key hn := by
    simp only [get?_storeAll_eq_some_iff hc hrows htypes, hn, reduceCtorEq, false_or, true_and,
      mem_map_iff]
    constructor
    · rintro ⟨column, hk, row, t, hr, -⟩
      exact ⟨hk, row, hr⟩
    · rintro ⟨hk, row, hr⟩
      have hm : row ∈ rows :=
        hrows ▸ List.mem_filterMap.mpr ⟨key, mem_missing.mpr ⟨hk, hn⟩, hr⟩
      obtain ⟨t, -, ht⟩ := htypes row hm
      exact ⟨row.column t, hk, row, t, hr, ht, rfl⟩
  made key column hn hg := by
    obtain hg | ⟨-, -, h⟩ := (get?_storeAll_eq_some_iff hc hrows htypes).mp hg
    · rw [hn] at hg
      cases hg
    · exact h

end Stored

/-- The first key that is not cached after storing is the first that is neither cached before nor
known to the catalog. -/
theorem GainsColumns.find?_eq (h : GainsColumns c keys before after) :
    keys.find? (fun key => (after.columns.get? key).isNone) =
      keys.find? fun key => (before.columns.get? key).isNone && !c.columns.contains key := by
  refine List.find?_congr fun key hk => ?_
  cases hg : before.columns.get? key with
  | some column => rw [h.keeps key column hg]; rfl
  | none =>
    have hgained := h.gained key hg
    rw [and_iff_right hk, ← Std.ExtTreeMap.contains_iff_mem, ← Option.isSome_iff_exists,
      ← Bool.eq_iff_iff] at hgained
    rw [← Option.not_isSome, hgained, Option.isNone_none, Bool.true_and]

theorem leftByColumns (hc : c.Built)
    (h : ((fetchColumns keys).run c.catalog deadline before).result = .error error) :
    LeftByColumns c keys before ((fetchColumns keys).run c.catalog deadline before).caches
      error := by
  have hcourse : ColumnCourse c.catalog deadline keys before _ := course_fetchColumns keys before
  generalize (fetchColumns keys).run c.catalog deadline before = run at h hcourse
  cases hcourse with
  | cached hnone =>
    -- All keys are cached, so none can be reported.
    obtain ⟨key, -, hf⟩ := cachedColumns_eq_error h
    have hn : before.columns.get? key = none := by
      simpa using List.find?_some hf
    have hm : key ∈ before.columns.missing keys :=
      mem_missing.mpr ⟨List.mem_of_find?_eq_some hf, hn⟩
    rw [hnone] at hm
    cases hm
  | refused =>
    obtain rfl := Except.error.inj h
    rfl
  | @failed rows error' after requests _ answer run_types =>
    obtain rfl : error' = error := Except.error.inj h
    have hresult : ((resolveTypes (rows.map (·.typeOid))).run c.catalog deadline before).result =
        .error error' := by rw [run_types]
    have hleft := leftByTypes hc hresult
    have hcolumns : ((resolveTypes (rows.map (·.typeOid))).run c.catalog deadline
        before).caches.columns = before.columns := columns_run_resolveTypes _ _
    rw [run_types] at hleft hcolumns
    cases error' with
    | missingColumn => exact hleft.elim
    | catalog | unresolved | missingDependency | cycle => exact hcolumns
  | @stored rows types after requests _ answer run_types =>
    obtain ⟨key, rfl, hf⟩ := cachedColumns_eq_error h
    have hrows := Except.ok.inj (find_of_answer answer)
    have hresult : ((resolveTypes (rows.map (·.typeOid))).run c.catalog deadline before).result =
        .ok types := by rw [run_types]
    have htypes : ∀ row ∈ rows, ∃ t, types[row.typeOid]? = some t ∧
        after.types.get? row.typeOid = some t := by
      intro row hr
      have ht := exists_of_resolveTypes_eq_ok hresult (List.mem_map_of_mem hr)
      rwa [run_types] at ht
    have hcolumns : ((resolveTypes (rows.map (·.typeOid))).run c.catalog deadline
        before).caches.columns = before.columns := columns_run_resolveTypes _ _
    rw [run_types] at hcolumns
    dsimp only at hcolumns
    have hgains := gainsColumns_storeAll hc hrows.symm htypes
    rw [← hcolumns] at hgains
    exact ⟨hgains, hgains.find?_eq ▸ hf⟩

/-! ### Both -/

/-- Whatever fails, the caches have what they had before, and more only in the two cases in which
something is reported missing. -/
theorem soundly_fails (hc : c.Built) (deadline : Duration) (caches : Caches) :
    (∀ (oids : List Oid) (error : ResolveError),
      let run := (resolveTypes oids).run c.catalog deadline caches
      run.result = .error error → LeftByTypes c oids caches run.caches error) ∧
    ∀ (keys : List ColumnKey) (error : ResolveError),
      let run := (fetchColumns keys).run c.catalog deadline caches
      run.result = .error error → LeftByColumns c keys caches run.caches error :=
  ⟨fun _ _ => leftByTypes hc, fun _ _ => leftByColumns hc⟩

/-- A table with one column, whose type is known. -/
def notes : MemoryCatalog :=
  (MemoryCatalog.empty.addArray 90001 "_text" 25).addTable 16400 "notes" [("words", 90001, true)]

/-- One of two types is not known, and neither is a column of the table. -/
theorem soundly_fails_notes :
    let caches : Caches := ⟨TypeCache.empty.extend [.base ⟨25, "text"⟩], .empty⟩
    notes.Built ∧
      (let run := (resolveTypes [90001, 90300]).run notes.catalog ⟨5000⟩ caches
      run.result = .error (.unresolved [90300]) ∧
        LeftByTypes notes [90001, 90300] caches run.caches (.unresolved [90300])) ∧
      let run := (fetchColumns [⟨16400, 7⟩]).run notes.catalog ⟨5000⟩ caches
      run.result = .error (.missingColumn ⟨16400, 7⟩) ∧
        LeftByColumns notes [⟨16400, 7⟩] caches run.caches (.missingColumn ⟨16400, 7⟩) := by
  intro caches
  have hnotes : notes.Built := (MemoryCatalog.Built.addType _ .empty).addTable _ _ _
  obtain ⟨htypes, hcolumns⟩ := soundly_fails hnotes ⟨5000⟩ caches
  have hclosure : notes.catalog.answer ⟨5000⟩ (.findDescendants [90001, 90300]) =
      .ok [90300, 90001, 25] :=
    congrArg Except.ok (show notes.descendants [90001, 90300] = _ by cbv)
  have hunresolved : ((resolveTypes [90001, 90300]).run notes.catalog ⟨5000⟩ caches).result =
      .error (.unresolved [90300]) := by
    rw [run_resolveTypes (by decide) hclosure]
    generalize hr : Task.Run.result _ = result
    -- Maps of types cannot be compared, so only what is reported is computed.
    have hreported : result.map (fun _ => ()) = .error (.unresolved [90300]) := by
      rw [← hr]
      decide +kernel
    cases result with
    | ok => cases hreported
    | error => rw [Except.error.inj hreported]
  have hmissing : ((fetchColumns [⟨16400, 7⟩]).run notes.catalog ⟨5000⟩ caches).result =
      .error (.missingColumn ⟨16400, 7⟩) := rfl
  exact ⟨hnotes, ⟨hunresolved, htypes _ _ hunresolved⟩, hmissing, hcolumns _ _ hmissing⟩

end Resolution

end TypedSql
