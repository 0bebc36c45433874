import TypedSql.Proofs.Resolution.Columns
import TypedSql.Proofs.Resolution.Course

/-!
# The course of a request for columns

A request for columns that runs alone makes a request of its own, and then a request for the types
of what it has found. The columns are put into the cache when all these types are there, so
`Resolution.storeColumns` does not fail halfway. What is read in the end depends on the cache
alone. `Resolution.course_fetchColumns` puts this together for any catalog and any caches.
-/

namespace TypedSql

namespace Resolution

variable {ε : Type} {catalog : Catalog} {deadline : Duration} {caches : Caches}
  {types : TypeMap} {rows : List ColumnRow} {keys : List ColumnKey} {key : ColumnKey}

/-! ### Reading -/

/-- The columns of some keys in a cache, or the first key that has none. -/
def cachedColumns (cache : ColumnCache) (keys : List ColumnKey) :
    Except ResolveError (List Column) :=
  match keys.find? fun key => (cache.get? key).isNone with
  | some key => .error (.missingColumn key)
  | none => .ok (keys.filterMap cache.get?)

theorem run_readColumns (keys : List ColumnKey) (caches : Caches) :
    (readColumns keys).run catalog deadline caches =
      ⟨cachedColumns caches.columns keys, caches, []⟩ := by
  induction keys with
  | nil => rfl
  | cons key keys ih =>
    rw [readColumns, Task.bind_eq, Task.cachedColumn, Task.bind, Task.run, cachedColumns,
      List.find?_cons]
    cases hg : caches.columns.get? key with
    | none => rfl
    | some column =>
      simp only [Task.bind, Task.bind_eq, Task.run_bind, ih, cachedColumns, Option.isNone_some,
        List.filterMap_cons, hg]
      cases keys.find? fun key => (caches.columns.get? key).isNone <;> rfl

/-- Keys that are all cached have their columns, in order. -/
theorem cachedColumns_eq_ok {cache : ColumnCache} {columns : List Column}
    (h : cachedColumns cache keys = .ok columns) :
    (∀ key ∈ keys, ∃ column, cache.get? key = some column) ∧
      columns = keys.filterMap cache.get? := by
  rw [cachedColumns] at h
  split at h
  · cases h
  · next hf =>
    refine ⟨fun key hk => ?_, (Except.ok.inj h).symm⟩
    have hn := List.find?_eq_none.mp hf key hk
    rwa [Option.isNone_iff_eq_none, ← ne_eq, Option.ne_none_iff_exists'] at hn

theorem cachedColumns_eq_error {cache : ColumnCache} {error : ResolveError}
    (h : cachedColumns cache keys = .error error) : ∃ key, error = .missingColumn key ∧
      keys.find? (fun key => (cache.get? key).isNone) = some key := by
  rw [cachedColumns] at h
  split at h
  · next key hf => exact ⟨key, (Except.error.inj h).symm, hf⟩
  · cases h

/-! ### Storing -/

/-- A cache with the columns of some rows. -/
def storeAll (types : TypeMap) (cache : ColumnCache) (rows : List ColumnRow) : ColumnCache :=
  rows.foldl (fun cache row => match types[row.typeOid]? with
    | some t => cache.insert (row.column t)
    | none => cache) cache

theorem run_storeColumns (h : ∀ row ∈ rows, ∃ t, types[row.typeOid]? = some t) (caches : Caches) :
    (storeColumns types rows).run catalog deadline caches =
      ⟨.ok (), { caches with columns := storeAll types caches.columns rows }, []⟩ := by
  induction rows generalizing caches with
  | nil => rfl
  | cons row rows ih =>
    rw [List.forall_mem_cons] at h
    obtain ⟨⟨t, ht⟩, h⟩ := h
    rw [storeColumns, ht, Task.run, ih h, storeAll, storeAll, List.foldl_cons, ht]

/-- Of several rows with one key the first is kept, and of a row and a cached column the latter. -/
theorem get?_storeAll (h : ∀ row ∈ rows, ∃ t, types[row.typeOid]? = some t)
    (cache : ColumnCache) (key : ColumnKey) :
    (storeAll types cache rows).get? key = (cache.get? key).or
      ((rows.find? fun row => row.key == key).bind fun row =>
        types[row.typeOid]?.map row.column) := by
  induction rows generalizing cache with
  | nil => simp [storeAll]
  | cons row rows ih =>
    rw [List.forall_mem_cons] at h
    obtain ⟨⟨t, ht⟩, h⟩ := h
    rw [storeAll, List.foldl_cons, ht, ← storeAll, ih h, ColumnCache.get?_insert, Option.or_assoc,
      ColumnRow.key_column, List.find?_cons]
    by_cases hk : row.key = key
    · simp [hk, ht]
    · simp [hk, beq_eq_false_iff_ne.mpr hk]

/-! ### The whole request -/

/-- How a request for columns can end: in the cache, at a refusal, with the types, or with what is
cached after storing. -/
inductive ColumnCourse (catalog : Catalog) (deadline : Duration) (keys : List ColumnKey)
    (caches : Caches) : Task.Run ResolveError (List Column) → Prop where
  | cached (none_missing : caches.columns.missing keys = []) :
    ColumnCourse catalog deadline keys caches
      ⟨cachedColumns caches.columns keys, caches, []⟩
  | refused {reason : CatalogError} (some_missing : caches.columns.missing keys ≠ [])
    (refusal : catalog.answer deadline (.findColumns (caches.columns.missing keys)) =
      .error reason) :
    ColumnCourse catalog deadline keys caches
      ⟨.error (.catalog reason), caches, [.findColumns (caches.columns.missing keys)]⟩
  | failed {rows : List ColumnRow} {error : ResolveError} {after : Caches} {requests : List Request}
    (some_missing : caches.columns.missing keys ≠ [])
    (answer : catalog.answer deadline (.findColumns (caches.columns.missing keys)) = .ok rows)
    (run_types : (resolveTypes (rows.map (·.typeOid))).run catalog deadline caches =
      ⟨.error error, after, requests⟩) :
    ColumnCourse catalog deadline keys caches
      ⟨.error error, after, .findColumns (caches.columns.missing keys) :: requests⟩
  | stored {rows : List ColumnRow} {types : TypeMap} {after : Caches} {requests : List Request}
    (some_missing : caches.columns.missing keys ≠ [])
    (answer : catalog.answer deadline (.findColumns (caches.columns.missing keys)) = .ok rows)
    (run_types : (resolveTypes (rows.map (·.typeOid))).run catalog deadline caches =
      ⟨.ok types, after, requests⟩) :
    ColumnCourse catalog deadline keys caches
      ⟨cachedColumns (storeAll types after.columns rows) keys,
        { after with columns := storeAll types after.columns rows },
        .findColumns (caches.columns.missing keys) :: requests⟩

theorem course_fetchColumns (keys : List ColumnKey) (caches : Caches) :
    ColumnCourse catalog deadline keys caches
      ((fetchColumns keys).run catalog deadline caches) := by
  rw [fetchColumns, Task.run]
  by_cases hne : caches.columns.missing keys = []
  · simp only [hne, List.isEmpty_nil, Bool.not_true, Bool.false_eq_true, if_false, run_readColumns]
    exact .cached hne
  · have hempty : (caches.columns.missing keys).isEmpty = false := List.isEmpty_eq_false_iff.mpr hne
    simp only [hempty, Bool.not_false, if_true, Task.bind_eq]
    cases ha : catalog.answer deadline (.findColumns (caches.columns.missing keys)) with
    | error reason =>
      rw [Task.run_bind_of_refusal ha]
      exact .refused hne ha
    | ok rows =>
    rw [Task.run_bind_of_answer ha]
    obtain ⟨result, after, requests, hrun⟩ : ∃ result after requests,
        (resolveTypes (rows.map (·.typeOid))).run catalog deadline caches =
          ⟨result, after, requests⟩ := ⟨_, _, _, rfl⟩
    cases result with
    | error error =>
      rw [Task.run_bind_of_error hrun]
      exact .failed hne ha hrun
    | ok types =>
      have hr : ((resolveTypes (rows.map (·.typeOid))).run catalog deadline caches).result =
          .ok types := by rw [hrun]
      have hall : ∀ row ∈ rows, ∃ t, types[row.typeOid]? = some t := by
        intro row hm
        obtain ⟨t, ht, -⟩ := exists_of_resolveTypes_eq_ok hr (List.mem_map_of_mem hm)
        exact ⟨t, ht⟩
      have h : ColumnCourse catalog deadline keys caches _ := .stored hne ha hrun
      rw [Task.run_bind_of_ok hrun, Task.run_bind_of_ok (run_storeColumns hall after),
        run_readColumns]
      dsimp only
      rw [List.append_nil, List.append_nil]
      exact h

/-- Columns that were fetched are what is cached for their keys. -/
theorem fetchColumns_eq_ok {columns : List Column}
    (h : ((fetchColumns keys).run catalog deadline caches).result = .ok columns) :
    (∀ key ∈ keys, ∃ column,
      ((fetchColumns keys).run catalog deadline caches).caches.columns.get? key = some column) ∧
      columns = keys.filterMap
        ((fetchColumns keys).run catalog deadline caches).caches.columns.get? := by
  have hcourse : ColumnCourse catalog deadline keys caches _ := course_fetchColumns keys caches
  generalize (fetchColumns keys).run catalog deadline caches = run at h hcourse ⊢
  cases hcourse with
  | refused | failed => cases h
  | cached | stored => exact cachedColumns_eq_ok h

end Resolution

end TypedSql
