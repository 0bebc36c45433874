import Mathlib.Data.List.Forall2
import TypedSql.Proofs.Resolution.Types
import TypedSql.Resolution.Columns

/-!
# Fetching columns

The outcome for some columns follows from that for the types of those which the catalog knows: an
error there comes first, then the first column that the catalog does not know, and otherwise each
column is the row of its key with what its type denotes. This is so whatever columns are cached
already, as long as they are what the catalog says (`Resolution.ensures_fetchColumns`).

A column is stored when its type is cached, so what columns are made of is cached with them. This
is why a request may skip the types of cached columns and still leaves everything in the caches
that it has to (`Resolution.ensures_fetchColumns_fetched`).
-/

namespace TypedSql

@[simp] theorem ColumnRow.type_column (row : ColumnRow) (type : SqlType) :
    (row.column type).type = type := rfl

namespace MemoryCatalog

variable {c : MemoryCatalog} {key : ColumnKey} {column column' : Column}

/-- The column is what the catalog says about the key. -/
def IsColumn (c : MemoryCatalog) (key : ColumnKey) (column : Column) : Prop :=
  ∃ row t, c.columns[key]? = some row ∧ c.Denotes row.typeOid t ∧ column = row.column t

theorem IsColumn.unique (hc : c.IsPlain) (h : c.IsColumn key column)
    (h' : c.IsColumn key column') : column = column' := by
  obtain ⟨row, t, hr, ht, rfl⟩ := h
  obtain ⟨row', t', hr', ht', rfl⟩ := h'
  obtain rfl := Option.some.inj (hr.symm.trans hr')
  rw [ht.unique hc ht']

end MemoryCatalog

/-- All cached columns are what the catalog says. -/
def ColumnCache.IsSound (c : MemoryCatalog) (cache : ColumnCache) : Prop :=
  ∀ key column, cache.get? key = some column → c.IsColumn key column

theorem ColumnCache.isSound_empty {c : MemoryCatalog} : ColumnCache.empty.IsSound c := by
  intro key column h
  simp at h

/-- The types of all cached columns are cached. -/
def Caches.IsTyped (caches : Caches) : Prop :=
  ∀ key column, caches.columns.get? key = some column →
    ∃ t, caches.types.get? column.type.oid = some t

/-- The column can be added to the caches: it is what the catalog says, and its type is cached.
Only certain columns are added at all. -/
structure Caches.Fits (c : MemoryCatalog) (may : ColumnKey → Prop) (caches : Caches)
    (column : Column) : Prop where
  isColumn : c.IsColumn column.key column
  typed : ∃ t, caches.types.get? column.type.oid = some t
  may : may column.key

namespace Sharing

/-- The column cache grows by what the catalog says, too, as far as it may. -/
structure ServesColumns (env : Sharing) (c : MemoryCatalog) (may : Oid → Prop)
    (mayColumn : ColumnKey → Prop) : Prop extends env.Serves c may where
  keepsColumn {a b : Caches} {key : ColumnKey} {column : Column} : env.allowed a b →
    a.columns.get? key = some column → b.columns.get? key = some column
  soundColumns {a b : Caches} : env.allowed a b → a.columns.IsSound c → b.columns.IsSound c
  typed {a b : Caches} : env.allowed a b → a.IsTyped → b.IsTyped
  insert {a : Caches} {column : Column} : a.Fits c mayColumn column →
    env.allowed a { a with columns := a.columns.insert column }

end Sharing

namespace Resolution

open MemoryCatalog

variable {c : MemoryCatalog} {env : Sharing} {caches : Caches} {may : Oid → Prop}
  {mayColumn : ColumnKey → Prop} {keys : List ColumnKey} {key : ColumnKey}
  {oids wanted : List Oid} {types : TypeMap} {rows : List ColumnRow} {e : ResolveError}
  {r r' : Except ResolveError (List Column)}

/-- The types of the columns that the catalog knows. -/
def typesOf (c : MemoryCatalog) (keys : List ColumnKey) : List Oid :=
  (keys.filterMap fun key => c.columns[key]?).map ColumnRow.typeOid

theorem mem_typesOf {oid : Oid} : oid ∈ typesOf c keys ↔
    ∃ key ∈ keys, ∃ row, c.columns[key]? = some row ∧ row.typeOid = oid := by
  simp only [typesOf, List.mem_map, List.mem_filterMap]
  constructor
  · rintro ⟨row, ⟨key, hk, hr⟩, ho⟩
    exact ⟨key, hk, row, hr, ho⟩
  · rintro ⟨key, hk, row, hr, ho⟩
    exact ⟨row, ⟨key, hk, hr⟩, ho⟩

/-- What a request for some columns ends with. -/
inductive ColumnsOutcome (c : MemoryCatalog) (keys : List ColumnKey) :
    Except ResolveError (List Column) → Prop where
  /-- The types cannot be resolved. -/
  | failed {e : ResolveError} (types : Outcome c (typesOf c keys) (.error e)) :
    ColumnsOutcome c keys (.error e)
  /-- The first column that is not known. -/
  | missing {key : ColumnKey} (types : ∀ oid ∈ typesOf c keys, ∃ t, c.Denotes oid t)
    (first : keys.find? (fun key => !c.columns.contains key) = some key) :
    ColumnsOutcome c keys (.error (.missingColumn key))
  /-- The columns of the keys, in order. -/
  | found {columns : List Column} (columns_eq : List.Forall₂ c.IsColumn keys columns) :
    ColumnsOutcome c keys (.ok columns)

/-- A request for some columns sees to it that a column is cached: it does so for those that the
catalog knows, or for none when their types cannot be resolved. -/
structure Stores (c : MemoryCatalog) (keys : List ColumnKey) (key : ColumnKey) : Prop where
  denotes (oid : Oid) : oid ∈ typesOf c keys → ∃ t, c.Denotes oid t
  mem : key ∈ keys
  known : key ∈ c.columns

/-- Types that all denote something are resolved without an error. -/
theorem not_error_of_denotes (hc : c.IsPlain) (hd : ∀ oid ∈ oids, ∃ t, c.Denotes oid t) :
    ¬ Outcome c oids (.error e) := by
  have hr : ∀ o, c.Reaches oids o → ∃ t, c.Denotes o t := by
    rintro o ⟨start, hs, hr⟩
    obtain ⟨t, ht⟩ := hd start hs
    exact exists_denotes_of_reflTransGen hc ht hr
  intro h
  cases h with
  | missingDependency ho hm =>
    obtain ⟨t, ht⟩ := hr _ ho
    exact ht.not_misses hc hm
  | cycle _ hcyc =>
    obtain ⟨o, ho, hoo⟩ := hcyc
    obtain ⟨t, ht⟩ := hr o ho
    exact ht.not_reachesCycle hc (reachesCycle_of_transGen hoo)
  | unresolved _ _ hne _ hmem =>
    obtain ⟨o, ho⟩ := List.exists_mem_of_ne_nil _ hne
    obtain ⟨hw, hk⟩ := (hmem o).mp ho
    obtain ⟨t, ht⟩ := hd o hw
    rw [ht.knows] at hk
    cases hk

theorem exists_isColumn {columns : List Column} (h : List.Forall₂ c.IsColumn keys columns)
    {key : ColumnKey} (hk : key ∈ keys) : ∃ column, c.IsColumn key column := by
  obtain ⟨column, hm⟩ := exists_mem_zip h.length_eq hk
  exact ⟨column, List.forall₂_zip h hm⟩

theorem denotes_of_isColumn {key : ColumnKey} {column : Column} {row : ColumnRow}
    (h : c.IsColumn key column) (hr : c.columns[key]? = some row) :
    ∃ t, c.Denotes row.typeOid t := by
  obtain ⟨row', t, hr', ht, -⟩ := h
  obtain rfl := Option.some.inj (hr.symm.trans hr')
  exact ⟨t, ht⟩

theorem denotes_of_forall₂ {columns : List Column} (h : List.Forall₂ c.IsColumn keys columns) :
    ∀ oid ∈ typesOf c keys, ∃ t, c.Denotes oid t := by
  intro oid ho
  obtain ⟨key, hk, row, hr, rfl⟩ := mem_typesOf.mp ho
  obtain ⟨column, hcol⟩ := exists_isColumn h hk
  exact denotes_of_isColumn hcol hr

/-- A request for columns has one outcome. -/
theorem ColumnsOutcome.unique (hc : c.IsPlain) (h : ColumnsOutcome c keys r)
    (h' : ColumnsOutcome c keys r') : r = r' := by
  have hmf : ∀ {key : ColumnKey} {columns : List Column},
      keys.find? (fun key => !c.columns.contains key) = some key →
      ¬ List.Forall₂ c.IsColumn keys columns := by
    intro key columns hk hf
    obtain ⟨column, row, t, hr, -⟩ := exists_isColumn hf (List.mem_of_find?_eq_some hk)
    have hn := List.find?_some hk
    rw [Bool.not_eq_true', ← Bool.not_eq_true, Std.ExtTreeMap.contains_iff_mem] at hn
    exact hn (mem_map_iff.mpr ⟨row, hr⟩)
  cases h with
  | failed h =>
    cases h' with
    | failed h' => rw [Except.error.inj (h.unique hc h')]
    | missing hd => exact absurd h (not_error_of_denotes hc hd)
    | found hf => exact absurd h (not_error_of_denotes hc (denotes_of_forall₂ hf))
  | missing hd hk =>
    cases h' with
    | failed h' => exact absurd h' (not_error_of_denotes hc hd)
    | missing _ hk' => rw [Option.some.inj (hk.symm.trans hk')]
    | found hf => exact absurd hf (hmf hk)
  | found hf =>
    cases h' with
    | failed h' => exact absurd h' (not_error_of_denotes hc (denotes_of_forall₂ hf))
    | missing _ hk => exact absurd hf (hmf hk)
    | found hf' => rw [List.right_unique_forall₂' (fun _ _ _ h h' => h.unique hc h') hf hf']

/-! ### Steps of the task -/

/-- The columns of rows are stored when all their types are there. -/
theorem ensures_storeColumns (hc : c.IsPlain) (he : env.ServesColumns c may mayColumn)
    (hr : ∀ row ∈ rows, c.columns[row.key]? = some row ∧ mayColumn row.key)
    (ht : ∀ row ∈ rows, ∃ t, types[row.typeOid]? = some t ∧ c.Denotes row.typeOid t)
    (hg : ∀ row ∈ rows, ∃ t, caches.types.get? row.typeOid = some t) :
    (storeColumns types rows).Ensures env (fun r found => r = .ok () ∧
      ∀ row ∈ rows, ∃ column, found.columns.get? row.key = some column) caches := by
  induction rows generalizing caches with
  | nil => exact ⟨rfl, by simp⟩
  | cons row rows ih =>
    obtain ⟨t, htypes, hd⟩ := ht row List.mem_cons_self
    rw [storeColumns, htypes]
    intro found ha
    have hgf : ∀ r ∈ row :: rows, ∃ t, found.types.get? r.typeOid = some t := by
      intro r hm
      obtain ⟨s, hs⟩ := hg r hm
      exact ⟨s, he.keeps ha hs⟩
    have hfits : found.Fits c mayColumn (row.column t) := by
      obtain ⟨hrow, hmay⟩ := hr row List.mem_cons_self
      refine ⟨⟨row, t, hrow, hd, rfl⟩, ?_, hmay⟩
      rw [ColumnRow.type_column, hd.oid_eq hc]
      exact hgf row List.mem_cons_self
    have hrest := @ih { found with columns := found.columns.insert (row.column t) }
      (fun r h => hr r (List.mem_cons_of_mem _ h)) (fun r h => ht r (List.mem_cons_of_mem _ h))
      fun r h => hgf r (List.mem_cons_of_mem _ h)
    refine ⟨he.insert hfits, hrest.imp fun r later hl hp => ⟨hp.1, ?_⟩⟩
    refine List.forall_mem_cons.mpr ⟨?_, hp.2⟩
    obtain ⟨column, hget⟩ : ∃ column,
        (found.columns.insert (row.column t)).get? row.key = some column := by
      rw [← Option.isSome_iff_exists, ColumnCache.get?_insert]
      simp
    exact ⟨column, he.keepsColumn hl hget⟩

/-- Columns are read in order, up to the first that is not known. -/
theorem ensures_readColumns (he : env.ServesColumns c may mayColumn)
    (hk : ∀ key ∈ keys, key ∈ c.columns → ∃ column, caches.columns.get? key = some column) :
    (readColumns keys).Ensures env (fun r _ => caches.columns.IsSound c → match r with
      | .ok columns => List.Forall₂ c.IsColumn keys columns
      | .error e => ∃ key, keys.find? (fun key => !c.columns.contains key) = some key ∧
        e = .missingColumn key) caches := by
  induction keys generalizing caches with
  | nil => exact fun _ => .nil
  | cons key keys ih =>
    rw [readColumns]
    intro found ha
    have hkf : ∀ k ∈ keys, k ∈ c.columns → ∃ column, found.columns.get? k = some column := by
      intro k hm hkc
      obtain ⟨column, hg⟩ := hk k (List.mem_cons_of_mem _ hm) hkc
      exact ⟨column, he.keepsColumn ha hg⟩
    change Task.Ensures env (Task.bind (.done (found.columns.get? key)) _) _ found
    cases hg : found.columns.get? key with
    | none =>
      have hn : key ∉ c.columns := by
        intro hm
        obtain ⟨column, hget⟩ := hk key List.mem_cons_self hm
        rw [he.keepsColumn ha hget] at hg
        cases hg
      refine fun _ => ⟨key, List.find?_cons_of_pos ?_, rfl⟩
      rw [← Std.ExtTreeMap.contains_iff_mem, Bool.not_eq_true] at hn
      rw [hn]
      rfl
    | some column =>
      rw [Task.bind]
      refine Task.Ensures.bind (ih hkf) (fun rest _ _ hr hs => ?_) fun e _ _ hr hs => ?_
      · have hf := he.soundColumns ha hs
        exact .cons (hf key column hg) (hr hf)
      · have hf := he.soundColumns ha hs
        obtain ⟨first, hfirst, rfl⟩ := hr hf
        obtain ⟨row, -, hrow, -⟩ := hf key column hg
        have hm : key ∈ c.columns := mem_map_iff.mpr ⟨row, hrow⟩
        refine ⟨first, ?_, rfl⟩
        rw [List.find?_cons_of_neg (by simp [hm]), hfirst]

/-! ### The whole request -/

theorem mem_missing {cache : ColumnCache} {key : ColumnKey} :
    key ∈ cache.missing keys ↔ key ∈ keys ∧ cache.get? key = none := by
  rw [ColumnCache.missing, List.mem_eraseDups, List.mem_filter, ColumnCache.contains_eq_isSome]
  simp

theorem typesOf_missing_subset {cache : ColumnCache} :
    typesOf c (cache.missing keys) ⊆ typesOf c keys := by
  intro oid ho
  obtain ⟨key, hk, row, hr, rfl⟩ := mem_typesOf.mp ho
  exact mem_typesOf.mpr ⟨key, (mem_missing.mp hk).1, row, hr, rfl⟩

/-- What is cached needs no row, so only the types of the other columns are resolved. -/
theorem mem_typesOf_missing_or_denotes {cache : ColumnCache} {oid : Oid} (hs : cache.IsSound c)
    (ho : oid ∈ typesOf c keys) :
    oid ∈ typesOf c (cache.missing keys) ∨ ∃ t, c.Denotes oid t := by
  obtain ⟨key, hk, row, hr, rfl⟩ := mem_typesOf.mp ho
  cases hg : cache.get? key with
  | none => exact .inl (mem_typesOf.mpr ⟨key, mem_missing.mpr ⟨hk, hg⟩, row, hr, rfl⟩)
  | some column => exact .inr (denotes_of_isColumn (hs key column hg) hr)

theorem exists_denotes_of_resolved (h : Outcome c oids (.ok types)) {oid : Oid} (ho : oid ∈ oids) :
    ∃ t, types[oid]? = some t ∧ c.Denotes oid t := by
  cases h with
  | resolved _ _ _ hmem hd =>
    obtain ⟨t, ht⟩ := mem_map_iff.mp ((hmem oid).mpr ho)
    exact ⟨t, ht, hd oid t ht⟩

/-- The end of a request, once all columns that the catalog knows are cached. -/
theorem ensures_readColumns_outcome {found later : Caches} (he : env.ServesColumns c may mayColumn)
    (hl : env.allowed found later)
    (hd : ∀ oid ∈ typesOf c (found.columns.missing keys), ∃ t, c.Denotes oid t)
    (hk : ∀ key ∈ found.columns.missing keys, key ∈ c.columns →
      ∃ column, later.columns.get? key = some column) :
    (readColumns keys).Ensures env
      (fun r _ => found.columns.IsSound c → ColumnsOutcome c keys r) later := by
  have hkeys : ∀ key ∈ keys, key ∈ c.columns → ∃ column, later.columns.get? key = some column := by
    intro key hm hmc
    cases hg : found.columns.get? key with
    | none => exact hk key (mem_missing.mpr ⟨hm, hg⟩) hmc
    | some column => exact ⟨column, he.keepsColumn hl hg⟩
  refine (ensures_readColumns he hkeys).imp fun r _ _ hr hf => ?_
  have hr := hr (he.soundColumns hl hf)
  cases r with
  | ok columns => exact .found hr
  | error e =>
    obtain ⟨key, hfirst, rfl⟩ := hr
    exact .missing (fun oid ho => (mem_typesOf_missing_or_denotes hf ho).elim (hd oid) id) hfirst

/-- What a request for columns has to leave in the caches. -/
structure Fetched (c : MemoryCatalog) (keys : List ColumnKey) (later : Caches) : Prop where
  types (oid : Oid) : Loads c (typesOf c keys) oid → ∃ t, later.types.get? oid = some t
  columns (key : ColumnKey) : Stores c keys key → ∃ column, later.columns.get? key = some column

/-- The type of a column is one of those that were resolved, or it was cached before. -/
theorem mem_typesOf_missing_or_get? {found : Caches} (hc : c.IsPlain)
    (hs : found.columns.IsSound c) (ht : found.IsTyped) {oid : Oid} (ho : oid ∈ typesOf c keys) :
    oid ∈ typesOf c (found.columns.missing keys) ∨ ∃ t, found.types.get? oid = some t := by
  obtain ⟨key, hk, row, hr, rfl⟩ := mem_typesOf.mp ho
  cases hg : found.columns.get? key with
  | none => exact .inl (mem_typesOf.mpr ⟨key, mem_missing.mpr ⟨hk, hg⟩, row, hr, rfl⟩)
  | some column =>
    obtain ⟨row', t, hr', hd, rfl⟩ := hs key column hg
    obtain rfl := Option.some.inj (hr.symm.trans hr')
    obtain ⟨s, hs⟩ := ht key _ hg
    exact .inr ⟨s, hd.oid_eq hc ▸ hs⟩

/-- When the columns that were missing are stored and their types are loaded, the request has left
what it has to. -/
theorem fetched_of_missing {found later : Caches} (hc : c.IsPlain)
    (he : env.ServesColumns c may mayColumn) (hl : env.allowed found later)
    (hf : found.types.IsSound c) (hs : found.columns.IsSound c) (ht : found.IsTyped)
    (htypes : ∀ oid, Loads c (typesOf c (found.columns.missing keys)) oid →
      ∃ t, later.types.get? oid = some t)
    (hcolumns : ∀ key, Stores c keys key → key ∈ found.columns.missing keys →
      ∃ column, later.columns.get? key = some column) : Fetched c keys later where
  types oid := exists_get?_of_loads hc hf typesOf_missing_subset
    (fun _ => mem_typesOf_missing_or_get? hc hs ht) (fun _ _ => he.keeps hl) htypes
  columns key hkey := by
    cases hg : found.columns.get? key with
    | none => exact hcolumns key hkey (mem_missing.mpr ⟨hkey.mem, hg⟩)
    | some column => exact ⟨column, he.keepsColumn hl hg⟩

/-- However others use the caches meanwhile, a request for columns has its outcome and leaves what
it has to, if the column cache was sound when it began. It adds nothing else. -/
theorem ensures_fetchColumns_fetched (hc : c.IsPlain) (he : env.ServesColumns c may mayColumn)
    (hmay : ∀ oid, (caches.columns.IsSound c → Loads c (typesOf c keys) oid) → may oid)
    (hmayColumn : ∀ key, (caches.columns.IsSound c → Stores c keys key) → mayColumn key)
    (hs : caches.types.IsSound c) :
    (fetchColumns keys).Ensures env (fun r later => caches.columns.IsSound c →
      ColumnsOutcome c keys r ∧ (caches.IsTyped → Fetched c keys later)) caches := by
  rw [fetchColumns]
  intro found ha
  have hf := he.sound ha hs
  dsimp only
  have hend : ∀ later, env.allowed found later →
      (∀ oid ∈ typesOf c (found.columns.missing keys), ∃ t, c.Denotes oid t) →
      (∀ oid, Loads c (typesOf c (found.columns.missing keys)) oid →
        ∃ t, later.types.get? oid = some t) →
      (∀ key ∈ found.columns.missing keys, key ∈ c.columns →
        ∃ column, later.columns.get? key = some column) →
      (readColumns keys).Ensures env (fun r later => caches.columns.IsSound c →
        ColumnsOutcome c keys r ∧ (caches.IsTyped → Fetched c keys later)) later := by
    intro later hl hd htypes hk
    refine (ensures_readColumns_outcome he hl hd hk).imp fun r last hl' hr hcs => ?_
    have hcf := he.soundColumns ha hcs
    refine ⟨hr hcf, fun ht => ?_⟩
    refine fetched_of_missing hc he (env.trans hl hl') hf hcf (he.typed ha ht) ?_ ?_
    · intro oid ho
      obtain ⟨t, ht⟩ := htypes oid ho
      exact ⟨t, he.keeps hl' ht⟩
    · intro key hkey hm
      obtain ⟨column, hg⟩ := hk key hm hkey.known
      exact ⟨column, he.keepsColumn hl' hg⟩
  split
  · refine (gives_find hc he.toServes _
      (.findColumns (found.columns.missing keys))).bind fun found₁ ha₁ => ?_
    have hload : ∀ oid, Loads c (typesOf c (found.columns.missing keys)) oid → may oid :=
      fun oid ho => hmay oid fun hcs => ho.of_subset hc typesOf_missing_subset fun _ =>
        mem_typesOf_missing_or_denotes (he.soundColumns ha hcs)
    refine Task.Ensures.bind
      (ensures_resolveTypes_loads hc he.toServes hload (he.sound ha₁ hf))
      (fun types found₂ ha₂ ⟨ho, hl⟩ => ?_) fun e found₂ ha₂ ⟨ho, hl⟩ hcs => ?_
    · have hrow : ∀ {key} {row : ColumnRow}, c.columns[key]? = some row → row.key = key :=
        fun h => hc.built.key_of_getElem? h
      have hden : ∀ oid ∈ typesOf c (found.columns.missing keys), ∃ t, c.Denotes oid t := by
        intro oid hm
        obtain ⟨t, -, hd⟩ := exists_denotes_of_resolved ho hm
        exact ⟨t, hd⟩
      refine Task.Ensures.bind (ensures_storeColumns hc he (fun row hr => ?_)
        (fun row hr => exists_denotes_of_resolved ho (List.mem_map_of_mem hr))
        fun row hr => hl _ (ho.loads (List.mem_map_of_mem hr)))
        (fun _ found₃ ha₃ hst => ?_) fun e _ _ hst => ?_
      · obtain ⟨key, hm, hr⟩ := List.mem_filterMap.mp hr
        obtain rfl := hrow hr
        refine ⟨hr, hmayColumn _ fun hcs => ⟨fun oid hoid => ?_, (mem_missing.mp hm).1, ?_⟩⟩
        · have hcf := he.soundColumns ha hcs
          exact (mem_typesOf_missing_or_denotes hcf hoid).elim (hden oid) id
        · exact mem_map_iff.mpr ⟨row, hr⟩
      · refine hend found₃ (env.trans ha₁ (env.trans ha₂ ha₃)) hden (fun oid h => ?_)
          fun key hk hkc => ?_
        · obtain ⟨t, ht⟩ := hl oid h
          exact ⟨t, he.keeps ha₃ ht⟩
        · obtain ⟨row, hr⟩ := mem_map_iff.mp hkc
          have hst := hst.2 row (List.mem_filterMap.mpr ⟨key, hk, hr⟩)
          rwa [hrow hr] at hst
      · cases hst.1
    · have hcf := he.soundColumns ha hcs
      have hfail : Outcome c (typesOf c keys) (.error e) :=
        ho.error_of_subset hc typesOf_missing_subset fun _ => mem_typesOf_missing_or_denotes hcf
      refine ⟨.failed hfail, fun ht => ?_⟩
      refine fetched_of_missing hc he (env.trans ha₁ ha₂) hf hcf (he.typed ha ht) hl ?_
      exact fun _ hkey _ => absurd hfail (not_error_of_denotes hc hkey.denotes)
  · next hemp =>
    have hnil : found.columns.missing keys = [] := by simpa using hemp
    refine hend found (env.refl found) ?_ ?_ ?_
    · rw [hnil]
      simp [typesOf]
    · rw [hnil]
      intro oid ho
      obtain ⟨_, hm, -⟩ := ho.reaches
      cases hm
    · rw [hnil]
      simp

/-- A request for columns has its outcome, when it may add what it likes. -/
theorem ensures_fetchColumns (hc : c.IsPlain)
    (he : env.ServesColumns c (fun _ => True) fun _ => True) (hs : caches.types.IsSound c) :
    (fetchColumns keys).Ensures env
      (fun r _ => caches.columns.IsSound c → ColumnsOutcome c keys r) caches :=
  (ensures_fetchColumns_fetched hc he (fun _ _ => trivial) (fun _ _ => trivial) hs).imp
    fun _ _ _ h hcs => (h hcs).1

end Resolution

end TypedSql
