import TypedSql.Proofs.Resolution.Columns

/-!
# Caches that can come about

Every type cache that requests leave behind, starting from a new one, is sound for the catalog
that they asked (`Resolution.Reachable.isSound`). So a request on its own ends as the dependency
graph says, whatever was asked before it (`Resolution.resolveTypes_outcome`).

The caches keep what they hold, and it can be said beforehand what comes to them (`Caches.Fills`).
-/

namespace TypedSql

/-- The caches keep what they hold and stay sound, and only certain types and columns come to
them. -/
structure Caches.Fills (c : MemoryCatalog) (may : Oid → Prop) (mayColumn : ColumnKey → Prop)
    (a b : Caches) : Prop where
  keeps (oid : Oid) (t : SqlType) : a.types.get? oid = some t → b.types.get? oid = some t
  sound : a.types.IsSound c → b.types.IsSound c
  may (oid : Oid) (t : SqlType) :
    b.types.get? oid = some t → a.types.get? oid = some t ∨ may oid
  keepsColumn (key : ColumnKey) (column : Column) :
    a.columns.get? key = some column → b.columns.get? key = some column
  soundColumns : a.columns.IsSound c → b.columns.IsSound c
  typed : a.IsTyped → b.IsTyped
  mayColumn (key : ColumnKey) (column : Column) :
    b.columns.get? key = some column → a.columns.get? key = some column ∨ mayColumn key

/-- The caches keep what they hold, and stay sound. -/
abbrev Caches.Grows (c : MemoryCatalog) (a b : Caches) : Prop :=
  Caches.Fills c (fun _ => True) (fun _ => True) a b

namespace Caches.Fills

variable {c : MemoryCatalog} {may : Oid → Prop} {mayColumn : ColumnKey → Prop}
  {a b d caches : Caches} {types : List SqlType} {column : Column}

theorem refl (a : Caches) : Fills c may mayColumn a a :=
  ⟨fun _ _ => id, id, fun _ _ => .inl, fun _ _ => id, id, id, fun _ _ => .inl⟩

theorem trans (h : Fills c may mayColumn a b) (h' : Fills c may mayColumn b d) :
    Fills c may mayColumn a d where
  keeps oid t ht := h'.keeps oid t (h.keeps oid t ht)
  sound := h'.sound ∘ h.sound
  may oid t ht := (h'.may oid t ht).elim (h.may oid t) .inr
  keepsColumn key column hk := h'.keepsColumn key column (h.keepsColumn key column hk)
  soundColumns := h'.soundColumns ∘ h.soundColumns
  typed := h'.typed ∘ h.typed
  mayColumn key column hk := (h'.mayColumn key column hk).elim (h.mayColumn key column) .inr

/-- Types that fit can be added. -/
theorem extend (h : caches.types.Fits c may types) :
    Fills c may mayColumn caches { caches with types := caches.types.extend types } where
  keeps _ _ ht := TypeCache.get?_extend_of_eq_some ht types
  sound hs := hs.extend h
  may oid t ht := by
    obtain ht | ⟨hm, rfl⟩ := TypeCache.get?_or_mem_of_extend ht
    · exact .inl ht
    · exact .inr (h.may t hm)
  keepsColumn _ _ := id
  soundColumns := id
  typed ht key column hk := by
    obtain ⟨t, hg⟩ := ht key column hk
    exact ⟨t, TypeCache.get?_extend_of_eq_some hg types⟩
  mayColumn _ _ := .inl

/-- A column that fits can be added. -/
theorem insert (h : caches.Fits c mayColumn column) :
    Fills c may mayColumn caches { caches with columns := caches.columns.insert column } := by
  have hnew {key : ColumnKey} {column' : Column}
      (hg : (caches.columns.insert column).get? key = some column') :
      caches.columns.get? key = some column' ∨ column' = column ∧ column.key = key := by
    rw [ColumnCache.get?_insert, Option.or_eq_some_iff, Option.ite_none_right_eq_some] at hg
    obtain hg | ⟨-, hk, hg⟩ := hg
    · exact .inl hg
    · exact .inr ⟨(Option.some.inj hg).symm, hk⟩
  refine ⟨fun _ _ => id, id, fun _ _ => .inl, fun key _ hk => ?_, fun hs key column' hk => ?_,
    fun ht key column' hk => ?_, fun key column' hk => ?_⟩
  · rw [ColumnCache.get?_insert, hk, Option.some_or]
  · obtain hk | ⟨rfl, rfl⟩ := hnew hk
    · exact hs key column' hk
    · exact h.isColumn
  · obtain hk | ⟨rfl, rfl⟩ := hnew hk
    · exact ht key column' hk
    · exact h.typed
  · obtain hk | ⟨rfl, rfl⟩ := hnew hk
    · exact .inl hk
    · exact .inr h.may

end Caches.Fills

namespace MemoryCatalog

variable {c : MemoryCatalog}

/-- What tasks that share their caches do to each other, when they add certain types and columns
only. -/
def filling (c : MemoryCatalog) (may : Oid → Prop) (mayColumn : ColumnKey → Prop)
    (catalog : Catalog) (deadline : Duration) : Sharing where
  catalog := catalog
  deadline := deadline
  allowed := Caches.Fills c may mayColumn
  refl := .refl
  trans := .trans

/-- What tasks that share their caches do to each other. -/
def sharing (c : MemoryCatalog) (deadline : Duration) : Sharing :=
  c.filling (fun _ => True) (fun _ => True) c.catalog deadline

/-- Any catalog will do that gives the same answers up to the deadline. -/
theorem filling_servesColumns {may : Oid → Prop} {mayColumn : ColumnKey → Prop}
    {catalog : Catalog} {deadline : Duration}
    (h : ∀ request, catalog.answer deadline request = c.catalog.answer deadline request) :
    (c.filling may mayColumn catalog deadline).ServesColumns c may mayColumn where
  answer := h
  keeps h := h.keeps _ _
  sound h := h.sound
  extend h := .extend h
  keepsColumn h := h.keepsColumn _ _
  soundColumns h := h.soundColumns
  typed h := h.typed
  insert h := .insert h

theorem servesColumns (c : MemoryCatalog) (deadline : Duration) :
    (c.sharing deadline).ServesColumns c (fun _ => True) fun _ => True :=
  filling_servesColumns fun _ => rfl

end MemoryCatalog

namespace Resolution

variable {c : MemoryCatalog} {types : TypeCache} {oids : List Oid}

/-- The type caches that requests for types and for columns can leave behind. -/
inductive Reachable (c : MemoryCatalog) : TypeCache → Prop where
  | builtin : Reachable c .builtin
  | resolveTypes {types : TypeCache} (columns : ColumnCache) (deadline : Duration)
    (oids : List Oid) : Reachable c types →
    Reachable c ((resolveTypes oids).run c.catalog deadline ⟨types, columns⟩).caches.types
  | fetchColumns {types : TypeCache} (columns : ColumnCache) (deadline : Duration)
    (keys : List ColumnKey) : Reachable c types →
    Reachable c ((fetchColumns keys).run c.catalog deadline ⟨types, columns⟩).caches.types

theorem Reachable.isSound (hc : c.IsPlain) (h : Reachable c types) : types.IsSound c := by
  induction h with
  | builtin => exact TypeCache.isSound_builtin c
  | resolveTypes columns deadline oids _ ih =>
    have h : (Resolution.resolveTypes oids).Ensures (c.sharing deadline)
        (fun r _ => Outcome c oids r) ⟨_, columns⟩ :=
      ensures_resolveTypes hc (c.servesColumns deadline).toServes ih
    exact h.allowed_run.sound ih
  | fetchColumns columns deadline keys _ ih =>
    have h : (Resolution.fetchColumns keys).Ensures (c.sharing deadline)
        (fun r _ => columns.IsSound c → ColumnsOutcome c keys r) ⟨_, columns⟩ :=
      ensures_fetchColumns hc (c.servesColumns deadline) ih
    exact h.allowed_run.sound ih

/-- A request for types ends as the dependency graph says, after any requests before it. -/
theorem resolveTypes_outcome (hc : c.IsPlain) (hr : Reachable c types) (columns : ColumnCache)
    (deadline : Duration) (oids : List Oid) (r : Except ResolveError TypeMap) :
    Outcome c oids r ↔
      ((resolveTypes oids).run c.catalog deadline ⟨types, columns⟩).result = r := by
  have h : (Resolution.resolveTypes oids).Ensures (c.sharing deadline)
      (fun r _ => Outcome c oids r) ⟨types, columns⟩ :=
    ensures_resolveTypes hc (c.servesColumns deadline).toServes (hr.isSound hc)
  constructor
  · intro hr
    exact h.run.unique hc hr
  · rintro rfl
    exact h.run

/-- A catalog with an array of a type that it does not know. -/
def dangling : MemoryCatalog := MemoryCatalog.empty.addArray 90001 "_mood" 90000

theorem getElem?_dangling {oid : Oid} {row : TypeRow} (h : dangling.types[oid]? = some row) :
    oid = 90001 ∧ row = .array ⟨90001, "_mood", 90000⟩ := by
  simp only [dangling, MemoryCatalog.addArray, MemoryCatalog.addType, MemoryCatalog.empty,
    Std.ExtTreeMap.getElem?_insert, TypeRow.oid, Std.LawfulEqCmp.compare_eq_iff_eq] at h
  split at h
  · next he => exact ⟨he.symm, (Option.some.inj h).symm⟩
  · simp at h

theorem isPlain_dangling : dangling.IsPlain where
  built := .addType _ .empty
  failure _ := rfl
  latency := rfl
  builtin oid hb := by
    refine Option.eq_none_iff_forall_ne_some.mpr fun row hr => ?_
    rw [(getElem?_dangling hr).1] at hb
    exact absurd hb (by decide)

theorem misses_dangling : dangling.Misses 90001 90000 := by
  refine ⟨.array ⟨90001, "_mood", 90000⟩, ?_, List.find?_cons_of_pos ?_⟩
  · simp [dangling, MemoryCatalog.addArray, MemoryCatalog.addType, TypeRow.oid]
  · rw [Bool.not_eq_true', ← Bool.not_eq_true, MemoryCatalog.knows_iff]
    rintro (hm | hb)
    · obtain ⟨row, hr⟩ := mem_map_iff.mp hm
      exact absurd (getElem?_dangling hr).1 (by decide)
    · exact absurd hb (by decide)

theorem resolveTypes_dangling :
    ((resolveTypes [90001]).run dangling.catalog ⟨5000⟩ ⟨.builtin, .empty⟩).result =
      .error (.missingDependency 90001 90000) := by
  refine (resolveTypes_outcome isPlain_dangling .builtin .empty ⟨5000⟩ [90001] _).mp
    (.missingDependency (.of_mem List.mem_cons_self) misses_dangling fun o d _ hm => ?_)
  obtain ⟨row, hr, -⟩ := hm
  rw [(getElem?_dangling hr).1]
  exact UInt32.le_refl _

end Resolution

end TypedSql
