import TypedSql.Proofs.Catalog.Order
import TypedSql.Proofs.Task.Sharing
import TypedSql.Resolution

/-!
# Building types

Building looks types up while others may add to the cache. A look-up is settled when the rest of
the run cannot change what it finds. If all types that rows name are settled, unless they are rows
themselves, building in a task comes to the same as building from a table of the settled types
(`Resolution.gives_types`).

Building from a table is then a matter of order. There is a type for every row, made from the
types of the rows that it names and from the table for the others
(`Resolution.exists_types_eq_ok`). No look-up can fail, so the only errors are the two that are
found before anything is built.
-/

namespace TypedSql

namespace Sharing

variable {env : Sharing} {caches found : Caches} {known : Oid → Option SqlType} {oid : Oid}

/-- Whatever is allowed to happen, the cached type of an identifier stays what `known` says. -/
def Settles (env : Sharing) (caches : Caches) (known : Oid → Option SqlType) (oid : Oid) :
    Prop :=
  ∀ found, env.allowed caches found → found.types.get? oid = known oid

theorem Settles.later (h : env.Settles caches known oid) (ha : env.allowed caches found) :
    env.Settles found known oid :=
  fun later hl => h later (env.trans ha hl)

end Sharing

namespace Resolution

variable {env : Sharing} {caches : Caches} {known : Oid → Option SqlType} {rows : TypeRows}
  {built : TypeMap} {row : TypeRow} {order : List TypeRow} {oid : Oid} {oids : List Oid}

/-! ### From tasks to tables -/

theorem gives_cachedType {ε : Type} (h : env.Settles caches known oid) :
    (Task.cachedType oid : Task ε _).Gives env (.ok (known oid)) caches :=
  fun found ha => congrArg Except.ok (h found ha)

theorem gives_firstMissing {ε : Type}
    (h : ∀ oid ∈ oids, oid ∉ rows → env.Settles caches known oid) :
    (firstMissing Task.cachedType rows oids : Task ε _).Gives env
      (.ok (firstMissing (m := Id) known rows oids)) caches := by
  induction oids generalizing caches with
  | nil => rfl
  | cons oid oids ih =>
    have ht : ∀ oid ∈ oids, oid ∉ rows → env.Settles caches known oid :=
      fun o ho => h o (List.mem_cons_of_mem _ ho)
    rw [firstMissing, firstMissing]
    by_cases hr : rows.contains oid
    · rw [if_pos hr, if_pos hr]
      exact ih ht
    · rw [if_neg hr, if_neg hr]
      refine (gives_cachedType (h oid List.mem_cons_self hr)).bind fun found ha => ?_
      cases known oid with
      | none => rfl
      | some t => exact ih fun o ho hn => (ht o ho hn).later ha

theorem gives_missingDependency {ε : Type}
    (h : ∀ row ∈ order, ∀ d ∈ row.dependencies, d ∉ rows → env.Settles caches known d) :
    (missingDependency Task.cachedType rows order : Task ε _).Gives env
      (.ok (missingDependency (m := Id) known rows order)) caches := by
  induction order generalizing caches with
  | nil => rfl
  | cons row order ih =>
    refine (gives_firstMissing (h row List.mem_cons_self)).bind fun found ha => ?_
    rw [missingDependency]
    cases firstMissing (m := Id) known rows row.dependencies with
    | some d => rfl
    | none => exact ih fun r hr d hd hn => (h r (List.mem_cons_of_mem _ hr) d hd hn).later ha

theorem gives_lookup {ε : Type} (h : built[oid]? = none → env.Settles caches known oid) :
    (lookup Task.cachedType built oid : Task ε _).Gives env
      (.ok (lookup (m := Id) known built oid)) caches := by
  rw [lookup, lookup]
  cases hb : built[oid]? with
  | some t => rfl
  | none => exact gives_cachedType (h hb)

theorem gives_lookupAll {ε : Type}
    (h : ∀ oid ∈ oids, built[oid]? = none → env.Settles caches known oid) :
    (lookupAll Task.cachedType built oids : Task ε _).Gives env
      (.ok (lookupAll (m := Id) known built oids)) caches := by
  induction oids generalizing caches with
  | nil => rfl
  | cons oid oids ih =>
    refine (gives_lookup (h oid List.mem_cons_self)).bind fun found ha => ?_
    rw [lookupAll]
    cases lookup (m := Id) known built oid with
    | none => rfl
    | some t =>
      have hl : ∀ o ∈ oids, built[o]? = none → env.Settles found known o :=
        fun o ho hn => (h o (List.mem_cons_of_mem _ ho) hn).later ha
      refine (ih hl).bind fun later _ => ?_
      cases lookupAll (m := Id) known built oids <;> rfl

theorem gives_build {ε : Type}
    (h : ∀ d ∈ row.dependencies, built[d]? = none → env.Settles caches known d) :
    (build Task.cachedType built row : Task ε _).Gives env
      (.ok (build (m := Id) known built row)) caches := by
  cases row with
  | enum t | unknown t => rfl
  | domain row | array row =>
    exact (gives_lookup (h _ (List.mem_singleton.mpr rfl))).bind fun _ _ => rfl
  | composite row => exact (gives_lookupAll h).bind fun _ _ => rfl

/-- The rows stand in an order, so nothing is looked up that is still to be built. -/
theorem gives_buildAll {ε : Type} {free : Oid → Prop} (hf : TypeRows.Follows free order)
    (h : ∀ row ∈ order, ∀ d ∈ row.dependencies, free d → built[d]? = none →
      env.Settles caches known d) :
    (buildAll Task.cachedType built order : Task ε _).Gives env
      (.ok (buildAll (m := Id) known built order)) caches := by
  induction order generalizing built caches free with
  | nil => rfl
  | cons row order ih =>
    obtain ⟨hd, hf⟩ := hf
    refine (gives_build fun d hm => h row List.mem_cons_self d hm (hd d hm)).bind fun found ha => ?_
    rw [buildAll]
    cases build (m := Id) known built row with
    | none => rfl
    | some t =>
      refine ih hf fun r hr d hm ho hn => ?_
      rw [Std.ExtTreeMap.getElem?_insert] at hn
      split at hn
      · cases hn
      · next hne =>
        have hd : free d := ho.resolve_right fun he => hne ?_
        · exact (h r (List.mem_cons_of_mem _ hr) d hm hd hn).later ha
        exact Std.LawfulEqCmp.compare_eq_iff_eq.mpr he.symm

theorem types_eq (known : Oid → Option SqlType) (rows : TypeRows) :
    (types (m := Id) known rows : Except ResolveError TypeMap) =
      match missingDependency (m := Id) known rows rows.values with
      | some (oid, dependency) => .error (.missingDependency oid dependency)
      | none =>
        match rows.ordered with
        | .error oids => .error (.cycle oids)
        | .ok order => buildAll (m := Id) known ∅ order := by
  rw [types]
  rfl

/-- Building in a task is building from a table, when everything that is looked up is settled. -/
theorem gives_types {ε : Type} (hk : rows.IsKeyed)
    (h : ∀ a d, rows.DependsOn a d → d ∉ rows → env.Settles caches known d) :
    (types Task.cachedType rows : Task ε _).Gives env (.ok (types (m := Id) known rows))
      caches := by
  have hv : ∀ row ∈ rows.values, ∀ d ∈ row.dependencies, d ∉ rows → env.Settles caches known d :=
    fun row hr d hd => h row.oid d ⟨row, hk.mem_values_iff.mp hr, hd⟩
  refine (gives_missingDependency hv).bind fun found ha => ?_
  rw [types_eq]
  cases missingDependency (m := Id) known rows rows.values with
  | some p => rfl
  | none =>
    cases ho : rows.ordered with
    | error oids => rfl
    | ok order =>
      obtain ⟨hord, -⟩ := TypeRows.isOrder_of_ordered hk ho
      refine gives_buildAll hord.follows fun row hr d hd hn _ => ?_
      exact (h row.oid d ⟨row, (hord.mem_iff row).mp hr, hd⟩ hn).later ha

/-! ### Building from a table -/

section Table

variable (known)

theorem firstMissing_eq_find? (rows : TypeRows) (oids : List Oid) :
    firstMissing (m := Id) known rows oids =
      oids.find? fun oid => !rows.contains oid && (known oid).isNone := by
  induction oids with
  | nil => rfl
  | cons oid oids ih =>
    rw [firstMissing, List.find?_cons]
    by_cases hr : rows.contains oid
    · rw [if_pos hr, hr]
      exact ih
    · rw [if_neg hr, Bool.eq_false_of_not_eq_true hr]
      cases known oid with
      | none => rfl
      | some t => exact ih

theorem missingDependency_eq_findSome? (rows : TypeRows) (order : List TypeRow) :
    missingDependency (m := Id) known rows order = order.findSome? fun row =>
      (firstMissing (m := Id) known rows row.dependencies).map fun d => (row.oid, d) := by
  induction order with
  | nil => rfl
  | cons row order ih =>
    rw [missingDependency, List.findSome?_cons]
    cases firstMissing (m := Id) known rows row.dependencies with
    | none => exact ih
    | some d => rfl

theorem lookup_eq (built : TypeMap) (oid : Oid) :
    lookup (m := Id) known built oid = built[oid]?.or (known oid) := by
  rw [lookup]
  cases built[oid]? <;> rfl

theorem lookupAll_cons (built : TypeMap) (oid : Oid) (oids : List Oid) :
    lookupAll (m := Id) known built (oid :: oids) =
      (lookup (m := Id) known built oid).bind fun t =>
        (lookupAll (m := Id) known built oids).map fun ts => t :: ts := by
  rw [lookupAll]
  cases lookup (m := Id) known built oid with
  | none => rfl
  | some t => cases lookupAll (m := Id) known built oids <;> rfl

variable {known} {known' : Oid → Option SqlType} {built' : TypeMap} {t : SqlType}
  {ts : List SqlType}

theorem lookupAll_eq_some (h : lookupAll (m := Id) known built oids = some ts) :
    oids.length = ts.length ∧
      ∀ p ∈ oids.zip ts, lookup (m := Id) known built p.1 = some p.2 := by
  induction oids generalizing ts with
  | nil =>
    obtain rfl : [] = ts := Option.some.inj h
    simp
  | cons oid oids ih =>
    rw [lookupAll_cons] at h
    obtain ⟨t, ht, h⟩ := Option.bind_eq_some_iff.mp h
    obtain ⟨ts, hts, rfl⟩ := Option.map_eq_some_iff.mp h
    obtain ⟨hl, hz⟩ := ih hts
    exact ⟨congrArg (· + 1) hl, List.forall_mem_cons.mpr ⟨ht, hz⟩⟩

theorem lookupAll_congr
    (h : ∀ oid ∈ oids, lookup (m := Id) known built oid = lookup (m := Id) known' built' oid) :
    lookupAll (m := Id) known built oids = lookupAll (m := Id) known' built' oids := by
  induction oids with
  | nil => rfl
  | cons oid oids ih =>
    rw [lookupAll_cons, lookupAll_cons, h oid List.mem_cons_self,
      ih fun o ho => h o (List.mem_cons_of_mem _ ho)]

theorem exists_lookupAll_eq_some
    (h : ∀ oid ∈ oids, ∃ t, lookup (m := Id) known built oid = some t) :
    ∃ ts, lookupAll (m := Id) known built oids = some ts := by
  induction oids with
  | nil => exact ⟨[], rfl⟩
  | cons oid oids ih =>
    obtain ⟨t, ht⟩ := h oid List.mem_cons_self
    obtain ⟨ts, hts⟩ := ih fun o ho => h o (List.mem_cons_of_mem _ ho)
    exact ⟨t :: ts, by rw [lookupAll_cons, ht, hts]; rfl⟩

theorem build_congr (h : ∀ d ∈ row.dependencies,
      lookup (m := Id) known built d = lookup (m := Id) known' built' d) :
    build (m := Id) known built row = build (m := Id) known' built' row := by
  cases row with
  | enum t | unknown t => rfl
  | domain row | array row =>
    rw [build, build, h _ (List.mem_singleton.mpr rfl)]
  | composite row =>
    have hc : lookupAll (m := Id) known built row.columnOids = lookupAll known' built' _ :=
      lookupAll_congr h
    rw [build, build, hc]

theorem exists_build_eq_some
    (h : ∀ d ∈ row.dependencies, ∃ t, lookup (m := Id) known built d = some t) :
    ∃ t, build (m := Id) known built row = some t := by
  cases row with
  | enum t | unknown t => exact ⟨_, rfl⟩
  | domain row | array row =>
    obtain ⟨t, ht⟩ := h _ (List.mem_singleton.mpr rfl)
    rw [build, ht]
    exact ⟨_, rfl⟩
  | composite row =>
    obtain ⟨ts, hts⟩ : ∃ ts, lookupAll (m := Id) known built row.columnOids = some ts :=
      exists_lookupAll_eq_some h
    rw [build, hts]
    exact ⟨_, rfl⟩

theorem oid_of_build (h : build (m := Id) known built row = some t) : t.oid = row.oid := by
  cases row with
  | enum e | unknown u =>
    obtain rfl := Option.some.inj h
    rfl
  | domain row | array row | composite row =>
    obtain ⟨_, -, rfl⟩ := Option.map_eq_some_iff.mp h
    rfl

/-- Rows in an order are all built, each from the types that are there in the end. -/
theorem exists_buildAll_eq_ok {free : Oid → Prop} (hf : TypeRows.Follows free order)
    (hn : (order.map TypeRow.oid).Nodup) (hb : ∀ row ∈ order, ¬ free row.oid)
    (hl : ∀ row ∈ order, ∀ d ∈ row.dependencies, free d →
      ∃ t, lookup (m := Id) known built d = some t) :
    ∃ types : TypeMap, buildAll (m := Id) known built order = .ok types ∧
      (∀ oid, oid ∉ order.map TypeRow.oid → types[oid]? = built[oid]?) ∧
      ∀ row ∈ order, ∃ t, types[row.oid]? = some t ∧ build (m := Id) known types row = some t := by
  induction order generalizing built free with
  | nil => exact ⟨built, rfl, fun _ _ => rfl, by simp⟩
  | cons row order ih =>
    obtain ⟨hd, hf⟩ := hf
    rw [List.map_cons, List.nodup_cons] at hn
    obtain ⟨t, ht⟩ := exists_build_eq_some fun d hm => hl row List.mem_cons_self d hm (hd d hm)
    have hg : ∀ oid, oid ≠ row.oid → (built.insert row.oid t)[oid]? = built[oid]? := by
      intro oid hne
      rw [Std.ExtTreeMap.getElem?_insert, if_neg]
      rw [Std.LawfulEqCmp.compare_eq_iff_eq]
      exact Ne.symm hne
    have hb' : ∀ r ∈ order, ¬ (free r.oid ∨ r.oid = row.oid) := by
      rintro r hr (hfr | he)
      · exact hb r (List.mem_cons_of_mem _ hr) hfr
      · exact hn.1 (he ▸ List.mem_map_of_mem hr)
    have hl' : ∀ r ∈ order, ∀ d ∈ r.dependencies, free d ∨ d = row.oid →
        ∃ s, lookup (m := Id) known (built.insert row.oid t) d = some s := by
      intro r hr d hm hd
      rw [lookup_eq]
      by_cases he : d = row.oid
      · subst he
        exact ⟨t, by simp⟩
      · rw [hg d he, ← lookup_eq]
        exact hl r (List.mem_cons_of_mem _ hr) d hm (hd.resolve_right he)
    obtain ⟨types, htypes, hout, hin⟩ := ih hf hn.2 hb' hl'
    refine ⟨types, ?_, fun oid ho => ?_, List.forall_mem_cons.mpr ⟨⟨t, ?_, ?_⟩, hin⟩⟩
    · rw [buildAll, ht]
      exact htypes
    · rw [List.map_cons, List.mem_cons, not_or] at ho
      rw [hout oid ho.2, hg oid ho.1]
    · rw [hout _ hn.1]
      simp
    · rw [← ht]
      refine build_congr fun d hm => ?_
      have hne : d ∉ (row :: order).map TypeRow.oid := by
        intro hmem
        obtain ⟨r, hr, rfl⟩ := List.mem_map.mp hmem
        exact hb r hr (hd _ hm)
      rw [List.map_cons, List.mem_cons, not_or] at hne
      rw [lookup_eq, lookup_eq, hout d hne.2, hg d hne.1]

/-- When nothing is missing, everything that a row names is a row or known. -/
theorem exists_lookup_of_missingDependency_eq_none
    (hm : missingDependency (m := Id) known rows order = none) (hr : row ∈ order) :
    ∀ d ∈ row.dependencies, d ∉ rows → ∃ t, lookup (m := Id) known ∅ d = some t := by
  intro d hd hn
  rw [missingDependency_eq_findSome?, List.findSome?_eq_none_iff] at hm
  have hf := hm row hr
  rw [Option.map_eq_none_iff, firstMissing_eq_find?, List.find?_eq_none] at hf
  have hr : rows.contains d = false := by
    simpa [← Std.ExtTreeMap.contains_iff_mem] using hn
  have hs : known d ≠ none := by
    simpa [hr] using hf d hd
  rw [lookup_eq, Std.ExtTreeMap.getElem?_empty, Option.none_or]
  exact Option.ne_none_iff_exists'.mp hs

/-- Rows that lack nothing and have an order are built. -/
theorem exists_types_eq_ok (hk : rows.IsKeyed)
    (hm : missingDependency (m := Id) known rows rows.values = none)
    (ho : rows.ordered = .ok order) :
    ∃ types : TypeMap, Resolution.types (m := Id) known rows = Except.ok (ε := ResolveError) types ∧
      (∀ oid ∈ types, oid ∈ rows) ∧
      ∀ (oid : Oid) (row : TypeRow), rows[oid]? = some row →
        ∃ t, types[oid]? = some t ∧ build (m := Id) known types row = some t := by
  obtain ⟨hord, -⟩ := TypeRows.isOrder_of_ordered hk ho
  have hrow : ∀ row ∈ order, rows[row.oid]? = some row := fun row hr => (hord.mem_iff row).mp hr
  obtain ⟨types, htypes, hout, hin⟩ := exists_buildAll_eq_ok hord.follows hord.nodup
    (fun row hr hn => hn (mem_map_iff.mpr ⟨row, hrow row hr⟩))
    fun row hr => exists_lookup_of_missingDependency_eq_none hm
      (hk.mem_values_iff.mpr (hrow row hr))
  refine ⟨types, ?_, fun oid ho => ?_, fun oid row hr => ?_⟩
  · rw [types_eq, hm, ho]
    exact htypes
  · obtain ⟨t, ht⟩ := mem_map_iff.mp ho
    by_contra hn
    rw [hout oid ((hord.mem_map_oid_iff hk).not.mpr hn), Std.ExtTreeMap.getElem?_empty] at ht
    cases ht
  · obtain rfl := hk oid row hr
    exact hin row ((hord.mem_iff row).mpr hr)

/-- How building rows can end. If it does not fail, each row has a type, built from the types of
the others and the known ones. -/
inductive Building (known : Oid → Option SqlType) (rows : TypeRows) :
    Except ResolveError TypeMap → Prop where
  | missing (oid dependency : Oid) :
    Building known rows (.error (.missingDependency oid dependency))
  | cycle (oids : List Oid) : Building known rows (.error (.cycle oids))
  | built (types : TypeMap) (listed : ∀ oid ∈ types, oid ∈ rows)
    (typed : ∀ (oid : Oid) (row : TypeRow), rows[oid]? = some row →
      ∃ t, types[oid]? = some t ∧ build (m := Id) known types row = some t) :
    Building known rows (.ok types)

theorem building_types (hk : rows.IsKeyed) :
    Building known rows (types (m := Id) known rows) := by
  cases hm : missingDependency (m := Id) known rows rows.values with
  | some miss =>
    rw [types_eq, hm]
    exact .missing _ _
  | none =>
    cases ho : rows.ordered with
    | error oids =>
      rw [types_eq, hm, ho]
      exact .cycle oids
    | ok order =>
      obtain ⟨types, htypes, hlisted, htyped⟩ := exists_types_eq_ok hk hm ho
      rw [htypes]
      exact .built types hlisted htyped

section Built

variable {types : TypeMap} (hk : rows.IsKeyed)
  (h : Resolution.types (m := Id) known rows = Except.ok (ε := ResolveError) types)
include hk h

/-- Types that were built without an error: each row has one, built from the types of the others
and the known ones. -/
theorem exists_getElem?_of_types_eq_ok (hr : rows[oid]? = some row) :
    ∃ t, types[oid]? = some t ∧ build (m := Id) known types row = some t := by
  have hb : Building known rows _ := building_types hk
  rw [h] at hb
  cases hb with
  | built _ _ typed => exact typed oid row hr

theorem getElem?_of_types_eq_ok : types[oid]? = some t ↔
    ∃ row : TypeRow, rows[oid]? = some row ∧ build (m := Id) known types row = some t := by
  constructor
  · intro ht
    have hb : Building known rows _ := building_types hk
    rw [h] at hb
    cases hb with
    | built _ listed typed =>
      obtain ⟨row, hr⟩ := mem_map_iff.mp (listed oid (mem_map_iff.mpr ⟨t, ht⟩))
      obtain ⟨s, hs, hbuild⟩ := typed oid row hr
      exact ⟨row, hr, hbuild.trans (hs.symm.trans ht)⟩
  · rintro ⟨row, hr, hbuild⟩
    obtain ⟨s, hs, hbuild'⟩ := exists_getElem?_of_types_eq_ok hk h hr
    exact hs.trans (hbuild'.symm.trans hbuild)

end Built

end Table

end Resolution

end TypedSql
