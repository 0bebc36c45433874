import TypedSql.Proofs.Resolution.Course
import TypedSql.Proofs.Resolution.RowsOutcome

/-!
# Building in rounds

Building puts the rows in an order first. It can go without one, in rounds: each round finds the
pending rows that wait for no other, and builds them one after another from what was built in the
rounds before (`Resolution.inRounds`). Rows that are left when nobody can be built wait for each
other. A round with rows leaves fewer pending ones (`Resolution.size_lt_of_buildRound`), so the
rounds come to an end.

What a round builds is the next part of the order, so nothing that it looks up is still to be built,
and the rounds come to the same as the order (`Resolution.inRounds_eq`). Hence they have the outcome
of the rows as well, whatever the rows and the cache are, also when they have types in common
(`Resolution.types_exact`).
-/

namespace TypedSql

namespace Resolution

open Relation

variable {known : Oid → Option SqlType} {pending rest rows : TypeRows} {built types : TypeMap}
  {row : TypeRow} {order later : List TypeRow} {oid : Oid} {oids : List Oid}

/-- The pending rows that name only types which are built or not pending. -/
def unblocked (pending : TypeRows) (built : TypeMap) : TypeRows :=
  pending.filter fun _ row => row.dependencies.all fun d => built.contains d || !pending.contains d

/-- Build some of the pending rows. The others stay pending. -/
def buildRound (known : Oid → Option SqlType) (pending : TypeRows) (built : TypeMap) :
    List Oid → Except ResolveError (TypeRows × TypeMap)
  | [] => .ok (pending, built)
  | oid :: oids =>
    match pending[oid]? with
    | none => buildRound known pending built oids
    | some row =>
      match build (m := Id) known built row with
      | some t => buildRound known (pending.erase oid) (built.insert oid t) oids
      | none => .error (.unresolved [oid])

theorem size_le_of_buildRound (h : buildRound known pending built oids = .ok (rest, types)) :
    rest.size ≤ pending.size := by
  induction oids generalizing pending built with
  | nil =>
    obtain ⟨rfl, -⟩ := Prod.mk.inj (Except.ok.inj h)
    exact Nat.le_refl _
  | cons oid oids ih =>
    rw [buildRound] at h
    split at h
    · exact ih h
    · next row hr =>
      split at h
      · exact Nat.le_trans (ih h) (Nat.le_of_lt (TypeRows.size_erase_lt hr))
      · cases h

/-- A round that starts with a pending row leaves fewer. -/
theorem size_lt_of_buildRound (hm : oid ∈ pending)
    (h : buildRound known pending built (oid :: oids) = .ok (rest, types)) :
    rest.size < pending.size := by
  obtain ⟨row, hr⟩ := mem_map_iff.mp hm
  rw [buildRound, hr] at h
  dsimp only at h
  split at h
  · exact Nat.lt_of_le_of_lt (size_le_of_buildRound h) (TypeRows.size_erase_lt hr)
  · cases h

/-- Build the pending rows in rounds. -/
def inRounds (known : Oid → Option SqlType) (pending : TypeRows) (built : TypeMap) :
    Except ResolveError TypeMap :=
  if pending.isEmpty then .ok built
  else
    match _ho : (unblocked pending built).keys with
    | [] => .error (.cycle pending.keys)
    | oid :: oids =>
      match _hr : buildRound known pending built (oid :: oids) with
      | .error error => .error error
      | .ok (rest, types) => inRounds known rest types
termination_by pending.size
decreasing_by
  have hm : oid ∈ unblocked pending built := by
    rw [← Std.ExtTreeMap.mem_keys, _ho]
    exact List.mem_cons_self
  exact size_lt_of_buildRound (Std.ExtTreeMap.mem_of_mem_filter hm) _hr

theorem inRounds_of_buildRound (hne : (unblocked pending built).keys ≠ [])
    (h : buildRound known pending built (unblocked pending built).keys = .ok (rest, types)) :
    inRounds known pending built = inRounds known rest types := by
  have hp : ¬ pending.isEmpty = true := by
    intro he
    rw [unblocked, Std.ExtTreeMap.isEmpty_iff.mp he] at hne
    exact hne rfl
  rw [inRounds, if_neg hp]
  split
  · next ho => exact absurd ho hne
  · next oid oids ho =>
    rw [ho] at h
    split
    · next hr => cases hr.symm.trans h
    · next hr =>
      cases hr.symm.trans h
      rfl

/-! ### Rounds and orders -/

/-- Between two rounds nothing that was built is pending, and what the pending rows name is found
unless it is pending itself. -/
structure Underway (known : Oid → Option SqlType) (pending : TypeRows) (built : TypeMap) :
    Prop where
  keyed : pending.IsKeyed
  not_built (oid : Oid) : oid ∈ pending → oid ∉ built
  found (a d : Oid) : pending.DependsOn a d → d ∉ pending →
    ∃ t, lookup (m := Id) known built d = some t

/-- The rows of a round are those that wait for no other. -/
theorem Underway.unblocked_eq_ready (hu : Underway known pending built) :
    unblocked pending built = TypeRows.ready pending := by
  have h : (fun d => built.contains d || !pending.contains d) = fun d => !pending.contains d := by
    funext d
    cases hd : pending.contains d with
    | false => simp
    | true =>
      have hb := hu.not_built d (Std.ExtTreeMap.contains_iff_mem.mp hd)
      rw [← Std.ExtTreeMap.contains_iff_mem, Bool.not_eq_true] at hb
      rw [hb, Bool.false_or]
  rw [unblocked, h]
  rfl

theorem buildAll_append (h : buildAll (m := Id) known built order = .ok types) :
    buildAll (m := Id) known built (order ++ later) = buildAll (m := Id) known types later := by
  induction order generalizing built with
  | nil =>
    obtain rfl : built = types := Except.ok.inj h
    rfl
  | cons row order ih =>
    rw [List.cons_append, buildAll]
    rw [buildAll] at h
    cases hr : build (m := Id) known built row with
    | none =>
      rw [hr] at h
      cases h
    | some t =>
      rw [hr] at h
      exact ih h

/-- A round builds its rows as they stand. -/
theorem buildRound_of_buildAll (h : buildAll (m := Id) known built order = .ok types)
    (hp : ∀ row ∈ order, pending[row.oid]? = some row) (hn : (order.map TypeRow.oid).Nodup) :
    ∃ rest, buildRound known pending built (order.map TypeRow.oid) = .ok (rest, types) ∧
      ∀ oid, rest[oid]? = if oid ∈ order.map TypeRow.oid then none else pending[oid]? := by
  induction order generalizing pending built with
  | nil =>
    obtain rfl : built = types := Except.ok.inj h
    exact ⟨pending, rfl, fun oid => by rw [List.map_nil, if_neg List.not_mem_nil]⟩
  | cons row order ih =>
    obtain ⟨hrow, hp⟩ := List.forall_mem_cons.mp hp
    rw [List.map_cons, List.nodup_cons] at hn
    rw [buildAll] at h
    rw [List.map_cons, buildRound, hrow]
    dsimp only
    cases hb : build (m := Id) known built row with
    | none =>
      rw [hb] at h
      cases h
    | some t =>
      rw [hb] at h
      -- No identifier comes twice, so the rows behind this one are still pending without it.
      have hp' : ∀ r ∈ order, (pending.erase row.oid)[r.oid]? = some r := by
        intro r hr
        rw [Std.ExtTreeMap.getElem?_erase, if_neg, hp r hr]
        rw [Std.LawfulEqCmp.compare_eq_iff_eq]
        intro he
        exact hn.1 (he ▸ List.mem_map_of_mem hr)
      obtain ⟨rest, hrest, hout⟩ := ih h hp' hn.2
      refine ⟨rest, hrest, fun oid => ?_⟩
      rw [hout, Std.ExtTreeMap.getElem?_erase]
      by_cases ho : row.oid = oid
      · simp [ho]
      · simp [ho, Ne.symm ho]

/-- The rows that wait for no other can be built, and nothing else is then built besides. -/
theorem Underway.exists_buildAll_ready (hu : Underway known pending built) :
    ∃ types, buildAll (m := Id) known built (TypeRows.ready pending).values = .ok types ∧
      (∀ oid, oid ∉ TypeRows.ready pending → types[oid]? = built[oid]?) ∧
      ∀ oid ∈ TypeRows.ready pending, oid ∈ types := by
  have hk : (TypeRows.ready pending).IsKeyed := TypeRows.isKeyed_ready hu.keyed
  have hrow : ∀ row ∈ (TypeRows.ready pending).values,
      pending[row.oid]? = some row ∧ ∀ d ∈ row.dependencies, d ∉ pending :=
    fun row hm => TypeRows.getElem?_ready.mp (hk.mem_values_iff.mp hm)
  have hfollows : TypeRows.Follows (· ∉ pending) (TypeRows.ready pending).values := by
    rw [← List.append_nil (TypeRows.ready pending).values]
    exact .append (fun row hm => (hrow row hm).2) trivial
  obtain ⟨types, htypes, hout, hin⟩ := exists_buildAll_eq_ok hfollows hk.nodup_map_oid_values
    (fun row hm hn => hn (mem_map_iff.mpr ⟨row, (hrow row hm).1⟩))
    fun row hm d hd => hu.found row.oid d ⟨row, (hrow row hm).1, hd⟩
  simp only [hk.map_oid_values, Std.ExtTreeMap.mem_keys] at hout
  refine ⟨types, htypes, hout, fun oid hm => ?_⟩
  obtain ⟨row, hr⟩ := mem_map_iff.mp hm
  obtain rfl := hk oid row hr
  obtain ⟨t, ht, -⟩ := hin row (hk.mem_values_iff.mpr hr)
  exact mem_map_iff.mpr ⟨t, ht⟩

/-- Without the rows that wait for no other building is still under way. -/
theorem Underway.waiting (hu : Underway known pending built)
    (hout : ∀ oid, oid ∉ TypeRows.ready pending → types[oid]? = built[oid]?)
    (hin : ∀ oid ∈ TypeRows.ready pending, oid ∈ types) :
    Underway known (TypeRows.waiting pending) types where
  keyed := TypeRows.isKeyed_waiting hu.keyed
  not_built oid hm hb := by
    obtain ⟨hp, hr⟩ := TypeRows.mem_waiting.mp hm
    refine hu.not_built oid hp ?_
    rwa [Std.ExtTreeMap.mem_iff_isSome_getElem?, hout oid hr,
      ← Std.ExtTreeMap.mem_iff_isSome_getElem?] at hb
  found a d hd hn := by
    rw [lookup_eq]
    by_cases hr : d ∈ TypeRows.ready pending
    · obtain ⟨t, ht⟩ := mem_map_iff.mp (hin d hr)
      exact ⟨t, by rw [ht, Option.some_or]⟩
    · rw [hout d hr, ← lookup_eq]
      exact hu.found a d hd.of_waiting fun hp => hn (TypeRows.mem_waiting.mpr ⟨hp, hr⟩)

/-- A round leaves the rows that wait for another, and building is still under way. -/
theorem Underway.exists_buildRound (hu : Underway known pending built) :
    ∃ types, buildAll (m := Id) known built (TypeRows.ready pending).values = .ok types ∧
      buildRound known pending built (unblocked pending built).keys =
        .ok (TypeRows.waiting pending, types) ∧
      Underway known (TypeRows.waiting pending) types := by
  obtain ⟨types, htypes, hout, hin⟩ := hu.exists_buildAll_ready
  have hk : (TypeRows.ready pending).IsKeyed := TypeRows.isKeyed_ready hu.keyed
  obtain ⟨rest, hround, hrest⟩ := buildRound_of_buildAll htypes
    (fun row hm => (TypeRows.getElem?_ready.mp (hk.mem_values_iff.mp hm)).1)
    hk.nodup_map_oid_values
  rw [hk.map_oid_values] at hround hrest
  obtain rfl : rest = TypeRows.waiting pending := by
    refine Std.ExtTreeMap.ext_getElem? fun oid => ?_
    rw [hrest, TypeRows.getElem?_waiting_eq_ite]
    simp only [Std.ExtTreeMap.mem_keys]
  refine ⟨types, htypes, ?_, hu.waiting hout hin⟩
  rw [hu.unblocked_eq_ready]
  exact hround

/-- The rounds come to what ordering the rows and building them in this order comes to. -/
theorem inRounds_eq (hu : Underway known pending built) :
    inRounds known pending built = match pending.ordered with
      | .error oids => .error (.cycle oids)
      | .ok order => buildAll (m := Id) known built order := by
  -- One step of the order is one round: both take the rows that wait for no other.
  induction pending using TypeRows.ordered.induct generalizing built with
  | case1 pending hr he =>
    rw [inRounds, if_pos he, TypeRows.ordered, dif_pos hr, if_pos he]
    rfl
  | case2 pending hr he =>
    have hnone : (unblocked pending built).keys = [] := by
      rw [hu.unblocked_eq_ready, Std.ExtTreeMap.keys_eq_nil_iff]
      exact Std.ExtTreeMap.isEmpty_iff.mp hr
    rw [inRounds, if_neg he, TypeRows.ordered, dif_pos hr, if_neg he]
    split
    · rfl
    · next ho => cases hnone.symm.trans ho
  | case3 pending hr ih =>
    obtain ⟨types, htypes, hround, hu'⟩ := hu.exists_buildRound
    have hne : (unblocked pending built).keys ≠ [] := by
      rw [hu.unblocked_eq_ready, Ne, Std.ExtTreeMap.keys_eq_nil_iff]
      exact mt Std.ExtTreeMap.isEmpty_iff.mpr hr
    have ho : pending.ordered =
        (TypeRows.waiting pending).ordered.map ((TypeRows.ready pending).values ++ ·) := by
      rw [TypeRows.ordered, dif_neg hr]
    rw [inRounds_of_buildRound hne hround, ih hu', ho]
    cases (TypeRows.waiting pending).ordered with
    | error oids => rfl
    | ok order => exact (buildAll_append htypes).symm

/-- Rows that lack nothing can be built in rounds. -/
theorem types_eq_inRounds (hk : rows.IsKeyed) (hn : ∀ o d, ¬ Lacks known rows o d) :
    (Resolution.types (m := Id) known rows : Except ResolveError TypeMap) =
      inRounds known rows ∅ := by
  have hm : missingDependency (m := Id) known rows rows.values = none := by
    by_contra h
    obtain ⟨⟨oid, d⟩, hs⟩ := Option.ne_none_iff_exists'.mp h
    exact hn oid d (lacks_of_missingDependency_eq_some hk hs).1
  have hu : Underway known rows ∅ := by
    refine ⟨hk, fun oid _ => Std.ExtTreeMap.not_mem_empty, fun a d ⟨row, hr, hd⟩ hnd => ?_⟩
    exact exists_lookup_of_missingDependency_eq_none hm (mem_values_iff.mpr ⟨a, hr⟩) d hd hnd
  rw [types_eq, hm, inRounds_eq hu]
  rfl

/-! ### Building beside a cache -/

/-- Rows that stand under their own identifiers are built beside any cache, which stays as it is,
without a request. They come to their one outcome, and so do the rounds, after finitely many. No
look-up fails, so no type is reported as unresolved. -/
theorem types_exact (hk : rows.IsKeyed) (catalog : Catalog) (deadline : Duration)
    (caches : Caches) :
    ∃ r, (Resolution.types Task.cachedType rows : Task ResolveError _).run catalog deadline caches =
        ⟨.ok r, caches, []⟩ ∧
      (∀ r', RowsOutcome caches.types.get? rows r' ↔ r' = r) ∧
      ((∀ o d, ¬ Lacks caches.types.get? rows o d) →
        inRounds caches.types.get? rows ∅ = r) ∧
      ∀ unknown, r ≠ .error (.unresolved unknown) := by
  have hout : RowsOutcome caches.types.get? rows _ := rowsOutcome_types hk
  refine ⟨_, run_types hk, fun r' => ⟨fun h => h.unique hout, ?_⟩, fun hn => ?_,
    fun unknown he => ?_⟩
  · rintro rfl
    exact hout
  · exact (types_eq_inRounds hk hn).symm
  · rw [he] at hout
    cases hout

/-- Notes have a title, and there is an array of them. -/
def noteRows : TypeRows :=
  TypeRows.ofRows
    [.array ⟨90005, "_note", 90003⟩, .composite ⟨90003, "note", ["title"], [25]⟩]

theorem getElem?_noteRows {row : TypeRow} : noteRows[oid]? = some row ↔
    oid = 90003 ∧ row = .composite ⟨90003, "note", ["title"], [25]⟩ ∨
      oid = 90005 ∧ row = .array ⟨90005, "_note", 90003⟩ := by
  simp only [noteRows, TypeRows.ofRows, List.foldl_cons, List.foldl_nil, TypeRow.oid,
    Std.ExtTreeMap.getElem?_insert, Std.ExtTreeMap.getElem?_empty,
    Std.LawfulEqCmp.compare_eq_iff_eq]
  by_cases h₃ : oid = 90003
  · simp [h₃, eq_comm]
  · by_cases h₅ : oid = 90005
    · simp [h₅, eq_comm]
    · simp [h₃, h₅, eq_comm]

theorem mem_noteRows : oid ∈ noteRows ↔ oid = 90003 ∨ oid = 90005 := by
  simp only [mem_map_iff, getElem?_noteRows, exists_or, exists_and_left, exists_eq, and_true]

/-- No note is made of notes: what is named has a smaller identifier. -/
theorem lt_of_transGen_noteRows {a b : Oid} (h : TransGen noteRows.DependsOn a b) : b < a := by
  have hlt : ∀ {a b}, noteRows.DependsOn a b → b < a := by
    rintro a b ⟨row, hr, hb⟩
    obtain ⟨rfl, rfl⟩ | ⟨rfl, rfl⟩ := getElem?_noteRows.mp hr <;>
      obtain rfl := List.mem_singleton.mp hb <;> decide
  induction h with
  | single h => exact hlt h
  | tail _ h ih => exact UInt32.lt_trans (hlt h) ih

/-- The cache has something else under the identifier of the notes. -/
def noteCache : TypeCache :=
  TypeCache.empty.extend [.base ⟨25, "text"⟩, .base ⟨90003, "memo"⟩]

def note : SqlType := .composite 90003 "note" ["title"] [.base ⟨25, "text"⟩]

def noteTypes : TypeMap :=
  ((∅ : TypeMap).insert 90003 note).insert 90005 (.array 90005 "_note" note)

/-- What the cache has for the notes is not used. -/
theorem rowsOutcome_noteRows : RowsOutcome noteCache.get? noteRows (.ok noteTypes) := by
  have htext : noteCache.get? 25 = some (.base ⟨25, "text"⟩) := rfl
  have hcontains : noteRows.contains 90003 = true :=
    Std.ExtTreeMap.contains_iff_mem.mpr (mem_noteRows.mpr (.inl rfl))
  have hnote : noteTypes[(90003 : Oid)]? = some note := by
    rw [noteTypes, Std.ExtTreeMap.getElem?_insert, if_neg (by decide),
      Std.ExtTreeMap.getElem?_insert_self]
  have harray : noteTypes[(90005 : Oid)]? = some (.array 90005 "_note" note) :=
    Std.ExtTreeMap.getElem?_insert_self
  refine .built ?_ (fun o h => absurd (lt_of_transGen_noteRows h) (UInt32.lt_irrefl o))
    ⟨fun o => ?_, fun o row t hrow ht => ?_⟩
  · rintro o d ⟨row, hrow, hf⟩
    have hm := List.mem_of_find?_eq_some hf
    have hd := List.find?_some hf
    obtain ⟨rfl, rfl⟩ | ⟨rfl, rfl⟩ := getElem?_noteRows.mp hrow
    · obtain rfl := List.mem_singleton.mp hm
      simp [htext] at hd
    · obtain rfl := List.mem_singleton.mp hm
      simp [hcontains] at hd
  · simp only [noteTypes, Std.ExtTreeMap.mem_insert, Std.ExtTreeMap.not_mem_empty,
      Std.LawfulEqCmp.compare_eq_iff_eq, mem_noteRows, or_false]
    rw [or_comm, eq_comm, @eq_comm _ 90005]
  · obtain ⟨rfl, rfl⟩ | ⟨rfl, rfl⟩ := getElem?_noteRows.mp hrow
    · obtain rfl := Option.some.inj (hnote.symm.trans ht)
      exact .composite (by simp [part, mem_noteRows, htext])
    · obtain rfl := Option.some.inj (harray.symm.trans ht)
      exact .array (by simp [part, mem_noteRows, hnote])

theorem types_exact_noteRows :
    noteRows.IsKeyed ∧
      (Resolution.types Task.cachedType noteRows : Task ResolveError _).run
        MemoryCatalog.empty.catalog ⟨5000⟩ ⟨noteCache, .empty⟩ =
          ⟨.ok (.ok noteTypes), ⟨noteCache, .empty⟩, []⟩ := by
  have hk : noteRows.IsKeyed := by
    intro oid row h
    obtain ⟨rfl, rfl⟩ | ⟨rfl, rfl⟩ := getElem?_noteRows.mp h <;> rfl
  obtain ⟨r, hrun, hr, -⟩ :=
    types_exact hk MemoryCatalog.empty.catalog ⟨5000⟩ ⟨noteCache, .empty⟩
  rw [(hr _).mp rowsOutcome_noteRows]
  exact ⟨hk, hrun⟩

end Resolution

end TypedSql
