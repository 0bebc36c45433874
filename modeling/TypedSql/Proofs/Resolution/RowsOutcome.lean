import TypedSql.Proofs.Resolution.Building

/-!
# What building rows comes to

The outcome for some rows is fixed by the rows and by the types that are known besides. A row that
names a type which is neither a row nor known comes first, then a circle among the rows. Without
any of these every row has a type, made of the types of the rows that it names and of the known
types for the others (`Resolution.RowsOutcome`). A known type counts for nothing if it has a row,
too.

There is one outcome only (`Resolution.RowsOutcome.unique`), and building ends with it
(`Resolution.rowsOutcome_types`). A type that cannot be built is not among the outcomes: whatever
is looked up on the way is found.
-/

namespace TypedSql

namespace TypeRow

variable {row : TypeRow} {look look' : Oid → Option SqlType} {t t' : SqlType}

/-- The type that a row comes to, when `look` finds the types that the row names. -/
inductive Makes (look : Oid → Option SqlType) : TypeRow → SqlType → Prop where
  | enum (t : EnumType) : Makes look (.enum t) (.enum t)
  | unknown (t : UnknownType) : Makes look (.unknown t) (.unknown t)
  /-- Of its base a domain has the identifier and the name. -/
  | domain {row : DomainRow} {base : SqlType} : look row.baseOid = some base →
    Makes look (.domain row) (.domain ⟨row.oid, row.name, row.notNull, row.hasDefault,
      ⟨base.oid, base.name⟩, row.dimensions⟩)
  | composite {row : CompositeRow} {columns : List SqlType} :
    row.columnOids.map look = columns.map some →
    Makes look (.composite row) (.composite row.oid row.name row.columnNames columns)
  | array {row : ArrayRow} {element : SqlType} : look row.elementOid = some element →
    Makes look (.array row) (.array row.oid row.name element)

/-- A row makes one type of the types that it names. -/
theorem Makes.unique (h : row.Makes look t) (h' : row.Makes look' t')
    (hl : ∀ d ∈ row.dependencies, look d = look' d) : t = t' := by
  cases h with
  | enum | unknown =>
    cases h'
    rfl
  | domain hb =>
    cases h' with
    | domain hb' =>
      rw [hl _ (List.mem_singleton.mpr rfl), hb'] at hb
      cases hb
      rfl
  | array he =>
    cases h' with
    | array he' =>
      rw [hl _ (List.mem_singleton.mpr rfl), he'] at he
      cases he
      rfl
  | composite hc =>
    cases h' with
    | composite hc' =>
      have hm := List.map_congr_left (f := look) (g := look') hl
      rw [dependencies, hc, hc'] at hm
      rw [List.map_injective_iff.mpr (Option.some_injective SqlType) hm]

end TypeRow

namespace Resolution

open Relation

variable {known : Oid → Option SqlType} {rows : TypeRows} {types types' built : TypeMap}
  {row : TypeRow} {oids : List Oid} {oid : Oid} {t : SqlType} {ts : List SqlType}
  {r r' : Except ResolveError TypeMap}

/-! ### What is missing -/

/-- The row of a type names some that are neither rows nor known, and `dependency` is the first of
them. -/
def Lacks (known : Oid → Option SqlType) (rows : TypeRows) (oid dependency : Oid) : Prop :=
  ∃ row, rows[oid]? = some row ∧
    row.dependencies.find? (fun d => !rows.contains d && (known d).isNone) = some dependency

/-- The row of which something is reported missing is the least one that lacks something. -/
theorem lacks_of_missingDependency_eq_some (hk : rows.IsKeyed) {dependency : Oid}
    (h : missingDependency (m := Id) known rows rows.values = some (oid, dependency)) :
    Lacks known rows oid dependency ∧ ∀ o d, Lacks known rows o d → oid ≤ o := by
  rw [missingDependency_eq_findSome?] at h
  obtain ⟨front, row, rest, hv, hrow, hfront⟩ := List.findSome?_eq_some_iff.mp h
  obtain ⟨d', hd, he⟩ := Option.map_eq_some_iff.mp hrow
  obtain ⟨rfl, rfl⟩ := Prod.mk.inj he
  have hg : rows[row.oid]? = some row := by
    refine hk.mem_values_iff.mp ?_
    rw [hv]
    simp
  rw [firstMissing_eq_find?] at hd
  refine ⟨⟨row, hg, hd⟩, fun o d ⟨r, hr, hf⟩ => ?_⟩
  obtain rfl := hk o r hr
  have hsorted : (rows.values.map TypeRow.oid).Pairwise (· < ·) := by
    rw [hk.map_oid_values]
    exact Std.ExtTreeMap.ordered_keys.imp Std.compare_eq_lt.mp
  have hmem := hk.mem_values_iff.mpr hr
  rw [hv, List.mem_append, List.mem_cons] at hmem
  rw [hv, List.map_append, List.map_cons, List.pairwise_append, List.pairwise_cons] at hsorted
  obtain hfr | rfl | hre := hmem
  · have hn := hfront r hfr
    rw [firstMissing_eq_find?, hf] at hn
    cases hn
  · exact UInt32.le_refl _
  · exact UInt32.le_of_lt (hsorted.2.1.1 _ (List.mem_map_of_mem hre))

theorem not_lacks_of_missingDependency_eq_none
    (h : missingDependency (m := Id) known rows rows.values = none) (o d : Oid) :
    ¬ Lacks known rows o d := by
  rintro ⟨row, hr, hf⟩
  rw [missingDependency_eq_findSome?] at h
  have hn := List.findSome?_eq_none_iff.mp h row (mem_values_iff.mpr ⟨o, hr⟩)
  rw [firstMissing_eq_find?, hf] at hn
  cases hn

theorem Lacks.unique {d d' : Oid} (h : Lacks known rows oid d) (h' : Lacks known rows oid d') :
    d = d' := by
  obtain ⟨row, hr, hd⟩ := h
  obtain ⟨row', hr', hd'⟩ := h'
  obtain rfl := Option.some.inj (hr.symm.trans hr')
  exact Option.some.inj (hd.symm.trans hd')

/-! ### The outcome -/

/-- The type that a row takes for one that it names. If that is a row, too, it is the type which
is built for it. -/
def part (known : Oid → Option SqlType) (rows : TypeRows) (types : TypeMap) (oid : Oid) :
    Option SqlType :=
  if oid ∈ rows then types[oid]? else known oid

/-- There is one type for each row, and the row makes it of what it names. -/
structure AreTypes (known : Oid → Option SqlType) (rows : TypeRows) (types : TypeMap) : Prop where
  mem_iff (oid : Oid) : oid ∈ types ↔ oid ∈ rows
  makes (oid : Oid) (row : TypeRow) (t : SqlType) : rows[oid]? = some row →
    types[oid]? = some t → row.Makes (part known rows types) t

/-- What building some rows ends with. -/
inductive RowsOutcome (known : Oid → Option SqlType) (rows : TypeRows) :
    Except ResolveError TypeMap → Prop where
  /-- The least row that lacks a type, with the first one that it lacks. -/
  | missingDependency {oid dependency : Oid} (lacks : Lacks known rows oid dependency)
    (least : ∀ o d, Lacks known rows o d → oid ≤ o) :
    RowsOutcome known rows (.error (.missingDependency oid dependency))
  /-- All rows from which a circle can be reached, in ascending order. -/
  | cycle {members : List Oid} (complete : ∀ o d, ¬ Lacks known rows o d)
    (cyclic : ∃ o, TransGen rows.DependsOn o o) (sorted : members.Pairwise (· < ·))
    (mem_iff : ∀ o, o ∈ members ↔ rows.ReachesCycle o) :
    RowsOutcome known rows (.error (.cycle members))
  | built {types : TypeMap} (complete : ∀ o d, ¬ Lacks known rows o d)
    (acyclic : ∀ o, ¬ TransGen rows.DependsOn o o) (areTypes : AreTypes known rows types) :
    RowsOutcome known rows (.ok types)

/-- Types that are made of each other are fixed where there are no circles. -/
theorem AreTypes.part_eq_part (ha : ∀ o, ¬ TransGen rows.DependsOn o o)
    (h : AreTypes known rows types) (h' : AreTypes known rows types') (oid : Oid) :
    part known rows types oid = part known rows types' oid := by
  refine TypeRows.induction_of_acyclic ha
    (motive := fun o => part known rows types o = part known rows types' o) (fun o ih => ?_) oid
  by_cases ho : o ∈ rows
  · obtain ⟨row, hr⟩ := mem_map_iff.mp ho
    obtain ⟨t, ht⟩ := mem_map_iff.mp ((h.mem_iff o).mpr ho)
    obtain ⟨t', ht'⟩ := mem_map_iff.mp ((h'.mem_iff o).mpr ho)
    rw [part, part, if_pos ho, if_pos ho, ht, ht',
      (h.makes o row t hr ht).unique (h'.makes o row t' hr ht') fun d hd => ih d ⟨row, hr, hd⟩]
  · rw [part, part, if_neg ho, if_neg ho]

theorem AreTypes.unique (ha : ∀ o, ¬ TransGen rows.DependsOn o o)
    (h : AreTypes known rows types) (h' : AreTypes known rows types') : types = types' := by
  refine map_eq_of_mem_iff (fun o => (h.mem_iff o).trans (h'.mem_iff o).symm)
    fun o t t' ht ht' => ?_
  have ho : o ∈ rows := (h.mem_iff o).mp (mem_map_iff.mpr ⟨t, ht⟩)
  have hp := h.part_eq_part ha h' o
  rw [part, part, if_pos ho, if_pos ho, ht, ht'] at hp
  exact Option.some.inj hp

/-- Building rows has one outcome. -/
theorem RowsOutcome.unique (h : RowsOutcome known rows r) (h' : RowsOutcome known rows r') :
    r = r' := by
  cases h with
  | missingDependency hl hleast =>
    cases h' with
    | missingDependency hl' hleast' =>
      obtain rfl := UInt32.le_antisymm (hleast _ _ hl') (hleast' _ _ hl)
      rw [hl.unique hl']
    | cycle hn | built hn => exact absurd hl (hn _ _)
  | cycle hn hcyc hs hm =>
    cases h' with
    | missingDependency hl => exact absurd hl (hn _ _)
    | cycle _ _ hs' hm' =>
      rw [hs.eq_of_mem_iff hs' fun {o} => (hm o).trans (hm' o).symm]
    | built _ ha =>
      obtain ⟨o, ho⟩ := hcyc
      exact absurd ho (ha o)
  | built hn ha ht =>
    cases h' with
    | missingDependency hl => exact absurd hl (hn _ _)
    | cycle _ hcyc =>
      obtain ⟨o, ho⟩ := hcyc
      exact absurd ho (ha o)
    | built _ _ ht' => rw [ht.unique ha ht']

/-! ### Building -/

theorem lookupAll_eq_some_iff : lookupAll (m := Id) known built oids = some ts ↔
    oids.map (lookup (m := Id) known built) = ts.map some := by
  induction oids generalizing ts with
  | nil =>
    refine ⟨fun h => ?_, fun h => ?_⟩
    · obtain rfl : [] = ts := Option.some.inj h
      rfl
    · obtain rfl := List.map_eq_nil_iff.mp h.symm
      rfl
  | cons oid oids ih =>
    rw [lookupAll_cons, Option.bind_eq_some_iff]
    simp only [Option.map_eq_some_iff, ih]
    cases ts with
    | nil => simp
    | cons t ts => simp [and_comm]

theorem build_eq_some_iff : build (m := Id) known built row = some t ↔
    row.Makes (lookup (m := Id) known built) t := by
  constructor
  · intro h
    cases row with
    | enum e =>
      obtain rfl := Option.some.inj h
      exact .enum e
    | unknown u =>
      obtain rfl := Option.some.inj h
      exact .unknown u
    | domain row =>
      obtain ⟨s, hs, rfl⟩ := Option.map_eq_some_iff.mp h
      exact .domain hs
    | array row =>
      obtain ⟨s, hs, rfl⟩ := Option.map_eq_some_iff.mp h
      exact .array hs
    | composite row =>
      obtain ⟨ts, hts, rfl⟩ := Option.map_eq_some_iff.mp h
      exact .composite (lookupAll_eq_some_iff.mp hts)
  · intro h
    cases h with
    | enum | unknown => rfl
    | domain hs | array hs => exact congrArg (Option.map _) hs
    | composite hts => exact congrArg (Option.map _) (lookupAll_eq_some_iff.mpr hts)

/-- When each row has a type, looking among the types first comes to the same. -/
theorem lookup_eq_part (hm : ∀ o, o ∈ types ↔ o ∈ rows) :
    lookup (m := Id) known types = part known rows types := by
  funext oid
  rw [lookup_eq, part]
  split
  · next ho =>
    obtain ⟨t, ht⟩ := mem_map_iff.mp ((hm oid).mpr ho)
    rw [ht, Option.some_or]
  · next ho =>
    rw [← hm, Std.ExtTreeMap.mem_iff_isSome_getElem?, Option.not_isSome_iff_eq_none] at ho
    rw [ho, Option.none_or]

/-- Building rows ends with their outcome. -/
theorem rowsOutcome_types (hk : rows.IsKeyed) :
    RowsOutcome known rows (Resolution.types (m := Id) known rows) := by
  cases hm : missingDependency (m := Id) known rows rows.values with
  | some miss =>
    obtain ⟨hl, hleast⟩ := lacks_of_missingDependency_eq_some hk hm
    rw [types_eq, hm]
    exact .missingDependency hl hleast
  | none =>
    have hn := not_lacks_of_missingDependency_eq_none hm
    cases ho : rows.ordered with
    | error members =>
      obtain ⟨hne, hs, hi⟩ := TypeRows.mem_iff_of_ordered_eq_error ho
      obtain ⟨o, hmem⟩ := List.exists_mem_of_ne_nil _ hne
      obtain ⟨b, -, hb⟩ := (hi o).mp hmem
      rw [types_eq, hm, ho]
      exact .cycle hn ⟨b, hb⟩ hs hi
    | ok order =>
      obtain ⟨-, hacyc⟩ := TypeRows.isOrder_of_ordered hk ho
      obtain ⟨types, htypes, hlisted, htyped⟩ := exists_types_eq_ok hk hm ho
      have hmem : ∀ o, o ∈ types ↔ o ∈ rows := by
        refine fun o => ⟨hlisted o, fun hr => ?_⟩
        obtain ⟨row, hr⟩ := mem_map_iff.mp hr
        obtain ⟨t, ht, -⟩ := htyped o row hr
        exact mem_map_iff.mpr ⟨t, ht⟩
      rw [htypes]
      refine .built hn (fun o hoo => hacyc o ⟨o, .refl, hoo⟩) ⟨hmem, fun o row t hr ht => ?_⟩
      obtain ⟨s, hs, hb⟩ := htyped o row hr
      obtain rfl := Option.some.inj (hs.symm.trans ht)
      rwa [build_eq_some_iff, lookup_eq_part hmem] at hb

end Resolution

end TypedSql
