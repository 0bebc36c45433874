import Mathlib.Data.Fintype.Pigeonhole
import Mathlib.Logic.Relation
import Mathlib.Order.SuccPred.Relation
import Mathlib.Data.Nat.SuccPred
import TypedSql.Catalog.Rows

/-!
# Circles and orders of rows

The rows of types are a graph: an edge leads from a row to each type that it is made of, whether
that type has a row or not. `TypeRows.ordered` is correct with respect to this graph. When it
gives an order (`isOrder_of_ordered`), the order has every row once, behind all rows that it
depends on, and no circle can be reached from anywhere. When it fails
(`mem_iff_of_ordered_eq_error`), the identifiers it names are those from which a circle can be
reached, in ascending order.

Both follow one round of the search: taking away the rows that wait for no other changes nothing
about circles, since each type on the way to a circle waits for the next one. When there is
nothing to take away, every row waits for another row, and walking on from row to row has to come
back to a row that was met before.
-/

namespace TypedSql

/-- The values of a map are those of its entries, in the order of the keys. -/
theorem values_eq_map_toList {α β : Type} {cmp : α → α → Ordering} [Std.TransCmp cmp]
    (t : Std.ExtTreeMap α β cmp) : t.values = t.toList.map Prod.snd := by
  have h : t.values = t.foldr (fun _ v l => v :: l) [] := by
    obtain ⟨⟨q⟩⟩ := t
    rfl
  rw [h, Std.ExtTreeMap.foldr_eq_foldr_toList]
  simp

theorem mem_map_iff {α β : Type} {cmp : α → α → Ordering} [Std.TransCmp cmp]
    {t : Std.ExtTreeMap α β cmp} {k : α} : k ∈ t ↔ ∃ v, t[k]? = some v := by
  rw [Std.ExtTreeMap.mem_iff_isSome_getElem?, Option.isSome_iff_exists]

/-- Maps of the same keys are equal when they agree wherever both have a value. -/
theorem map_eq_of_mem_iff {α β : Type} {cmp : α → α → Ordering} [Std.TransCmp cmp]
    [Std.LawfulEqCmp cmp] {t t' : Std.ExtTreeMap α β cmp} (hm : ∀ k, k ∈ t ↔ k ∈ t')
    (hv : ∀ (k : α) (v v' : β), t[k]? = some v → t'[k]? = some v' → v = v') : t = t' := by
  refine Std.ExtTreeMap.ext_getElem? fun k => Option.ext fun v => ?_
  constructor
  · intro h
    obtain ⟨v', h'⟩ := mem_map_iff.mp ((hm k).mp (mem_map_iff.mpr ⟨v, h⟩))
    rw [h', hv k v v' h h']
  · intro h
    obtain ⟨v', h'⟩ := mem_map_iff.mp ((hm k).mpr (mem_map_iff.mpr ⟨v, h⟩))
    rw [h', hv k v' v h' h]

theorem mem_values_iff {α β : Type} {cmp : α → α → Ordering} [Std.TransCmp cmp]
    [Std.LawfulEqCmp cmp] {t : Std.ExtTreeMap α β cmp} {v : β} :
    v ∈ t.values ↔ ∃ k : α, t[k]? = some v := by
  simp [values_eq_map_toList, Std.ExtTreeMap.mem_toList_iff_getElem?_eq_some]

namespace TypeRows

open Relation

variable {rows : TypeRows} {a b d oid : Oid} {row : TypeRow} {oids : List Oid}
  {order rest : List TypeRow}

/-- The row of the first type names the second one. -/
def DependsOn (rows : TypeRows) (a b : Oid) : Prop :=
  ∃ row, rows[a]? = some row ∧ b ∈ row.dependencies

/-- A circle of dependencies can be reached from the type. -/
def ReachesCycle (rows : TypeRows) (a : Oid) : Prop :=
  ∃ b, ReflTransGen rows.DependsOn a b ∧ TransGen rows.DependsOn b b

/-- Every row stands under its own identifier. -/
def IsKeyed (rows : TypeRows) : Prop :=
  ∀ oid (row : TypeRow), rows[oid]? = some row → row.oid = oid

theorem DependsOn.mem (h : rows.DependsOn a b) : a ∈ rows := by
  obtain ⟨row, hr, -⟩ := h
  exact mem_map_iff.mpr ⟨row, hr⟩

theorem mem_of_transGen (h : TransGen rows.DependsOn a b) : a ∈ rows := by
  obtain ⟨c, hac, -⟩ := TransGen.head'_iff.mp h
  exact hac.mem

theorem ReachesCycle.mem (h : rows.ReachesCycle a) : a ∈ rows := by
  obtain ⟨b, hab, hb⟩ := h
  exact mem_of_transGen (hb.trans_right hab)

theorem ReachesCycle.head (hab : rows.DependsOn a b) (hb : rows.ReachesCycle b) :
    rows.ReachesCycle a := by
  obtain ⟨c, hbc, hc⟩ := hb
  exact ⟨c, hbc.head hab, hc⟩

/-- A way to a circle goes on from every type on it. -/
theorem ReachesCycle.exists_dependsOn (h : rows.ReachesCycle a) :
    ∃ b, rows.DependsOn a b ∧ rows.ReachesCycle b := by
  obtain ⟨b, hab, hb⟩ := h
  obtain ⟨c, hac, hcb⟩ := TransGen.head'_iff.mp (hb.trans_right hab)
  exact ⟨c, hac, b, hcb, hb⟩

theorem ReachesCycle.mono {rows' : TypeRows}
    (h : ∀ a b, rows.DependsOn a b → rows'.DependsOn a b) (ha : rows.ReachesCycle a) :
    rows'.ReachesCycle a := by
  obtain ⟨b, hab, hb⟩ := ha
  exact ⟨b, ReflTransGen.mono h _ _ hab, TransGen.mono h _ _ hb⟩

/-! ### One round -/

theorem isReady_iff : isReady rows row = true ↔ ∀ d ∈ row.dependencies, d ∉ rows := by
  simp [isReady, ← Std.ExtTreeMap.contains_iff_mem]

theorem getElem?_ready : (ready rows)[oid]? = some row ↔
    rows[oid]? = some row ∧ ∀ d ∈ row.dependencies, d ∉ rows := by
  rw [ready, Std.ExtTreeMap.getElem?_filter', Option.filter_eq_some_iff, isReady_iff]

theorem getElem?_waiting : (waiting rows)[oid]? = some row ↔
    rows[oid]? = some row ∧ ∃ d ∈ row.dependencies, d ∈ rows := by
  rw [waiting, Std.ExtTreeMap.getElem?_filter', Option.filter_eq_some_iff, Bool.not_eq_true',
    ← Bool.not_eq_true, isReady_iff]
  simp

/-- A row waits for another unless it is taken away. -/
theorem getElem?_waiting_eq_ite (oid : Oid) :
    (waiting rows)[oid]? = if oid ∈ ready rows then none else rows[oid]? := by
  refine Option.ext fun row => ?_
  rw [getElem?_waiting, Option.ite_none_left_eq_some]
  constructor
  · rintro ⟨hr, d, hd, hdm⟩
    refine ⟨fun hm => ?_, hr⟩
    obtain ⟨row', hr'⟩ := mem_map_iff.mp hm
    obtain ⟨hr', hn⟩ := getElem?_ready.mp hr'
    obtain rfl := Option.some.inj (hr.symm.trans hr')
    exact hn d hd hdm
  · rintro ⟨hm, hr⟩
    refine ⟨hr, ?_⟩
    by_contra hno
    refine hm (mem_map_iff.mpr ⟨row, getElem?_ready.mpr ⟨hr, fun d hd hdm => hno ⟨d, hd, hdm⟩⟩⟩)

theorem mem_waiting : oid ∈ waiting rows ↔ oid ∈ rows ∧ oid ∉ ready rows := by
  rw [mem_map_iff, mem_map_iff]
  simp only [getElem?_waiting_eq_ite, Option.ite_none_left_eq_some, exists_and_left]
  exact and_comm

theorem isKeyed_ready (hk : rows.IsKeyed) : (ready rows).IsKeyed :=
  fun oid row h => hk oid row (getElem?_ready.mp h).1

theorem isKeyed_waiting (hk : rows.IsKeyed) : (waiting rows).IsKeyed :=
  fun oid row h => hk oid row (getElem?_waiting.mp h).1

theorem DependsOn.of_waiting (h : (waiting rows).DependsOn a b) : rows.DependsOn a b := by
  obtain ⟨row, hr, hb⟩ := h
  exact ⟨row, (getElem?_waiting.mp hr).1, hb⟩

/-- What depends on a row waits for it. -/
theorem dependsOn_waiting (h : rows.DependsOn a b) (hb : b ∈ rows) :
    (waiting rows).DependsOn a b := by
  obtain ⟨row, hr, hd⟩ := h
  exact ⟨row, getElem?_waiting.mpr ⟨hr, b, hd, hb⟩, hd⟩

theorem transGen_waiting (h : TransGen rows.DependsOn a b) (hb : b ∈ rows) :
    TransGen (waiting rows).DependsOn a b := by
  induction h using TransGen.head_induction_on with
  | single h => exact .single (dependsOn_waiting h hb)
  | head hac hcb ih => exact .head (dependsOn_waiting hac (mem_of_transGen hcb)) ih

/-- The rows that wait for no other have nothing to do with circles. -/
theorem reachesCycle_waiting : (waiting rows).ReachesCycle a ↔ rows.ReachesCycle a := by
  refine ⟨.mono fun _ _ h => h.of_waiting, fun ⟨b, hab, hb⟩ => ?_⟩
  have hm : b ∈ rows := mem_of_transGen hb
  refine ⟨b, ?_, transGen_waiting hb hm⟩
  obtain rfl | hab := reflTransGen_iff_eq_or_transGen.mp hab
  · exact .refl
  · exact (transGen_waiting hab hm).to_reflTransGen

/-- There are only finitely many identifiers. -/
theorem finite_oid : Finite Oid :=
  Finite.of_injective UInt32.toFin fun _ _ h => UInt32.toFin_inj.mp h

/-- Without circles, what holds of a type when it holds of all that its row names, holds of every
type. -/
theorem induction_of_acyclic (ha : ∀ a, ¬ TransGen rows.DependsOn a a) {motive : Oid → Prop}
    (step : ∀ a, (∀ b, rows.DependsOn a b → motive b) → motive a) (oid : Oid) : motive oid := by
  have := finite_oid
  have : IsTrans Oid fun b a => TransGen rows.DependsOn a b := ⟨fun _ _ _ h h' => h'.trans h⟩
  have : Std.Irrefl fun b a : Oid => TransGen rows.DependsOn a b := ⟨ha⟩
  have hwf : WellFounded fun b a : Oid => TransGen rows.DependsOn a b :=
    Finite.wellFounded_of_trans_of_irrefl _
  induction oid using hwf.induction with
  | _ a ih => exact step a fun b hab => ih b (.single hab)

/-- Rows that all wait for each other lead to a circle: a walk among them never ends, and they
are finitely many. -/
theorem reachesCycle_of_forall (h : ∀ a ∈ rows, ∃ b ∈ rows, rows.DependsOn a b) (ha : a ∈ rows) :
    rows.ReachesCycle a := by
  choose! next hm hd using h
  let walk (n : Nat) : Oid := next^[n] a
  have hw : ∀ n, walk n ∈ rows := by
    intro n
    induction n with
    | zero => exact ha
    | succ n ih =>
      simp only [walk, Function.iterate_succ_apply']
      exact hm _ ih
  have hs : ∀ n, rows.DependsOn (walk n) (walk (n + 1)) := by
    intro n
    simp only [walk, Function.iterate_succ_apply']
    exact hd _ (hw n)
  have := finite_oid
  obtain ⟨i, j, hne, he⟩ := Finite.exists_ne_map_eq_of_infinite walk
  wlog hij : i < j generalizing i j
  · exact this j i hne.symm he.symm (by omega)
  have hi : ReflTransGen (fun i j => rows.DependsOn (walk i) (walk j)) 0 i :=
    reflTransGen_of_succ_of_le _ (fun n _ => hs n) (Nat.zero_le i)
  have hc : TransGen (fun i j => rows.DependsOn (walk i) (walk j)) i j :=
    transGen_of_succ_of_lt _ (fun n _ => hs n) hij
  refine ⟨walk i, hi.lift walk fun _ _ h => h, ?_⟩
  have hc : TransGen rows.DependsOn (walk i) (walk j) := hc.lift walk fun _ _ h => h
  rwa [← he] at hc

/-! ### The order -/

/-- The rows stand behind all that they depend on, when the types that are `free` stand before
all of them. -/
def Follows (free : Oid → Prop) : List TypeRow → Prop
  | [] => True
  | row :: rest =>
    (∀ d ∈ row.dependencies, free d) ∧ Follows (fun oid => free oid ∨ oid = row.oid) rest

theorem Follows.mono {free free' : Oid → Prop} (h : ∀ oid, free oid → free' oid)
    (hf : Follows free order) : Follows free' order := by
  induction order generalizing free free' with
  | nil => trivial
  | cons row order ih =>
    refine ⟨fun d hd => h d (hf.1 d hd), ih (fun oid => ?_) hf.2⟩
    exact Or.imp_left (h oid)

theorem Follows.append {free : Oid → Prop}
    (h : ∀ row ∈ order, ∀ d ∈ row.dependencies, free d)
    (hr : Follows (fun oid => free oid ∨ oid ∈ order.map TypeRow.oid) rest) :
    Follows free (order ++ rest) := by
  induction order generalizing free with
  | nil => simpa using hr
  | cons row order ih =>
    refine ⟨h row List.mem_cons_self, ih (fun r hr d hd => ?_) (hr.mono fun oid ho => ?_)⟩
    · exact .inl (h r (List.mem_cons_of_mem _ hr) d hd)
    · rw [List.map_cons, List.mem_cons] at ho
      tauto

/-- What holds of a row when it holds of all that it depends on, holds of every row. -/
theorem Follows.induction {free motive : Oid → Prop} (hf : Follows free order)
    (start : ∀ oid, free oid → motive oid)
    (step : ∀ row ∈ order, (∀ d ∈ row.dependencies, motive d) → motive row.oid) :
    ∀ row ∈ order, motive row.oid := by
  induction order generalizing free with
  | nil => simp
  | cons row order ih =>
    have hrow : motive row.oid := step row List.mem_cons_self fun d hd => start d (hf.1 d hd)
    refine List.forall_mem_cons.mpr ⟨hrow, ih hf.2 (fun oid ho => ?_) fun r hr => ?_⟩
    · obtain ho | rfl := ho
      · exact start oid ho
      · exact hrow
    · exact step r (List.mem_cons_of_mem _ hr)

/-- All rows, each once and behind those that it depends on. -/
structure IsOrder (rows : TypeRows) (order : List TypeRow) : Prop where
  mem_iff : ∀ row, row ∈ order ↔ rows[row.oid]? = some row
  nodup : (order.map TypeRow.oid).Nodup
  follows : Follows (· ∉ rows) order

theorem IsKeyed.mem_values_iff (hk : rows.IsKeyed) :
    row ∈ rows.values ↔ rows[row.oid]? = some row := by
  rw [TypedSql.mem_values_iff]
  refine ⟨fun ⟨oid, h⟩ => ?_, fun h => ⟨_, h⟩⟩
  rwa [hk oid row h]

theorem IsKeyed.map_oid_values (hk : rows.IsKeyed) : rows.values.map TypeRow.oid = rows.keys := by
  rw [values_eq_map_toList, ← Std.ExtTreeMap.map_fst_toList_eq_keys, List.map_map]
  refine List.map_congr_left fun ⟨oid, row⟩ h => ?_
  exact hk oid row (Std.ExtTreeMap.mem_toList_iff_getElem?_eq_some.mp h)

theorem IsKeyed.nodup_map_oid_values (hk : rows.IsKeyed) :
    (rows.values.map TypeRow.oid).Nodup := by
  rw [hk.map_oid_values]
  exact Std.ExtTreeMap.nodup_keys

theorem IsOrder.mem_map_oid_iff (hk : rows.IsKeyed) (ho : rows.IsOrder order) :
    oid ∈ order.map TypeRow.oid ↔ oid ∈ rows := by
  rw [List.mem_map, mem_map_iff]
  constructor
  · rintro ⟨row, hr, rfl⟩
    exact ⟨row, (ho.mem_iff row).mp hr⟩
  · rintro ⟨row, hr⟩
    obtain rfl := hk oid row hr
    exact ⟨row, (ho.mem_iff row).mpr hr, rfl⟩

/-- One round puts the rows that wait for no other before an order of those that do. -/
theorem IsKeyed.isOrder_append (hk : rows.IsKeyed) (ho : (waiting rows).IsOrder order) :
    rows.IsOrder ((ready rows).values ++ order) := by
  have hr : (ready rows).IsKeyed := isKeyed_ready hk
  refine ⟨fun row => ?_, ?_, ?_⟩
  · rw [List.mem_append, hr.mem_values_iff, ho.mem_iff, getElem?_ready, getElem?_waiting,
      ← and_or_left, and_iff_left_iff_imp]
    intro _
    by_cases h : ∃ d ∈ row.dependencies, d ∈ rows
    · exact .inr h
    · exact .inl fun d hd hm => h ⟨d, hd, hm⟩
  · rw [List.map_append, hr.map_oid_values]
    refine List.Nodup.append Std.ExtTreeMap.nodup_keys ho.nodup fun oid hm hm' => ?_
    rw [ho.mem_map_oid_iff (isKeyed_waiting hk), mem_waiting] at hm'
    exact hm'.2 (Std.ExtTreeMap.mem_keys.mp hm)
  · refine Follows.append (fun row hm d hd => ?_) (ho.follows.mono fun oid hn => ?_)
    · exact (getElem?_ready.mp (hr.mem_values_iff.mp hm)).2 d hd
    · rw [hr.map_oid_values, Std.ExtTreeMap.mem_keys, or_iff_not_imp_left, not_not]
      intro hm
      by_contra hready
      exact hn (mem_waiting.mpr ⟨hm, hready⟩)

theorem isOrder_of_ordered (hk : rows.IsKeyed) (h : rows.ordered = .ok order) :
    rows.IsOrder order ∧ ∀ oid, ¬ rows.ReachesCycle oid := by
  induction rows using ordered.induct generalizing order with
  | case1 rows hr he =>
    rw [ordered, dif_pos hr, if_pos he] at h
    obtain rfl : [] = order := Except.ok.inj h
    obtain rfl : rows = ∅ := Std.ExtTreeMap.isEmpty_iff.mp he
    refine ⟨⟨by simp, .nil, trivial⟩, fun oid hc => ?_⟩
    exact Std.ExtTreeMap.not_mem_empty hc.mem
  | case2 rows hr he =>
    rw [ordered, dif_pos hr, if_neg he] at h
    cases h
  | case3 rows hr ih =>
    rw [ordered, dif_neg hr] at h
    cases hw : ordered (waiting rows) with
    | error oids => simp [hw, Except.map] at h
    | ok rest =>
      obtain rfl : (ready rows).values ++ rest = order := by simpa [hw, Except.map] using h
      obtain ⟨ho, hn⟩ := ih (isKeyed_waiting hk) hw
      exact ⟨hk.isOrder_append ho, fun oid hc => hn oid (reachesCycle_waiting.mpr hc)⟩

theorem mem_iff_of_ordered_eq_error (h : rows.ordered = .error oids) :
    oids ≠ [] ∧ oids.Pairwise (· < ·) ∧ ∀ oid, oid ∈ oids ↔ rows.ReachesCycle oid := by
  induction rows using ordered.induct with
  | case1 rows hr he =>
    rw [ordered, dif_pos hr, if_pos he] at h
    cases h
  | case2 rows hr he =>
    rw [ordered, dif_pos hr, if_neg he] at h
    obtain rfl : rows.keys = oids := Except.error.inj h
    refine ⟨fun hk => he ?_, ?_, fun oid => ?_⟩
    · rw [Std.ExtTreeMap.keys_eq_nil_iff.mp hk]
      rfl
    · exact Std.ExtTreeMap.ordered_keys.imp Std.compare_eq_lt.mp
    · rw [Std.ExtTreeMap.mem_keys]
      refine ⟨reachesCycle_of_forall fun a ha => ?_, ReachesCycle.mem⟩
      obtain ⟨row, hrow⟩ := mem_map_iff.mp ha
      by_contra hno
      have hm : a ∈ ready rows := by
        refine mem_map_iff.mpr ⟨row, getElem?_ready.mpr ⟨hrow, fun d hd hdm => hno ?_⟩⟩
        exact ⟨d, hdm, row, hrow, hd⟩
      rw [Std.ExtTreeMap.isEmpty_iff.mp hr] at hm
      exact Std.ExtTreeMap.not_mem_empty hm
  | case3 rows hr ih =>
    rw [ordered, dif_neg hr] at h
    cases hw : ordered (waiting rows) with
    | ok rest => simp [hw, Except.map] at h
    | error rest =>
      obtain rfl : rest = oids := by simpa [hw, Except.map] using h
      simpa only [reachesCycle_waiting] using ih hw

end TypeRows

end TypedSql
