import Std.Data.ExtTreeMap
import TypedSql.Catalog

/-!
# Rows of types and their order

Rows that were fetched together may depend on each other. They can be built one after another
when each stands behind the rows that it depends on; a row has no such place exactly when a
circle of dependencies can be reached from it. `TypeRows.ordered` finds such an order or those
rows, by taking away in each round the rows that wait for no other.
-/

namespace TypedSql

/-- Fetched rows by their identifiers. -/
abbrev TypeRows := Std.ExtTreeMap Oid TypeRow

namespace TypeRows

/-- Of several rows with one identifier the last is kept. -/
def ofRows (rows : List TypeRow) : TypeRows :=
  rows.foldl (fun found row => found.insert row.oid row) ∅

/-- Add a row, unless there is one with its identifier. -/
def insertNew (rows : TypeRows) (row : TypeRow) : TypeRows :=
  rows.insertIfNew row.oid row

theorem size_erase_lt {rows : TypeRows} {oid : Oid} {row : TypeRow} (h : rows[oid]? = some row) :
    (rows.erase oid).size < rows.size := by
  have hm : oid ∈ rows := by
    rw [Std.ExtTreeMap.mem_iff_isSome_getElem?, h]
    rfl
  have hs : rows.size ≠ 0 := by
    intro h₀
    rw [Std.ExtTreeMap.eq_empty_iff_size_eq_zero.mpr h₀] at hm
    simp at hm
  rw [Std.ExtTreeMap.size_erase, if_pos (Std.ExtTreeMap.contains_iff_mem.mpr hm)]
  omega

/-- Whether a row waits for none of the pending ones. -/
def isReady (pending : TypeRows) (row : TypeRow) : Bool :=
  row.dependencies.all fun oid => !pending.contains oid

/-- The pending rows that wait for no other. -/
def ready (pending : TypeRows) : TypeRows :=
  pending.filter fun _ row => isReady pending row

/-- The pending rows that wait for another. -/
def waiting (pending : TypeRows) : TypeRows :=
  pending.filter fun _ row => !isReady pending row

theorem size_waiting_lt {pending : TypeRows} (h : (ready pending).isEmpty = false) :
    (waiting pending).size < pending.size := by
  apply Nat.lt_of_le_of_ne Std.ExtTreeMap.size_filter_le_size
  intro hs
  have he : ready pending = ∅ := by
    refine Std.ExtTreeMap.filter_eq_empty_iff.mpr fun oid hm => ?_
    simpa using Std.ExtTreeMap.size_filter_eq_size_iff.mp hs oid hm
  simp [he] at h

/-- The rows, each behind those it depends on, or else the identifiers of those that are left. -/
def ordered (pending : TypeRows) : Except (List Oid) (List TypeRow) :=
  if _h : (ready pending).isEmpty then
    if pending.isEmpty then .ok [] else .error pending.keys
  else (ordered (waiting pending)).map ((ready pending).values ++ ·)
termination_by pending.size
decreasing_by exact size_waiting_lt (by simpa using _h)

end TypeRows

end TypedSql
