import TypedSql.Proofs.Catalog.Closure

/-!
# The walk over what types are made of

The walk of `MemoryCatalog.descend` takes the rows of the types it enters away, so that it can be
seen to end. Nothing depends on that: it is the walk that looks at all rows in every round
(`MemoryCatalog.Walk.next`), and drops the types that it has seen already. Every round takes one
type from the stack, and every type on the stack was given or is named by a type that was seen.
So the walk is over after as many rounds as there are given types and types that those seen name
(`MemoryCatalog.Walk.iterate_next`), even if they name each other in circles.

It gives each type that can be reached exactly once (`MemoryCatalog.findDescendants_exact`).
-/

namespace TypedSql

namespace TypeRows

variable {types : TypeRows} {a b oid : Oid} {row : TypeRow}

/-- The first type is made of the second one: a composite of the types of its columns, an array of
its elements, a domain of its base. -/
inductive MadeOf (types : TypeRows) : Oid → Oid → Prop where
  | column {a b : Oid} {row : CompositeRow} :
    types[a]? = some (.composite row) → b ∈ row.columnOids → MadeOf types a b
  | element {a : Oid} {row : ArrayRow} :
    types[a]? = some (.array row) → MadeOf types a row.elementOid
  | base {a : Oid} {row : DomainRow} :
    types[a]? = some (.domain row) → MadeOf types a row.baseOid

/-- A row names just what the type is made of. -/
theorem dependsOn_iff_madeOf : types.DependsOn a b ↔ types.MadeOf a b := by
  constructor
  · rintro ⟨row, hr, hb⟩
    cases row with
    | enum row | unknown row => cases hb
    | composite row => exact .column hr hb
    | array row =>
      obtain rfl := List.mem_singleton.mp hb
      exact .element hr
    | domain row =>
      obtain rfl := List.mem_singleton.mp hb
      exact .base hr
  · intro h
    cases h with
    | column hr hb => exact ⟨_, hr, hb⟩
    | element hr | base hr => exact ⟨_, hr, List.mem_singleton.mpr rfl⟩

/-- The types that the row of a type names, in order. A type without a row names none. -/
def named (types : TypeRows) (oid : Oid) : List Oid :=
  match types[oid]? with
  | some row => row.dependencies
  | none => []

theorem named_of_eq_some (h : types[oid]? = some row) : types.named oid = row.dependencies := by
  rw [named, h]

theorem named_of_eq_none (h : types[oid]? = none) : types.named oid = [] := by
  rw [named, h]

end TypeRows

namespace MemoryCatalog

open Relation

/-- How far the walk has come: the types still to look at, next one first, and those that were
seen, latest first. -/
structure Walk where
  stack : List Oid
  seen : List Oid

namespace Walk

variable {types left : TypeRows} {stack seen : List Oid} {oid : Oid} {w : Walk}

/-- Before the first round. -/
def start (oids : List Oid) : Walk := ⟨oids.reverse, []⟩

/-- One round. The next type is dropped if it was seen. Otherwise it is seen now, and what it names
comes on the stack in its place. -/
def next (types : TypeRows) : Walk → Walk
  | ⟨[], seen⟩ => ⟨[], seen⟩
  | ⟨oid :: stack, seen⟩ =>
    if oid ∈ seen then ⟨stack, seen⟩
    else ⟨(types.named oid).reverse ++ stack, oid :: seen⟩

theorem nodup_next (h : w.seen.Nodup) : (w.next types).seen.Nodup := by
  obtain ⟨_ | ⟨oid, stack⟩, seen⟩ := w
  · exact h
  · rw [next]
    split
    · exact h
    · next hn => exact List.nodup_cons.mpr ⟨hn, h⟩

theorem nodup_iterate_next (h : w.seen.Nodup) (n : Nat) : ((next types)^[n] w).seen.Nodup := by
  induction n generalizing w with
  | zero => exact h
  | succ n ih => exact ih (nodup_next h)

/-- A type that was not seen costs its own round, and one more for each type that it names. -/
theorem iterate_next_cons (h : oid ∉ seen) (more : List Oid) :
    (next types)^[(oid :: stack).length + ((oid :: more).flatMap types.named).length]
        ⟨oid :: stack, seen⟩ =
      (next types)^[((types.named oid).reverse ++ stack).length +
          (more.flatMap types.named).length]
        ⟨(types.named oid).reverse ++ stack, oid :: seen⟩ := by
  have hn : (oid :: stack).length + ((oid :: more).flatMap types.named).length =
      ((types.named oid).reverse ++ stack).length + (more.flatMap types.named).length + 1 := by
    simp only [List.length_cons, List.length_append, List.length_reverse, List.flatMap_cons]
    omega
  rw [hn, Function.iterate_succ_apply, next, if_neg h]

/-- The rounds come to what `descend` gives, which is what was seen before and `more`. -/
theorem iterate_next (stack : List Oid)
    (hl : ∀ oid, left[oid]? = if oid ∈ seen then none else types[oid]?) :
    ∃ more, descend left stack seen = seen.reverse ++ more ∧
      (next types)^[stack.length + (more.flatMap types.named).length] ⟨stack, seen⟩ =
        ⟨[], (descend left stack seen).reverse⟩ := by
  -- Along the walk of `descend`: the rows that are left are those of the types not seen yet, so a
  -- type on the stack names the same in both walks.
  induction left, stack, seen using descend.induct with
  | case1 left seen =>
    refine ⟨[], ?_, ?_⟩ <;> simp [descend]
  | case2 left oid stack seen h ih =>
    obtain ⟨more, hm, hi⟩ := ih hl
    rw [descend, if_pos h]
    refine ⟨more, hm, ?_⟩
    rw [← hi, List.length_cons, Nat.add_right_comm, Function.iterate_succ_apply, next,
      if_pos (List.contains_iff_mem.mp h)]
  | case3 left oid stack seen h row hrow ih =>
    rw [List.contains_iff_mem] at h
    have ht : types[oid]? = some row := by rw [← hrow, hl, if_neg h]
    obtain ⟨more, hm, hi⟩ := ih (getElem?_erase_left hl oid)
    rw [descend, if_neg (mt List.contains_iff_mem.mp h), hrow]
    refine ⟨oid :: more, by simp [hm], ?_⟩
    rw [iterate_next_cons h, TypeRows.named_of_eq_some ht]
    exact hi
  | case4 left oid stack seen h hrow ih =>
    rw [List.contains_iff_mem] at h
    have ht : types[oid]? = none := by rw [← hrow, hl, if_neg h]
    obtain ⟨more, hm, hi⟩ := ih (getElem?_left_of_eq_none hl hrow)
    rw [descend, if_neg (mt List.contains_iff_mem.mp h), hrow]
    refine ⟨oid :: more, by simp [hm], ?_⟩
    rw [iterate_next_cons h, TypeRows.named_of_eq_none ht, List.reverse_nil, List.nil_append]
    exact hi

end Walk

variable {c : MemoryCatalog} {oids : List Oid} {oid : Oid}

theorem iterate_next_descendants (c : MemoryCatalog) (oids : List Oid) :
    (Walk.next c.types)^[oids.length + ((c.descendants oids).flatMap c.types.named).length]
      (.start oids) = ⟨[], (c.descendants oids).reverse⟩ := by
  have hl : ∀ oid, c.types[oid]? = if oid ∈ ([] : List Oid) then none else c.types[oid]? := by
    intro oid
    rw [if_neg List.not_mem_nil]
  obtain ⟨more, hm, hi⟩ := Walk.iterate_next oids.reverse hl
  rw [List.reverse_nil, List.nil_append] at hm
  rwa [← hm, List.length_reverse] at hi

theorem nodup_descendants (c : MemoryCatalog) (oids : List Oid) : (c.descendants oids).Nodup := by
  have h (n : Nat) : ((Walk.next c.types)^[n] (.start oids)).seen.Nodup :=
    Walk.nodup_iterate_next List.nodup_nil n
  specialize h (oids.length + ((c.descendants oids).flatMap c.types.named).length)
  rw [iterate_next_descendants] at h
  exact List.nodup_reverse.mp h

theorem reaches_iff_madeOf :
    c.Reaches oids oid ↔ ∃ start ∈ oids, ReflTransGen c.types.MadeOf start oid := by
  have h : c.types.DependsOn = c.types.MadeOf := by
    funext a b
    exact propext TypeRows.dependsOn_iff_madeOf
  rw [Reaches, h]

/-- Asking for the types that some types are made of always has an answer. It is found in a number
of rounds that is fixed by the answer, and has everything that can be reached from the given types
once, these themselves included, whether they are known or not. -/
theorem findDescendants_exact (c : MemoryCatalog) (oids : List Oid) :
    ∃ closure, c.find (.findDescendants oids) = .ok closure ∧
      (Walk.next c.types)^[oids.length + (closure.flatMap c.types.named).length] (.start oids) =
        ⟨[], closure.reverse⟩ ∧
      closure.Nodup ∧
      ∀ oid, oid ∈ closure ↔ ∃ start ∈ oids, ReflTransGen c.types.MadeOf start oid := by
  refine ⟨c.descendants oids, rfl, c.iterate_next_descendants oids, c.nodup_descendants oids,
    fun oid => ?_⟩
  rw [mem_descendants, reaches_iff_madeOf]

end MemoryCatalog

end TypedSql
