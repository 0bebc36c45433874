import TypedSql.Catalog.Memory
import TypedSql.Proofs.Catalog.Order

/-!
# What types are made of

`MemoryCatalog.descend` walks over the types that some types are made of. What it has seen and
what is on its stack together account for everything that can be reached: a type that was seen
has each type it names seen, too, or on the stack. So when the stack is empty, exactly the types
that can be reached were seen (`MemoryCatalog.mem_descendants`).
-/

namespace TypedSql

namespace MemoryCatalog

open Relation

variable {c : MemoryCatalog} {types left : TypeRows} {stack seen named oids : List Oid}
  {a b oid : Oid}

/-- Some of the given types are made of the type, however deep, or it is one of them. -/
def Reaches (c : MemoryCatalog) (oids : List Oid) (oid : Oid) : Prop :=
  ∃ start ∈ oids, ReflTransGen c.types.DependsOn start oid

theorem Reaches.of_mem (h : oid ∈ oids) : c.Reaches oids oid :=
  ⟨oid, h, .refl⟩

theorem Reaches.tail (ha : c.Reaches oids a) (hab : c.types.DependsOn a b) : c.Reaches oids b := by
  obtain ⟨start, hs, h⟩ := ha
  exact ⟨start, hs, h.tail hab⟩

theorem Reaches.trans (ha : c.Reaches oids a) (hab : ReflTransGen c.types.DependsOn a b) :
    c.Reaches oids b := by
  obtain ⟨start, hs, h⟩ := ha
  exact ⟨start, hs, h.trans hab⟩

/-- What was seen is closed up to the stack: a type that was seen has each type it names seen, too,
or on the stack. -/
def IsClosed (types : TypeRows) (stack seen : List Oid) : Prop :=
  ∀ a ∈ seen, ∀ b, types.DependsOn a b → b ∈ seen ∨ b ∈ stack

namespace IsClosed

/-- A type that was seen can leave the stack. -/
theorem pop (hc : IsClosed types (oid :: stack) seen) (h : oid ∈ seen) :
    IsClosed types stack seen := by
  intro a ha b hab
  obtain hb | hb := hc a ha b hab
  · exact .inl hb
  · obtain rfl | hb := List.mem_cons.mp hb
    · exact .inl h
    · exact .inr hb

/-- A type is seen when the types that it names are put on the stack in its place. -/
theorem push (hc : IsClosed types (oid :: stack) seen)
    (hd : ∀ b, types.DependsOn oid b → b ∈ named) :
    IsClosed types (named ++ stack) (oid :: seen) := by
  intro a ha b hab
  obtain rfl | ha := List.mem_cons.mp ha
  · exact .inr (List.mem_append_left _ (hd b hab))
  · obtain hb | hb := hc a ha b hab
    · exact .inl (List.mem_cons_of_mem _ hb)
    · obtain rfl | hb := List.mem_cons.mp hb
      · exact .inl List.mem_cons_self
      · exact .inr (List.mem_append_right _ hb)

/-- Types that were seen lead to others only over the stack. -/
theorem mem_or_of_reflTransGen (hc : IsClosed types stack seen)
    (h : ReflTransGen types.DependsOn a oid) (ha : a ∈ seen) :
    oid ∈ seen ∨ ∃ b ∈ stack, ReflTransGen types.DependsOn b oid := by
  induction h using ReflTransGen.head_induction_on with
  | refl => exact .inl ha
  | head hab hb ih =>
    obtain hs | hs := hc _ ha _ hab
    · exact ih hs
    · exact .inr ⟨_, hs, hb⟩

end IsClosed

/-- Seeing a type and putting the types that it names on the stack reaches what it reaches. -/
theorem mem_push_iff (hd : ∀ b, types.DependsOn a b ↔ b ∈ named) :
    (oid ∈ a :: seen ∨ ∃ b ∈ named ++ stack, ReflTransGen types.DependsOn b oid) ↔
      oid ∈ seen ∨ ∃ b ∈ a :: stack, ReflTransGen types.DependsOn b oid := by
  simp only [List.mem_cons, List.mem_append, or_and_right, exists_or, exists_eq_left,
    ReflTransGen.cases_head_iff (a := a), hd, @eq_comm _ oid a, or_assoc, or_left_comm]

/-- The rows that are left are those of the types that were not seen. So they are when a type is
seen and its row is taken away. -/
theorem getElem?_erase_left (hl : ∀ oid, left[oid]? = if oid ∈ seen then none else types[oid]?)
    (oid o : Oid) : (left.erase oid)[o]? = if o ∈ oid :: seen then none else types[o]? := by
  rw [Std.ExtTreeMap.getElem?_erase, hl]
  by_cases ho : oid = o
  · simp [ho]
  · simp [ho, Ne.symm ho]

/-- A type without a row leaves all rows when it is seen. -/
theorem getElem?_left_of_eq_none
    (hl : ∀ oid, left[oid]? = if oid ∈ seen then none else types[oid]?) (h : left[oid]? = none)
    (o : Oid) : left[o]? = if o ∈ oid :: seen then none else types[o]? := by
  by_cases ho : o = oid
  · simp [ho, h]
  · simp [ho, hl]

/-- What was seen in the end was seen before, or can be reached from the stack. -/
theorem mem_descend (hl : ∀ oid, left[oid]? = if oid ∈ seen then none else types[oid]?)
    (hc : IsClosed types stack seen) :
    oid ∈ descend left stack seen ↔
      oid ∈ seen ∨ ∃ a ∈ stack, ReflTransGen types.DependsOn a oid := by
  induction left, stack, seen using descend.induct with
  | case1 left seen =>
    rw [descend]
    simp
  | case2 left oid' stack seen h ih =>
    rw [descend, if_pos h]
    rw [List.contains_iff_mem] at h
    rw [ih hl (hc.pop h)]
    refine ⟨Or.imp_right fun ⟨a, ha, hao⟩ => ⟨a, List.mem_cons_of_mem _ ha, hao⟩, ?_⟩
    rintro (ho | ⟨a, ha, hao⟩)
    · exact .inl ho
    · obtain rfl | ha := List.mem_cons.mp ha
      · exact (hc.pop h).mem_or_of_reflTransGen hao h
      · exact .inr ⟨a, ha, hao⟩
  | case3 left oid' stack seen h row hrow ih =>
    rw [descend, if_neg h, hrow]
    rw [List.contains_iff_mem] at h
    have ht : types[oid']? = some row := by
      rw [← hrow, hl, if_neg h]
    have hd : ∀ b, types.DependsOn oid' b ↔ b ∈ row.dependencies.reverse := by
      intro b
      rw [List.mem_reverse]
      exact ⟨fun ⟨r, hr, hb⟩ => by rwa [Option.some.inj (ht.symm.trans hr)],
        fun hb => ⟨row, ht, hb⟩⟩
    exact (ih (getElem?_erase_left hl oid') (hc.push fun b => (hd b).mp)).trans (mem_push_iff hd)
  | case4 left oid' stack seen h hrow ih =>
    rw [descend, if_neg h, hrow]
    rw [List.contains_iff_mem] at h
    have hd : ∀ b, types.DependsOn oid' b ↔ b ∈ ([] : List Oid) := by
      intro b
      rw [iff_false_right List.not_mem_nil]
      rintro ⟨row, hr, -⟩
      rw [hl, if_neg h, hr] at hrow
      cases hrow
    exact (ih (getElem?_left_of_eq_none hl hrow) (hc.push fun b => (hd b).mp)).trans
      (mem_push_iff hd)

/-- The descendants are all that can be reached. -/
theorem mem_descendants : oid ∈ c.descendants oids ↔ c.Reaches oids oid := by
  have hl : ∀ oid, c.types[oid]? = if oid ∈ ([] : List Oid) then none else c.types[oid]? := by
    intro oid
    rw [if_neg List.not_mem_nil]
  rw [descendants, mem_descend hl fun a ha => absurd ha List.not_mem_nil]
  simp [Reaches]

end MemoryCatalog

end TypedSql
