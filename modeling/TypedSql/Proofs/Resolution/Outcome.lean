import Mathlib.Data.List.Sort
import TypedSql.Proofs.Catalog.Denotation
import TypedSql.Resolution

/-!
# What resolving types has to come to

The outcome for some types is fixed by the part of the dependency graph that can be reached from
them. A type in this part that misses a dependency comes first; then a circle; then a wanted type
that nobody knows. Without any of these, every wanted type denotes something, and this is the
result.

There is one outcome only (`Outcome.unique`). Types that are known to denote something have no
part in what fails, so an error is the same whether they are wanted, too, or not
(`Outcome.error_of_subset`). This is why looking types up in a cache first cannot be noticed.

What a request puts into the cache is fixed in the same way (`Loads`): everything known that can
be reached, or nothing at all when it cannot be built.
-/

namespace TypedSql

namespace Resolution

open MemoryCatalog Relation

variable {c : MemoryCatalog} {oids wanted : List Oid} {oid a b d : Oid} {t : SqlType}
  {e : ResolveError} {r r' : Except ResolveError TypeMap}

/-- What a request for some types ends with. -/
inductive Outcome (c : MemoryCatalog) (oids : List Oid) : Except ResolveError TypeMap → Prop where
  /-- The least type that misses a dependency, with the first one that it misses. -/
  | missingDependency {oid dependency : Oid} (reaches : c.Reaches oids oid)
    (misses : c.Misses oid dependency)
    (least : ∀ o d, c.Reaches oids o → c.Misses o d → oid ≤ o) :
    Outcome c oids (.error (.missingDependency oid dependency))
  /-- All types from which a circle can be reached, in ascending order. -/
  | cycle {members : List Oid} (misses : ∀ o d, c.Reaches oids o → ¬ c.Misses o d)
    (cyclic : ∃ o, c.Reaches oids o ∧ TransGen c.types.DependsOn o o)
    (sorted : members.Pairwise (· < ·))
    (mem_iff : ∀ o, o ∈ members ↔ c.Reaches oids o ∧ c.types.ReachesCycle o) :
    Outcome c oids (.error (.cycle members))
  /-- All wanted types that are not known, in ascending order. -/
  | unresolved {unknown : List Oid} (misses : ∀ o d, c.Reaches oids o → ¬ c.Misses o d)
    (acyclic : ∀ o, c.Reaches oids o → ¬ TransGen c.types.DependsOn o o)
    (unknown_ne_nil : unknown ≠ []) (sorted : unknown.Pairwise (· < ·))
    (mem_iff : ∀ o, o ∈ unknown ↔ o ∈ oids ∧ c.knows o = false) :
    Outcome c oids (.error (.unresolved unknown))
  /-- The wanted types with what they denote. -/
  | resolved {types : TypeMap} (misses : ∀ o d, c.Reaches oids o → ¬ c.Misses o d)
    (acyclic : ∀ o, c.Reaches oids o → ¬ TransGen c.types.DependsOn o o)
    (known : ∀ o ∈ oids, c.knows o = true) (mem_iff : ∀ o, o ∈ types ↔ o ∈ oids)
    (denotes : ∀ o t, types[o]? = some t → c.Denotes o t) :
    Outcome c oids (.ok types)

theorem Misses.unique {d d' : Oid} (h : c.Misses oid d) (h' : c.Misses oid d') : d = d' := by
  obtain ⟨row, hr, hd⟩ := h
  obtain ⟨row', hr', hd'⟩ := h'
  obtain rfl := Option.some.inj (hr.symm.trans hr')
  exact Option.some.inj (hd.symm.trans hd')

theorem eq_of_mem_iff {as bs : List Oid} (ha : as.Pairwise (· < ·)) (hb : bs.Pairwise (· < ·))
    (h : ∀ o, o ∈ as ↔ o ∈ bs) : as = bs :=
  ha.eq_of_mem_iff hb fun {o} => h o

/-- A request has one outcome. -/
theorem Outcome.unique (hc : c.IsPlain) (h : Outcome c oids r) (h' : Outcome c oids r') :
    r = r' := by
  cases h with
  | missingDependency hr hm hl =>
    cases h' with
    | missingDependency hr' hm' hl' =>
      obtain rfl := UInt32.le_antisymm (hl _ _ hr' hm') (hl' _ _ hr hm)
      rw [Misses.unique hm hm']
    | cycle hn | unresolved hn | resolved hn => exact absurd hm (hn _ _ hr)
  | cycle hn hcyc hs hm =>
    obtain ⟨o, ho, hoo⟩ := hcyc
    cases h' with
    | missingDependency hr' hm' => exact absurd hm' (hn _ _ hr')
    | cycle _ _ hs' hm' =>
      rw [eq_of_mem_iff hs hs' fun o => (hm o).trans (hm' o).symm]
    | unresolved _ ha | resolved _ ha => exact absurd hoo (ha o ho)
  | unresolved hn ha hne hs hm =>
    cases h' with
    | missingDependency hr' hm' => exact absurd hm' (hn _ _ hr')
    | cycle _ hcyc =>
      obtain ⟨o, ho, hoo⟩ := hcyc
      exact absurd hoo (ha o ho)
    | unresolved _ _ _ hs' hm' =>
      rw [eq_of_mem_iff hs hs' fun o => (hm o).trans (hm' o).symm]
    | resolved _ _ hk =>
      obtain ⟨o, ho⟩ := List.exists_mem_of_ne_nil _ hne
      obtain ⟨hw, hf⟩ := (hm o).mp ho
      rw [hk o hw] at hf
      cases hf
  | @resolved types hn ha hk hm hd =>
    cases h' with
    | missingDependency hr' hm' => exact absurd hm' (hn _ _ hr')
    | cycle _ hcyc =>
      obtain ⟨o, ho, hoo⟩ := hcyc
      exact absurd hoo (ha o ho)
    | unresolved _ _ hne _ hm' =>
      obtain ⟨o, ho⟩ := List.exists_mem_of_ne_nil _ hne
      obtain ⟨hw, hf⟩ := (hm' o).mp ho
      rw [hk o hw] at hf
      cases hf
    | @resolved types' _ _ _ hm' hd' =>
      congr 1
      exact map_eq_of_mem_iff (fun o => (hm o).trans (hm' o).symm)
        fun o t t' ht ht' => (hd o t ht).unique hc (hd' o t' ht')

/-! ### Types that are known to denote something -/

theorem exists_denotes_of_reflTransGen (hc : c.IsPlain) (h : c.Denotes a t)
    (hab : ReflTransGen c.types.DependsOn a b) : ∃ s, c.Denotes b s := by
  induction hab with
  | refl => exact ⟨t, h⟩
  | tail _ hbd ih =>
    obtain ⟨s, hs⟩ := ih
    exact hs.exists_of_dependsOn hc hbd

/-- Wanted types that denote something add only such types to those that can be reached. -/
theorem reaches_or_denotes (hc : c.IsPlain)
    (hs : ∀ o ∈ wanted, o ∈ oids ∨ ∃ t, c.Denotes o t) (h : c.Reaches wanted oid) :
    c.Reaches oids oid ∨ ∃ t, c.Denotes oid t := by
  obtain ⟨start, hm, hr⟩ := h
  obtain ho | ⟨t, ht⟩ := hs start hm
  · exact .inl ⟨start, ho, hr⟩
  · exact .inr (exists_denotes_of_reflTransGen hc ht hr)

theorem reaches_mono (hs : oids ⊆ wanted) (h : c.Reaches oids oid) : c.Reaches wanted oid := by
  obtain ⟨start, hm, hr⟩ := h
  exact ⟨start, hs hm, hr⟩

theorem reachesCycle_of_transGen (h : TransGen c.types.DependsOn a a) :
    c.types.ReachesCycle a :=
  ⟨a, .refl, h⟩

/-- What can be reached contains a circle if one can be reached from it. -/
theorem exists_transGen_of_reachesCycle (h : c.Reaches oids oid)
    (hc : c.types.ReachesCycle oid) :
    ∃ o, c.Reaches oids o ∧ TransGen c.types.DependsOn o o := by
  obtain ⟨o, ho, hoo⟩ := hc
  exact ⟨o, h.trans ho, hoo⟩

theorem not_misses_of_subset (hc : c.IsPlain)
    (hs : ∀ o ∈ wanted, o ∈ oids ∨ ∃ t, c.Denotes o t)
    (h : ∀ o d, c.Reaches oids o → ¬ c.Misses o d) :
    ∀ o d, c.Reaches wanted o → ¬ c.Misses o d := by
  intro o d hr hm
  obtain ho | ⟨t, ht⟩ := reaches_or_denotes hc hs hr
  · exact h o d ho hm
  · exact ht.not_misses hc hm

theorem acyclic_of_subset (hc : c.IsPlain)
    (hs : ∀ o ∈ wanted, o ∈ oids ∨ ∃ t, c.Denotes o t)
    (h : ∀ o, c.Reaches oids o → ¬ TransGen c.types.DependsOn o o) :
    ∀ o, c.Reaches wanted o → ¬ TransGen c.types.DependsOn o o := by
  intro o hr hoo
  obtain ho | ⟨t, ht⟩ := reaches_or_denotes hc hs hr
  · exact h o ho hoo
  · exact ht.not_reachesCycle hc (reachesCycle_of_transGen hoo)

/-- An error does not change when types that denote something are wanted, too. -/
theorem Outcome.error_of_subset (hc : c.IsPlain) (hsub : oids ⊆ wanted)
    (hs : ∀ o ∈ wanted, o ∈ oids ∨ ∃ t, c.Denotes o t) (h : Outcome c oids (.error e)) :
    Outcome c wanted (.error e) := by
  cases h with
  | missingDependency hr hm hl =>
    refine .missingDependency (reaches_mono hsub hr) hm fun o d ho hd => ?_
    obtain ho | ⟨t, ht⟩ := reaches_or_denotes hc hs ho
    · exact hl o d ho hd
    · exact absurd hd (ht.not_misses hc)
  | cycle hn hcyc hso hm =>
    obtain ⟨o, ho, hoo⟩ := hcyc
    refine .cycle (not_misses_of_subset hc hs hn) ⟨o, reaches_mono hsub ho, hoo⟩ hso fun o => ?_
    refine (hm o).trans ⟨fun h => ⟨reaches_mono hsub h.1, h.2⟩, fun ⟨hr, hcy⟩ => ⟨?_, hcy⟩⟩
    obtain ho | ⟨t, ht⟩ := reaches_or_denotes hc hs hr
    · exact ho
    · exact absurd hcy (ht.not_reachesCycle hc)
  | unresolved hn ha hne hso hm =>
    refine .unresolved (not_misses_of_subset hc hs hn) (acyclic_of_subset hc hs ha) hne hso
      fun o => ?_
    refine (hm o).trans ⟨fun h => ⟨hsub h.1, h.2⟩, fun ⟨ho, hk⟩ => ⟨?_, hk⟩⟩
    refine (hs o ho).resolve_right fun ⟨t, ht⟩ => ?_
    rw [ht.knows] at hk
    cases hk

/-- A map of all wanted types with what they denote is the outcome. -/
theorem Outcome.of_denotes (hc : c.IsPlain) {types : TypeMap} (hm : ∀ o, o ∈ types ↔ o ∈ oids)
    (hd : ∀ o t, types[o]? = some t → c.Denotes o t) : Outcome c oids (.ok types) := by
  have hs : ∀ o ∈ oids, o ∈ ([] : List Oid) ∨ ∃ t, c.Denotes o t := by
    intro o ho
    obtain ⟨t, ht⟩ := mem_map_iff.mp ((hm o).mpr ho)
    exact .inr ⟨t, hd o t ht⟩
  refine .resolved (not_misses_of_subset hc hs ?_) (acyclic_of_subset hc hs ?_) ?_ hm hd
  · rintro o d ⟨_, hmem, -⟩
    cases hmem
  · rintro o ⟨_, hmem, -⟩
    cases hmem
  · intro o ho
    obtain ⟨t, ht⟩ := (hs o ho).resolve_left List.not_mem_nil
    exact ht.knows

/-! ### What is loaded -/

/-- Nothing that can be reached from the types misses a dependency or is part of a circle. -/
structure Buildable (c : MemoryCatalog) (oids : List Oid) : Prop where
  complete (o d : Oid) : c.Reaches oids o → ¬ c.Misses o d
  acyclic (o : Oid) : c.Reaches oids o → ¬ TransGen c.types.DependsOn o o

/-- A request for some types sees to it that a type is cached. It does so for all known types that
can be reached, or for none when they cannot be built. -/
structure Loads (c : MemoryCatalog) (oids : List Oid) (oid : Oid) : Prop extends
    Buildable c oids where
  reaches : c.Reaches oids oid
  knows : c.knows oid = true

theorem Buildable.mono (hs : oids ⊆ wanted) (h : Buildable c wanted) : Buildable c oids where
  complete o d hr := h.complete o d (reaches_mono hs hr)
  acyclic o hr := h.acyclic o (reaches_mono hs hr)

/-- Types that denote something do not get in the way of the others. -/
theorem Buildable.of_subset (hc : c.IsPlain) (hs : ∀ o ∈ wanted, o ∈ oids ∨ ∃ t, c.Denotes o t)
    (h : Buildable c oids) : Buildable c wanted where
  complete := not_misses_of_subset hc hs h.complete
  acyclic := acyclic_of_subset hc hs h.acyclic

theorem Loads.of_subset (hc : c.IsPlain) (hsub : oids ⊆ wanted)
    (hs : ∀ o ∈ wanted, o ∈ oids ∨ ∃ t, c.Denotes o t) (h : Loads c oids oid) :
    Loads c wanted oid where
  toBuildable := h.toBuildable.of_subset hc hs
  reaches := reaches_mono hsub h.reaches
  knows := h.knows

theorem Outcome.not_buildable (h : Outcome c oids (.error (.missingDependency a b))) :
    ¬ Buildable c oids := by
  cases h with
  | missingDependency hr hm => exact fun hb => hb.complete a b hr hm

/-- All types that were wanted are loaded when there is a result. -/
theorem Outcome.loads {types : TypeMap} (h : Outcome c oids (.ok types)) (ho : oid ∈ oids) :
    Loads c oids oid := by
  cases h with
  | resolved hn ha hk => exact ⟨⟨hn, ha⟩, .of_mem ho, hk oid ho⟩

end Resolution

end TypedSql
