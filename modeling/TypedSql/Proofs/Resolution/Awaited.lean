import TypedSql.Proofs.Resolution.Course

/-!
# What a request waits for

A request for types to a catalog in memory waits for the types that are not cached among those
that the wanted ones are made of (`Resolution.Awaited`). It asks for these and no others, so the
rows that it fetches are all that the catalog tells of them, and what it adds to the cache is made
of these rows and of the cache (`Resolution.Retrieval.get?_extend_eq_some_iff`). The catalog can be
any that was built: if a request comes this far, all its answers are what the catalog finds.
-/

namespace TypedSql

namespace Resolution

open MemoryCatalog Relation

variable {c : MemoryCatalog} {deadline : Duration} {cache : TypeCache} {caches : Caches}
  {oids pending : List Oid} {oid : Oid} {row : TypeRow} {t : SqlType}

/-- The type is not cached, and a wanted type that is not cached either is made of it. -/
def Awaited (c : MemoryCatalog) (cache : TypeCache) (oids : List Oid) (oid : Oid) : Prop :=
  cache.get? oid = none ∧
    ∃ start ∈ oids, cache.get? start = none ∧ ReflTransGen c.types.DependsOn start oid

theorem awaited_iff : Awaited c cache oids oid ↔
    c.Reaches (cache.split oids).2 oid ∧ cache.get? oid = none := by
  simp only [Awaited, Reaches, TypeCache.mem_split, and_assoc, and_comm]

/-! ### Answers of a catalog in memory -/

/-- The rows of the four kinds are those that the catalog has. -/
theorem Listing.found_eq (l : Listing c.catalog deadline pending) :
    l.found = TypeRows.ofRows (listed c pending) := by
  obtain ⟨enums, domains, composites, arrays, he, hd, hc, ha⟩ := l
  obtain rfl := Except.ok.inj (find_of_answer he)
  obtain rfl := Except.ok.inj (find_of_answer hd)
  obtain rfl := Except.ok.inj (find_of_answer hc)
  obtain rfl := Except.ok.inj (find_of_answer ha)
  rfl

theorem Fetch.rows_eq (f : Fetch c.catalog deadline pending) : f.rows = fetched c pending := by
  have hu : f.unknown = f.leftovers.filterMap c.nameAndKind? := by
    have ha := f.answer_unknown
    split at ha
    · next hl => rw [ha, hl, List.filterMap_nil]
    · exact (Except.ok.inj (find_of_answer ha)).symm
  rw [rows, hu, Listing.leftovers, f.found_eq]
  rfl

namespace Retrieval

theorem closure_eq (a : Retrieval c.catalog deadline oids cache) :
    a.closure = c.descendants (cache.split oids).2 :=
  (Except.ok.inj (find_of_answer a.answer_closure)).symm

/-- The types that are asked for are those that the request waits for. -/
theorem mem_lacking (a : Retrieval c.catalog deadline oids cache) :
    oid ∈ lacking cache oids a.closure ↔ Awaited c cache oids oid := by
  rw [Resolution.mem_lacking, a.closure_eq, mem_descendants, awaited_iff]
  exact and_congr_left fun _ => or_iff_right_of_imp .of_mem

theorem getElem?_rows (hc : c.Built) (a : Retrieval c.catalog deadline oids cache) :
    a.fetch.rows[oid]? = some row ↔ Awaited c cache oids oid ∧ c.row? oid = some row := by
  rw [a.fetch.rows_eq, getElem?_fetched_of_built hc, Option.ite_none_right_eq_some, a.mem_lacking]

/-- After loading, the cache has all types that the request has waited for and that the catalog
knows, made of the types that are cached then. Nothing else has come to it. -/
theorem get?_extend_eq_some_iff (hc : c.Built) (a : Retrieval c.catalog deadline oids cache)
    {built : TypeMap}
    (h : types (m := Id) cache.get? a.fetch.rows = Except.ok (ε := ResolveError) built) :
    (cache.extend built.values).get? oid = some t ↔ cache.get? oid = some t ∨
      Awaited c cache oids oid ∧ ∃ row, c.row? oid = some row ∧
        build (m := Id) (cache.extend built.values).get? ∅ row = some t := by
  have hn : ∀ o ∈ a.fetch.rows, cache.get? o = none := by
    intro o ho
    obtain ⟨row, hr⟩ := mem_map_iff.mp ho
    exact ((a.getElem?_rows hc).mp hr).1.1
  rw [Resolution.get?_extend_eq_some_iff a.fetch.isKeyed_rows hn h]
  simp only [a.getElem?_rows hc, and_assoc, exists_and_left]

end Retrieval

end Resolution

end TypedSql
