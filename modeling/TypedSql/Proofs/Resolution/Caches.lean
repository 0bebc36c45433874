import TypedSql.Proofs.Catalog.Denotation
import TypedSql.Proofs.Task.Sharing

/-!
# Caches that can be trusted

A type cache is sound for a catalog when it knows the built-in types, everything in it is what the
catalog says, and it has what its types are made of. Sharing caches serves a catalog when tasks
get the answers of this catalog, never take a cached type away, and keep sound caches sound; a task
may then add types that fit, if they are among those that may be added.

In a sound cache the types that denote something can come and stay, while the others never come.
-/

namespace TypedSql

theorem nodup_eraseDups {α : Type} [BEq α] [LawfulBEq α] (as : List α) : as.eraseDups.Nodup := by
  match as with
  | [] => exact .nil
  | a :: as =>
    rw [List.eraseDups_cons, List.nodup_cons, List.mem_eraseDups, List.mem_filter]
    exact ⟨by simp, nodup_eraseDups _⟩
termination_by as.length
decreasing_by exact Nat.lt_succ_of_le (List.length_filter_le _ _)

/-- What stands in front of something else in a part of a list stands in front of it in the list. -/
theorem idxOf_lt_of_filter {α : Type} [BEq α] [LawfulBEq α] {p : α → Bool} {as : List α} {x y : α}
    (hx : p x = true) (hy : p y = true) (h : (as.filter p).idxOf x < (as.filter p).idxOf y) :
    as.idxOf x < as.idxOf y := by
  induction as with
  | nil => exact absurd h (Nat.lt_irrefl _)
  | cons a as ih =>
    by_cases hax : a = x
    · subst hax
      have hne : a ≠ y := by
        rintro rfl
        exact absurd h (Nat.lt_irrefl _)
      simp [hne]
    by_cases hay : a = y
    · subst hay
      rw [List.filter_cons_of_pos hy, List.idxOf_cons_self] at h
      exact absurd h (Nat.not_lt_zero _)
    · have hrest : (as.filter p).idxOf x < (as.filter p).idxOf y := by
        by_cases ha : p a = true
        · simpa [List.filter_cons_of_pos ha, List.idxOf_cons, hax, hay] using h
        · simpa [List.filter_cons_of_neg ha] using h
      simpa [List.idxOf_cons, hax, hay] using ih hrest

/-- Each element is kept where it stands first. -/
theorem pairwise_idxOf_eraseDups {α : Type} [BEq α] [LawfulBEq α] (as : List α) :
    as.eraseDups.Pairwise fun x y => as.idxOf x < as.idxOf y := by
  match as with
  | [] => exact .nil
  | a :: as =>
    have hmem {b : α} (hb : b ∈ (as.filter fun b => !b == a).eraseDups) : a ≠ b := by
      rw [List.mem_eraseDups, List.mem_filter] at hb
      rintro rfl
      simp at hb
    rw [List.eraseDups_cons, List.pairwise_cons]
    refine ⟨fun b hb => by simp [hmem hb], ?_⟩
    refine (pairwise_idxOf_eraseDups (as.filter fun b => !b == a)).imp_of_mem fun hx hy h => ?_
    have hlt := idxOf_lt_of_filter (by simp [(hmem hx).symm]) (by simp [(hmem hy).symm]) h
    simpa [List.idxOf_cons, hmem hx, hmem hy] using hlt
termination_by as.length
decreasing_by exact Nat.lt_succ_of_le (List.length_filter_le _ _)

namespace TypeCache

variable {c : MemoryCatalog} {cache : TypeCache} {oids : List Oid} {oid : Oid} {t : SqlType}
  {types : List SqlType}

/-! ### What is cached and what is not -/

/-- The types of some identifiers, as far as a table has them, put into a map. -/
def gather (known : Oid → Option SqlType) (found : TypeMap) (oids : List Oid) : TypeMap :=
  oids.foldl (fun found oid => match known oid with
    | some t => found.insert oid t
    | none => found) found

theorem getElem?_gather (known : Oid → Option SqlType) (found : TypeMap) (oids : List Oid)
    (oid : Oid) :
    (gather known found oids)[oid]? =
      if oid ∈ oids then (known oid).or found[oid]? else found[oid]? := by
  induction oids generalizing found with
  | nil => rfl
  | cons o oids ih =>
    rw [gather, List.foldl_cons, ← gather, ih]
    cases hk : known o with
    | none =>
      by_cases ho : oid = o
      · subst ho
        simp [hk]
      · simp [ho]
    | some t =>
      by_cases ho : oid = o
      · subst ho
        simp [hk]
      · simp [ho, Std.ExtTreeMap.getElem?_insert, Ne.symm ho]

theorem getElem?_split (cache : TypeCache) (oids : List Oid) (oid : Oid) :
    (cache.split oids).1[oid]? = if oid ∈ oids then cache.get? oid else none := by
  have h : (cache.split oids).1 = gather cache.get? ∅ oids := rfl
  rw [h, getElem?_gather]
  simp

theorem mem_split : oid ∈ (cache.split oids).2 ↔ oid ∈ oids ∧ cache.get? oid = none := by
  rw [split, List.mem_eraseDups, List.mem_filter, contains_eq_isSome]
  simp

theorem nodup_split : (cache.split oids).2.Nodup :=
  nodup_eraseDups _

theorem exists_get?_extend (cache : TypeCache) (h : t ∈ types) :
    ∃ s, (cache.extend types).get? t.oid = some s := by
  rw [get?_extend, ← Option.isSome_iff_exists, Option.isSome_or, Bool.or_eq_true,
    List.find?_isSome]
  exact .inr ⟨t, h, beq_self_eq_true t.oid⟩

/-- What types of a map can be found after their addition, when each stands under its own
identifier. -/
theorem get?_extend_values {types : TypeMap}
    (hk : ∀ (oid : Oid) (t : SqlType), types[oid]? = some t → t.oid = oid)
    (cache : TypeCache) (oid : Oid) :
    (cache.extend types.values).get? oid = (cache.get? oid).or types[oid]? := by
  rw [get?_extend]
  congr 1
  ext t
  constructor
  · intro h
    have ho := List.find?_some h
    obtain rfl := beq_iff_eq.mp ho
    obtain ⟨o, ht⟩ := mem_values_iff.mp (List.mem_of_find?_eq_some h)
    rwa [hk o t ht]
  · intro h
    obtain rfl := hk oid t h
    cases hf : types.values.find? fun s => s.oid == t.oid with
    | none =>
      have hn := List.find?_eq_none.mp hf t (mem_values_iff.mpr ⟨_, h⟩)
      simp at hn
    | some s =>
      have hs := List.find?_some hf
      obtain ⟨o, ho⟩ := mem_values_iff.mp (List.mem_of_find?_eq_some hf)
      obtain rfl := hk o s ho
      rw [beq_iff_eq.mp hs, h] at ho
      exact ho.symm

/-! ### Sound caches -/

/-- The cache knows the built-in types, all that it knows is true, and with a type it knows what
the type is made of. -/
structure IsSound (c : MemoryCatalog) (cache : TypeCache) : Prop where
  builtin (oid : Oid) (t : SqlType) : Builtin.type? oid = some t → cache.get? oid = some t
  denotes (oid : Oid) (t : SqlType) : cache.get? oid = some t → c.Denotes oid t
  closed (oid d : Oid) (t : SqlType) : cache.get? oid = some t → Builtin.type? oid = none →
    c.types.DependsOn oid d → ∃ s, cache.get? d = some s

/-- The types can be added to a cache: they are what the catalog says, and what they are made of
is cached with them. Only certain types are added at all. -/
structure Fits (c : MemoryCatalog) (may : Oid → Prop) (cache : TypeCache) (types : List SqlType) :
    Prop where
  denotes (t : SqlType) : t ∈ types → c.Denotes t.oid t
  closed (t : SqlType) (d : Oid) : t ∈ types → c.types.DependsOn t.oid d →
    ∃ s, (cache.extend types).get? d = some s
  may (t : SqlType) : t ∈ types → may t.oid

theorem isSound_builtin (c : MemoryCatalog) : builtin.IsSound c where
  builtin oid t h := by rw [get?_builtin, h]
  denotes oid t h := .builtin (get?_builtin oid ▸ h)
  closed oid d t h hb := by
    rw [get?_builtin, hb] at h
    cases h

/-- What is cached after an addition was cached before or was added. -/
theorem get?_or_mem_of_extend (h : (cache.extend types).get? oid = some t) :
    cache.get? oid = some t ∨ t ∈ types ∧ t.oid = oid := by
  rw [get?_extend, Option.or_eq_some_iff] at h
  obtain hg | ⟨-, hg⟩ := h
  · exact .inl hg
  · have ho := List.find?_some hg
    exact .inr ⟨List.mem_of_find?_eq_some hg, beq_iff_eq.mp ho⟩

theorem IsSound.extend {may : Oid → Prop} (h : cache.IsSound c)
    (ht : cache.Fits c may types) : (cache.extend types).IsSound c where
  builtin oid t hb := get?_extend_of_eq_some (h.builtin oid t hb) types
  denotes oid t hg := by
    obtain hg | ⟨hm, rfl⟩ := get?_or_mem_of_extend hg
    · exact h.denotes oid t hg
    · exact ht.denotes t hm
  closed oid d t hg hb hd := by
    obtain hg | ⟨hm, rfl⟩ := get?_or_mem_of_extend hg
    · obtain ⟨s, hs⟩ := h.closed oid d t hg hb hd
      exact ⟨s, get?_extend_of_eq_some hs types⟩
    · exact ht.closed t d hm hd

theorem IsSound.get?_eq_none (h : cache.IsSound c) (hn : c.knows oid = false) :
    cache.get? oid = none := by
  cases hg : cache.get? oid with
  | none => rfl
  | some t =>
    rw [(h.denotes oid t hg).knows] at hn
    cases hn

/-- Everything that a cached type is made of is cached. -/
theorem IsSound.exists_get?_of_reflTransGen (hc : c.IsPlain) (h : cache.IsSound c) {d : Oid}
    (hg : cache.get? oid = some t) (hd : Relation.ReflTransGen c.types.DependsOn oid d) :
    ∃ s, cache.get? d = some s := by
  induction hd with
  | refl => exact ⟨t, hg⟩
  | @tail a b _ hab ih =>
    obtain ⟨s, hs⟩ := ih
    obtain ⟨row, hr, -⟩ := id hab
    refine h.closed a b s hs ?_ hab
    exact Option.eq_none_iff_forall_ne_some.mpr fun _ => hc.not_builtin hr

end TypeCache

namespace Sharing

/-- Tasks get the answers of the catalog, and the type cache grows by what the catalog says, as
far as it may. -/
structure Serves (env : Sharing) (c : MemoryCatalog) (may : Oid → Prop) : Prop where
  answer (request : Request) :
    env.catalog.answer env.deadline request = c.catalog.answer env.deadline request
  keeps {a b : Caches} {oid : Oid} {t : SqlType} : env.allowed a b →
    a.types.get? oid = some t → b.types.get? oid = some t
  sound {a b : Caches} : env.allowed a b → a.types.IsSound c → b.types.IsSound c
  extend {a : Caches} {types : List SqlType} : a.types.Fits c may types →
    env.allowed a { a with types := a.types.extend types }

end Sharing

end TypedSql
