import TypedSql.Cache

/-!
# The built-in types by their identifiers

The list of all built-in types and the search by identifier are two descriptions of the same
types: a new cache knows just those that the search finds (`TypeCache.get?_builtin`), and each
under its own identifier.
-/

namespace TypedSql

/-- A search by key among the things that `find` gives for some keys, each under its own. -/
theorem find?_filterMap {α κ : Type} [BEq κ] [LawfulBEq κ] {key : α → κ} {find : κ → Option α}
    (hf : ∀ k a, find k = some a → key a = k) (keys : List κ) (k : κ) :
    (keys.filterMap find).find? (fun a => key a == k) = if k ∈ keys then find k else none := by
  induction keys with
  | nil => rfl
  | cons o keys ih =>
    cases h : find o with
    | none =>
      simp only [List.filterMap_cons, h, ih, List.mem_cons]
      by_cases ho : k = o
      · simp [ho, h]
      · simp [ho]
    | some a =>
      simp only [List.filterMap_cons, h, List.find?_cons, ih, hf o a h, List.mem_cons]
      by_cases ho : o = k
      · simp [← ho, h]
      · simp [beq_eq_false_iff_ne.mpr ho, Ne.symm ho]

namespace Builtin

variable {oid : Oid} {t : SqlType}

theorem oid_of_scalar? (h : scalar? oid = some t) : t.oid = oid := by
  obtain ⟨name, -, rfl⟩ := Option.map_eq_some_iff.mp h
  rfl

theorem oid_of_array? (h : array? oid = some t) : t.oid = oid := by
  obtain ⟨⟨name, element⟩, -, h⟩ := Option.bind_eq_some_iff.mp h
  obtain ⟨s, -, h⟩ := Option.bind_eq_some_iff.mp h
  obtain rfl := Option.some.inj h
  rfl

theorem oid_of_type? (h : type? oid = some t) : t.oid = oid := by
  rw [type?] at h
  split at h
  · next hv =>
    obtain rfl := Option.some.inj h
    exact hv.symm
  · split at h
    · next s hs =>
      obtain rfl := Option.some.inj h
      exact oid_of_scalar? hs
    · exact oid_of_array? h

theorem mem_of_lookup {α : Type} {entries : List (Oid × α)} {a : α}
    (h : entries.lookup oid = some a) : oid ∈ entries.map Prod.fst := by
  obtain ⟨front, rest, rfl, -⟩ := List.lookup_eq_some_iff.mp h
  simp

theorem find?_scalars (oid : Oid) :
    (scalars.filterMap fun (o, _) => scalar? o).find? (fun t => t.oid == oid) = scalar? oid := by
  have hm : (scalars.filterMap fun (o, _) => scalar? o) =
      (scalars.map Prod.fst).filterMap scalar? := by
    rw [List.filterMap_map]
    rfl
  rw [hm, find?_filterMap fun _ _ => oid_of_scalar?]
  refine ite_eq_left_iff.mpr fun hn => ?_
  cases h : scalars.lookup oid with
  | none => simp [scalar?, h]
  | some name => exact absurd (mem_of_lookup h) hn

theorem find?_arrays (oid : Oid) :
    (arrays.filterMap fun (o, _) => array? o).find? (fun t => t.oid == oid) = array? oid := by
  have hm : (arrays.filterMap fun (o, _) => array? o) =
      (arrays.map Prod.fst).filterMap array? := by
    rw [List.filterMap_map]
    rfl
  rw [hm, find?_filterMap fun _ _ => oid_of_array?]
  refine ite_eq_left_iff.mpr fun hn => ?_
  cases h : arrays.lookup oid with
  | none => simp [array?, h]
  | some entry => exact absurd (mem_of_lookup h) hn

/-- The void type has an identifier of its own, so it does not matter where it stands. -/
theorem find?_types (oid : Oid) : types.find? (fun t => t.oid == oid) = type? oid := by
  rw [types, List.find?_append, List.find?_append, find?_scalars, find?_arrays, type?]
  by_cases hv : oid = SqlType.voidOid
  · subst hv
    rfl
  · have hn : (SqlType.void.oid == oid) = false := by
      rw [beq_eq_false_iff_ne]
      exact Ne.symm hv
    rw [if_neg hv, List.find?_cons, hn]
    cases scalar? oid <;> simp

end Builtin

/-- A new cache knows the built-in types and no others. -/
theorem TypeCache.get?_builtin (oid : Oid) : TypeCache.builtin.get? oid = Builtin.type? oid := by
  rw [TypeCache.builtin, TypeCache.get?_extend, TypeCache.get?_empty, Option.none_or,
    Builtin.find?_types]

end TypedSql
