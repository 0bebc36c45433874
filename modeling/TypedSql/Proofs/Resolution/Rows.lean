import TypedSql.Proofs.Resolution.Caches
import TypedSql.Resolution

/-!
# Fetching rows

Each of the first four requests finds the rows of one kind, and the last one finds name and kind
of what is left. From a plain catalog they bring just the rows of the types that were asked for
(`Resolution.gives_fetchRows`): a row is of one kind only, so no two requests disagree.
-/

namespace TypedSql

namespace TypeRows

variable {rows : List TypeRow} {oid : Oid} {row : TypeRow}

theorem getElem?_foldl_insert (rows : List TypeRow) (found : TypeRows) (oid : Oid) :
    (rows.foldl (fun found row => found.insert row.oid row) found)[oid]? =
      (rows.reverse.find? fun row => row.oid == oid).or found[oid]? := by
  induction rows generalizing found with
  | nil => rfl
  | cons row rows ih =>
    rw [List.foldl_cons, ih, List.reverse_cons, List.find?_append, Option.or_assoc]
    congr 1
    by_cases h : row.oid = oid
    · subst h
      simp
    · simp [h, Std.ExtTreeMap.getElem?_insert]

theorem getElem?_ofRows_eq_find? (rows : List TypeRow) (oid : Oid) :
    (ofRows rows)[oid]? = rows.reverse.find? fun row => row.oid == oid := by
  rw [ofRows, getElem?_foldl_insert]
  simp

theorem mem_of_getElem?_ofRows (h : (ofRows rows)[oid]? = some row) :
    row ∈ rows ∧ row.oid = oid := by
  rw [getElem?_ofRows_eq_find?] at h
  have hm := List.mem_of_find?_eq_some h
  have ho := List.find?_some h
  exact ⟨List.mem_reverse.mp hm, beq_iff_eq.mp ho⟩

/-- Rows that are determined by their identifiers are found by them. -/
theorem getElem?_ofRows (h : ∀ r ∈ rows, ∀ r' ∈ rows, r.oid = r'.oid → r = r') :
    (ofRows rows)[oid]? = some row ↔ row ∈ rows ∧ row.oid = oid := by
  constructor
  · exact mem_of_getElem?_ofRows
  · rintro ⟨hm, rfl⟩
    rw [getElem?_ofRows_eq_find?]
    cases hf : rows.reverse.find? fun r => r.oid == row.oid with
    | none =>
      have hn := List.find?_eq_none.mp hf row (List.mem_reverse.mpr hm)
      simp at hn
    | some r =>
      have hr := List.mem_of_find?_eq_some hf
      have ho := List.find?_some hf
      rw [h r (List.mem_reverse.mp hr) row hm (beq_iff_eq.mp ho)]

theorem getElem?_foldl_insertNew (types : List UnknownType) (rows : TypeRows) (oid : Oid) :
    (types.foldl (fun rows t => rows.insertNew (.unknown t)) rows)[oid]? =
      rows[oid]?.or ((types.find? fun t => t.oid == oid).map .unknown) := by
  induction types generalizing rows with
  | nil => simp
  | cons t types ih =>
    rw [List.foldl_cons, ih, insertNew, Std.ExtTreeMap.getElem?_insertIfNew, List.find?_cons]
    by_cases h : t.oid = oid
    · subst h
      by_cases hm : t.oid ∈ rows <;> simp [TypeRow.oid, hm]
    · simp [TypeRow.oid, h, beq_eq_false_iff_ne.mpr h]

end TypeRows

namespace Resolution

open MemoryCatalog

variable {c : MemoryCatalog} {env : Sharing} {caches : Caches} {may : Oid → Prop}
  {oids : List Oid} {oid : Oid} {row : TypeRow}

/-- A request finds the rows of its kind. -/
theorem mem_rowsOf {α : Type} {wrap : α → TypeRow} {select : TypeRow → Option α}
    (hs : ∀ row a, select row = some a ↔ row = wrap a) :
    row ∈ (c.rowsOf oids select).map wrap ↔
      (∃ oid ∈ oids, c.types[oid]? = some row) ∧ ∃ a, row = wrap a := by
  simp only [List.mem_map, rowsOf, List.mem_filterMap, Option.bind_eq_some_iff, hs]
  constructor
  · rintro ⟨a, ⟨oid, ho, _, hr, rfl⟩, rfl⟩
    exact ⟨⟨oid, ho, hr⟩, a, rfl⟩
  · rintro ⟨⟨oid, ho, hr⟩, a, rfl⟩
    exact ⟨a, ⟨oid, ho, _, hr, rfl⟩, rfl⟩

/-- What the first four requests find. -/
def listed (c : MemoryCatalog) (oids : List Oid) : List TypeRow :=
  (c.rowsOf oids fun | .enum row => some row | _ => none).map .enum ++
    (c.rowsOf oids fun | .domain row => some row | _ => none).map .domain ++
    (c.rowsOf oids fun | .composite row => some row | _ => none).map .composite ++
    (c.rowsOf oids fun | .array row => some row | _ => none).map .array

theorem mem_listed : row ∈ listed c oids ↔
    (∃ oid ∈ oids, c.types[oid]? = some row) ∧ ∀ t, row ≠ .unknown t := by
  rw [listed, List.mem_append, List.mem_append, List.mem_append,
    mem_rowsOf fun row _ => by cases row <;> simp, mem_rowsOf fun row _ => by cases row <;> simp,
    mem_rowsOf fun row _ => by cases row <;> simp, mem_rowsOf fun row _ => by cases row <;> simp]
  cases row <;> simp

theorem getElem?_ofRows_listed (hc : c.Built) : (TypeRows.ofRows (listed c oids))[oid]? =
    some row ↔ oid ∈ oids ∧ c.types[oid]? = some row ∧ ∀ t, row ≠ .unknown t := by
  have hk := hc.isKeyed_types
  rw [TypeRows.getElem?_ofRows, mem_listed]
  · constructor
    · rintro ⟨⟨⟨o, ho, hr⟩, hu⟩, rfl⟩
      obtain rfl := hk o row hr
      exact ⟨ho, hr, hu⟩
    · rintro ⟨ho, hr, hu⟩
      exact ⟨⟨⟨oid, ho, hr⟩, hu⟩, hk oid row hr⟩
  · intro r hr r' hr' he
    obtain ⟨⟨o, -, ho⟩, -⟩ := mem_listed.mp hr
    obtain ⟨⟨o', -, ho'⟩, -⟩ := mem_listed.mp hr'
    obtain rfl : o = o' := (hk o r ho).symm.trans (he.trans (hk o' r' ho'))
    exact Option.some.inj (ho.symm.trans ho')

/-- The rows that all requests together find. -/
def fetched (c : MemoryCatalog) (oids : List Oid) : TypeRows :=
  let rows := TypeRows.ofRows (listed c oids)
  ((oids.filter fun oid => !rows.contains oid).filterMap c.nameAndKind?).foldl
    (fun rows t => rows.insertNew (.unknown t)) rows

theorem oid_of_nameAndKind? (o : Oid) (t : UnknownType) (h : c.nameAndKind? o = some t) :
    t.oid = o := by
  rw [nameAndKind?] at h
  split at h
  · obtain rfl := Option.some.inj h
    rfl
  · obtain ⟨s, -, rfl⟩ := Option.map_eq_some_iff.mp h
    rfl

/-- All that the requests find, also for built-in types. -/
theorem getElem?_fetched_of_built (hc : c.Built) :
    (fetched c oids)[oid]? = if oid ∈ oids then c.row? oid else none := by
  simp only [fetched, TypeRows.getElem?_foldl_insertNew, find?_filterMap oid_of_nameAndKind?,
    List.mem_filter]
  by_cases ho : oid ∈ oids
  · rw [if_pos ho]
    cases hr : (TypeRows.ofRows (listed c oids))[oid]? with
    | some row =>
      rw [row?, ((getElem?_ofRows_listed hc).mp hr).2.1, Option.some_or, Option.some_or]
    | none =>
      have hm : (TypeRows.ofRows (listed c oids)).contains oid = false := by
        simpa [← Std.ExtTreeMap.isSome_getElem?_eq_contains] using hr
      rw [Option.none_or, if_pos ⟨ho, by rw [hm]; rfl⟩, nameAndKind?, row?]
      cases ht : c.types[oid]? with
      | none => rw [Option.none_or, Option.map_map]; rfl
      | some row =>
        cases row with
        | unknown t =>
          obtain rfl : t.oid = oid := hc.isKeyed_types _ _ ht
          rfl
        | _ =>
          rw [(getElem?_ofRows_listed hc).mpr ⟨ho, ht, by simp⟩] at hr
          cases hr
  · rw [if_neg ho, if_neg fun h => ho h.1, Option.map_none, Option.or_none]
    refine Option.eq_none_iff_forall_ne_some.mpr fun row hr => ?_
    exact ho ((getElem?_ofRows_listed hc).mp hr).1

theorem getElem?_fetched (hc : c.IsPlain) (hb : oid ∈ oids → Builtin.type? oid = none) :
    (fetched c oids)[oid]? = if oid ∈ oids then c.types[oid]? else none := by
  rw [getElem?_fetched_of_built hc.built]
  refine ite_congr rfl (fun ho => ?_) fun _ => rfl
  rw [row?, hb ho, Option.map_none, Option.or_none]

/-- A plain catalog answers a request of a task with what it finds. -/
theorem gives_find {ε : Type} (hc : c.IsPlain) (he : env.Serves c may)
    (wrap : CatalogError → ε) (request : Request) :
    (Task.request wrap request).Gives env ((c.find request).mapError wrap) caches := by
  rw [← hc.answer env.deadline request, ← he.answer]
  exact Task.gives_request _ _

theorem gives_fetchRows (hc : c.IsPlain) (he : env.Serves c may) :
    (fetchRows oids).Gives env (.ok (fetched c oids)) caches := by
  refine (gives_find hc he _ (.findEnums oids)).bind fun _ _ => ?_
  refine (gives_find hc he _ (.findDomains oids)).bind fun _ _ => ?_
  refine (gives_find hc he _ (.findComposites oids)).bind fun _ _ => ?_
  refine (gives_find hc he _ (.findArrays oids)).bind fun _ _ => ?_
  dsimp only
  split
  · next h =>
    have hl : (oids.filter fun oid => !(TypeRows.ofRows (listed c oids)).contains oid) = [] := h
    have hf : fetched c oids = TypeRows.ofRows (listed c oids) := by
      simp only [fetched, hl, List.filterMap_nil, List.foldl_nil]
    rw [hf]
    rfl
  · exact (gives_find hc he _ (.findUnknown _)).bind fun _ _ => rfl

end Resolution

end TypedSql
