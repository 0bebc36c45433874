import Mathlib.Data.List.Find
import TypedSql.Proofs.Resolution.Outcome
import TypedSql.Proofs.Resolution.Rows
import TypedSql.Proofs.Resolution.RowsOutcome

/-!
# Loading types

Types are loaded when the cache lacks some of those that can be reached. The rows that are fetched
for the missing ones are the part of the dependency graph in which something can still go wrong:
a type that misses a dependency or leads to a circle is never cached, so it has its row there.
What a row names and what is not a row itself is cached, or else unknown and so never cached.
Hence the errors of building the rows are those of the whole graph, and without an error
everything that can be reached and is known is cached in the end
(`Resolution.Pending.exists_get?_extend`).
-/

namespace TypedSql

namespace Resolution

open MemoryCatalog Relation

variable {c : MemoryCatalog} {env : Sharing} {caches : Caches} {cache : TypeCache}
  {oids pending : List Oid} {oid a b d : Oid} {row : TypeRow} {types : TypeMap}

/-- The pending types are those that can be reached and are not cached. -/
structure Pending (c : MemoryCatalog) (cache : TypeCache) (oids pending : List Oid) : Prop where
  sound : cache.IsSound c
  mem_iff (oid : Oid) : oid ∈ pending ↔ c.Reaches oids oid ∧ cache.get? oid = none

namespace Pending

theorem getElem?_fetched (hc : c.IsPlain) (hp : Pending c cache oids pending) :
    (fetched c pending)[oid]? = some row ↔
      c.types[oid]? = some row ∧ c.Reaches oids oid ∧ cache.get? oid = none := by
  rw [Resolution.getElem?_fetched hc, ← hp.mem_iff, Option.ite_none_right_eq_some, and_comm]
  intro ho
  cases hb : Builtin.type? oid with
  | none => rfl
  | some t =>
    have hn := ((hp.mem_iff oid).mp ho).2
    rw [hp.sound.builtin oid t hb] at hn
    cases hn

theorem isKeyed (hc : c.IsPlain) (hp : Pending c cache oids pending) :
    (fetched c pending).IsKeyed :=
  fun oid row h => hc.built.isKeyed_types oid row ((hp.getElem?_fetched hc).mp h).1

theorem mem_fetched (hc : c.IsPlain) (hp : Pending c cache oids pending) :
    oid ∈ fetched c pending ↔ oid ∈ c.types ∧ c.Reaches oids oid ∧ cache.get? oid = none := by
  simp only [mem_map_iff, hp.getElem?_fetched hc, exists_and_right]

theorem dependsOn_fetched (hc : c.IsPlain) (hp : Pending c cache oids pending) :
    (fetched c pending).DependsOn a b ↔ a ∈ fetched c pending ∧ c.types.DependsOn a b := by
  rw [hp.mem_fetched hc]
  constructor
  · rintro ⟨row, hr, hb⟩
    obtain ⟨ht, hrest⟩ := (hp.getElem?_fetched hc).mp hr
    exact ⟨⟨mem_map_iff.mpr ⟨row, ht⟩, hrest⟩, row, ht, hb⟩
  · rintro ⟨⟨-, hrest⟩, row, ht, hb⟩
    exact ⟨row, (hp.getElem?_fetched hc).mpr ⟨ht, hrest⟩, hb⟩

theorem reaches_of_dependsOn (hc : c.IsPlain) (hp : Pending c cache oids pending)
    (h : (fetched c pending).DependsOn a b) : c.Reaches oids b := by
  obtain ⟨hm, hab⟩ := (hp.dependsOn_fetched hc).mp h
  exact ((hp.mem_fetched hc).mp hm).2.1.tail hab

/-- What has a row, can be reached and does not denote anything was fetched. -/
theorem mem_fetched_of_not_denotes (hc : c.IsPlain) (hp : Pending c cache oids pending)
    (hr : c.Reaches oids oid) (ht : oid ∈ c.types) (hn : ∀ t, ¬ c.Denotes oid t) :
    oid ∈ fetched c pending := by
  refine (hp.mem_fetched hc).mpr ⟨ht, hr, ?_⟩
  cases hg : cache.get? oid with
  | none => rfl
  | some t => exact absurd (hp.sound.denotes oid t hg) (hn t)

/-- A type that can be reached is missing from rows and cache just when it is not known. -/
theorem contains_or_isSome (hc : c.IsPlain) (hp : Pending c cache oids pending)
    (hr : c.Reaches oids oid) :
    (!(fetched c pending).contains oid && (cache.get? oid).isNone) = !c.knows oid := by
  cases hk : c.knows oid with
  | false =>
    have hm : (fetched c pending).contains oid = false := by
      rw [← Bool.not_eq_true, Std.ExtTreeMap.contains_iff_mem, hp.mem_fetched hc]
      intro hm
      rw [knows_iff.mpr (.inl hm.1)] at hk
      cases hk
    rw [hp.sound.get?_eq_none hk, hm]
    rfl
  | true =>
    cases hg : cache.get? oid with
    | some t => simp
    | none =>
      have ht : oid ∈ c.types := by
        refine (knows_iff.mp hk).resolve_right fun hb => ?_
        obtain ⟨t, hb⟩ := Option.isSome_iff_exists.mp hb
        rw [hp.sound.builtin oid t hb] at hg
        cases hg
      have hm : (fetched c pending).contains oid = true :=
        Std.ExtTreeMap.contains_iff_mem.mpr ((hp.mem_fetched hc).mpr ⟨ht, hr, hg⟩)
      rw [hm]
      rfl

/-! ### Errors of the rows and errors of the graph -/

/-- The rows that lack something are those of the types that miss something. -/
theorem lacks_fetched (hc : c.IsPlain) (hp : Pending c cache oids pending) :
    Lacks cache.get? (fetched c pending) oid d ↔ oid ∈ fetched c pending ∧ c.Misses oid d := by
  have hf : ∀ row : TypeRow, (fetched c pending)[oid]? = some row →
      (row.dependencies.find? fun d =>
        !(fetched c pending).contains d && (cache.get? d).isNone) =
      row.dependencies.find? fun d => !c.knows d := by
    intro row hr
    refine List.find?_congr fun d hd => ?_
    exact hp.contains_or_isSome hc (hp.reaches_of_dependsOn hc ⟨row, hr, hd⟩)
  constructor
  · rintro ⟨row, hr, hd⟩
    rw [hf row hr] at hd
    exact ⟨mem_map_iff.mpr ⟨row, hr⟩, row, ((hp.getElem?_fetched hc).mp hr).1, hd⟩
  · rintro ⟨hm, row, ht, hd⟩
    have hr := (hp.getElem?_fetched hc).mpr ⟨ht, ((hp.mem_fetched hc).mp hm).2⟩
    rw [← hf row hr] at hd
    exact ⟨row, hr, hd⟩

theorem mem_fetched_of_misses (hc : c.IsPlain) (hp : Pending c cache oids pending)
    (hr : c.Reaches oids oid) (hm : c.Misses oid d) : oid ∈ fetched c pending := by
  obtain ⟨row, ht, -⟩ := id hm
  exact hp.mem_fetched_of_not_denotes hc hr (mem_map_iff.mpr ⟨row, ht⟩)
    fun t h => h.not_misses hc hm

theorem lacks_of_misses (hc : c.IsPlain) (hp : Pending c cache oids pending)
    (hr : c.Reaches oids oid) (hm : c.Misses oid d) : Lacks cache.get? (fetched c pending) oid d :=
  (hp.lacks_fetched hc).mpr ⟨hp.mem_fetched_of_misses hc hr hm, hm⟩

theorem transGen_fetched (hc : c.IsPlain) (hp : Pending c cache oids pending)
    (h : TransGen c.types.DependsOn a b) (ha : c.Reaches oids a) (hb : c.types.ReachesCycle b) :
    TransGen (fetched c pending).DependsOn a b := by
  have hm : ∀ {a}, c.Reaches oids a → c.types.ReachesCycle a → a ∈ fetched c pending :=
    fun hr hcy => hp.mem_fetched_of_not_denotes hc hr hcy.mem fun t ht => ht.not_reachesCycle hc hcy
  induction h using TransGen.head_induction_on with
  | single hab => exact .single ((hp.dependsOn_fetched hc).mpr ⟨hm ha (hb.head hab), hab⟩)
  | head had hdb ih =>
    obtain ⟨m, hbm, hmm⟩ := hb
    have hd := TypeRows.ReachesCycle.head had ⟨m, hdb.to_reflTransGen.trans hbm, hmm⟩
    exact .head ((hp.dependsOn_fetched hc).mpr ⟨hm ha hd, had⟩) (ih (ha.tail had))

/-- A circle can be reached among the rows just when one can be reached at all. -/
theorem reachesCycle_fetched (hc : c.IsPlain) (hp : Pending c cache oids pending) :
    (fetched c pending).ReachesCycle oid ↔ c.Reaches oids oid ∧ c.types.ReachesCycle oid := by
  constructor
  · intro h
    exact ⟨((hp.mem_fetched hc).mp h.mem).2.1,
      h.mono fun a b hab => ((hp.dependsOn_fetched hc).mp hab).2⟩
  · rintro ⟨hr, b, hab, hbb⟩
    have hb := reachesCycle_of_transGen hbb
    refine ⟨b, ?_, hp.transGen_fetched hc hbb (hr.trans hab) hb⟩
    obtain rfl | hab := reflTransGen_iff_eq_or_transGen.mp hab
    · exact .refl
    · exact (hp.transGen_fetched hc hab hr hb).to_reflTransGen

/-! ### Types without an error -/

/-- A type that is built from what other types denote is what its row denotes. -/
theorem denotes_of_build {known : Oid → Option SqlType} {t : SqlType}
    (hr : c.types[oid]? = some row) (hb : build (m := Id) known types row = some t)
    (hd : ∀ d ∈ row.dependencies, ∀ s, lookup (m := Id) known types d = some s → c.Denotes d s) :
    c.Denotes oid t := by
  cases row with
  | enum e =>
    obtain rfl := Option.some.inj hb
    exact .enum hr
  | unknown u =>
    obtain rfl := Option.some.inj hb
    exact .unknown hr
  | domain row =>
    obtain ⟨s, hs, rfl⟩ := Option.map_eq_some_iff.mp hb
    exact .domain hr (hd _ (List.mem_singleton.mpr rfl) s hs)
  | array row =>
    obtain ⟨s, hs, rfl⟩ := Option.map_eq_some_iff.mp hb
    exact .array hr (hd _ (List.mem_singleton.mpr rfl) s hs)
  | composite row =>
    obtain ⟨ts, hts, rfl⟩ := Option.map_eq_some_iff.mp hb
    obtain ⟨hl, hz⟩ := lookupAll_eq_some hts
    exact .composite hr hl fun p hm => hd p.1 (List.of_mem_zip hm).1 p.2 (hz p hm)

theorem exists_get?_eq_some (hc : c.IsPlain) (hp : Pending c cache oids pending)
    (hk : c.knows oid = true) (hr : c.Reaches oids oid) (hn : oid ∉ fetched c pending) :
    ∃ t, cache.get? oid = some t := by
  have h := hp.contains_or_isSome hc hr
  rw [← Std.ExtTreeMap.contains_iff_mem, Bool.not_eq_true] at hn
  rw [hk, hn] at h
  rw [← Option.isSome_iff_exists, ← Option.not_isNone, show (cache.get? oid).isNone = false from h]
  rfl

/-- Rows that were built have what they denote. -/
theorem denotes_of_built (hc : c.IsPlain) (hp : Pending c cache oids pending)
    (ha : ∀ o, ¬ TransGen (fetched c pending).DependsOn o o)
    (h : AreTypes cache.get? (fetched c pending) types) :
    ∀ o t, types[o]? = some t → c.Denotes o t := by
  have hden : ∀ o t, lookup (m := Id) cache.get? types o = some t → c.Denotes o t := by
    refine TypeRows.induction_of_acyclic ha
      (motive := fun o => ∀ t, lookup (m := Id) cache.get? types o = some t → c.Denotes o t)
      fun o ih t ht => ?_
    rw [lookup_eq, Option.or_eq_some_iff] at ht
    obtain ht | ⟨-, ht⟩ := ht
    · obtain ⟨row, hr⟩ := mem_map_iff.mp ((h.mem_iff o).mp (mem_map_iff.mpr ⟨t, ht⟩))
      have hb := h.makes o row t hr ht
      rw [← lookup_eq_part h.mem_iff, ← build_eq_some_iff] at hb
      exact denotes_of_build ((hp.getElem?_fetched hc).mp hr).1 hb fun d hd => ih d ⟨row, hr, hd⟩
    · exact hp.sound.denotes o t ht
  intro o t ht
  apply hden o t
  rw [lookup_eq, ht, Option.some_or]

/-- Building the rows fails as the graph does, or gives every row what it denotes. -/
theorem types_fetched (hc : c.IsPlain) (hp : Pending c cache oids pending) :
    match (Resolution.types (m := Id) cache.get? (fetched c pending) :
      Except ResolveError TypeMap) with
    | .error e => Outcome c oids (.error e) ∧ ¬ Buildable c oids
    | .ok types => Buildable c oids ∧
      (∀ o t, types[o]? = some t → o ∈ fetched c pending ∧ c.Denotes o t) ∧
      ∀ o ∈ fetched c pending, ∃ t, types[o]? = some t := by
  have hout : RowsOutcome cache.get? (fetched c pending) _ := rowsOutcome_types (hp.isKeyed hc)
  generalize (Resolution.types (m := Id) cache.get? (fetched c pending) :
    Except ResolveError TypeMap) = r at hout
  have hmisses (hn : ∀ o d, ¬ Lacks cache.get? (fetched c pending) o d) (o d : Oid)
      (hr : c.Reaches oids o) : ¬ c.Misses o d :=
    fun hm => hn o d (hp.lacks_of_misses hc hr hm)
  cases hout with
  | missingDependency hl hleast =>
    obtain ⟨hmem, hm⟩ := (hp.lacks_fetched hc).mp hl
    have ho : Outcome c oids (.error (.missingDependency _ _)) :=
      .missingDependency ((hp.mem_fetched hc).mp hmem).2.1 hm
        fun o d hr hod => hleast o d (hp.lacks_of_misses hc hr hod)
    exact ⟨ho, ho.not_buildable⟩
  | cycle hn hcyc hs hi =>
    obtain ⟨a, ha⟩ := hcyc
    obtain ⟨hr, hcy⟩ := (hp.reachesCycle_fetched hc).mp ⟨a, .refl, ha⟩
    obtain ⟨b, hb, hbb⟩ := exists_transGen_of_reachesCycle hr hcy
    exact ⟨.cycle (hmisses hn) ⟨b, hb, hbb⟩ hs
      fun o => (hi o).trans (hp.reachesCycle_fetched hc), fun h => h.acyclic b hb hbb⟩
  | built hn ha htypes =>
    refine ⟨⟨hmisses hn, fun o hr hoo => ?_⟩, fun o t ht => ⟨?_, ?_⟩, fun o ho => ?_⟩
    · obtain ⟨b, -, hbb⟩ := (hp.reachesCycle_fetched hc).mpr ⟨hr, reachesCycle_of_transGen hoo⟩
      exact ha b hbb
    · exact (htypes.mem_iff o).mp (mem_map_iff.mpr ⟨t, ht⟩)
    · exact hp.denotes_of_built hc ha htypes o t ht
    · exact mem_map_iff.mp ((htypes.mem_iff o).mpr ho)

/-! ### Additions to the cache -/

section Add

variable {later : TypeCache} (hc : c.IsPlain) (hp : Pending c cache oids pending)
  (hall : ∀ o ∈ fetched c pending, ∃ t, types[o]? = some t)
  (hden : ∀ o t, types[o]? = some t → o ∈ fetched c pending ∧ c.Denotes o t)
  (hkeeps : ∀ o t, cache.get? o = some t → later.get? o = some t)
include hc hp hall hden hkeeps

/-- With the types of the rows everything is cached that the request has to load. -/
theorem exists_get?_extend (hl : Loads c oids oid) :
    ∃ t, (later.extend types.values).get? oid = some t := by
  by_cases ho : oid ∈ fetched c pending
  · obtain ⟨t, ht⟩ := hall oid ho
    obtain rfl := (hden oid t ht).2.oid_eq hc
    exact TypeCache.exists_get?_extend _ (mem_values_iff.mpr ⟨_, ht⟩)
  · obtain ⟨t, ht⟩ := hp.exists_get?_eq_some hc hl.knows hl.reaches ho
    exact ⟨t, TypeCache.get?_extend_of_eq_some (hkeeps oid t ht) _⟩

/-- The types of the rows can be added, when none of them misses anything. -/
theorem fits {may : Oid → Prop} (hb : Buildable c oids) (hmay : ∀ o, Loads c oids o → may o) :
    later.Fits c may types.values := by
  have hrow : ∀ t ∈ types.values, Loads c oids t.oid ∧ c.Denotes t.oid t := by
    intro t ht
    obtain ⟨o, ho⟩ := mem_values_iff.mp ht
    obtain ⟨hm, hd⟩ := hden o t ho
    obtain rfl := hd.oid_eq hc
    exact ⟨⟨hb, ((hp.mem_fetched hc).mp hm).2.1, hd.knows⟩, hd⟩
  refine ⟨fun t ht => (hrow t ht).2, fun t d ht hd => ?_, fun t ht => hmay _ (hrow t ht).1⟩
  have hr := (hrow t ht).1.reaches
  have hk := knows_of_not_misses (hb.complete t.oid · hr) hd
  exact hp.exists_get?_extend hc hall hden hkeeps ⟨hb, hr.tail hd, hk⟩

end Add

end Pending

end Resolution

end TypedSql
