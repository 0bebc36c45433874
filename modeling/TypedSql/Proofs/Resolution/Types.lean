import TypedSql.Proofs.Resolution.Loading
import TypedSql.Resolution.Columns

/-!
# Resolving types

`Resolution.resolveTypes` looks into the cache several times, and others may add to it in between.
Still it ends as the dependency graph says (`Resolution.ensures_resolveTypes`): what is cached
when it starts denotes something, what is missing then is loaded, and what is missing after that
is not known to anybody. In a run on its own this holds for every cache that such runs can leave
behind, with any columns cached besides (`Resolution.resolveTypes_outcome`).

It sees to it that what it loads is cached in the end, by its own addition or by that of another
request, and it adds nothing else (`Resolution.ensures_resolveTypes_loads`).
-/

namespace TypedSql

namespace Resolution

open MemoryCatalog Relation

variable {c : MemoryCatalog} {env : Sharing} {caches : Caches} {cache : TypeCache}
  {may : Oid → Prop} {known : Oid → Option SqlType}
  {oids pending missing unresolved : List Oid} {oid : Oid} {found : TypeMap}

/-! ### Loading in a task -/

/-- In a sound cache a type stays as it is if it is cached or not known at all. -/
theorem settles_of_knows (he : env.Serves c may) (hs : caches.types.IsSound c)
    (h : c.knows oid = true → ∃ t, caches.types.get? oid = some t) :
    env.Settles caches caches.types.get? oid := by
  intro later ha
  cases hk : c.knows oid with
  | false => rw [hs.get?_eq_none hk, (he.sound ha hs).get?_eq_none hk]
  | true =>
    obtain ⟨t, ht⟩ := h hk
    rw [ht, he.keeps ha ht]

/-- Loading fails as the graph does, or everything that can be reached and is known gets
cached. -/
theorem ensures_load (hc : c.IsPlain) (he : env.Serves c may)
    (hmay : ∀ o, Loads c oids o → may o) (hp : Pending c caches.types oids pending) :
    (load pending).Ensures env (fun r later => match r with
      | .error e => Outcome c oids (.error e) ∧ ¬ Buildable c oids
      | .ok _ => Buildable c oids ∧ ∀ o, Loads c oids o → ∃ t, later.types.get? o = some t)
      caches := by
  refine (gives_fetchRows hc he).bind fun found ha => ?_
  have hset : ∀ a d, (fetched c pending).DependsOn a d → d ∉ fetched c pending →
      env.Settles found caches.types.get? d := by
    intro a d hd hn
    refine (settles_of_knows he hp.sound fun hk => ?_).later ha
    exact hp.exists_get?_eq_some hc hk (hp.reaches_of_dependsOn hc hd) hn
  refine (gives_types (hp.isKeyed hc) hset).bind fun found' ha' => ?_
  have ht := hp.types_fetched hc
  split at ht
  · next e h =>
    rw [h]
    exact ht
  · next types h =>
    obtain ⟨hb, hden, hall⟩ := ht
    rw [h]
    intro last hl
    have hkeeps : ∀ o t, caches.types.get? o = some t → last.types.get? o = some t :=
      fun _ _ => he.keeps (env.trans ha (env.trans ha' hl))
    exact ⟨he.extend (hp.fits hc hall hden hkeeps hb hmay), hb, fun o =>
      hp.exists_get?_extend hc hall hden hkeeps⟩

/-- The types that are not cached, when all are settled. -/
theorem gives_uncached (h : ∀ oid ∈ oids, env.Settles caches known oid) :
    (uncached oids).Gives env (.ok (oids.filter fun oid => (known oid).isNone)) caches := by
  induction oids generalizing caches with
  | nil => rfl
  | cons oid oids ih =>
    refine (gives_cachedType (h oid List.mem_cons_self)).bind fun found ha => ?_
    refine (ih fun o ho => (h o (List.mem_cons_of_mem _ ho)).later ha).bind fun _ _ => ?_
    rw [List.filter_cons]
    cases known oid <;> rfl

/-- Collecting puts the cached types into the map, when the others are listed as missing. -/
theorem gives_collect (h : ∀ oid ∈ oids, env.Settles caches known oid)
    (hm : ∀ oid ∈ oids, known oid = none → oid ∈ missing) :
    (collect oids found missing).Gives env (.ok (TypeCache.gather known found oids, missing))
      caches := by
  induction oids generalizing caches found with
  | nil => rfl
  | cons oid oids ih =>
    refine (gives_cachedType (h oid List.mem_cons_self)).bind fun later ha => ?_
    have ht : ∀ o ∈ oids, env.Settles later known o :=
      fun o ho => (h o (List.mem_cons_of_mem _ ho)).later ha
    have hm' : ∀ o ∈ oids, known o = none → o ∈ missing :=
      fun o ho => hm o (List.mem_cons_of_mem _ ho)
    rw [TypeCache.gather, List.foldl_cons, ← TypeCache.gather]
    cases hk : known oid with
    | some t => exact ih ht hm'
    | none =>
      have hc : missing.contains oid = true :=
        List.contains_iff_mem.mpr (hm oid List.mem_cons_self hk)
      simp only [hc, if_pos]
      exact ih ht hm'

/-! ### The whole request -/

theorem pairwise_lt_mergeSort (hn : oids.Nodup) :
    (oids.mergeSort fun a b => decide (a ≤ b)).Pairwise (· < ·) := by
  have hle : (oids.mergeSort fun a b => decide (a ≤ b)).Pairwise
      fun a b => decide (a ≤ b) = true := by
    refine List.pairwise_mergeSort (fun a b d hab hbd => ?_) (fun a b => ?_) oids
    · exact decide_eq_true (UInt32.le_trans (of_decide_eq_true hab) (of_decide_eq_true hbd))
    · simpa using UInt32.le_total a b
  have hne : (oids.mergeSort fun a b => decide (a ≤ b)).Nodup :=
    (List.mergeSort_perm oids _).nodup_iff.mpr hn
  refine (hle.and hne).imp fun ⟨h, hab⟩ => ?_
  exact UInt32.lt_of_le_of_ne (of_decide_eq_true h) hab

/-- Types that can be reached and are not known were wanted, when no type misses anything. -/
theorem mem_of_reaches (hm : ∀ o d, c.Reaches oids o → ¬ c.Misses o d) (hr : c.Reaches oids oid)
    (hk : c.knows oid = false) : oid ∈ oids := by
  obtain ⟨start, hs, hr⟩ := hr
  obtain rfl | ⟨mid, hmid, hd⟩ := ReflTransGen.cases_tail_iff _ _ _ |>.mp hr
  · exact hs
  · rw [knows_of_not_misses (hm mid · ⟨start, hs, hmid⟩) hd] at hk
    cases hk

/-- What is known near the end of a request: `cache` held some of the wanted types when it began,
and the other ones, `unresolved`, were loaded into `later` unless they are not known. -/
structure Loaded (c : MemoryCatalog) (cache : TypeCache) (oids unresolved pending : List Oid)
    (later : TypeCache) : Prop extends Buildable c unresolved where
  sound : cache.IsSound c
  soundLater : later.IsSound c
  mem_iff : ∀ o, o ∈ unresolved ↔ o ∈ oids ∧ cache.get? o = none
  nodup : pending.Nodup
  reaches : ∀ o ∈ pending, c.Reaches unresolved o
  unknown : ∀ o ∈ unresolved, c.knows o = false → o ∈ pending
  cached : ∀ o, Loads c unresolved o → ∃ t, later.get? o = some t

/-- A wanted type is looked for, or the cache held it. -/
theorem mem_or_denotes (hs : cache.IsSound c)
    (hu : ∀ o, o ∈ unresolved ↔ o ∈ oids ∧ cache.get? o = none) (ho : oid ∈ oids) :
    oid ∈ unresolved ∨ ∃ t, c.Denotes oid t := by
  cases hg : cache.get? oid with
  | some t => exact .inr ⟨t, hs.denotes oid t hg⟩
  | none => exact .inl ((hu oid).mpr ⟨ho, hg⟩)

/-- When the cache held all wanted types, they are the outcome. -/
theorem outcome_split (hc : c.IsPlain) (hs : cache.IsSound c)
    (hu : ∀ o, o ∈ ([] : List Oid) ↔ o ∈ oids ∧ cache.get? o = none) :
    Outcome c oids (.ok (cache.split oids).1) := by
  refine Outcome.of_denotes hc (fun o => ?_) fun o t ht => ?_
  · simp only [mem_map_iff, TypeCache.getElem?_split, Option.ite_none_right_eq_some,
      exists_and_left, and_iff_left_iff_imp]
    intro ho
    apply Option.ne_none_iff_exists'.mp
    intro hg
    exact absurd ((hu o).mpr ⟨ho, hg⟩) List.not_mem_nil
  · rw [TypeCache.getElem?_split, Option.ite_none_right_eq_some] at ht
    exact hs.denotes o t ht.2

namespace Loaded

variable {later : TypeCache} (h : Loaded c cache oids unresolved pending later)
include h

theorem get?_eq_none_iff (hr : c.Reaches unresolved oid) :
    later.get? oid = none ↔ c.knows oid = false := by
  refine ⟨fun hg => ?_, h.soundLater.get?_eq_none⟩
  rw [Bool.eq_false_iff]
  intro hk
  obtain ⟨t, ht⟩ := h.cached oid ⟨h.toBuildable, hr, hk⟩
  rw [ht] at hg
  cases hg

/-- What is missing in the end was wanted and is not known. -/
theorem mem_missing_iff (oid : Oid) :
    oid ∈ pending.filter (fun o => (later.get? o).isNone) ↔
      oid ∈ unresolved ∧ c.knows oid = false := by
  rw [List.mem_filter, Option.isNone_iff_eq_none]
  constructor
  · rintro ⟨ho, hg⟩
    have hk := (h.get?_eq_none_iff (h.reaches oid ho)).mp hg
    exact ⟨mem_of_reaches h.complete (h.reaches oid ho) hk, hk⟩
  · rintro ⟨ho, hk⟩
    exact ⟨h.unknown oid ho hk, h.soundLater.get?_eq_none hk⟩

/-- The types of a request, from the cache and from what was loaded. -/
theorem getElem?_gather :
    (TypeCache.gather later.get? (cache.split oids).1 unresolved)[oid]? =
      if oid ∈ oids then (cache.get? oid).or (later.get? oid) else none := by
  rw [TypeCache.getElem?_gather, TypeCache.getElem?_split]
  by_cases ho : oid ∈ oids
  · cases hg : cache.get? oid <;> simp [h.mem_iff, ho, hg]
  · simp [h.mem_iff, ho]

/-- When nothing is missing, all wanted types are the outcome. -/
theorem outcome_gather (hc : c.IsPlain) (hm : ∀ o ∈ unresolved, c.knows o = true) :
    Outcome c oids (.ok (TypeCache.gather later.get? (cache.split oids).1 unresolved)) := by
  refine Outcome.of_denotes hc (fun o => ?_) fun o t ht => ?_
  · rw [mem_map_iff, h.getElem?_gather]
    constructor
    · rintro ⟨t, ht⟩
      by_contra ho
      rw [if_neg ho] at ht
      cases ht
    · intro ho
      rw [if_pos ho]
      cases hg : cache.get? o with
      | some t => exact ⟨t, rfl⟩
      | none =>
        have hou := (h.mem_iff o).mpr ⟨ho, hg⟩
        exact h.cached o ⟨h.toBuildable, .of_mem hou, hm o hou⟩
  · rw [h.getElem?_gather, Option.ite_none_right_eq_some, Option.or_eq_some_iff] at ht
    obtain ⟨-, ht | ⟨-, ht⟩⟩ := ht
    · exact h.sound.denotes o t ht
    · exact h.soundLater.denotes o t ht

/-- When types are missing, they are the error. -/
theorem outcome_missing (hc : c.IsPlain) (hn : missing.Nodup) (hne : missing ≠ [])
    (hm : ∀ o, o ∈ missing ↔ o ∈ unresolved ∧ c.knows o = false) :
    Outcome c oids (.error (.unresolved (missing.mergeSort fun a b => decide (a ≤ b)))) := by
  have hperm := List.mergeSort_perm missing fun a b => decide (a ≤ b)
  refine Outcome.error_of_subset hc (fun o ho => ((h.mem_iff o).mp ho).1)
    (fun o => mem_or_denotes h.sound h.mem_iff) (.unresolved h.complete h.acyclic ?_ ?_ ?_)
  · intro hnil
    rw [hnil, List.nil_perm] at hperm
    exact hne hperm
  · exact pairwise_lt_mergeSort hn
  · exact fun o => hperm.mem_iff.trans (hm o)

end Loaded

/-- The end of a request. -/
theorem ensures_collect (hc : c.IsPlain) (he : env.Serves c may)
    (h : Loaded c cache oids unresolved pending caches.types) :
    Task.Ensures env (do
        let missing ← uncached pending
        let (resolved, missing) ← collect unresolved (cache.split oids).1 missing
        if missing.isEmpty then pure resolved
        else .fail (.unresolved (missing.mergeSort fun a b => decide (a ≤ b))))
      (fun r later => Outcome c oids r ∧
        ∀ o, Loads c unresolved o → ∃ t, later.types.get? o = some t) caches := by
  refine (?ends : Task.Ensures env _ (fun r _ => Outcome c oids r) caches).imp
    fun r later ha hr => ⟨hr, fun o ho => ?cached⟩
  case cached =>
    obtain ⟨t, ht⟩ := h.cached o ho
    exact ⟨t, he.keeps ha ht⟩
  have hset : ∀ o, c.Reaches unresolved o → env.Settles caches caches.types.get? o :=
    fun o hr => settles_of_knows he h.soundLater fun hk => h.cached o ⟨h.toBuildable, hr, hk⟩
  have hmem := h.mem_missing_iff
  refine (gives_uncached fun o ho => hset o (h.reaches o ho)).bind fun found hf => ?_
  have hn := h.nodup.filter fun o => (caches.types.get? o).isNone
  generalize (pending.filter fun o => (caches.types.get? o).isNone) = missing at hmem hn
  refine (gives_collect (fun o ho => (hset o (.of_mem ho)).later hf) fun o ho hg =>
    (hmem o).mpr ⟨ho, (h.get?_eq_none_iff (.of_mem ho)).mp hg⟩).bind fun _ _ => ?_
  by_cases hemp : missing.isEmpty
  · simp only [hemp, if_pos]
    apply h.outcome_gather hc
    intro o ho
    by_contra hk
    have hmo := (hmem o).mpr ⟨ho, Bool.eq_false_iff.mpr hk⟩
    rw [List.isEmpty_iff.mp hemp] at hmo
    cases hmo
  · simp only [hemp, Bool.false_eq_true, if_false]
    exact h.outcome_missing hc hn (mt List.isEmpty_iff.mpr hemp) hmem

/-- Once everything that was pending is cached, the request ends as the graph says. -/
theorem loaded_of_pending_nil {later : TypeCache} (hc : c.IsPlain) (hs : cache.IsSound c)
    (hu : ∀ o, o ∈ unresolved ↔ o ∈ oids ∧ cache.get? o = none)
    (hp : Pending c later unresolved []) : Loaded c cache oids unresolved [] later := by
  have hall : ∀ o, c.Reaches unresolved o → ∃ t, later.get? o = some t := by
    intro o hr
    apply Option.ne_none_iff_exists'.mp
    intro hg
    exact absurd ((hp.mem_iff o).mpr ⟨hr, hg⟩) List.not_mem_nil
  have hden : ∀ o, c.Reaches unresolved o → ∃ t, c.Denotes o t := by
    intro o hr
    obtain ⟨t, ht⟩ := hall o hr
    exact ⟨t, hp.sound.denotes o t ht⟩
  refine ⟨⟨fun o d hr hm => ?_, fun o hr hoo => ?_⟩, hs, hp.sound, hu, List.nodup_nil,
    fun o ho => ((hp.mem_iff o).mp ho).1, fun o ho hk => ?_, fun o hl => hall o hl.reaches⟩
  · obtain ⟨t, ht⟩ := hden o hr
    exact ht.not_misses hc hm
  · obtain ⟨t, ht⟩ := hden o hr
    exact ht.not_reachesCycle hc (reachesCycle_of_transGen hoo)
  · exact (hp.mem_iff o).mpr ⟨.of_mem ho, hp.sound.get?_eq_none hk⟩

/-- What has to be loaded is cached, when it is cached for the types that were not cached
before. -/
theorem exists_get?_of_loads {before later : TypeCache} (hc : c.IsPlain) (hs : before.IsSound c)
    (hsub : unresolved ⊆ oids) (hu : ∀ o ∈ oids, o ∈ unresolved ∨ ∃ t, before.get? o = some t)
    (hkeeps : ∀ o t, before.get? o = some t → later.get? o = some t)
    (hall : ∀ o, Loads c unresolved o → ∃ t, later.get? o = some t) (hl : Loads c oids oid) :
    ∃ t, later.get? oid = some t := by
  obtain ⟨start, hm, hr⟩ := hl.reaches
  obtain ho | ⟨t, ht⟩ := hu start hm
  · exact hall oid ⟨hl.toBuildable.mono hsub, ⟨start, ho, hr⟩, hl.knows⟩
  · obtain ⟨s, hs⟩ := hs.exists_get?_of_reflTransGen hc ht hr
    exact ⟨s, hkeeps oid s hs⟩

/-- However others use the cache meanwhile, a request ends as the dependency graph says, and what
it has to load is cached then. It adds nothing else. -/
theorem ensures_resolveTypes_loads (hc : c.IsPlain) (he : env.Serves c may)
    (hmay : ∀ o, Loads c oids o → may o) (hs : caches.types.IsSound c) :
    (resolveTypes oids).Ensures env (fun r later => Outcome c oids r ∧
      ∀ o, Loads c oids o → ∃ t, later.types.get? o = some t) caches := by
  rw [resolveTypes]
  intro found ha
  have hf := he.sound ha hs
  have hu : ∀ o, o ∈ (found.types.split oids).2 ↔ o ∈ oids ∧ found.types.get? o = none :=
    fun o => TypeCache.mem_split
  have hsplit : found.types.split oids = ((found.types.split oids).1, (found.types.split oids).2) :=
    rfl
  beta_reduce
  rw [hsplit]
  generalize (found.types.split oids).2 = unresolved at hu
  have hsub : unresolved ⊆ oids := fun o ho => ((hu o).mp ho).1
  have hor : ∀ o ∈ oids, o ∈ unresolved ∨ ∃ t, found.types.get? o = some t := by
    intro o ho
    cases hg : found.types.get? o with
    | none => exact .inl ((hu o).mpr ⟨ho, hg⟩)
    | some t => exact .inr ⟨t, rfl⟩
  dsimp only
  split
  · next hemp =>
    obtain rfl := List.isEmpty_iff.mp hemp
    refine ⟨outcome_split hc hf hu, fun o => ?_⟩
    refine exists_get?_of_loads hc hf hsub hor (fun _ _ => id) fun o hl => ?_
    obtain ⟨_, hm, -⟩ := hl.reaches
    cases hm
  · refine (gives_find hc he _ (.findDescendants unresolved)).bind fun found₁ ha₁ => ?_
    intro found₂ ha₂
    have hf₂ := he.sound ha₂ (he.sound ha₁ hf)
    have hp : Pending c found₂.types unresolved
        (found₂.types.split (unresolved ++ c.descendants unresolved).eraseDups).2 := by
      refine ⟨hf₂, fun o => ?_⟩
      rw [TypeCache.mem_split, List.mem_eraseDups, List.mem_append, mem_descendants]
      exact and_congr_left fun _ => or_iff_right_of_imp .of_mem
    have hn : (found₂.types.split (unresolved ++ c.descendants unresolved).eraseDups).2.Nodup :=
      TypeCache.nodup_split
    dsimp only
    generalize (found₂.types.split (unresolved ++ c.descendants unresolved).eraseDups).2 =
      pending at hp hn
    have hcached : ∀ later, env.allowed found₂ later →
        (∀ o, Loads c unresolved o → ∃ t, later.types.get? o = some t) →
        ∀ o, Loads c oids o → ∃ t, later.types.get? o = some t :=
      fun later hl hall o => exists_get?_of_loads hc hf hsub hor
        (fun _ _ => he.keeps (env.trans ha₁ (env.trans ha₂ hl))) hall
    have hload : ∀ o, Loads c unresolved o → may o := fun o ho =>
      hmay o (ho.of_subset hc hsub fun o => mem_or_denotes hf hu)
    split
    · refine Task.ensures_bind.mpr ((ensures_load hc he hload hp).imp fun r later hl hr => ?_)
      cases r with
      | error e =>
        refine ⟨Outcome.error_of_subset hc hsub (fun o => mem_or_denotes hf hu) hr.1, ?_⟩
        exact fun o ho => absurd (ho.toBuildable.mono hsub) hr.2
      | ok _ =>
        refine (ensures_collect hc he ⟨hr.1, hf, he.sound hl hf₂, hu, hn,
          fun o ho => ((hp.mem_iff o).mp ho).1,
          fun o ho hk => (hp.mem_iff o).mpr ⟨.of_mem ho, hf₂.get?_eq_none hk⟩, hr.2⟩).imp ?_
        exact fun r last hl' h => ⟨h.1, hcached last (env.trans hl hl') h.2⟩
    · next hemp =>
      obtain rfl : pending = [] := by simpa using hemp
      refine (ensures_collect hc he (loaded_of_pending_nil hc hf hu hp)).imp ?_
      exact fun r last hl h => ⟨h.1, hcached last hl h.2⟩

/-- A request for types ends as the dependency graph says, when it may add what it likes. -/
theorem ensures_resolveTypes (hc : c.IsPlain) (he : env.Serves c fun _ => True)
    (hs : caches.types.IsSound c) :
    (resolveTypes oids).Ensures env (fun r _ => Outcome c oids r) caches :=
  (ensures_resolveTypes_loads hc he (fun _ _ => trivial) hs).imp fun _ _ _ h => h.1

end Resolution

end TypedSql
