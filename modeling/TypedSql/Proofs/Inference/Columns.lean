import TypedSql.Proofs.Inference.Caching
import TypedSql.Proofs.Resolution.Calls
import TypedSql.Proofs.Resolution.ColumnCourse
import TypedSql.Proofs.Resolution.RoundTrips

/-!
# Columns in the middle of a run

While a run types its queries, its caches hold some types and columns already, and other work may
be under way that shares them. Whatever has come about so far (`Caches.Reachable`), a request for
columns gives each key its own column, whichever other keys are requested with it, and succeeds if
and only if each key has one. What is not cached is asked for at once
(`Resolution.fetchColumns_pointwise`).

The keys that are asked for are those that are not cached, each where it stands first.
-/

namespace TypedSql

namespace Task

variable {ε α : Type} {env : Sharing} {catalog : Catalog} {deadline : Duration} {caches : Caches}
  {t : Task ε α}

/-- A task of which only the effect on the caches matters. -/
def effect (t : Task ε α) : Task Unit Unit :=
  (t.mapError fun _ => ()).bind fun _ => .done ()

theorem Ensures.effect {post : Except ε α → Caches → Prop} (h : t.Ensures env post caches) :
    t.effect.Ensures env (fun _ _ => True) caches := by
  have hmap : (t.mapError fun _ => ()).Ensures env (fun _ _ => True) caches :=
    ensures_mapError.mpr (h.imp fun _ _ _ _ => trivial)
  exact hmap.bind (fun _ _ _ _ => trivial) fun _ _ _ _ => trivial

theorem caches_run_effect (t : Task ε α) (caches : Caches) :
    (t.effect.run catalog deadline caches).caches = (t.run catalog deadline caches).caches := by
  rw [effect, run_bind, run_mapError]
  dsimp only
  cases (t.run catalog deadline caches).result <;> rfl

end Task

namespace Inference

/-- What the caches of a run are used for. -/
inductive Use where
  | types (oids : List Oid)
  | columns (keys : List ColumnKey)
  | query (q : SourceQuery)

/-- A use of the caches with the deadline of its requests. -/
structure Job where
  use : Use
  deadline : Duration

/-- The task of a job, as far as the caches are concerned. -/
def Job.task (job : Job) : Task Unit Unit :=
  match job.use with
  | .types oids => (Resolution.resolveTypes oids).effect
  | .columns keys => (Resolution.fetchColumns keys).effect
  | .query q => (infer q).effect

end Inference

open Inference MemoryCatalog

namespace Caches

variable {c : MemoryCatalog} {caches : Caches}

/-- The caches come about while any number of workers share them, from those of a new run on. Jobs
that are under way may have added a part of what they add. -/
def Reachable (c : MemoryCatalog) (caches : Caches) : Prop :=
  ∃ (work : List (List Job)) (s : System Job Unit Unit),
    System.Steps c.catalog Job.deadline (.start Job.task work) s ∧ s.caches = caches

theorem reachable_new (c : MemoryCatalog) : Reachable c .new :=
  ⟨[], _, .refl, rfl⟩

/-- One job more can be done. -/
theorem Reachable.run (h : Reachable c caches) (job : Job) :
    Reachable c (job.task.run c.catalog job.deadline caches).caches := by
  obtain ⟨work, s, hs, rfl⟩ := h
  have hstart : System.start Job.task (work ++ [[job]]) =
      ⟨(System.start Job.task work).workers ++ [.start Job.task [job]], .new⟩ :=
    congrArg (System.mk · .new) List.map_append
  -- A worker of its own has the job and starts when the others have got this far.
  have hwait := hs.append_worker (.start Job.task [job])
  have hall := hwait.trans (System.steps_run s.workers [] [] [] job job.task s.caches)
  exact ⟨work ++ [[job]], _, hstart ▸ hall, rfl⟩

/-- A task that comes to the same from all sound caches keeps them sound. -/
theorem ensures_effect {ε α : Type} {deadline : Duration} {t : Task ε α}
    (ht : t.Determined c deadline) :
    t.effect.Ensures (c.sharing deadline) (fun _ _ => True) .new := by
  obtain ⟨r, hr⟩ := ht
  exact (hr .new (TypeCache.isSound_builtin c) ColumnCache.isSound_empty).effect

/-- All caches that come about are sound. -/
theorem Reachable.isSound (hc : c.IsPlain) (h : Reachable c caches) :
    Resolution.IsSound c caches := by
  obtain ⟨work, s, hs, rfl⟩ := h
  have hstart : (System.start Job.task work).Holds (c.sharing ⟨0⟩) Job.deadline
      fun _ _ _ => True := by
    refine System.holds_start fun jobs _ job _ => ?_
    obtain ⟨use, deadline⟩ := job
    cases use with
    | types oids => exact ensures_effect (Resolution.determined_resolveTypes hc oids)
    | columns keys => exact ensures_effect (Resolution.determined_fetchColumns hc keys)
    | query q => exact ensures_effect (determined_infer hc q)
  obtain ⟨hgrows, -⟩ := hstart.steps (fun _ _ _ _ _ _ => trivial) hs
  exact (Resolution.isSound_new c).later hgrows

end Caches

namespace Resolution

variable {c : MemoryCatalog} {deadline : Duration} {caches : Caches} {keys : List ColumnKey}
  {columns : List Column}

/-! ### Results -/

theorem key_of_isColumn (hc : c.Built) {key : ColumnKey} {column : Column}
    (h : c.IsColumn key column) : column.key = key := by
  obtain ⟨row, t, hrow, -, rfl⟩ := h
  exact hc.key_of_getElem? hrow

theorem exists_isColumn_iff {key : ColumnKey} : (∃ column, c.IsColumn key column) ↔
    ∃ row t, c.columns[key]? = some row ∧ c.Denotes row.typeOid t := by
  constructor
  · rintro ⟨column, row, t, hrow, ht, -⟩
    exact ⟨row, t, hrow, ht⟩
  · rintro ⟨row, t, hrow, ht⟩
    exact ⟨row.column t, row, t, hrow, ht, rfl⟩

/-- From sound caches a request for columns gives each key its column. -/
theorem fetchColumns_eq_ok_iff (hc : c.IsPlain) (hs : IsSound c caches) :
    ((fetchColumns keys).run c.catalog deadline caches).result = .ok columns ↔
      List.Forall₂ c.IsColumn keys columns := by
  have h : (fetchColumns keys).Ensures (c.sharing deadline)
      (fun r _ => caches.columns.IsSound c → ColumnsOutcome c keys r) caches :=
    ensures_fetchColumns hc (c.servesColumns deadline) hs.types
  have houtcome : ColumnsOutcome c keys
      ((fetchColumns keys).run c.catalog deadline caches).result := h.run hs.columns
  constructor
  · intro hok
    rw [hok] at houtcome
    cases houtcome with
    | found hf => exact hf
  · exact fun hf => houtcome.unique hc (.found hf)

theorem exists_forall₂_isColumn_iff :
    (∃ columns, List.Forall₂ c.IsColumn keys columns) ↔
      ∀ key ∈ keys, ∃ column, c.IsColumn key column := by
  constructor
  · rintro ⟨columns, h⟩ key hk
    exact exists_isColumn h hk
  · intro h
    induction keys with
    | nil => exact ⟨[], .nil⟩
    | cons key keys ih =>
      obtain ⟨⟨column, hcolumn⟩, hkeys⟩ := List.forall_mem_cons.mp h
      obtain ⟨columns, hcolumns⟩ := ih hkeys
      exact ⟨column :: columns, .cons hcolumn hcolumns⟩

/-! ### Requests -/

theorem operation_ne_of_isAboutTypes {request : Request} (h : request.IsAboutTypes) :
    request.operation ≠ .findColumns := by
  cases request with
  | describe | explain | findColumns => exact h.elim
  | findDescendants | findEnums | findDomains | findComposites | findArrays | findUnknown => nofun

/-- A request for types asks a catalog that answers about types only. -/
theorem isAboutTypes_requests (hc : c.IsPrompt) (oids : List Oid) :
    ∀ request ∈ ((resolveTypes oids).run c.catalog deadline caches).requests,
      request.IsAboutTypes := by
  -- The course does not tell what came before a refusal, but a prompt catalog refuses nothing.
  by_cases hnone : ∃ oid ∈ oids, caches.types.get? oid = none
  · obtain ⟨a, ha⟩ := exists_retrieval hc deadline hnone
    rw [ha, Retrieval.requests]
    by_cases hl : a.fetch.leftovers = []
    · simp [Listing.requests_of_eq_nil hl, Request.IsAboutTypes]
    · simp [Listing.requests_of_ne_nil hl, Request.IsAboutTypes]
  · push Not at hnone
    rw [requests_of_cached fun oid ho => Option.ne_none_iff_exists'.mp (hnone oid ho)]
    exact fun _ h => absurd h List.not_mem_nil

/-- What is not cached is asked for with one request, in front of the requests for its types. -/
theorem exists_requests_fetchColumns (hc : c.IsPrompt) (deadline : Duration)
    (hne : caches.columns.missing keys ≠ []) :
    ∃ rest, ((fetchColumns keys).run c.catalog deadline caches).requests =
        .findColumns (caches.columns.missing keys) :: rest ∧
      ∀ request ∈ rest, request.IsAboutTypes := by
  have habout (oids : List Oid) : ∀ request ∈ ((resolveTypes oids).run c.catalog deadline
      caches).requests, request.IsAboutTypes := isAboutTypes_requests hc oids
  have hcourse : ColumnCourse c.catalog deadline keys caches _ := course_fetchColumns keys caches
  generalize (fetchColumns keys).run c.catalog deadline caches = run at hcourse
  cases hcourse with
  | cached hnone => exact absurd hnone hne
  | refused => exact ⟨[], rfl, fun _ h => absurd h List.not_mem_nil⟩
  | @failed rows _ _ _ _ _ hrun =>
    have habout := habout (rows.map (·.typeOid))
    rw [hrun] at habout
    exact ⟨_, rfl, habout⟩
  | @stored rows _ _ _ _ _ hrun =>
    have habout := habout (rows.map (·.typeOid))
    rw [hrun] at habout
    exact ⟨_, rfl, habout⟩

/-- The catalog is asked for columns once. -/
theorem filter_requests_fetchColumns (hc : c.IsPrompt) (deadline : Duration)
    (hne : caches.columns.missing keys ≠ []) :
    ((fetchColumns keys).run c.catalog deadline caches).requests.filter
      (fun request => request.operation = .findColumns) =
        [.findColumns (caches.columns.missing keys)] := by
  obtain ⟨rest, hrest, habout⟩ := exists_requests_fetchColumns hc deadline hne
  have hnone : rest.filter (fun request => request.operation = .findColumns) = [] := by
    rw [List.filter_eq_nil_iff]
    exact fun request h => by simpa using operation_ne_of_isAboutTypes (habout request h)
  rw [hrest, List.filter_cons, hnone]
  rfl

theorem requests_fetchColumns_of_cached {catalog : Catalog}
    (hnone : caches.columns.missing keys = []) :
    ((fetchColumns keys).run catalog deadline caches).requests = [] := by
  have hcourse : ColumnCourse catalog deadline keys caches _ := course_fetchColumns keys caches
  generalize (fetchColumns keys).run catalog deadline caches = run at hcourse
  cases hcourse with
  | cached => rfl
  | refused hne | failed hne | stored hne => exact absurd hnone hne

theorem missing_eq_nil_iff {cache : ColumnCache} :
    cache.missing keys = [] ↔ ∀ key ∈ keys, ∃ column, cache.get? key = some column := by
  simp only [List.eq_nil_iff_forall_not_mem, mem_missing, not_and, ← ne_eq,
    Option.ne_none_iff_exists']

/-- The missing keys are in the order in which they stand first. -/
theorem pairwise_missing (cache : ColumnCache) (keys : List ColumnKey) :
    (cache.missing keys).Pairwise fun a b => keys.idxOf a < keys.idxOf b := by
  have hall {key : ColumnKey} (hk : key ∈ cache.missing keys) : (!cache.contains key) = true :=
    (List.mem_filter.mp (List.mem_eraseDups.mp hk)).2
  exact (pairwise_idxOf_eraseDups _).imp_of_mem fun ha hb h =>
    idxOf_lt_of_filter (hall ha) (hall hb) h

/-! ### The whole request -/

/-- Whatever has come about in a run so far, a request for columns gives each key the column of its
row, with the type that the row's type denotes, as a request for this key alone does. It succeeds
if and only if every key has a row whose type denotes something. The catalog is asked for columns
once, for the keys that are not cached, each where it stands first; it is asked for nothing when
all keys are cached. -/
theorem fetchColumns_pointwise (hc : c.IsPlain) (hr : Caches.Reachable c caches)
    (deadline : Duration) (keys : List ColumnKey) :
    let run := (fetchColumns keys).run c.catalog deadline caches
    (∀ columns, run.result = .ok columns → columns.length = keys.length ∧
      ∀ (i : Nat) (key : ColumnKey), keys[i]? = some key → ∃ column row t,
        columns[i]? = some column ∧ column.key = key ∧
        c.columns[key]? = some row ∧ c.Denotes row.typeOid t ∧
        column = ⟨row.name, row.table, row.tableName, row.order, t, !row.notNull⟩ ∧
        ∀ other, Caches.Reachable c other → ∀ deadline',
          ((fetchColumns [key]).run c.catalog deadline' other).result = .ok [column]) ∧
    ((∃ columns, run.result = .ok columns) ↔
      ∀ key ∈ keys, ∃ row t, c.columns[key]? = some row ∧ c.Denotes row.typeOid t) ∧
    ((∀ key ∈ keys, ∃ column, caches.columns.get? key = some column) → run.requests = []) ∧
    ((∃ key ∈ keys, caches.columns.get? key = none) → ∃ missing : List ColumnKey,
      run.requests.filter (fun request => request.operation = .findColumns) =
        [.findColumns missing] ∧
      (∀ key, key ∈ missing ↔ key ∈ keys ∧ caches.columns.get? key = none) ∧
      missing.Pairwise fun a b => keys.idxOf a < keys.idxOf b) := by
  have hs := hr.isSound hc
  refine ⟨fun columns hok => ?_, ?_, fun h => ?_, ?_⟩
  · have hall := (fetchColumns_eq_ok_iff hc hs).mp hok
    refine ⟨hall.length_eq.symm, fun i key hi => ?_⟩
    obtain ⟨hlt, rfl⟩ := List.getElem?_eq_some_iff.mp hi
    have hlt' : i < columns.length := hall.length_eq ▸ hlt
    have hcolumn : c.IsColumn keys[i] columns[i] := (List.forall₂_iff_get.mp hall).2 i hlt hlt'
    obtain ⟨row, t, hrow, ht, heq⟩ := id hcolumn
    refine ⟨columns[i], row, t, List.getElem?_eq_getElem hlt', key_of_isColumn hc.built hcolumn,
      hrow, ht, heq, fun other hother deadline' => ?_⟩
    exact (fetchColumns_eq_ok_iff hc (hother.isSound hc)).mpr (.cons hcolumn .nil)
  · simp only [fetchColumns_eq_ok_iff hc hs, exists_forall₂_isColumn_iff, exists_isColumn_iff]
  · exact requests_fetchColumns_of_cached (missing_eq_nil_iff.mpr h)
  · rintro ⟨key, hk, hn⟩
    have hne : caches.columns.missing keys ≠ [] :=
      List.ne_nil_of_mem (mem_missing.mpr ⟨hk, hn⟩)
    exact ⟨caches.columns.missing keys, filter_requests_fetchColumns hc.isPrompt deadline hne,
      fun _ => mem_missing, pairwise_missing _ _⟩

/-- Two tables, one of them with a column of a type of its own. -/
def library : MemoryCatalog :=
  ((MemoryCatalog.empty.addEnum 90000 "genre" ["fiction"]).addTable 16384 "author"
    [("author_id", 23, true), ("first_name", 25, false)]).addTable 16400 "book"
    [("genre", 90000, true)]

theorem isPlain_library : library.IsPlain := by
  have h : library.IsReliable := ((isReliable_empty.addType rfl).addTable _ _ _).addTable _ _ _
  exact ⟨h.built, h.failure, rfl, h.builtin⟩

/-- One column is cached, and another one is wanted twice. -/
theorem fetchColumns_pointwise_library :
    let cached := ((fetchColumns [⟨16384, 1⟩]).run library.catalog ⟨5000⟩ .new).caches
    let keys : List ColumnKey := [⟨16400, 1⟩, ⟨16384, 2⟩, ⟨16384, 1⟩, ⟨16400, 1⟩]
    let run := (fetchColumns keys).run library.catalog ⟨5000⟩ cached
    library.IsPlain ∧ Caches.Reachable library cached ∧
      (∃ columns, run.result = .ok columns ∧ columns.length = 4) ∧
      ∃ missing : List ColumnKey,
        run.requests.filter (fun request => request.operation = .findColumns) =
          [.findColumns missing] ∧ ⟨16400, 1⟩ ∈ missing ∧ ⟨16384, 1⟩ ∉ missing := by
  intro cached keys run
  have hcached : Caches.Reachable library cached := by
    have h := (Caches.reachable_new library).run ⟨.columns [⟨16384, 1⟩], ⟨5000⟩⟩
    rwa [Job.task, Task.caches_run_effect] at h
  have hgenre : ∃ row t, library.columns[(⟨16400, 1⟩ : ColumnKey)]? = some row ∧
      library.Denotes row.typeOid t :=
    ⟨⟨16400, "book", 1, "genre", 90000, true⟩, _, rfl, .enum rfl⟩
  have hid : ∃ row t, library.columns[(⟨16384, 1⟩ : ColumnKey)]? = some row ∧
      library.Denotes row.typeOid t :=
    ⟨⟨16384, "author", 1, "author_id", 23, true⟩, _, rfl, .builtin rfl⟩
  have hname : ∃ row t, library.columns[(⟨16384, 2⟩ : ColumnKey)]? = some row ∧
      library.Denotes row.typeOid t :=
    ⟨⟨16384, "author", 2, "first_name", 25, false⟩, _, rfl, .builtin rfl⟩
  have hnone : cached.columns.get? ⟨16400, 1⟩ = none :=
    Option.isNone_iff_eq_none.mp (by decide +kernel)
  have hsome : (cached.columns.get? ⟨16384, 1⟩).isSome = true := by decide +kernel
  obtain ⟨hpointwise, hsucceeds, -, hrequests⟩ :=
    fetchColumns_pointwise isPlain_library hcached ⟨5000⟩ keys
  obtain ⟨columns, hok⟩ := hsucceeds.mpr <| by
    simp only [keys, List.forall_mem_cons]
    exact ⟨hgenre, hname, hid, hgenre, nofun⟩
  obtain ⟨missing, hfilter, hmem, -⟩ := hrequests ⟨⟨16400, 1⟩, List.mem_cons_self, hnone⟩
  refine ⟨isPlain_library, hcached, ⟨columns, hok, (hpointwise columns hok).1⟩, missing, hfilter,
    (hmem _).mpr ⟨List.mem_cons_self, hnone⟩, fun h => ?_⟩
  rw [((hmem _).mp h).2] at hsome
  cases hsome

end Resolution

end TypedSql
