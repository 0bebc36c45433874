import TypedSql.Proofs.Resolution.Reachable
import TypedSql.Proofs.Task.Interleaving

/-!
# Calls that share their caches

A call asks for types or for columns. What it comes to and what it leaves in the caches depend on
the catalog only: a type is loaded by a call or it is not, whoever else uses the caches
(`Resolution.Call.ensures_task`). So when some calls have ended and nobody else has added anything,
the calls determine the caches (`Resolution.FilledBy.unique`), in whatever order they were made.

This gives the same caches for the calls one after another and for any interleaving of their
steps, and each call comes to what it comes to alone (`Resolution.interleaved_calls`).
-/

namespace TypedSql

namespace Resolution

open MemoryCatalog

/-- What a call asks for. -/
inductive Wanted where
  | types (oids : List Oid)
  | columns (keys : List ColumnKey)

/-- What a call finds. -/
inductive Found where
  | types (types : TypeMap)
  | columns (columns : List Column)

/-- A call with the deadline of its requests. -/
structure Call where
  wanted : Wanted
  deadline : Duration

/-- The caches are sound for a catalog, with the types of all cached columns. -/
structure IsSound (c : MemoryCatalog) (caches : Caches) : Prop where
  types : caches.types.IsSound c
  columns : caches.columns.IsSound c
  typed : caches.IsTyped

variable {c : MemoryCatalog} {may : Oid → Prop} {mayColumn : ColumnKey → Prop}
  {caches a b : Caches} {call : Call} {calls order : List Call}
  {r r' : Except ResolveError Found}

theorem isSound_new (c : MemoryCatalog) : IsSound c .new where
  types := TypeCache.isSound_builtin c
  columns := ColumnCache.isSound_empty
  typed key column h := by simp [Caches.new] at h

theorem IsSound.later (h : IsSound c a) (hf : Caches.Fills c may mayColumn a b) : IsSound c b :=
  ⟨hf.sound h.types, hf.soundColumns h.columns, hf.typed h.typed⟩

namespace Call

/-- The task of a call. -/
def task (call : Call) : Task ResolveError Found :=
  match call.wanted with
  | .types oids => do
    let types ← resolveTypes oids
    pure (.types types)
  | .columns keys => do
    let columns ← fetchColumns keys
    pure (.columns columns)

/-- What a call comes to with the caches of a new run and nobody else using them. -/
def alone (catalog : Catalog) (call : Call) : Except ResolveError Found :=
  (call.task.run catalog call.deadline .new).result

/-- What a call ends with. -/
def Outcome (c : MemoryCatalog) (call : Call) (r : Except ResolveError Found) : Prop :=
  match call.wanted with
  | .types oids => ∃ r', Resolution.Outcome c oids r' ∧ r = r'.map .types
  | .columns keys => ∃ r', ColumnsOutcome c keys r' ∧ r = r'.map .columns

/-- The call sees to it that a type is cached. -/
def Loads (c : MemoryCatalog) (call : Call) (oid : Oid) : Prop :=
  match call.wanted with
  | .types oids => Resolution.Loads c oids oid
  | .columns keys => Resolution.Loads c (typesOf c keys) oid

/-- The call sees to it that a column is cached. -/
def Stores (c : MemoryCatalog) (call : Call) (key : ColumnKey) : Prop :=
  match call.wanted with
  | .types _ => False
  | .columns keys => Resolution.Stores c keys key

/-- The call has ended as it has to, and left what it has to. -/
structure Ended (c : MemoryCatalog) (call : Call) (r : Except ResolveError Found)
    (caches : Caches) : Prop where
  outcome : call.Outcome c r
  types (oid : Oid) : call.Loads c oid → ∃ t, caches.types.get? oid = some t
  columns (key : ColumnKey) : call.Stores c key → ∃ column, caches.columns.get? key = some column

theorem Outcome.unique (hc : c.IsPlain) (h : call.Outcome c r) (h' : call.Outcome c r') :
    r = r' := by
  obtain ⟨wanted, deadline⟩ := call
  cases wanted with
  | types oids =>
    obtain ⟨s, hs, rfl⟩ := h
    obtain ⟨s', hs', rfl⟩ := h'
    rw [hs.unique hc hs']
  | columns keys =>
    obtain ⟨s, hs, rfl⟩ := h
    obtain ⟨s', hs', rfl⟩ := h'
    rw [hs.unique hc hs']

theorem Ended.later (h : call.Ended c r a) (hf : Caches.Fills c may mayColumn a b) :
    call.Ended c r b where
  outcome := h.outcome
  types oid hl := by
    obtain ⟨t, ht⟩ := h.types oid hl
    exact ⟨t, hf.keeps oid t ht⟩
  columns key hs := by
    obtain ⟨column, hg⟩ := h.columns key hs
    exact ⟨column, hf.keepsColumn key column hg⟩

/-- However others use the caches meanwhile, a call ends as it has to, and it adds nothing but
what it loads and stores. -/
theorem ensures_task {env : Sharing} (hc : c.IsPlain) (he : env.ServesColumns c may mayColumn)
    (hmay : ∀ oid, call.Loads c oid → may oid)
    (hmayColumn : ∀ key, call.Stores c key → mayColumn key) (hs : IsSound c caches) :
    call.task.Ensures env (call.Ended c) caches := by
  obtain ⟨wanted, deadline⟩ := call
  cases wanted with
  | types oids =>
    refine (ensures_resolveTypes_loads hc he.toServes hmay hs.types).bind
      (fun types found _ ⟨ho, hl⟩ => ?_) fun e found _ ⟨ho, hl⟩ => ?_
    · exact ⟨⟨_, ho, rfl⟩, hl, fun _ => False.elim⟩
    · exact ⟨⟨_, ho, rfl⟩, hl, fun _ => False.elim⟩
  | columns keys =>
    refine (ensures_fetchColumns_fetched hc he (fun oid h => hmay oid (h hs.columns))
      (fun key h => hmayColumn key (h hs.columns)) hs.types).bind
      (fun columns found _ h => ?_) fun e found _ h => ?_
    · obtain ⟨ho, hf⟩ := h hs.columns
      exact ⟨⟨_, ho, rfl⟩, (hf hs.typed).types, (hf hs.typed).columns⟩
    · obtain ⟨ho, hf⟩ := h hs.columns
      exact ⟨⟨_, ho, rfl⟩, (hf hs.typed).types, (hf hs.typed).columns⟩

end Call

/-! ### Caches that calls leave behind -/

/-- Some call sees to it that the type is cached. -/
def LoadedBy (c : MemoryCatalog) (calls : List Call) (oid : Oid) : Prop :=
  ∃ call ∈ calls, call.Loads c oid

/-- Some call sees to it that the column is cached. -/
def StoredBy (c : MemoryCatalog) (calls : List Call) (key : ColumnKey) : Prop :=
  ∃ call ∈ calls, call.Stores c key

/-- The caches hold what is built in, and what the calls load and store. -/
structure FilledBy (c : MemoryCatalog) (calls : List Call) (caches : Caches) : Prop where
  sound : IsSound c caches
  types (oid : Oid) : (∃ t, caches.types.get? oid = some t) ↔
    (Builtin.type? oid).isSome ∨ LoadedBy c calls oid
  columns (key : ColumnKey) :
    (∃ column, caches.columns.get? key = some column) ↔ StoredBy c calls key

/-- Calls that have ended have filled the caches, when nobody else has added anything. -/
theorem filledBy_of_ended (hf : Caches.Fills c (LoadedBy c calls) (StoredBy c calls) .new caches)
    (he : ∀ call ∈ calls, ∃ r, call.Ended c r caches) : FilledBy c calls caches where
  sound := (isSound_new c).later hf
  types oid := by
    constructor
    · rintro ⟨t, ht⟩
      refine (hf.may oid t ht).imp_left fun hb => ?_
      rw [← TypeCache.get?_builtin, show TypeCache.builtin.get? oid = some t from hb]
      rfl
    · rintro (hb | ⟨call, hm, hl⟩)
      · obtain ⟨t, ht⟩ := Option.isSome_iff_exists.mp hb
        exact ⟨t, ((isSound_new c).later hf).types.builtin oid t ht⟩
      · obtain ⟨r, hr⟩ := he call hm
        exact hr.types oid hl
  columns key := by
    constructor
    · rintro ⟨column, hg⟩
      refine (hf.mayColumn key column hg).resolve_left fun hn => ?_
      simp [Caches.new] at hn
    · rintro ⟨call, hm, hs⟩
      obtain ⟨r, hr⟩ := he call hm
      exact hr.columns key hs

/-- The calls and the catalog determine the caches. -/
theorem FilledBy.unique (hc : c.IsPlain) (ha : FilledBy c calls a) (hb : FilledBy c calls b) :
    a = b := by
  have htypes : a.types.entries = b.types.entries := by
    refine map_eq_of_mem_iff (fun oid => ?_) fun oid t s ht hs => ?_
    · rw [mem_map_iff, mem_map_iff]
      exact (ha.types oid).trans (hb.types oid).symm
    · exact (ha.sound.types.denotes oid t ht).unique hc (hb.sound.types.denotes oid s hs)
  have hcolumns : a.columns.entries = b.columns.entries := by
    refine map_eq_of_mem_iff (fun key => ?_) fun key column other hg ho => ?_
    · rw [mem_map_iff, mem_map_iff]
      exact (ha.columns key).trans (hb.columns key).symm
    · exact (ha.sound.columns key column hg).unique hc (hb.sound.columns key other ho)
  obtain ⟨⟨aTypes⟩, ⟨aColumns⟩⟩ := a
  obtain ⟨⟨bTypes⟩, ⟨bColumns⟩⟩ := b
  obtain rfl : aTypes = bTypes := htypes
  obtain rfl : aColumns = bColumns := hcolumns
  rfl

/-! ### One after another -/

/-- The caches after some calls, made one after another. -/
def runAll (catalog : Catalog) (calls : List Call) (caches : Caches) : Caches :=
  calls.foldl (fun caches call => (call.task.run catalog call.deadline caches).caches) caches

/-- The catalog gives all calls the answers of the one in memory. -/
def Answers (catalog : Catalog) (c : MemoryCatalog) (calls : List Call) : Prop :=
  ∀ call ∈ calls, ∀ request,
    catalog.answer call.deadline request = c.catalog.answer call.deadline request

/-- What calls do to each other. -/
def between (catalog : Catalog) (c : MemoryCatalog) (calls : List Call) (deadline : Duration) :
    Sharing :=
  c.filling (LoadedBy c calls) (StoredBy c calls) catalog deadline

section Plain

variable {catalog : Catalog} (hc : c.IsPlain) (ha : Answers catalog c calls)
include hc ha

/-- However the other calls use the caches meanwhile, each call ends as it has to. -/
theorem ensures_call (hm : call ∈ calls) (hs : IsSound c caches) :
    call.task.Ensures (between catalog c calls call.deadline) (call.Ended c) caches :=
  Call.ensures_task hc (filling_servesColumns (ha call hm)) (fun _ hl => ⟨call, hm, hl⟩)
    (fun _ hl => ⟨call, hm, hl⟩) hs

theorem outcome_alone (hm : call ∈ calls) : call.Outcome c (call.alone catalog) :=
  (ensures_call hc ha hm (isSound_new c)).run.outcome

/-- Some of the calls, one after another, add nothing but what the calls load and store. -/
theorem fills_runAll (ho : order ⊆ calls) (hs : IsSound c caches) :
    Caches.Fills c (LoadedBy c calls) (StoredBy c calls) caches (runAll catalog order caches) ∧
      ∀ call ∈ order, ∃ r, call.Ended c r (runAll catalog order caches) := by
  induction order generalizing caches with
  | nil => exact ⟨.refl caches, fun _ h => absurd h List.not_mem_nil⟩
  | cons call order ih =>
    have h := ensures_call hc ha (ho List.mem_cons_self) hs
    have hfirst := h.allowed_run
    obtain ⟨hrest, hended⟩ := ih (fun _ hm => ho (List.mem_cons_of_mem _ hm)) (hs.later hfirst)
    exact ⟨hfirst.trans hrest, List.forall_mem_cons.mpr ⟨⟨_, h.run.later hrest⟩, hended⟩⟩

theorem filledBy_runAll (ho : order.Perm calls) :
    FilledBy c calls (runAll catalog order .new) := by
  obtain ⟨hf, he⟩ := fills_runAll hc ha ho.subset (isSound_new c)
  exact filledBy_of_ended hf fun call hm => he call (ho.mem_iff.mpr hm)

end Plain

/-! ### At the same time -/

section Interleaved

variable {catalog : Catalog} {work : List (List Call)} {s : System Call ResolveError Found}

theorem holds_of_steps (hc : c.IsPlain) (ha : Answers catalog c work.flatten)
    (hs : System.Steps catalog Call.deadline (.start Call.task work) s) :
    Caches.Fills c (LoadedBy c work.flatten) (StoredBy c work.flatten) .new s.caches ∧
      s.Holds (between catalog c work.flatten ⟨0⟩) Call.deadline (Call.Ended c) := by
  have hstart : (System.start Call.task work).Holds (between catalog c work.flatten ⟨0⟩)
      Call.deadline (Call.Ended c) :=
    System.holds_start fun calls hcalls call hcall =>
      ensures_call hc ha (List.mem_flatten.mpr ⟨calls, hcalls, hcall⟩) (isSound_new c)
  exact hstart.steps (fun _ _ _ _ hf he => he.later hf) hs

/-- When all calls have ended they have filled the caches. -/
theorem filledBy_of_isDone (hc : c.IsPlain) (ha : Answers catalog c work.flatten)
    (hs : System.Steps catalog Call.deadline (.start Call.task work) s) (hd : s.IsDone) :
    FilledBy c work.flatten s.caches := by
  obtain ⟨hf, hholds⟩ := holds_of_steps hc ha hs
  refine filledBy_of_ended hf fun call hm => ?_
  obtain ⟨w, hw, hm⟩ := hs.mem_flatten_iff.mp hm
  rw [Worker.jobs, hd w hw, List.map_nil, List.append_nil] at hm
  obtain ⟨made, hmade, rfl⟩ := List.mem_map.mp hm
  exact ⟨made.2, (hholds w hw).made made hmade⟩

end Interleaved

/-- Any number of workers make calls for types and columns with the caches of one run, and any
run of the system so far is given. Each call that has ended came to what it comes to alone with
new caches. No cached type or column ever changes. While calls are left some worker can go on, and
no run goes on for ever; when all calls have ended, the caches are those that the calls leave
behind when they are made one after another, in any order. -/
theorem interleaved_calls (hc : c.IsReliable) {work : List (List Call)}
    (hd : ∀ calls ∈ work, ∀ call ∈ calls, c.latency.milliseconds ≤ call.deadline.milliseconds)
    {s : System Call ResolveError Found}
    (hs : System.Steps c.catalog Call.deadline (.start Call.task work) s) :
    (s.workers.map Worker.jobs = work ∧
      ∀ w ∈ s.workers, ∀ call r, (call, r) ∈ w.made → r = call.alone c.catalog) ∧
    (∀ later, System.Steps c.catalog Call.deadline s later →
      (∀ oid t, s.caches.types.get? oid = some t → later.caches.types.get? oid = some t) ∧
      ∀ key column, s.caches.columns.get? key = some column →
        later.caches.columns.get? key = some column) ∧
    (s.IsDone ∨ ∃ next, System.Step c.catalog Call.deadline s next) ∧
    Acc (fun next s => System.Step c.catalog Call.deadline s next) s ∧
    (s.IsDone → ∀ order : List Call, order.Perm work.flatten →
      s.caches = runAll c.catalog order .new) := by
  have hplain := hc.isPlain
  have ha : Answers c.catalog (c.withLatency ⟨0⟩) work.flatten := by
    intro call hm
    obtain ⟨calls, hcalls, hcall⟩ := List.mem_flatten.mp hm
    exact answer_withLatency (hd calls hcalls call hcall)
  obtain ⟨-, hholds⟩ := holds_of_steps hplain ha hs
  refine ⟨⟨hs.map_jobs.trans (System.map_jobs_start _ _), fun w hw call r hm => ?_⟩,
    fun later hl => ?_, ?_,
    (System.wellFounded_step _ _).apply s, fun hdone order ho => ?_⟩
  · have hjob : call ∈ w.jobs :=
      List.mem_append_left _ (List.mem_map.mpr ⟨(call, r), hm, rfl⟩)
    have hcall := hs.mem_flatten_iff.mpr ⟨w, hw, hjob⟩
    exact ((hholds w hw).made (call, r) hm).outcome.unique hplain (outcome_alone hplain ha hcall)
  · have hf := (hholds.steps (fun _ _ _ _ hf he => he.later hf) hl).1
    exact ⟨hf.keeps, hf.keepsColumn⟩
  · by_cases h : s.IsDone
    · exact .inl h
    · exact .inr (System.exists_step h)
  · exact (filledBy_of_isDone hplain ha hs hdone).unique hplain (filledBy_runAll hplain ha ho)

/-- A catalog with a table of enums in composites, and with an array of a type that it does not
know. Each reply takes a while. -/
def diary : MemoryCatalog :=
  let types := (((MemoryCatalog.empty.addEnum 90000 "mood" ["sad", "happy"]).addComposite 90100
    "entry" [("mood", 90000), ("note", 25)]).addArray 90200 "_entry" 90100).addArray 90400 "_gone"
    90300
  (types.addTable 16384 "diary" [("id", 23, true), ("entries", 90200, false)]).withLatency ⟨5⟩

theorem isReliable_diary : diary.IsReliable :=
  ((((isReliable_empty.addType rfl).addType rfl).addType rfl).addType rfl).addTable _ _ _
    |>.withLatency _

/-- Two workers, one with a call that fails. -/
def diaryWork : List (List Call) :=
  [[⟨.columns [⟨16384, 1⟩, ⟨16384, 2⟩], ⟨5000⟩⟩, ⟨.types [90200, 90400], ⟨5000⟩⟩],
    [⟨.types [90200, 90100, 90000], ⟨5⟩⟩]]

theorem interleaved_calls_diary :
    ∃ s : System Call ResolveError Found,
      System.Steps diary.catalog Call.deadline (.start Call.task diaryWork) s ∧ s.IsDone ∧
      (∀ w ∈ s.workers, ∀ call r, (call, r) ∈ w.made → r = call.alone diary.catalog) ∧
      s.caches = runAll diary.catalog diaryWork.flatten.reverse .new := by
  obtain ⟨s, hs, hdone⟩ :=
    System.exists_isDone (System.start Call.task diaryWork) diary.catalog Call.deadline
  have hd : ∀ calls ∈ diaryWork, ∀ call ∈ calls,
      diary.latency.milliseconds ≤ call.deadline.milliseconds := by
    decide
  obtain ⟨⟨-, hmade⟩, -, -, -, hcaches⟩ := interleaved_calls isReliable_diary hd hs
  exact ⟨s, hs, hdone, hmade, hcaches hdone _ (List.reverse_perm _)⟩

end Resolution

end TypedSql
