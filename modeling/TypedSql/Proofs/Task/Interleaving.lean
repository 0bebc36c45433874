import Mathlib.Data.Multiset.AddSub
import Mathlib.Logic.Hydra
import Mathlib.Logic.Relation
import Mathlib.Tactic.Abel
import TypedSql.Proofs.Task.Sharing

/-!
# Tasks that are carried out at the same time

A worker makes one task after another, and several workers share their caches. One step is one
request or one access to a cache, made by any of the workers (`System.Step`), so a run of the
system is an interleaving of the steps of its workers.

What each task ensures on its own it ensures in every run: a step of one worker is allowed, and all
that the others ensure outlasts it (`System.Holds.steps`). Every run comes to an end
(`System.wellFounded_step`), and it does so only when all tasks are done
(`System.exists_step`).
-/

namespace TypedSql

open Relation

namespace Task

variable {ε α : Type} {env : Sharing} {caches caches' found : Caches} {t t' : Task ε α}
  {post : Except ε α → Caches → Prop} {r : Except ε α}

/-- One step of a task: it has ended, or it goes on with what came of one request or of one access
to a cache. -/
def step (catalog : Catalog) (deadline : Duration) :
    Task ε α → Caches → Except ε α ⊕ Task ε α × Caches
  | .done value, _ => .inl (.ok value)
  | .fail error, _ => .inl (.error error)
  | .ask request next, caches => .inr (next (catalog.answer deadline request), caches)
  | .readTypes next, caches => .inr (next caches.types, caches)
  | .addTypes types next, caches =>
    .inr (next, { caches with types := caches.types.extend types })
  | .readColumns next, caches => .inr (next caches.columns, caches)
  | .addColumn column next, caches =>
    .inr (next, { caches with columns := caches.columns.insert column })

/-- A task that runs alone makes its steps one after another. -/
theorem run_of_step {catalog : Catalog} {deadline : Duration}
    (h : t.step catalog deadline caches = .inr (t', caches')) :
    (t.run catalog deadline caches).result = (t'.run catalog deadline caches').result ∧
      (t.run catalog deadline caches).caches = (t'.run catalog deadline caches').caches := by
  cases t with
  | done value | fail error => cases h
  | ask request next | readTypes next | addTypes types next | readColumns next
  | addColumn column next =>
    obtain ⟨rfl, rfl⟩ := Prod.mk.inj (Sum.inr.inj h)
    exact ⟨rfl, rfl⟩

/-- What the task ensures outlasts a step of its own. -/
theorem Ensures.step (h : t.Ensures env post caches)
    (hs : t.step env.catalog env.deadline caches = .inr (t', caches')) :
    env.allowed caches caches' ∧ t'.Ensures env post caches' := by
  cases t with
  | done value | fail error => cases hs
  | ask request next =>
    obtain ⟨rfl, rfl⟩ := Prod.mk.inj (Sum.inr.inj hs)
    exact ⟨env.refl caches, h⟩
  | readTypes next | readColumns next =>
    obtain ⟨rfl, rfl⟩ := Prod.mk.inj (Sum.inr.inj hs)
    exact ⟨env.refl caches, h caches (env.refl caches)⟩
  | addTypes types next | addColumn column next =>
    obtain ⟨rfl, rfl⟩ := Prod.mk.inj (Sum.inr.inj hs)
    exact h caches (env.refl caches)

theorem Ensures.ended (h : t.Ensures env post caches)
    (hs : t.step env.catalog env.deadline caches = .inl r) : post r caches := by
  cases t with
  | done value | fail error =>
    obtain rfl := Sum.inl.inj hs
    exact h
  | ask request next | readTypes next | addTypes types next | readColumns next
  | addColumn column next => cases hs

/-- What the task ensures outlasts what others do, if this is so of its end. -/
theorem Ensures.later (hp : ∀ r a b, env.allowed a b → post r a → post r b)
    (h : t.Ensures env post caches) (ha : env.allowed caches found) :
    t.Ensures env post found := by
  induction t with
  | done value | fail error => exact hp _ _ _ ha h
  | ask request next ih => exact ih _ h
  | readTypes next | addTypes types next | readColumns next | addColumn column next =>
    exact fun later hl => h later (env.trans ha hl)

end Task

/-- The same sharing with another deadline. -/
def Sharing.upTo (env : Sharing) (deadline : Duration) : Sharing :=
  { env with deadline }

/-- A worker with tasks, each for a job of `κ`. -/
structure Worker (κ ε α : Type) where
  /-- The jobs that are done, with what their tasks came to, in order. -/
  made : List (κ × Except ε α)
  /-- The other jobs, with what is left of their tasks. The first one may be under way. -/
  left : List (κ × Task ε α)

namespace Worker

variable {κ ε α : Type} {catalog : Catalog} {deadline : κ → Duration} {w w' : Worker κ ε α}
  {caches caches' : Caches}

/-- A worker that has not begun. -/
def start (task : κ → Task ε α) (jobs : List κ) : Worker κ ε α :=
  ⟨[], jobs.map fun job => (job, task job)⟩

/-- All jobs of a worker, in order. -/
def jobs (w : Worker κ ε α) : List κ :=
  w.made.map Prod.fst ++ w.left.map Prod.fst

/-- One step of a worker, if it is not done. -/
def step? (catalog : Catalog) (deadline : κ → Duration) (w : Worker κ ε α) (caches : Caches) :
    Option (Worker κ ε α × Caches) :=
  match w.left with
  | [] => none
  | (job, t) :: left =>
    match t.step catalog (deadline job) caches with
    | .inl r => some (⟨w.made ++ [(job, r)], left⟩, caches)
    | .inr (t', caches') => some (⟨w.made, (job, t') :: left⟩, caches')

@[simp] theorem jobs_start (task : κ → Task ε α) (jobs : List κ) :
    (start task jobs).jobs = jobs := by
  rw [Worker.jobs, start, List.map_nil, List.nil_append, List.map_map]
  exact List.map_id jobs

/-- A step ends the first task that is left, or it is a step of this task. -/
theorem step?_cases (h : w.step? catalog deadline caches = some (w', caches')) :
    ∃ job t left, w.left = (job, t) :: left ∧
      ((∃ r, t.step catalog (deadline job) caches = .inl r ∧
          w' = ⟨w.made ++ [(job, r)], left⟩ ∧ caches' = caches) ∨
        ∃ t', t.step catalog (deadline job) caches = .inr (t', caches') ∧
          w' = ⟨w.made, (job, t') :: left⟩) := by
  unfold step? at h
  split at h
  · cases h
  · next job t left hleft =>
    refine ⟨job, t, left, hleft, ?_⟩
    split at h
    · next r hr =>
      obtain ⟨rfl, rfl⟩ := Prod.mk.inj (Option.some.inj h)
      exact .inl ⟨r, hr, rfl, rfl⟩
    · next t' c hr =>
      obtain ⟨rfl, rfl⟩ := Prod.mk.inj (Option.some.inj h)
      exact .inr ⟨t', hr, rfl⟩

theorem exists_step? (h : w.left ≠ []) (caches : Caches) :
    ∃ w' caches', w.step? catalog deadline caches = some (w', caches') := by
  unfold step?
  split
  · next hleft => exact absurd hleft h
  · split
    · exact ⟨_, _, rfl⟩
    · exact ⟨_, _, rfl⟩

theorem jobs_step? (h : w.step? catalog deadline caches = some (w', caches')) :
    w'.jobs = w.jobs := by
  obtain ⟨job, t, left, hleft, ⟨r, -, rfl, -⟩ | ⟨t', -, rfl⟩⟩ := step?_cases h <;>
    simp [jobs, hleft]

/-- The worker can make a step to the other one in some caches. -/
def Leads (catalog : Catalog) (deadline : κ → Duration) (w w' : Worker κ ε α) : Prop :=
  ∃ caches caches', w.step? catalog deadline caches = some (w', caches')

/-- A task is a tree, and each step of it goes to a branch. -/
theorem acc_leads (left : List (κ × Task ε α)) (made : List (κ × Except ε α)) :
    Acc (fun w' w => Leads catalog deadline w w') ⟨made, left⟩ := by
  induction left generalizing made with
  | nil =>
    refine ⟨_, fun w' ⟨caches, caches', h⟩ => ?_⟩
    cases h
  | cons first left ihLeft =>
    obtain ⟨job, t⟩ := first
    induction t generalizing made with
    | done value | fail error =>
      refine ⟨_, fun w' ⟨caches, caches', h⟩ => ?_⟩
      obtain ⟨rfl, -⟩ := Prod.mk.inj (Option.some.inj h)
      exact ihLeft _
    | ask request next ih | readTypes next ih | readColumns next ih =>
      refine ⟨_, fun w' ⟨caches, caches', h⟩ => ?_⟩
      obtain ⟨rfl, -⟩ := Prod.mk.inj (Option.some.inj h)
      exact ih _ made
    | addTypes types next ih | addColumn column next ih =>
      refine ⟨_, fun w' ⟨caches, caches', h⟩ => ?_⟩
      obtain ⟨rfl, -⟩ := Prod.mk.inj (Option.some.inj h)
      exact ih made

theorem wellFounded_leads (catalog : Catalog) (deadline : κ → Duration) :
    WellFounded fun w' w : Worker κ ε α => Leads catalog deadline w w' :=
  ⟨fun w => acc_leads w.left w.made⟩

/-- What its tasks came to is as it should be, and what is left of them ensures this, too. -/
structure Holds (env : Sharing) (deadline : κ → Duration)
    (post : κ → Except ε α → Caches → Prop) (caches : Caches) (w : Worker κ ε α) : Prop where
  made : ∀ m ∈ w.made, post m.1 m.2 caches
  left : ∀ l ∈ w.left, l.2.Ensures (env.upTo (deadline l.1)) (post l.1) caches

namespace Holds

variable {env : Sharing} {post : κ → Except ε α → Caches → Prop}
  (hp : ∀ job r a b, env.allowed a b → post job r a → post job r b)
include hp

theorem later (h : w.Holds env deadline post caches) (ha : env.allowed caches caches') :
    w.Holds env deadline post caches' where
  made m hm := hp _ _ _ _ ha (h.made m hm)
  left l hl := (h.left l hl).later (hp l.1) ha

theorem step (h : w.Holds env deadline post caches)
    (hs : w.step? env.catalog deadline caches = some (w', caches')) :
    env.allowed caches caches' ∧ w'.Holds env deadline post caches' := by
  obtain ⟨job, t, left, hleft, ⟨r, hr, rfl, rfl⟩ | ⟨t', ht, rfl⟩⟩ := step?_cases hs
  · have hall := hleft ▸ h.left
    rw [List.forall_mem_cons] at hall
    refine ⟨env.refl _, fun m hm => ?_, hall.2⟩
    obtain hm | hm := List.mem_append.mp hm
    · exact h.made m hm
    · obtain rfl := List.mem_singleton.mp hm
      exact hall.1.ended hr
  · have hall := hleft ▸ h.left
    rw [List.forall_mem_cons] at hall
    obtain ⟨ha, ht'⟩ := hall.1.step ht
    have hlater := h.later hp ha
    refine ⟨ha, hlater.made, List.forall_mem_cons.mpr ⟨ht', fun l hl => hlater.left l ?_⟩⟩
    rw [hleft]
    exact List.mem_cons_of_mem _ hl

end Holds

end Worker

/-- Workers that share their caches. -/
structure System (κ ε α : Type) where
  workers : List (Worker κ ε α)
  caches : Caches

namespace System

variable {κ ε α : Type} {catalog : Catalog} {deadline : κ → Duration} {s s' : System κ ε α}

/-- The system in which nobody has begun, with the caches of a new run. -/
def start (task : κ → Task ε α) (work : List (List κ)) : System κ ε α :=
  ⟨work.map (Worker.start task), .new⟩

@[simp] theorem map_jobs_start (task : κ → Task ε α) (work : List (List κ)) :
    (start task work).workers.map Worker.jobs = work := by
  rw [start, List.map_map]
  exact (List.map_congr_left fun jobs _ => Worker.jobs_start task jobs).trans (List.map_id work)

/-- One of the workers makes a step. -/
inductive Step (catalog : Catalog) (deadline : κ → Duration) : System κ ε α → System κ ε α → Prop
  | of_worker {front back : List (Worker κ ε α)} {w w' : Worker κ ε α} {caches caches' : Caches} :
    w.step? catalog deadline caches = some (w', caches') →
    Step catalog deadline ⟨front ++ w :: back, caches⟩ ⟨front ++ w' :: back, caches'⟩

/-- Any number of steps. -/
def Steps (catalog : Catalog) (deadline : κ → Duration) :
    System κ ε α → System κ ε α → Prop :=
  ReflTransGen (Step catalog deadline)

/-- All tasks have ended. -/
def IsDone (s : System κ ε α) : Prop :=
  ∀ w ∈ s.workers, w.left = []

/-- While a task is left, some worker can make a step. -/
theorem exists_step (h : ¬ s.IsDone) : ∃ s', Step catalog deadline s s' := by
  obtain ⟨workers, caches⟩ := s
  unfold IsDone at h
  push Not at h
  obtain ⟨w, hw, hleft⟩ := h
  obtain ⟨front, back, rfl⟩ := List.append_of_mem hw
  obtain ⟨w', caches', hs⟩ := Worker.exists_step? hleft caches
  exact ⟨_, .of_worker hs⟩

/-- No run goes on for ever. -/
theorem wellFounded_step (catalog : Catalog) (deadline : κ → Duration) :
    WellFounded fun s' s : System κ ε α => Step catalog deadline s s' := by
  have hwf : WellFounded
      (CutExpand fun w' w : Worker κ ε α => Worker.Leads catalog deadline w w') :=
    (Worker.wellFounded_leads catalog deadline).cutExpand
  refine Subrelation.wf ?_
    (InvImage.wf (fun s : System κ ε α => (s.workers : Multiset (Worker κ ε α))) hwf)
  intro s' s h
  obtain @⟨front, back, w, w', caches, caches', hs⟩ := h
  refine ⟨{w'}, w, fun _ hm => Multiset.mem_singleton.mp hm ▸ ⟨caches, caches', hs⟩, ?_⟩
  simp only [← Multiset.coe_add, ← Multiset.cons_coe, ← Multiset.singleton_add]
  abel

/-- Every run can be brought to its end. -/
theorem exists_isDone (s : System κ ε α) (catalog : Catalog) (deadline : κ → Duration) :
    ∃ s', Steps catalog deadline s s' ∧ s'.IsDone := by
  induction s using (wellFounded_step catalog deadline).induction with
  | _ s ih =>
    by_cases h : s.IsDone
    · exact ⟨s, .refl, h⟩
    · obtain ⟨next, hs⟩ : ∃ next, Step catalog deadline s next := exists_step h
      obtain ⟨s', hs', hd⟩ := ih next hs
      exact ⟨s', .head hs hs', hd⟩

theorem Steps.map_jobs (h : Steps catalog deadline s s') :
    s'.workers.map Worker.jobs = s.workers.map Worker.jobs := by
  induction h with
  | refl => rfl
  | tail _ hs ih =>
    obtain ⟨hs⟩ := hs
    rw [← ih, List.map_append, List.map_append, List.map_cons, List.map_cons,
      Worker.jobs_step? hs]

/-- No job is lost on the way, and none comes to the system. -/
theorem Steps.mem_flatten_iff {task : κ → Task ε α} {work : List (List κ)} {job : κ}
    (h : Steps catalog deadline (start task work) s) :
    job ∈ work.flatten ↔ ∃ w ∈ s.workers, job ∈ w.jobs := by
  have hjobs : s.workers.map Worker.jobs = work := h.map_jobs.trans (map_jobs_start task work)
  rw [← hjobs, List.mem_flatten]
  simp only [List.mem_map, exists_exists_and_eq_and]

/-- A worker that does nothing does not stop the others. -/
theorem Steps.append_worker (h : Steps catalog deadline s s') (w : Worker κ ε α) :
    Steps catalog deadline ⟨s.workers ++ [w], s.caches⟩ ⟨s'.workers ++ [w], s'.caches⟩ := by
  induction h with
  | refl => exact .refl
  | tail _ hs ih =>
    obtain @⟨front, back, v, v', caches, caches', hv⟩ := hs
    refine ih.tail ?_
    simp only [List.append_assoc, List.cons_append]
    exact .of_worker hv

/-- A worker can carry out a task while the others wait. -/
theorem steps_run (front back : List (Worker κ ε α)) (made : List (κ × Except ε α))
    (left : List (κ × Task ε α)) (job : κ) (t : Task ε α) (caches : Caches) :
    let run := t.run catalog (deadline job) caches
    Steps catalog deadline ⟨front ++ ⟨made, (job, t) :: left⟩ :: back, caches⟩
      ⟨front ++ ⟨made ++ [(job, run.result)], left⟩ :: back, run.caches⟩ := by
  induction t generalizing caches with
  | done value | fail error => exact .single (.of_worker rfl)
  | ask request next ih | readTypes next ih | readColumns next ih =>
    exact .head (.of_worker rfl) (ih _ caches)
  | addTypes types next ih | addColumn column next ih => exact .head (.of_worker rfl) (ih _)

/-- All tasks of all workers have come to what they should, or ensure it. -/
def Holds (env : Sharing) (deadline : κ → Duration) (post : κ → Except ε α → Caches → Prop)
    (s : System κ ε α) : Prop :=
  ∀ w ∈ s.workers, w.Holds env deadline post s.caches

variable {env : Sharing} {post : κ → Except ε α → Caches → Prop}

theorem holds_start {task : κ → Task ε α} {work : List (List κ)}
    (h : ∀ jobs ∈ work, ∀ job ∈ jobs,
      (task job).Ensures (env.upTo (deadline job)) (post job) .new) :
    (start task work).Holds env deadline post := by
  intro w hw
  obtain ⟨jobs, hjobs, rfl⟩ := List.mem_map.mp hw
  refine ⟨fun m hm => absurd hm List.not_mem_nil, fun l hl => ?_⟩
  obtain ⟨job, hjob, rfl⟩ := List.mem_map.mp hl
  exact h jobs hjobs job hjob

section Stable

variable (hp : ∀ job r a b, env.allowed a b → post job r a → post job r b)
include hp

/-- A step is allowed, so it leaves to the other workers what they ensure. -/
theorem Holds.step (h : s.Holds env deadline post) (hs : Step env.catalog deadline s s') :
    env.allowed s.caches s'.caches ∧ s'.Holds env deadline post := by
  obtain @⟨front, back, w, w', caches, caches', hs⟩ := hs
  have hw : w.Holds env deadline post caches := h w (by simp)
  obtain ⟨ha, hw'⟩ := hw.step hp hs
  refine ⟨ha, fun u hu => ?_⟩
  obtain hu | hu := List.mem_append.mp hu
  · exact (h u (List.mem_append_left _ hu)).later hp ha
  · obtain rfl | hu := List.mem_cons.mp hu
    · exact hw'
    · exact (h u (List.mem_append_right _ (List.mem_cons_of_mem _ hu))).later hp ha

/-- In every run each task comes to what it ensures. -/
theorem Holds.steps (h : s.Holds env deadline post) (hs : Steps env.catalog deadline s s') :
    env.allowed s.caches s'.caches ∧ s'.Holds env deadline post := by
  induction hs with
  | refl => exact ⟨env.refl _, h⟩
  | tail _ hs ih =>
    obtain ⟨ha, hmid⟩ := ih
    obtain ⟨ha', h'⟩ := hmid.step hp hs
    exact ⟨env.trans ha ha', h'⟩

end Stable

end System

end TypedSql
