import TypedSql.Task

/-!
# Tasks that share their caches

Other tasks can get in between any two steps of a task, and what they do to the caches is all that
it notices of them. What a task ensures is therefore said for all that others may do: each time
that it looks into a cache or adds to it, the caches can have moved on in an allowed way. In turn
every addition of the task itself has to be allowed (`Task.Ensures`). A task that runs alone is
the case in which nobody else does anything (`Task.Ensures.run`).

`Task.Gives` is for tasks whose result is certain. The rules below take a task apart at its binds,
one certain part after the other.
-/

namespace TypedSql

/-- What a task can rely on: a catalog that answers up to a deadline, and caches that change in
certain ways only. -/
structure Sharing where
  catalog : Catalog
  deadline : Duration
  /-- Whether the caches can become others. -/
  allowed : Caches → Caches → Prop
  refl (caches : Caches) : allowed caches caches
  trans {a b c : Caches} : allowed a b → allowed b c → allowed a c

namespace Task

variable {ε ε' α β : Type} {env : Sharing} {caches found : Caches} {t : Task ε α}
  {next : α → Task ε β} {value : α} {error : ε} {r : Except ε α}

/-- Whatever others do in between, the task ends in a result and caches for which `post` holds,
and adds nothing that is not allowed. -/
def Ensures (env : Sharing) :
    Task ε α → (post : Except ε α → Caches → Prop) → Caches → Prop
  | .done value, post, caches => post (.ok value) caches
  | .fail error, post, caches => post (.error error) caches
  | .ask request next, post, caches =>
    (next (env.catalog.answer env.deadline request)).Ensures env post caches
  | .readTypes next, post, caches =>
    ∀ found, env.allowed caches found → (next found.types).Ensures env post found
  | .addTypes types next, post, caches =>
    ∀ found, env.allowed caches found →
      let added := { found with types := found.types.extend types }
      env.allowed found added ∧ next.Ensures env post added
  | .readColumns next, post, caches =>
    ∀ found, env.allowed caches found → (next found.columns).Ensures env post found
  | .addColumn column next, post, caches =>
    ∀ found, env.allowed caches found →
      let added := { found with columns := found.columns.insert column }
      env.allowed found added ∧ next.Ensures env post added

/-- A weaker condition is ensured, too, where only caches matter that can come about. -/
theorem Ensures.imp {post post' : Except ε α → Caches → Prop} (h : t.Ensures env post caches)
    (hp : ∀ r found, env.allowed caches found → post r found → post' r found) :
    t.Ensures env post' caches := by
  induction t generalizing caches with
  | done value | fail error => exact hp _ _ (env.refl _) h
  | ask request next ih => exact ih _ h hp
  | readTypes next ih | readColumns next ih =>
    intro found ha
    exact ih _ (h found ha) fun r c hc => hp r c (env.trans ha hc)
  | addTypes types next ih | addColumn column next ih =>
    intro found ha
    obtain ⟨hadd, hn⟩ := h found ha
    exact ⟨hadd, ih hn fun r c hc => hp r c (env.trans ha (env.trans hadd hc))⟩

theorem ensures_bind {post : Except ε β → Caches → Prop} :
    (t.bind next).Ensures env post caches ↔
      t.Ensures env (fun r found => match r with
        | .ok value => (next value).Ensures env post found
        | .error error => post (.error error) found) caches := by
  induction t generalizing caches with
  | done value | fail error => exact Iff.rfl
  | ask request k ih => exact ih _
  | readTypes k ih | readColumns k ih => exact forall₂_congr fun found _ => ih _
  | addTypes types k ih | addColumn column k ih =>
    exact forall₂_congr fun found _ => and_congr_right fun _ => ih

/-- A task goes on with any value that it can end with. -/
theorem Ensures.bind {post : Except ε α → Caches → Prop} {post' : Except ε β → Caches → Prop}
    (ht : t.Ensures env post caches)
    (hn : ∀ value found, env.allowed caches found → post (.ok value) found →
      (next value).Ensures env post' found)
    (he : ∀ error found, env.allowed caches found → post (.error error) found →
      post' (.error error) found) :
    (t.bind next).Ensures env post' caches := by
  rw [ensures_bind]
  refine ht.imp fun r found ha hr => ?_
  cases r with
  | ok value => exact hn value found ha hr
  | error error => exact he error found ha hr

theorem ensures_mapError {f : ε → ε'} {post : Except ε' α → Caches → Prop} :
    (t.mapError f).Ensures env post caches ↔
      t.Ensures env (fun r found => post (r.mapError f) found) caches := by
  induction t generalizing caches with
  | done value | fail error => exact Iff.rfl
  | ask request k ih => exact ih _
  | readTypes k ih | readColumns k ih => exact forall₂_congr fun found _ => ih _
  | addTypes types k ih | addColumn column k ih =>
    exact forall₂_congr fun found _ => and_congr_right fun _ => ih

/-- A task that runs alone keeps its promise. -/
theorem Ensures.run {post : Except ε α → Caches → Prop} (h : t.Ensures env post caches) :
    post (t.run env.catalog env.deadline caches).result
      (t.run env.catalog env.deadline caches).caches := by
  induction t generalizing caches with
  | done value | fail error => exact h
  | ask request next ih => exact ih _ h
  | readTypes next ih | readColumns next ih => exact ih _ (h caches (env.refl caches))
  | addTypes types next ih | addColumn column next ih =>
    exact ih (h caches (env.refl caches)).2

/-- A task that runs alone leaves caches that can come about. -/
theorem Ensures.allowed_run {post : Except ε α → Caches → Prop} (h : t.Ensures env post caches) :
    env.allowed caches (t.run env.catalog env.deadline caches).caches := by
  have ha : t.Ensures env (fun _ found => env.allowed caches found) caches :=
    h.imp fun _ _ ha _ => ha
  exact ha.run

/-- Whatever others do in between, the task comes to the same. -/
def Gives (env : Sharing) (t : Task ε α) (r : Except ε α) (caches : Caches) : Prop :=
  t.Ensures env (fun r' _ => r' = r) caches

theorem gives_done : (done value : Task ε α).Gives env (.ok value) caches := rfl

theorem gives_fail : (fail error : Task ε α).Gives env (.error error) caches := rfl

theorem gives_ofExcept : (ofExcept r : Task ε α).Gives env r caches := by
  cases r <;> rfl

theorem gives_request (wrap : CatalogError → ε) (request : Request) :
    (Task.request wrap request).Gives env
      ((env.catalog.answer env.deadline request).mapError wrap) caches := by
  rw [Gives, Task.request, Ensures]
  cases env.catalog.answer env.deadline request <;> rfl

/-- The value of a task goes on into the next, which starts from caches that can come about. -/
theorem Gives.bind {post : Except ε β → Caches → Prop} (ht : t.Gives env (.ok value) caches)
    (hn : ∀ found, env.allowed caches found → (next value).Ensures env post found) :
    (t.bind next).Ensures env post caches := by
  refine Ensures.bind ht (fun value found ha hr => ?_) fun error found _ hr => ?_
  · obtain rfl := Except.ok.inj hr
    exact hn found ha
  · cases hr

theorem Gives.bind_error (ht : t.Gives env (.error error) caches) :
    (t.bind next).Gives env (.error error) caches := by
  refine Ensures.bind ht (fun value found _ hr => ?_) fun error found _ hr => ?_
  · cases hr
  · rw [Except.error.inj hr]

theorem Gives.mapError (f : ε → ε') (ht : t.Gives env r caches) :
    (t.mapError f).Gives env (r.mapError f) caches := by
  rw [Gives, ensures_mapError]
  refine ht.imp fun r found _ hr => ?_
  obtain rfl := hr
  rfl

end Task

end TypedSql
