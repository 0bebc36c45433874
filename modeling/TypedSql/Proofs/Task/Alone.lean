import TypedSql.Proofs.Task.Sharing

/-!
# Tasks that run alone

Nobody adds to the caches of a task that runs alone, so between two of its own additions they stay
as they are. For a part of it without additions this is a way of sharing that allows no change at
all (`Sharing.frozen`), and the rules for tasks that share their caches say what such a part
ensures. The parts of a task are then carried out one after another (`Task.run_bind`), and what
every addition preserves holds in the end (`Task.caches_run_induction`).
-/

namespace TypedSql

/-- Caches that nobody changes. -/
def Sharing.frozen (catalog : Catalog) (deadline : Duration) : Sharing where
  catalog := catalog
  deadline := deadline
  allowed := Eq
  refl _ := rfl
  trans := Eq.trans

namespace Task

variable {ε ε' α β : Type} {catalog : Catalog} {deadline : Duration} {caches : Caches}
  {t : Task ε α} {next : α → Task ε β}

/-- The second task starts from the caches that the first one leaves, unless that one fails. Its
requests come behind those of the first one. -/
theorem run_bind (t : Task ε α) (next : α → Task ε β) (caches : Caches) :
    (t.bind next).run catalog deadline caches =
      let first := t.run catalog deadline caches
      match first.result with
      | .ok value =>
        let second := (next value).run catalog deadline first.caches
        ⟨second.result, second.caches, first.requests ++ second.requests⟩
      | .error error => ⟨.error error, first.caches, first.requests⟩ := by
  induction t generalizing caches with
  | done value | fail error => rfl
  | ask request k ih =>
    rw [Task.bind, run, ih, run]
    dsimp only
    split <;> rfl
  | readTypes k ih | readColumns k ih => exact ih _ caches
  | addTypes types k ih | addColumn column k ih => exact ih _

theorem run_bind_of_ok {caches' : Caches} {requests : List Request} {value : α}
    (h : t.run catalog deadline caches = ⟨.ok value, caches', requests⟩) :
    (t.bind next).run catalog deadline caches =
      let second := (next value).run catalog deadline caches'
      ⟨second.result, second.caches, requests ++ second.requests⟩ := by
  rw [run_bind, h]

theorem run_bind_of_error {caches' : Caches} {requests : List Request} {error : ε}
    (h : t.run catalog deadline caches = ⟨.error error, caches', requests⟩) :
    (t.bind next).run catalog deadline caches = ⟨.error error, caches', requests⟩ := by
  rw [run_bind, h]

/-- A task with a value has gone through values all the way. -/
theorem result_run_bind_eq_ok {value : β} :
    ((t.bind next).run catalog deadline caches).result = .ok value ↔
      ∃ first, (t.run catalog deadline caches).result = .ok first ∧
        ((next first).run catalog deadline (t.run catalog deadline caches).caches).result =
          .ok value := by
  rw [run_bind]
  cases h : (t.run catalog deadline caches).result <;> simp [h]

theorem run_mapError (f : ε → ε') (t : Task ε α) (caches : Caches) :
    (t.mapError f).run catalog deadline caches =
      let run := t.run catalog deadline caches
      ⟨run.result.mapError f, run.caches, run.requests⟩ := by
  induction t generalizing caches with
  | done value | fail error => rfl
  | ask request k ih =>
    rw [mapError, run, ih, run]
  | readTypes k ih | readColumns k ih => exact ih _ caches
  | addTypes types k ih | addColumn column k ih => exact ih _

theorem result_run_mapError {f : ε → ε'} {t : Task ε α} {value : α} :
    ((t.mapError f).run catalog deadline caches).result = .ok value ↔
      (t.run catalog deadline caches).result = .ok value := by
  rw [run_mapError]
  dsimp only
  cases (t.run catalog deadline caches).result with
  | ok found => exact ⟨fun h => Except.ok.inj h ▸ rfl, fun h => Except.ok.inj h ▸ rfl⟩
  | error error => exact ⟨nofun, nofun⟩

theorem run_bind_of_answer {wrap : CatalogError → ε} {request : Request} {answer : request.Answer}
    {next : request.Answer → Task ε β} (h : catalog.answer deadline request = .ok answer) :
    ((Task.request wrap request).bind next).run catalog deadline caches =
      let second := (next answer).run catalog deadline caches
      ⟨second.result, second.caches, request :: second.requests⟩ := by
  rw [Task.request, Task.bind, run, h]
  rfl

theorem run_bind_of_refusal {wrap : CatalogError → ε} {request : Request} {reason : CatalogError}
    {next : request.Answer → Task ε β} (h : catalog.answer deadline request = .error reason) :
    ((Task.request wrap request).bind next).run catalog deadline caches =
      ⟨.error (wrap reason), caches, [request]⟩ := by
  rw [Task.request, Task.bind, run, h]
  rfl

/-- After a request the next task has its answer, and the same caches. -/
theorem result_run_request_bind {wrap : CatalogError → ε} {request : Request}
    {next : request.Answer → Task ε β} {value : β} :
    (((Task.request wrap request).bind next).run catalog deadline caches).result = .ok value ↔
      ∃ answer, catalog.answer deadline request = .ok answer ∧
        ((next answer).run catalog deadline caches).result = .ok value := by
  cases h : catalog.answer deadline request with
  | error reason => simp [run_bind_of_refusal h]
  | ok answer => simp [run_bind_of_answer h]

theorem result_run_ofExcept_bind {f : ε → ε'} {r : Except ε α} {next : α → Task ε' β}
    {value : β} :
    (((ofExcept (r.mapError f)).bind next).run catalog deadline caches).result = .ok value ↔
      ∃ first, r = .ok first ∧ ((next first).run catalog deadline caches).result = .ok value := by
  cases r with
  | error error => exact ⟨nofun, nofun⟩
  | ok first => exact ⟨fun h => ⟨first, rfl, h⟩, fun ⟨_, h, hnext⟩ => Except.ok.inj h ▸ hnext⟩

theorem result_run_mapError_bind {f : ε → ε'} {t : Task ε α} {next : α → Task ε' β} {value : β} :
    (((t.mapError f).bind next).run catalog deadline caches).result = .ok value ↔
      ∃ first, (t.run catalog deadline caches).result = .ok first ∧
        ((next first).run catalog deadline (t.run catalog deadline caches).caches).result =
          .ok value := by
  have hcaches : ((t.mapError f).run catalog deadline caches).caches =
      (t.run catalog deadline caches).caches := by rw [run_mapError]
  simp only [result_run_bind_eq_ok, result_run_mapError, hcaches]

/-- Caches change by additions only, so whatever these preserve holds after every task. -/
theorem caches_run_induction {motive : Caches → Prop}
    (extend : ∀ (caches : Caches) (types : List SqlType), motive caches →
      motive { caches with types := caches.types.extend types })
    (insert : ∀ (caches : Caches) (column : Column), motive caches →
      motive { caches with columns := caches.columns.insert column })
    (t : Task ε α) (h : motive caches) : motive (t.run catalog deadline caches).caches := by
  induction t generalizing caches with
  | done value | fail error => exact h
  | ask request k ih | readTypes k ih | readColumns k ih => exact ih _ h
  | addTypes types k ih => exact ih (extend _ types h)
  | addColumn column k ih => exact ih (insert _ column h)

/-- A task that adds nothing leaves the caches as they are. -/
theorem Ensures.caches_run {post : Except ε α → Caches → Prop}
    (h : t.Ensures (.frozen catalog deadline) post caches) :
    (t.run catalog deadline caches).caches = caches :=
  h.allowed_run.symm

end Task

end TypedSql
