import TypedSql.Proofs.Task.Requests

/-!
# Tasks against a catalog that may change

A catalog that changes may answer a request by all that was asked before. `Task.proceed` carries out
a task against such replies, from the requests and the caches that earlier tasks have left, and says
how far it has come. Against a catalog that does not change this is `Task.run` (`Task.run_eq`).

A task that fails stops where it fails, so what a task comes to is read off its parts
(`Task.proceed_bind_eq_ok`, `Task.proceed_bind_eq_error`). A task that ends at a refusal asks for
nothing after one (`Task.EndsAtRefusal.refusedLast`).
-/

namespace TypedSql

/-- What is answered to a request behind the requests that were made before. -/
def Replies : Type :=
  (before : List Request) → (request : Request) → Except CatalogError request.Answer

/-- The replies of a catalog that does not change. -/
def Catalog.replies (catalog : Catalog) (deadline : Duration) : Replies :=
  fun _ request => catalog.answer deadline request

/-- How far tasks have come. -/
structure Progress where
  /-- The requests that were made, in order. -/
  requests : List Request
  caches : Caches

namespace Progress

variable {replies : Replies} {p : Progress}

/-- One more request was made. -/
def ask (p : Progress) (request : Request) : Progress :=
  { p with requests := p.requests ++ [request] }

/-- No request that was made since is behind one that was refused. -/
def RefusedLast (replies : Replies) (p p' : Progress) : Prop :=
  ∃ made, p'.requests = p.requests ++ made ∧
    ∀ before request after reason, made = before ++ request :: after →
      replies (p.requests ++ before) request = .error reason → after = []

theorem RefusedLast.of_eq {p' : Progress} (h : p'.requests = p.requests) :
    RefusedLast replies p p' :=
  ⟨[], by rw [h, List.append_nil], by simp⟩

/-- A request that is answered may be followed by others. -/
theorem RefusedLast.of_ask {p' : Progress} {request : Request} {answer : request.Answer}
    (ha : replies p.requests request = .ok answer) (h : RefusedLast replies (p.ask request) p') :
    RefusedLast replies p p' := by
  obtain ⟨made, heq, hlast⟩ := h
  refine ⟨request :: made, by rw [heq, ask, List.append_assoc, List.singleton_append], ?_⟩
  intro before refused after reason hmade hrefused
  cases before with
  | nil =>
    obtain ⟨rfl, -⟩ := List.cons.inj hmade
    rw [List.append_nil, ha] at hrefused
    contradiction
  | cons first before =>
    obtain ⟨rfl, hrest⟩ := List.cons.inj hmade
    refine hlast before refused after reason hrest ?_
    rw [ask, List.append_assoc]
    exact hrefused

theorem RefusedLast.ask (p : Progress) (request : Request) :
    RefusedLast replies p (p.ask request) := by
  refine ⟨[request], rfl, fun before refused after _ hmade _ => ?_⟩
  have hlength := congrArg List.length hmade
  rw [List.length_singleton, List.length_append, List.length_cons] at hlength
  exact List.length_eq_zero_iff.mp (by omega)

end Progress

/-- Steps one after another, each from where the last one has ended. -/
inductive Chain {α β : Type} (step : β → Progress → α → Progress → Prop) :
    List β → Progress → List α → Progress → Prop where
  | nil {p : Progress} : Chain step [] p [] p
  | cons {b : β} {bs : List β} {a : α} {as : List α} {p p₁ p₂ : Progress}
      (head : step b p a p₁) (tail : Chain step bs p₁ as p₂) : Chain step (b :: bs) p (a :: as) p₂

namespace Task

variable {ε ε' α β : Type} {replies : Replies} {p p' : Progress} {t : Task ε α}
  {next : α → Task ε β} {error : ε}

/-- Carry out a task from where others have stopped. -/
def proceed (replies : Replies) : Task ε α → Progress → Except ε α × Progress
  | .done value, p => (.ok value, p)
  | .fail error, p => (.error error, p)
  | .ask request next, p =>
    (next (replies p.requests request)).proceed replies (p.ask request)
  | .readTypes next, p => (next p.caches.types).proceed replies p
  | .addTypes types next, p =>
    next.proceed replies
      { p with caches := { p.caches with types := p.caches.types.extend types } }
  | .readColumns next, p => (next p.caches.columns).proceed replies p
  | .addColumn column next, p =>
    next.proceed replies
      { p with caches := { p.caches with columns := p.caches.columns.insert column } }

/-- Against a catalog that does not change, the requests that were made before do not matter. -/
theorem proceed_replies (catalog : Catalog) (deadline : Duration) (t : Task ε α)
    (p : Progress) :
    t.proceed (catalog.replies deadline) p =
      let run := t.run catalog deadline p.caches
      (run.result, ⟨p.requests ++ run.requests, run.caches⟩) := by
  induction t generalizing p with
  | done value | fail error =>
    simp [proceed, run]
  | ask request k ih =>
    rw [proceed, ih, run]
    simp [Progress.ask, Catalog.replies]
  | readTypes k ih | readColumns k ih => exact ih _ p
  | addTypes types k ih | addColumn column k ih => exact ih _

theorem run_eq (catalog : Catalog) (deadline : Duration) (t : Task ε α) (caches : Caches) :
    t.run catalog deadline caches =
      let (result, p) := t.proceed (catalog.replies deadline) ⟨[], caches⟩
      ⟨result, p.caches, p.requests⟩ := by
  rw [proceed_replies]
  rfl

/-! ### Parts of a task -/

theorem mapError_eq_ok_iff {f : ε → ε'} {r : Except ε α} {value : α} :
    r.mapError f = .ok value ↔ r = .ok value := by
  cases r with
  | error reason =>
    constructor
    · rintro ⟨⟩
    · rintro ⟨⟩
  | ok value =>
    constructor
    · rintro ⟨⟩
      rfl
    · rintro ⟨⟩
      rfl

theorem mapError_eq_error_iff {f : ε → ε'} {r : Except ε α} {error : ε'} :
    r.mapError f = .error error ↔ ∃ reason, r = .error reason ∧ f reason = error := by
  cases r with
  | error reason =>
    constructor
    · rintro ⟨⟩
      exact ⟨reason, rfl, rfl⟩
    · rintro ⟨_, ⟨⟩, rfl⟩
      rfl
  | ok value =>
    constructor
    · rintro ⟨⟩
    · rintro ⟨_, ⟨⟩, -⟩

theorem proceed_bind (t : Task ε α) (next : α → Task ε β) (p : Progress) :
    (t.bind next).proceed replies p =
      match t.proceed replies p with
      | (.ok value, p₁) => (next value).proceed replies p₁
      | (.error error, p₁) => (.error error, p₁) := by
  induction t generalizing p with
  | done value | fail error => rfl
  | ask request k ih => exact ih _ _
  | readTypes k ih | readColumns k ih => exact ih _ p
  | addTypes types k ih | addColumn column k ih => exact ih _

/-- A task with a value has gone through values all the way. -/
theorem proceed_bind_eq_ok {value : β} :
    (t.bind next).proceed replies p = (.ok value, p') ↔
      ∃ first p₁, t.proceed replies p = (.ok first, p₁) ∧
        (next first).proceed replies p₁ = (.ok value, p') := by
  rw [proceed_bind]
  obtain ⟨_ | first, p₁⟩ := t.proceed replies p
  · simp
  · constructor
    · intro h
      exact ⟨first, p₁, rfl, h⟩
    · rintro ⟨_, _, ⟨⟩, h⟩
      exact h

/-- A task fails in its first part, or behind a value of it. -/
theorem proceed_bind_eq_error :
    (t.bind next).proceed replies p = (.error error, p') ↔
      t.proceed replies p = (.error error, p') ∨
        ∃ first p₁, t.proceed replies p = (.ok first, p₁) ∧
          (next first).proceed replies p₁ = (.error error, p') := by
  rw [proceed_bind]
  obtain ⟨_ | first, p₁⟩ := t.proceed replies p
  · simp
  · constructor
    · intro h
      exact .inr ⟨first, p₁, rfl, h⟩
    · rintro (⟨⟨⟩⟩ | ⟨_, _, ⟨⟩, h⟩)
      exact h

theorem proceed_mapError (f : ε → ε') (t : Task ε α) (p : Progress) :
    (t.mapError f).proceed replies p =
      ((t.proceed replies p).1.mapError f, (t.proceed replies p).2) := by
  induction t generalizing p with
  | done value | fail error => rfl
  | ask request k ih => exact ih _ _
  | readTypes k ih | readColumns k ih => exact ih _ p
  | addTypes types k ih | addColumn column k ih => exact ih _

theorem proceed_mapError_eq_error {f : ε → ε'} {error : ε'} :
    (t.mapError f).proceed replies p = (.error error, p') ↔
      ∃ reason, t.proceed replies p = (.error reason, p') ∧ f reason = error := by
  simp only [proceed_mapError, Prod.ext_iff, mapError_eq_error_iff, and_right_comm,
    exists_and_right]

theorem proceed_mapError_eq_ok {f : ε → ε'} {value : α} :
    (t.mapError f).proceed replies p = (.ok value, p') ↔
      t.proceed replies p = (.ok value, p') := by
  simp only [proceed_mapError, Prod.ext_iff, mapError_eq_ok_iff]

theorem proceed_attempt (t : Task ε α) (p : Progress) :
    (t.attempt : Task ε' (Except ε α)).proceed replies p =
      (.ok (t.proceed replies p).1, (t.proceed replies p).2) := by
  induction t generalizing p with
  | done value | fail error => rfl
  | ask request k ih => exact ih _ _
  | readTypes k ih | readColumns k ih => exact ih _ p
  | addTypes types k ih | addColumn column k ih => exact ih _

theorem proceed_ofExcept (r : Except ε α) (p : Progress) :
    (ofExcept r).proceed replies p = (r, p) := by
  cases r <;> rfl

theorem proceed_ofExcept_eq_ok {f : ε → ε'} {r : Except ε α} {value : α} :
    (ofExcept (r.mapError f)).proceed replies p = (.ok value, p') ↔ r = .ok value ∧ p = p' := by
  rw [proceed_ofExcept, Prod.mk.injEq, mapError_eq_ok_iff]

theorem proceed_ofExcept_eq_error {f : ε → ε'} {r : Except ε α} {error : ε'} :
    (ofExcept (r.mapError f)).proceed replies p = (.error error, p') ↔
      ∃ reason, r = .error reason ∧ f reason = error ∧ p = p' := by
  simp only [proceed_ofExcept, Prod.mk.injEq, mapError_eq_error_iff, ← and_assoc,
    exists_and_right]

theorem proceed_request (wrap : CatalogError → ε) (request : Request) (p : Progress) :
    (Task.request wrap request).proceed replies p =
      ((replies p.requests request).mapError wrap, p.ask request) := by
  rw [Task.request, proceed]
  cases replies p.requests request <;> rfl

theorem proceed_request_eq_ok {wrap : CatalogError → ε} {request : Request}
    {answer : request.Answer} :
    (Task.request wrap request).proceed replies p = (.ok answer, p') ↔
      replies p.requests request = .ok answer ∧ p.ask request = p' := by
  rw [proceed_request, Prod.mk.injEq, mapError_eq_ok_iff]

theorem proceed_request_eq_error {wrap : CatalogError → ε} {request : Request} :
    (Task.request wrap request).proceed replies p = (.error error, p') ↔
      ∃ reason, replies p.requests request = .error reason ∧ wrap reason = error ∧
        p.ask request = p' := by
  simp only [proceed_request, Prod.mk.injEq, mapError_eq_error_iff, ← and_assoc, exists_and_right]

/-! ### Refusals -/

/-- The task fails at once when a request is refused. -/
def FailsAtRefusal : Task ε α → Prop
  | .done _ | .fail _ => True
  | .ask _ next =>
    (∀ reason, ∃ error, next (.error reason) = .fail error) ∧
      ∀ answer, (next (.ok answer)).FailsAtRefusal
  | .readTypes next => ∀ cache, (next cache).FailsAtRefusal
  | .addTypes _ next => next.FailsAtRefusal
  | .readColumns next => ∀ cache, (next cache).FailsAtRefusal
  | .addColumn _ next => next.FailsAtRefusal

/-- The task has no step left. -/
def IsOver : Task ε α → Prop
  | .done _ | .fail _ => True
  | .ask _ _ | .readTypes _ | .addTypes _ _ | .readColumns _ | .addColumn _ _ => False

/-- The task is over when a request is refused, be it with a failure or a value. -/
def EndsAtRefusal : Task ε α → Prop
  | .done _ | .fail _ => True
  | .ask _ next =>
    (∀ reason, (next (.error reason)).IsOver) ∧ ∀ answer, (next (.ok answer)).EndsAtRefusal
  | .readTypes next => ∀ cache, (next cache).EndsAtRefusal
  | .addTypes _ next => next.EndsAtRefusal
  | .readColumns next => ∀ cache, (next cache).EndsAtRefusal
  | .addColumn _ next => next.EndsAtRefusal

theorem IsSilent.failsAtRefusal (h : t.IsSilent) : t.FailsAtRefusal := by
  induction t with
  | done value | fail error => trivial
  | ask request k => exact h.elim
  | readTypes k ih | readColumns k ih => exact fun cache => ih cache (h cache)
  | addTypes types k ih | addColumn column k ih => exact ih h

theorem failsAtRefusal_request (wrap : CatalogError → ε) (request : Request) :
    (Task.request wrap request).FailsAtRefusal :=
  ⟨fun reason => ⟨wrap reason, rfl⟩, fun _ => trivial⟩

theorem failsAtRefusal_ofExcept (r : Except ε α) : (ofExcept r).FailsAtRefusal := by
  cases r <;> trivial

theorem FailsAtRefusal.bind (ht : t.FailsAtRefusal) (hn : ∀ value, (next value).FailsAtRefusal) :
    (t.bind next).FailsAtRefusal := by
  induction t with
  | done value => exact hn value
  | fail error => trivial
  | ask request k ih =>
    refine ⟨fun reason => ?_, fun answer => ih _ (ht.2 answer)⟩
    obtain ⟨error, herror⟩ := ht.1 reason
    exact ⟨error, congrArg (Task.bind · next) herror⟩
  | readTypes k ih | readColumns k ih => exact fun cache => ih cache (ht cache)
  | addTypes types k ih | addColumn column k ih => exact ih ht

theorem FailsAtRefusal.mapError (f : ε → ε') (ht : t.FailsAtRefusal) :
    (t.mapError f).FailsAtRefusal := by
  induction t with
  | done value | fail error => trivial
  | ask request k ih =>
    refine ⟨fun reason => ?_, fun answer => ih _ (ht.2 answer)⟩
    obtain ⟨error, herror⟩ := ht.1 reason
    exact ⟨f error, congrArg (Task.mapError f) herror⟩
  | readTypes k ih | readColumns k ih => exact fun cache => ih cache (ht cache)
  | addTypes types k ih | addColumn column k ih => exact ih ht

/-- A failure that is taken as a value ends the task where no step follows such a value. -/
theorem FailsAtRefusal.attempt_bind {next : Except ε α → Task ε' β} (ht : t.FailsAtRefusal)
    (herror : ∀ error, (next (.error error)).IsOver)
    (hok : ∀ value, (next (.ok value)).EndsAtRefusal) : (t.attempt.bind next).EndsAtRefusal := by
  induction t with
  | done value => exact hok value
  | fail error =>
    have hover := herror error
    show (next (.error error)).EndsAtRefusal
    cases hnext : next (.error error) <;> simp_all [IsOver, EndsAtRefusal]
  | ask request k ih =>
    refine ⟨fun reason => ?_, fun answer => ih _ (ht.2 answer)⟩
    obtain ⟨error, hk⟩ := ht.1 reason
    show ((k (.error reason)).attempt.bind next).IsOver
    rw [hk]
    exact herror error
  | readTypes k ih | readColumns k ih => exact fun cache => ih cache (ht cache)
  | addTypes types k ih | addColumn column k ih => exact ih ht

theorem IsOver.proceed_snd (h : t.IsOver) (p : Progress) : (t.proceed replies p).2 = p := by
  cases t with
  | done value | fail error => rfl
  | ask request k | readTypes k | addTypes types k | readColumns k | addColumn column k =>
    exact h.elim

/-- A task that ends at a refusal asks for nothing behind a request that was refused. -/
theorem EndsAtRefusal.refusedLast (h : t.EndsAtRefusal) (p : Progress) :
    p.RefusedLast replies (t.proceed replies p).2 := by
  induction t generalizing p with
  | done value | fail error => exact .of_eq rfl
  | ask request k ih =>
    rw [proceed]
    cases ha : replies p.requests request with
    | error reason =>
      rw [(h.1 reason).proceed_snd]
      exact .ask p request
    | ok answer => exact .of_ask ha (ih _ (h.2 answer) _)
  | readTypes k ih | readColumns k ih => exact ih _ (h _) p
  | addTypes types k ih | addColumn column k ih => exact ih h _

end Task

end TypedSql
