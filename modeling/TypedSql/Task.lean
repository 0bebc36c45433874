import TypedSql.Cache
import TypedSql.Catalog

/-!
# Tasks

Typing asks the catalog and looks into the caches of its run. A task says in which order, as a
tree: each node is one request or one access to a cache, and the task goes on with what came of
it. Nothing but these steps has an effect, so tasks that share their caches interfere only
between steps.

`Task.run` carries out a task alone, against a catalog that does not change, and notes the
requests that were made.
-/

namespace TypedSql

/-- A piece of typing that ends with a value of `α` or a failure of `ε`. -/
inductive Task (ε α : Type) where
  | done (value : α)
  | fail (error : ε)
  /-- Ask the catalog. -/
  | ask (request : Request) (next : Except CatalogError request.Answer → Task ε α)
  /-- Look at the cached types. -/
  | readTypes (next : TypeCache → Task ε α)
  /-- Add types to the cache, all at once. -/
  | addTypes (types : List SqlType) (next : Task ε α)
  /-- Look at the cached columns. -/
  | readColumns (next : ColumnCache → Task ε α)
  /-- Add a column to the cache. -/
  | addColumn (column : Column) (next : Task ε α)

namespace Task

variable {ε ε' α β γ : Type}

/-- Go on with the value of a task, unless it fails. -/
def bind : Task ε α → (α → Task ε β) → Task ε β
  | .done value, next => next value
  | .fail error, _ => .fail error
  | .ask request k, next => .ask request fun answer => (k answer).bind next
  | .readTypes k, next => .readTypes fun cache => (k cache).bind next
  | .addTypes types k, next => .addTypes types (k.bind next)
  | .readColumns k, next => .readColumns fun cache => (k cache).bind next
  | .addColumn column k, next => .addColumn column (k.bind next)

instance : Monad (Task ε) where
  pure := .done
  bind := bind

@[simp] theorem pure_eq (value : α) : (pure value : Task ε α) = .done value := rfl

@[simp] theorem bind_eq (t : Task ε α) (next : α → Task ε β) : t >>= next = t.bind next := rfl

@[simp] theorem bind_done (t : Task ε α) : t.bind .done = t := by
  induction t <;> simp_all [bind]

@[simp] theorem bind_assoc (t : Task ε α) (f : α → Task ε β) (g : β → Task ε γ) :
    (t.bind f).bind g = t.bind fun a => (f a).bind g := by
  induction t <;> simp_all [bind]

instance : LawfulMonad (Task ε) :=
  LawfulMonad.mk' (Task ε) (fun t => bind_done t) (fun _ _ => rfl) (fun t f g => bind_assoc t f g)

/-- Fail for another reason. -/
def mapError (f : ε → ε') : Task ε α → Task ε' α
  | .done value => .done value
  | .fail error => .fail (f error)
  | .ask request k => .ask request fun answer => (k answer).mapError f
  | .readTypes k => .readTypes fun cache => (k cache).mapError f
  | .addTypes types k => .addTypes types (k.mapError f)
  | .readColumns k => .readColumns fun cache => (k cache).mapError f
  | .addColumn column k => .addColumn column (k.mapError f)

/-- Take a failure as a value. -/
def attempt : Task ε α → Task ε' (Except ε α)
  | .done value => .done (.ok value)
  | .fail error => .done (.error error)
  | .ask request k => .ask request fun answer => (k answer).attempt
  | .readTypes k => .readTypes fun cache => (k cache).attempt
  | .addTypes types k => .addTypes types k.attempt
  | .readColumns k => .readColumns fun cache => (k cache).attempt
  | .addColumn column k => .addColumn column k.attempt

/-- A task without a step. -/
def ofExcept : Except ε α → Task ε α
  | .ok value => .done value
  | .error error => .fail error

/-- Ask the catalog, and fail if it does. -/
def request (wrap : CatalogError → ε) (request : Request) : Task ε request.Answer :=
  .ask request fun
    | .ok answer => .done answer
    | .error error => .fail (wrap error)

/-- Look up one cached type. -/
def cachedType (oid : Oid) : Task ε (Option SqlType) :=
  .readTypes fun cache => .done (cache.get? oid)

/-- Look up one cached column. -/
def cachedColumn (key : ColumnKey) : Task ε (Option Column) :=
  .readColumns fun cache => .done (cache.get? key)

/-- What a task comes to when it is carried out. -/
structure Run (ε α : Type) where
  result : Except ε α
  /-- The caches afterwards. -/
  caches : Caches
  /-- The requests that were made, in order. -/
  requests : List Request

/-- Carry out a task alone. -/
def run (catalog : Catalog) (deadline : Duration) : Task ε α → Caches → Run ε α
  | .done value, caches => ⟨.ok value, caches, []⟩
  | .fail error, caches => ⟨.error error, caches, []⟩
  | .ask request next, caches =>
    let rest := (next (catalog.answer deadline request)).run catalog deadline caches
    { rest with requests := request :: rest.requests }
  | .readTypes next, caches => (next caches.types).run catalog deadline caches
  | .addTypes types next, caches =>
    next.run catalog deadline { caches with types := caches.types.extend types }
  | .readColumns next, caches => (next caches.columns).run catalog deadline caches
  | .addColumn column next, caches =>
    next.run catalog deadline { caches with columns := caches.columns.insert column }

end Task

end TypedSql
