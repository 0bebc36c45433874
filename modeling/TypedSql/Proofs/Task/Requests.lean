import TypedSql.Proofs.Task.Alone

/-!
# Tasks without requests

A task that only looks into the caches and adds to them asks the catalog for nothing, whatever it
finds there (`Task.IsSilent`). When it adds nothing either, its result is all there is to say about
it (`Task.Gives.run_eq`).
-/

namespace TypedSql

namespace Task

variable {ε ε' α β : Type} {catalog : Catalog} {deadline : Duration} {caches : Caches}
  {t : Task ε α} {next : α → Task ε β} {r : Except ε α}

/-- The task makes no request, whatever is cached. -/
def IsSilent : Task ε α → Prop
  | .done _ | .fail _ => True
  | .ask _ _ => False
  | .readTypes next => ∀ cache, (next cache).IsSilent
  | .addTypes _ next => next.IsSilent
  | .readColumns next => ∀ cache, (next cache).IsSilent
  | .addColumn _ next => next.IsSilent

theorem isSilent_cachedType (oid : Oid) : (cachedType oid : Task ε _).IsSilent :=
  fun _ => trivial

theorem IsSilent.bind (ht : t.IsSilent) (hn : ∀ value, (next value).IsSilent) :
    (t.bind next).IsSilent := by
  induction t with
  | done value => exact hn value
  | fail error => trivial
  | ask request k => exact ht.elim
  | readTypes k ih | readColumns k ih => exact fun cache => ih cache (ht cache)
  | addTypes types k ih | addColumn column k ih => exact ih ht

theorem IsSilent.requests_run (h : t.IsSilent) (caches : Caches) :
    (t.run catalog deadline caches).requests = [] := by
  induction t generalizing caches with
  | done value | fail error => rfl
  | ask request k => exact h.elim
  | readTypes k ih | readColumns k ih => exact ih _ (h _) _
  | addTypes types k ih | addColumn column k ih => exact ih h _

/-- A silent task whose result is certain, and which adds nothing. -/
theorem Gives.run_eq (h : t.Gives (.frozen catalog deadline) r caches) (hs : t.IsSilent) :
    t.run catalog deadline caches = ⟨r, caches, []⟩ := by
  have hr : (t.run catalog deadline caches).result = r := Ensures.run h
  have hc : (t.run catalog deadline caches).caches = caches := Ensures.caches_run h
  have hq : (t.run catalog deadline caches).requests = [] := hs.requests_run caches
  exact congr (congr (congrArg Run.mk hr) hc) hq

end Task

end TypedSql
