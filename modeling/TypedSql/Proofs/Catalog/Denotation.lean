import TypedSql.Proofs.Catalog.Closure
import TypedSql.Proofs.SqlType.Builtin

/-!
# What a catalog in memory says about types

A type denotes what its row says, with the types that the row names taken as what they denote,
and a built-in type denotes itself. This is a recursion over the graph of dependencies, so it is
an inductive relation: a type has a denotation just when the recursion ends (`Denotes`). It has
at most one (`Denotes.unique`), and has none when it is unknown, when something it is made of
misses a dependency, or when a circle can be reached from it.

All this is about plain catalogs. They come from the functions that build a catalog, answer every
request at once, and have no rows of their own for the built-in types.
-/

namespace TypedSql

namespace MemoryCatalog

variable {c : MemoryCatalog} {oid a b d : Oid} {row : TypeRow} {s t : SqlType}

/-- The catalogs that can be built. -/
inductive Built : MemoryCatalog → Prop where
  | empty : Built .empty
  | addType {c : MemoryCatalog} (row : TypeRow) : Built c → Built (c.addType row)
  | addColumn {c : MemoryCatalog} (row : ColumnRow) : Built c → Built (c.addColumn row)
  | addStatement {c : MemoryCatalog} (sql : String) (description : Description) :
    Built c → Built (c.addStatement sql description)
  | addPlan {c : MemoryCatalog} (sql : String) (plan : Json) : Built c → Built (c.addPlan sql plan)
  | addFailure {c : MemoryCatalog} (operation : Operation) (message : String) :
    Built c → Built (c.addFailure operation message)
  | withLatency {c : MemoryCatalog} (latency : Duration) : Built c → Built (c.withLatency latency)

/-- A table is built column by column. -/
theorem Built.addTable (hc : c.Built) (table : Oid) (tableName : String)
    (columns : List (String × Oid × Bool)) : (c.addTable table tableName columns).Built := by
  rw [MemoryCatalog.addTable]
  induction columns.zipIdx generalizing c with
  | nil => exact hc
  | cons column columns ih => exact ih (hc.addColumn _)

theorem Built.isKeyed_types (hc : c.Built) : c.types.IsKeyed := by
  induction hc with
  | empty =>
    intro oid row h
    simp [MemoryCatalog.empty] at h
  | @addType c row _ ih =>
    intro oid row' h
    rw [MemoryCatalog.addType, Std.ExtTreeMap.getElem?_insert] at h
    split at h
    · next he =>
      obtain rfl := Option.some.inj h
      exact Std.LawfulEqCmp.compare_eq_iff_eq.mp he
    · exact ih oid row' h
  | addColumn _ _ ih | addStatement _ _ _ ih | addPlan _ _ _ ih | addFailure _ _ _ ih
  | withLatency _ _ ih => exact ih

theorem Built.key_of_getElem? (hc : c.Built) {key : ColumnKey} {row : ColumnRow}
    (h : c.columns[key]? = some row) : row.key = key := by
  induction hc with
  | empty => simp [MemoryCatalog.empty] at h
  | @addColumn c row' _ ih =>
    rw [MemoryCatalog.addColumn, Std.ExtTreeMap.getElem?_insert] at h
    split at h
    · next he =>
      obtain rfl := Option.some.inj h
      exact Std.LawfulEqCmp.compare_eq_iff_eq.mp he
    · exact ih h
  | addType _ _ ih | addStatement _ _ _ ih | addPlan _ _ _ ih | addFailure _ _ _ ih
  | withLatency _ _ ih => exact ih h

/-- What a catalog answers is what it finds. -/
theorem find_of_answer {deadline : Duration} {request : Request} {answer : request.Answer}
    (h : c.catalog.answer deadline request = .ok answer) : c.find request = .ok answer := by
  rw [Catalog.answer] at h
  split at h
  · cases h
  · simp only [catalog] at h
    split at h
    · cases h
    · exact h

/-- A catalog without failures and delays. -/
structure IsPrompt (c : MemoryCatalog) : Prop where
  built : c.Built
  failure (operation : Operation) : c.failure operation = none
  latency : c.latency = ⟨0⟩

/-- A prompt catalog answers every request with what it finds, before any deadline. -/
theorem IsPrompt.answer (hc : c.IsPrompt) (deadline : Duration) (request : Request) :
    c.catalog.answer deadline request = c.find request := by
  simp [Catalog.answer, catalog, hc.failure, hc.latency]

/-- A catalog without failures, delays and rows for built-in types. -/
structure IsPlain (c : MemoryCatalog) : Prop where
  built : c.Built
  failure (operation : Operation) : c.failure operation = none
  latency : c.latency = ⟨0⟩
  builtin (oid : Oid) : (Builtin.type? oid).isSome → c.types[oid]? = none

theorem IsPlain.isPrompt (hc : c.IsPlain) : c.IsPrompt :=
  ⟨hc.built, hc.failure, hc.latency⟩

/-- A plain catalog answers every request with what it finds, before any deadline. -/
theorem IsPlain.answer (hc : c.IsPlain) (deadline : Duration) (request : Request) :
    c.catalog.answer deadline request = c.find request :=
  hc.isPrompt.answer deadline request

/-- A catalog without failures and rows for built-in types, which may be slow. -/
structure IsReliable (c : MemoryCatalog) : Prop where
  built : c.Built
  failure (operation : Operation) : c.failure operation = none
  builtin (oid : Oid) : (Builtin.type? oid).isSome → c.types[oid]? = none

/-- A catalog without failures is plain when it is made fast. -/
theorem IsReliable.isPlain (hc : c.IsReliable) : (c.withLatency ⟨0⟩).IsPlain where
  built := .withLatency ⟨0⟩ hc.built
  failure := hc.failure
  latency := rfl
  builtin := hc.builtin

/-- A catalog that is fast enough for a deadline might as well answer at once. -/
theorem answer_withLatency {deadline : Duration}
    (h : c.latency.milliseconds ≤ deadline.milliseconds) (request : Request) :
    c.catalog.answer deadline request = (c.withLatency ⟨0⟩).catalog.answer deadline request := by
  have hin {c : MemoryCatalog} (h : c.latency.milliseconds ≤ deadline.milliseconds) :
      c.catalog.answer deadline request = (c.catalog.reply request).result :=
    if_neg (Nat.not_lt.mpr h)
  rw [hin h, hin (Nat.zero_le _)]
  rfl

theorem isReliable_empty : empty.IsReliable where
  built := .empty
  failure _ := rfl
  builtin _ _ := Std.ExtTreeMap.getElem?_empty

theorem IsReliable.addType (hc : c.IsReliable) (hb : Builtin.type? row.oid = none) :
    (c.addType row).IsReliable where
  built := .addType row hc.built
  failure := hc.failure
  builtin oid ho := by
    rw [MemoryCatalog.addType, Std.ExtTreeMap.getElem?_insert, if_neg]
    · exact hc.builtin oid ho
    · rw [Std.LawfulEqCmp.compare_eq_iff_eq]
      rintro rfl
      rw [hb] at ho
      cases ho

theorem IsReliable.addTable (hc : c.IsReliable) (table : Oid) (tableName : String)
    (columns : List (String × Oid × Bool)) : (c.addTable table tableName columns).IsReliable := by
  rw [MemoryCatalog.addTable]
  induction columns.zipIdx generalizing c with
  | nil => exact hc
  | cons column columns ih =>
    exact ih ⟨.addColumn _ hc.built, hc.failure, hc.builtin⟩

theorem IsReliable.withLatency (hc : c.IsReliable) (latency : Duration) :
    (c.withLatency latency).IsReliable :=
  ⟨.withLatency latency hc.built, hc.failure, hc.builtin⟩

/-! ### Known types -/

/-- Whether a type has a row or is built in. -/
def knows (c : MemoryCatalog) (oid : Oid) : Bool :=
  c.types.contains oid || (Builtin.type? oid).isSome

theorem knows_iff : c.knows oid = true ↔ oid ∈ c.types ∨ (Builtin.type? oid).isSome := by
  rw [knows, Bool.or_eq_true, Std.ExtTreeMap.contains_iff_mem]

/-- What the catalog tells of a type. Of a built-in type without a row it is the name. -/
def row? (c : MemoryCatalog) (oid : Oid) : Option TypeRow :=
  c.types[oid]?.or ((Builtin.type? oid).map fun t => .unknown ⟨oid, t.name, .base⟩)

theorem isSome_row? : (c.row? oid).isSome = c.knows oid := by
  rw [row?, Option.isSome_or, Option.isSome_map, Std.ExtTreeMap.isSome_getElem?_eq_contains, knows]

/-- The type has a row, and `dependency` is the first type in it that is not known. -/
def Misses (c : MemoryCatalog) (oid dependency : Oid) : Prop :=
  ∃ row, c.types[oid]? = some row ∧
    row.dependencies.find? (fun d => !c.knows d) = some dependency

theorem knows_of_not_misses (hn : ∀ d, ¬ c.Misses a d) (h : c.types.DependsOn a b) :
    c.knows b = true := by
  obtain ⟨row, hr, hb⟩ := h
  by_contra hk
  cases hf : row.dependencies.find? fun d => !c.knows d with
  | none => exact List.find?_eq_none.mp hf b hb (by simpa using hk)
  | some d => exact hn d ⟨row, hr, hf⟩

/-- What the catalog says a type is. -/
inductive Denotes (c : MemoryCatalog) : Oid → SqlType → Prop where
  | builtin {oid : Oid} {t : SqlType} : Builtin.type? oid = some t → Denotes c oid t
  | enum {oid : Oid} {t : EnumType} : c.types[oid]? = some (.enum t) → Denotes c oid (.enum t)
  | unknown {oid : Oid} {t : UnknownType} :
    c.types[oid]? = some (.unknown t) → Denotes c oid (.unknown t)
  | domain {oid : Oid} {row : DomainRow} {t : SqlType} :
    c.types[oid]? = some (.domain row) → Denotes c row.baseOid t →
    Denotes c oid (.domain ⟨row.oid, row.name, row.notNull, row.hasDefault, ⟨t.oid, t.name⟩,
      row.dimensions⟩)
  | composite {oid : Oid} {row : CompositeRow} {ts : List SqlType} :
    c.types[oid]? = some (.composite row) → row.columnOids.length = ts.length →
    (∀ p ∈ row.columnOids.zip ts, Denotes c p.1 p.2) →
    Denotes c oid (.composite row.oid row.name row.columnNames ts)
  | array {oid : Oid} {row : ArrayRow} {t : SqlType} :
    c.types[oid]? = some (.array row) → Denotes c row.elementOid t →
    Denotes c oid (.array row.oid row.name t)

theorem exists_mem_zip {α β : Type} {as : List α} {bs : List β} {a : α}
    (hl : as.length = bs.length) (ha : a ∈ as) : ∃ b, (a, b) ∈ as.zip bs := by
  rw [← List.map_fst_zip hl.le, List.mem_map] at ha
  obtain ⟨⟨_, b⟩, hm, rfl⟩ := ha
  exact ⟨b, hm⟩

/-- What depends on a type denotes something only if the type does. -/
theorem Denotes.exists_of_dependsOn (hc : c.IsPlain) (h : c.Denotes a t)
    (hab : c.types.DependsOn a b) : ∃ s, c.Denotes b s := by
  obtain ⟨row, hr, hb⟩ := hab
  cases h with
  | builtin h =>
    rw [hc.builtin a (by rw [h]; rfl)] at hr
    cases hr
  | enum h | unknown h =>
    obtain rfl := Option.some.inj (h.symm.trans hr)
    cases hb
  | domain h ht | array h ht =>
    obtain rfl := Option.some.inj (h.symm.trans hr)
    obtain rfl := List.mem_singleton.mp hb
    exact ⟨_, ht⟩
  | composite h hl ht =>
    obtain rfl := Option.some.inj (h.symm.trans hr)
    obtain ⟨s, hm⟩ := exists_mem_zip hl hb
    exact ⟨s, ht _ hm⟩

/-- What holds of a type when it holds of all types that it depends on, holds of every type that
denotes something. -/
theorem Denotes.induction (hc : c.IsPlain) {motive : Oid → Prop}
    (step : ∀ a, (∀ b, c.types.DependsOn a b → motive b) → motive a) (h : c.Denotes oid t) :
    motive oid := by
  induction h with
  | @builtin oid t h =>
    refine step oid fun b ⟨row, hr, _⟩ => ?_
    rw [hc.builtin oid (by rw [h]; rfl)] at hr
    cases hr
  | enum h | unknown h =>
    refine step _ fun b ⟨row, hr, hb⟩ => ?_
    obtain rfl := Option.some.inj (h.symm.trans hr)
    cases hb
  | domain h _ ih | array h _ ih =>
    refine step _ fun b ⟨row, hr, hb⟩ => ?_
    obtain rfl := Option.some.inj (h.symm.trans hr)
    obtain rfl := List.mem_singleton.mp hb
    exact ih
  | composite h hl _ ih =>
    refine step _ fun b ⟨row, hr, hb⟩ => ?_
    obtain rfl := Option.some.inj (h.symm.trans hr)
    obtain ⟨s, hm⟩ := exists_mem_zip hl hb
    exact ih _ hm

theorem Denotes.not_reachesCycle (hc : c.IsPlain) (h : c.Denotes oid t) :
    ¬ c.types.ReachesCycle oid := by
  refine h.induction hc (motive := fun a => ¬ c.types.ReachesCycle a) fun a ih ha => ?_
  obtain ⟨b, hab, hb⟩ := ha.exists_dependsOn
  exact ih b hab hb

theorem Denotes.knows (h : c.Denotes oid t) : c.knows oid = true := by
  rw [knows_iff]
  cases h with
  | builtin h => simp [h]
  | enum h | unknown h | domain h _ | array h _ | composite h _ _ =>
    exact .inl (mem_map_iff.mpr ⟨_, h⟩)

theorem Denotes.not_misses (hc : c.IsPlain) (h : c.Denotes oid t) : ¬ c.Misses oid d := by
  rintro ⟨row, hr, hd⟩
  obtain ⟨s, hs⟩ := h.exists_of_dependsOn hc ⟨row, hr, List.mem_of_find?_eq_some hd⟩
  have hn := List.find?_some hd
  simp [hs.knows] at hn

theorem Denotes.oid_eq (hc : c.IsPlain) (h : c.Denotes oid t) : t.oid = oid := by
  cases h with
  | builtin h => exact Builtin.oid_of_type? h
  | enum h | unknown h | domain h _ | array h _ | composite h _ _ =>
    exact hc.built.isKeyed_types _ _ h

/-- A row and a built-in type do not stand under one identifier. -/
theorem IsPlain.not_builtin (hc : c.IsPlain) (hr : c.types[oid]? = some row) :
    Builtin.type? oid ≠ some t := by
  intro h
  rw [hc.builtin oid (by rw [h]; rfl)] at hr
  cases hr

/-- A type denotes one thing at most. -/
theorem Denotes.unique (hc : c.IsPlain) (hs : c.Denotes oid s) (ht : c.Denotes oid t) : s = t := by
  induction hs generalizing t with
  | builtin h =>
    cases ht with
    | builtin h' => exact Option.some.inj (h.symm.trans h')
    | enum h' | unknown h' | domain h' _ | composite h' _ _ | array h' _ =>
      exact absurd h (hc.not_builtin h')
  | enum h =>
    cases ht with
    | builtin h' => exact absurd h' (hc.not_builtin h)
    | unknown h' | domain h' _ | composite h' _ _ | array h' _ => cases h.symm.trans h'
    | enum h' =>
      cases h.symm.trans h'
      rfl
  | unknown h =>
    cases ht with
    | builtin h' => exact absurd h' (hc.not_builtin h)
    | enum h' | domain h' _ | composite h' _ _ | array h' _ => cases h.symm.trans h'
    | unknown h' =>
      cases h.symm.trans h'
      rfl
  | domain h _ ih =>
    cases ht with
    | builtin h' => exact absurd h' (hc.not_builtin h)
    | enum h' | unknown h' | composite h' _ _ | array h' _ => cases h.symm.trans h'
    | domain h' ht =>
      cases h.symm.trans h'
      rw [ih ht]
  | array h _ ih =>
    cases ht with
    | builtin h' => exact absurd h' (hc.not_builtin h)
    | enum h' | unknown h' | domain h' _ | composite h' _ _ => cases h.symm.trans h'
    | array h' ht =>
      cases h.symm.trans h'
      rw [ih ht]
  | @composite oid row ts h hl _ ih =>
    cases ht with
    | builtin h' => exact absurd h' (hc.not_builtin h)
    | enum h' | unknown h' | domain h' _ | array h' _ => cases h.symm.trans h'
    | @composite _ _ ts' h' hl' ht =>
      cases h.symm.trans h'
      congr 1
      refine List.ext_getElem (hl.symm.trans hl') fun i hi hi' => ?_
      have ho : i < row.columnOids.length := hl ▸ hi
      have hz : (row.columnOids[i], ts[i]) ∈ row.columnOids.zip ts := by
        rw [← List.getElem_zip (h := by simp [ho, hi])]
        exact List.getElem_mem _
      have hz' : (row.columnOids[i], ts'[i]) ∈ row.columnOids.zip ts' := by
        rw [← List.getElem_zip (h := by simp [ho, hi'])]
        exact List.getElem_mem _
      exact ih _ hz (ht _ hz')

end MemoryCatalog

end TypedSql
