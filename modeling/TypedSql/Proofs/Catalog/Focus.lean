import TypedSql.Catalog.Script
import TypedSql.Proofs.Resolution.Rows

/-!
# Catalogs that answer to the point

A catalog is asked about some types, and should describe no others (`Catalog.IsFocused`). A memory
catalog that was built finds types under their own identifiers, so it does not
(`MemoryCatalog.Built.isFocused`). A catalog behind a script keeps to the point unless the script
gives away rows that nobody asked for (`Script.isFocused_onTopOf`), and one such row is enough to
miss it (`Script.not_isFocused_onTopOf`). Of the catalog behind, only the replies to the requests
that get through matter (`Script.run_onTopOf_congr`).
-/

namespace TypedSql

namespace Request

/-- The rows of types in an answer. -/
def rows : (request : Request) → request.Answer → List TypeRow
  | .findEnums _, found => found.map .enum
  | .findDomains _, found => found.map .domain
  | .findComposites _, found => found.map .composite
  | .findArrays _, found => found.map .array
  | .findUnknown _, found => found.map .unknown
  | .describe _, _ | .explain _ _, _ | .findDescendants _, _ | .findColumns _, _ => []

/-- The types that are asked for. -/
def oids : Request → List Oid
  | .findEnums oids | .findDomains oids | .findComposites oids | .findArrays oids
  | .findUnknown oids | .findDescendants oids => oids
  | .describe _ | .explain _ _ | .findColumns _ => []

end Request

/-- The catalog describes only types that it was asked for. -/
def Catalog.IsFocused (catalog : Catalog) : Prop :=
  ∀ request answer, (catalog.reply request).result = .ok answer →
    ∀ row ∈ request.rows answer, row.oid ∈ request.oids

theorem Catalog.IsFocused.of_answer {catalog : Catalog} (hc : catalog.IsFocused)
    {deadline : Duration} {request : Request} {answer : request.Answer}
    (h : catalog.answer deadline request = .ok answer) :
    ∀ row ∈ request.rows answer, row.oid ∈ request.oids := by
  rw [Catalog.answer] at h
  split at h
  · cases h
  · exact hc request answer h

/-- A catalog that was built finds types under their own identifiers. -/
theorem MemoryCatalog.Built.isFocused {c : MemoryCatalog} (hc : c.Built) : c.catalog.IsFocused := by
  intro request answer h row hr
  have hfind : c.find request = .ok answer := by
    simp only [MemoryCatalog.catalog] at h
    split at h
    · cases h
    · exact h
  clear h
  cases request with
  | findEnums oids | findDomains oids | findComposites oids | findArrays oids =>
    obtain rfl := Except.ok.inj hfind
    obtain ⟨⟨oid, ho, hrow⟩, -⟩ :=
      (Resolution.mem_rowsOf fun row _ => by cases row <;> simp).mp hr
    obtain rfl := hc.isKeyed_types oid row hrow
    exact ho
  | findUnknown oids =>
    obtain rfl := Except.ok.inj hfind
    obtain ⟨t, ht, rfl⟩ := List.mem_map.mp hr
    obtain ⟨oid, ho, ht⟩ := List.mem_filterMap.mp ht
    obtain rfl := Resolution.oid_of_nameAndKind? oid t ht
    exact ho
  | describe | explain | findDescendants | findColumns => cases hr

/-! ### Scripts -/

/-- No row about a type is given to those that did not ask for it. -/
def ScriptedAnswer.IsStrict : ScriptedAnswer → Prop
  | .enums rows => ∀ r ∈ rows, r.loose = false
  | .domains rows => ∀ r ∈ rows, r.loose = false
  | .composites rows => ∀ r ∈ rows, r.loose = false
  | .arrays rows => ∀ r ∈ rows, r.loose = false
  | .unknown rows => ∀ r ∈ rows, r.loose = false
  | .error _ | .descendants _ | .columns _ => True

namespace Script

variable {s : Script} {catalog : Catalog} {request : Request}

/-- None of the scripted rows is given away. -/
def IsStrict (s : Script) : Prop :=
  ∀ operation answer, s operation = some answer → answer.IsStrict

/-- Only the rows that were asked for are given, if none is loose. -/
theorem mem_of_mem_asked {α : Type} {oid : α → Oid} {oids : List Oid} {rows : List (ScriptedRow α)}
    (h : ∀ r ∈ rows, r.loose = false) {a : α} (ha : a ∈ asked oid oids rows) : oid a ∈ oids := by
  obtain ⟨r, hr, rfl⟩ := List.mem_map.mp ha
  obtain ⟨hr, hgiven⟩ := List.mem_filter.mp hr
  rw [h r hr, Bool.false_or] at hgiven
  exact List.contains_iff_mem.mp hgiven

theorem mem_oids_of_rows? {answer : ScriptedAnswer} {found : request.Answer}
    (hs : answer.IsStrict) (h : rows? answer request = some found) :
    ∀ row ∈ request.rows found, row.oid ∈ request.oids := by
  intro row hrow
  unfold rows? at h
  split at h
  -- A closure and the rows of columns tell of no type, and an answer of the wrong kind of nothing.
  case h_1 | h_7 => cases hrow
  case h_8 => cases h
  all_goals
    obtain rfl := Option.some.inj h
    obtain ⟨t, ht, rfl⟩ := List.mem_map.mp hrow
    exact mem_of_mem_asked hs ht

/-- A strict script keeps a catalog to what is asked. -/
theorem isFocused_onTopOf (hs : s.IsStrict) (hc : catalog.IsFocused) :
    (s.onTopOf catalog).IsFocused := by
  intro request found h
  simp only [onTopOf] at h
  split at h
  · next result hresult =>
    obtain rfl : result = .ok found := h
    rw [answer?] at hresult
    split at hresult
    · cases hresult
    · next answer _ hanswer =>
      obtain ⟨rows, hrows, hfound⟩ := Option.map_eq_some_iff.mp hresult
      obtain rfl := Except.ok.inj hfound
      exact mem_oids_of_rows? (hs _ _ hanswer) hrows
    · cases hresult
  · exact hc request found h

/-- A row that is given away is also given when nothing is asked. -/
theorem not_isFocused_onTopOf {rows : List (ScriptedRow EnumType)}
    (hs : s .findEnums = some (.enums rows)) {r : ScriptedRow EnumType} (hr : r ∈ rows)
    (hloose : r.loose = true) : ¬ (s.onTopOf catalog).IsFocused := by
  intro hf
  have hasked : r.row ∈ asked EnumType.oid [] rows :=
    List.mem_map_of_mem (List.mem_filter.mpr ⟨hr, by rw [hloose, Bool.true_or]⟩)
  have hmem := hf (.findEnums []) (asked EnumType.oid [] rows)
    (by simp [onTopOf, answer?, Request.operation, hs, rows?])
    (.enum r.row) (List.mem_map_of_mem hasked)
  exact List.not_mem_nil hmem

/-- Of the catalog behind a script a task sees only the replies to requests that get through. -/
theorem run_onTopOf_congr {ε α : Type} {catalog' : Catalog} {deadline : Duration} (t : Task ε α)
    (caches : Caches)
    (h : ∀ request ∈ s.passed (t.run (s.onTopOf catalog) deadline caches).requests,
      catalog.reply request = catalog'.reply request) :
    t.run (s.onTopOf catalog') deadline caches = t.run (s.onTopOf catalog) deadline caches := by
  induction t generalizing caches with
  | done value | fail error => rfl
  | ask request next ih =>
    have hreply : (s.onTopOf catalog').reply request = (s.onTopOf catalog).reply request := by
      simp only [onTopOf]
      split
      · rfl
      · next hnone =>
        refine (h request ?_).symm
        exact List.mem_filter.mpr ⟨List.mem_cons_self, Option.isNone_iff_eq_none.mpr hnone⟩
    have hanswer : (s.onTopOf catalog').answer deadline request =
        (s.onTopOf catalog).answer deadline request := by
      rw [Catalog.answer, Catalog.answer, hreply]
    rw [Task.run, Task.run, hanswer, ih _ caches fun r hr => h r ?_]
    obtain ⟨hr, hnone⟩ := List.mem_filter.mp hr
    exact List.mem_filter.mpr ⟨List.mem_cons_of_mem request hr, hnone⟩
  | readTypes next ih | readColumns next ih => exact ih _ caches h
  | addTypes types next ih | addColumn column next ih => exact ih _ h

end Script

end TypedSql
