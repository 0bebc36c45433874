import Mathlib.Logic.Relation
import TypedSql.Plan

/-!
# Plans that scan one relation

A plan scans one relation when nodes that only pass rows on lead to a node that names the relation,
writes nothing and has no other relation anywhere below it. Said this way the property follows the
edges of the tree: `Plan.PassesTo` for the nodes that are seen through and `Plan.Below` for all that
a node has under it. Reading the relation off a plan by recursion gives the same answer
(`Plan.scannedRelation_eq_some_iff`).
-/

namespace TypedSql

namespace Plan

/-- A property of plans follows from the nodes directly below. -/
theorem induction {motive : Plan → Prop} (node : ∀ p, (∀ c ∈ p.plans, motive c) → motive p)
    (p : Plan) : motive p := by
  apply node
  intro c hc
  have := List.sizeOf_lt_of_mem hc
  exact induction node c
termination_by sizeOf p
decreasing_by
  obtain ⟨nodeType, operation, relation, aliasName, output, plans⟩ := p
  simp only [Plan.mk.sizeOf_spec] at this ⊢
  omega

/-- `d` is somewhere below `p`. -/
def Below (p d : Plan) : Prop :=
  Relation.TransGen (fun a b : Plan => b ∈ a.plans) p d

/-- `p` does nothing but pass on the first rows of `c`. -/
def PassesTo (p c : Plan) : Prop :=
  p.nodeType = limitType ∧ p.plans = [c]

/-- A node that reads `r` and has no relation below it. -/
structure Scans (p : Plan) (r : String) : Prop where
  limit : p.nodeType ≠ limitType
  modify : p.nodeType ≠ modifyType
  relation : p.relation = some r
  below : ∀ d, p.Below d → d.relation = none

/-- All rows of a plan are rows of `r` as a scan of it reads them. -/
def ScansOnly (p : Plan) (r : String) : Prop :=
  ∃ scan, Relation.ReflTransGen PassesTo p scan ∧ scan.Scans r

theorem below_iff {p d : Plan} : p.Below d ↔ ∃ c ∈ p.plans, c = d ∨ c.Below d := by
  rw [Below, Relation.TransGen.head'_iff]
  constructor
  · rintro ⟨c, hc, hcd⟩
    obtain rfl | hcd := Relation.reflTransGen_iff_eq_or_transGen.mp hcd
    · exact ⟨d, hc, .inl rfl⟩
    · exact ⟨c, hc, .inr hcd⟩
  · rintro ⟨c, hc, rfl | hcd⟩
    · exact ⟨c, hc, .refl⟩
    · exact ⟨c, hc, hcd.to_reflTransGen⟩

theorem anyReadsRelation_eq_true_iff (ps : List Plan) :
    anyReadsRelation ps = true ↔ ∃ p ∈ ps, p.readsRelation = true := by
  induction ps with
  | nil => simp [anyReadsRelation]
  | cons p ps ih => simp [anyReadsRelation, ih]

theorem readsRelation_eq (p : Plan) :
    p.readsRelation = (p.relation.isSome || anyReadsRelation p.plans) := by
  cases p
  rw [readsRelation]

theorem readsRelation_eq_true_iff (p : Plan) :
    p.readsRelation = true ↔
      p.relation.isSome = true ∨ ∃ d, p.Below d ∧ d.relation.isSome = true := by
  induction p using Plan.induction with
  | node p ih =>
    rw [readsRelation_eq, Bool.or_eq_true, anyReadsRelation_eq_true_iff]
    apply or_congr_right
    constructor
    · rintro ⟨c, hc, hreads⟩
      rcases (ih c hc).mp hreads with hsome | ⟨d, hd, hsome⟩
      · exact ⟨c, below_iff.mpr ⟨c, hc, .inl rfl⟩, hsome⟩
      · exact ⟨d, below_iff.mpr ⟨c, hc, .inr hd⟩, hsome⟩
    · rintro ⟨d, hd, hsome⟩
      obtain ⟨c, hc, rfl | hcd⟩ := below_iff.mp hd
      · exact ⟨c, hc, (ih c hc).mpr (.inl hsome)⟩
      · exact ⟨c, hc, (ih c hc).mpr (.inr ⟨d, hcd, hsome⟩)⟩

theorem anyReadsRelation_plans_iff (p : Plan) :
    anyReadsRelation p.plans = true ↔ ∃ d, p.Below d ∧ d.relation.isSome = true := by
  rw [anyReadsRelation_eq_true_iff]
  constructor
  · rintro ⟨c, hc, hreads⟩
    rcases (readsRelation_eq_true_iff c).mp hreads with hsome | ⟨d, hd, hsome⟩
    · exact ⟨c, below_iff.mpr ⟨c, hc, .inl rfl⟩, hsome⟩
    · exact ⟨d, below_iff.mpr ⟨c, hc, .inr hd⟩, hsome⟩
  · rintro ⟨d, hd, hsome⟩
    obtain ⟨c, hc, hcd⟩ := below_iff.mp hd
    refine ⟨c, hc, (readsRelation_eq_true_iff c).mpr ?_⟩
    rcases hcd with rfl | hcd
    · exact .inl hsome
    · exact .inr ⟨d, hcd, hsome⟩

theorem scannedRelation_of_passesTo {p c : Plan} (h : p.PassesTo c) :
    p.scannedRelation = c.scannedRelation := by
  obtain ⟨nodeType, operation, relation, aliasName, output, plans⟩ := p
  obtain ⟨rfl, rfl⟩ := h
  rw [scannedRelation, if_pos rfl]

/-- A limit without exactly one node below it passes nothing on. -/
theorem scannedRelation_of_limit {p : Plan} (hp : p.nodeType = limitType)
    (hplans : ∀ c, p.plans ≠ [c]) : p.scannedRelation = none := by
  obtain ⟨nodeType, operation, relation, aliasName, output, plans⟩ := p
  obtain rfl : nodeType = limitType := hp
  rw [scannedRelation, if_pos rfl]
  exact hplans

theorem scannedRelation_of_ne {p : Plan} (hp : p.nodeType ≠ limitType) :
    p.scannedRelation =
      if p.nodeType = modifyType ∨ anyReadsRelation p.plans = true then none else p.relation := by
  obtain ⟨nodeType, operation, relation, aliasName, output, plans⟩ := p
  have hne : nodeType ≠ limitType := hp
  rw [scannedRelation.eq_def]
  simp only [if_neg hne, Bool.or_eq_true, decide_eq_true_eq]

theorem scannedRelation_eq_some_iff_scans {p : Plan} {r : String} (hp : p.nodeType ≠ limitType) :
    p.scannedRelation = some r ↔ p.Scans r := by
  have hbelow : ¬ anyReadsRelation p.plans = true ↔ ∀ d, p.Below d → d.relation = none := by
    simp [anyReadsRelation_plans_iff]
  rw [scannedRelation_of_ne hp]
  constructor
  · intro h
    split at h
    · contradiction
    · rename_i hnot
      rw [not_or] at hnot
      exact ⟨hp, hnot.1, h, hbelow.mp hnot.2⟩
  · intro h
    rw [if_neg (not_or.mpr ⟨h.modify, hbelow.mpr h.below⟩)]
    exact h.relation

theorem scansOnly_of_passesTo {p c : Plan} {r : String} (h : p.PassesTo c) :
    p.ScansOnly r ↔ c.ScansOnly r := by
  constructor
  · rintro ⟨scan, hscan, hr⟩
    rcases Relation.ReflTransGen.cases_head hscan with rfl | ⟨c', hc', hscan⟩
    · exact absurd h.1 hr.limit
    · obtain rfl : c = c' := by simpa [h.2] using hc'.2
      exact ⟨scan, hscan, hr⟩
  · rintro ⟨scan, hscan, hr⟩
    exact ⟨scan, .head h hscan, hr⟩

theorem scansOnly_of_ne {p : Plan} {r : String} (h : ∀ c, ¬ p.PassesTo c) :
    p.ScansOnly r ↔ p.Scans r := by
  constructor
  · rintro ⟨scan, hscan, hr⟩
    rcases Relation.ReflTransGen.cases_head hscan with rfl | ⟨c, hc, -⟩
    · exact hr
    · exact absurd hc (h c)
  · intro hr
    exact ⟨p, .refl, hr⟩

/-- The relation of a plan is read off along the nodes that pass rows on. -/
theorem scannedRelation_eq_some_iff (p : Plan) (r : String) :
    p.scannedRelation = some r ↔ p.ScansOnly r := by
  induction p using Plan.induction with
  | node p ih =>
    by_cases hpass : ∃ c, p.PassesTo c
    · obtain ⟨c, hc⟩ := hpass
      rw [scannedRelation_of_passesTo hc, scansOnly_of_passesTo hc]
      apply ih
      rw [hc.2]
      exact List.mem_singleton_self c
    · rw [not_exists] at hpass
      rw [scansOnly_of_ne hpass]
      by_cases hp : p.nodeType = limitType
      · rw [scannedRelation_of_limit hp fun c hplans => hpass c ⟨hp, hplans⟩]
        constructor
        · exact nofun
        · intro hr
          exact absurd hp hr.limit
      · exact scannedRelation_eq_some_iff_scans hp

/-- The node that passes its rows up to the top is the same however it is reached. -/
theorem ScansOnly.scans {p scan : Plan} {r : String} (h : p.ScansOnly r)
    (hscan : Relation.ReflTransGen PassesTo p scan) (hp : scan.nodeType ≠ limitType) :
    scan.Scans r := by
  induction hscan using Relation.ReflTransGen.head_induction_on with
  | refl => exact (scansOnly_of_ne fun c hc => hp hc.1).mp h
  | head hpc _ ih => exact ih ((scansOnly_of_passesTo hpc).mp h)

end Plan

end TypedSql
