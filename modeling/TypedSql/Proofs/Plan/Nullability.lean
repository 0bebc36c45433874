import TypedSql.Plan.Nullability
import TypedSql.Proofs.Plan.Column
import TypedSql.Proofs.Plan.Scan

/-!
# What makes a result never null

A result is called nullable unless its expression is a string or a number, or it is a column that
the catalog forbids to be null and the plan preserves the table of that column
(`Nullability.getElem?_infer_eq_false_iff`). What a plan preserves depends on its top node.

A plan that only reads preserves the table it scans alone, and none as soon as another relation is
read below the scan (`Nullability.infer_of_reads`). A plan that modifies a table preserves that
table. It is known by its name only, so also a column of another scan of the same table counts as
never null, even if that scan is joined in such a way that the column may be null
(`Nullability.infer_of_modify`, `Nullability.not_forall_nullable_of_qualifier`).
-/

namespace TypedSql

namespace Plan

/-- A node that does not write has a top that does not write. -/
theorem top_of_ne {p : Plan} (h : p.nodeType ≠ modifyType) :
    p.top = .ok (if p.nodeType = limitType then .limit else .select) := by
  rw [top, if_neg h]
  split <;> rfl

/-- A node that writes has a top that writes the relation of the node. -/
theorem exists_eq_modify_of_top {p : Plan} {top : TopNode} (hp : p.nodeType = modifyType)
    (h : p.top = .ok top) : ∃ tag, top = .modify tag p.relation := by
  rw [Plan.top, if_pos hp] at h
  split at h
  · exact ⟨.insert, (Except.ok.inj h).symm⟩
  · exact ⟨.update, (Except.ok.inj h).symm⟩
  · exact ⟨.delete, (Except.ok.inj h).symm⟩
  · contradiction

end Plan

namespace Nullability

variable {p : Plan} {top : TopNode} {columns : List (Option Column)} {expr : String}
  {column : Option Column} {i : Nat}

@[simp] theorem length_infer (p : Plan) (top : TopNode) (columns : List (Option Column)) :
    (infer p top columns).length = columns.length := by
  unfold infer
  split
  · rename_i h
    rw [List.length_zipWith, h, Nat.min_self]
  · exact List.length_map _

/-- Without one expression for each result nothing is known. -/
theorem eq_true_of_mem_infer (h : p.output.length ≠ columns.length) {flag : Bool}
    (hflag : flag ∈ infer p top columns) : flag = true := by
  rw [infer, if_neg h, List.mem_map] at hflag
  obtain ⟨_, -, rfl⟩ := hflag
  rfl

theorem getElem?_infer (h : p.output.length = columns.length) (hexpr : p.output[i]? = some expr)
    (hcolumn : columns[i]? = some column) :
    (infer p top columns)[i]? = some (ofExpression p top expr column) := by
  rw [infer, if_pos h, List.getElem?_zipWith, hexpr, hcolumn]

theorem getElem?_infer_of_ne (h : p.output.length ≠ columns.length)
    (hcolumn : columns[i]? = some column) : (infer p top columns)[i]? = some true := by
  rw [infer, if_neg h, List.getElem?_map, hcolumn, Option.map_some]

/-- What an expression needs to be never null, when `preserved` are the tables whose rows reach the
result as they are. -/
def NeverNull (preserved : String → Prop) (expr : String) (column : Option Column) : Prop :=
  Expression.isLiteral expr = true ∨
    Expression.isColumn expr = true ∧
      ∃ c, column = some c ∧ c.nullable = false ∧ preserved c.tableName

theorem ofExpression_eq_false_iff :
    ofExpression p top expr column = false ↔
      NeverNull (fun table => preserves p top table = true) expr column := by
  unfold ofExpression NeverNull
  cases Expression.isLiteral expr with
  | true => simp
  | false =>
    cases column with
    | none => simp
    | some c => cases Expression.isColumn expr <;> cases hc : c.nullable <;> simp [hc]

/-- When a result is never null. -/
theorem getElem?_infer_eq_false_iff (h : p.output.length = columns.length)
    (hexpr : p.output[i]? = some expr) (hcolumn : columns[i]? = some column) :
    (infer p top columns)[i]? = some false ↔
      NeverNull (fun table => preserves p top table = true) expr column := by
  rw [getElem?_infer h hexpr hcolumn, Option.some_inj, ofExpression_eq_false_iff]

theorem preserves_iff_of_reads (h : p.top = .ok top) (hp : p.nodeType ≠ Plan.modifyType)
    (table : String) :
    preserves p top table = true ↔ p.ScansOnly table := by
  rw [Plan.top_of_ne hp, Except.ok.injEq] at h
  rw [← Plan.scannedRelation_eq_some_iff, ← h]
  split <;> exact beq_iff_eq

theorem preserves_modify_iff {tag : CommandTag} {relation : Option String} {table : String} :
    preserves p (.modify tag relation) table = true ↔ relation = some table :=
  beq_iff_eq

/-- A plan that reads another relation below its scan scans no relation alone. -/
theorem not_scansOnly {scan d : Plan} (hscan : Relation.ReflTransGen Plan.PassesTo p scan)
    (hlimit : scan.nodeType ≠ Plan.limitType) (hd : scan.Below d) (hrel : d.relation ≠ none)
    (table : String) : ¬ p.ScansOnly table := by
  intro h
  exact hrel ((h.scans hscan hlimit).below d hd)

/-- A result is called nullable if its expression is neither a string nor a number and the plan
preserves no table. -/
theorem getElem?_infer_eq_true (hexpr : p.output[i]? = some expr)
    (hcolumn : columns[i]? = some column) (hliteral : Expression.isLiteral expr = false)
    (hnone : ∀ table, preserves p top table = false) :
    (infer p top columns)[i]? = some true := by
  by_cases h : p.output.length = columns.length
  · rw [getElem?_infer h hexpr hcolumn, Option.some_inj, ← Bool.not_eq_false,
      ofExpression_eq_false_iff]
    rintro (hlit | ⟨-, c, -, -, htable⟩)
    · rw [hliteral] at hlit
      contradiction
    · rw [hnone c.tableName] at htable
      contradiction
  · exact getElem?_infer_of_ne h hcolumn

/-- In a plan that only reads, a result is never null exactly if its expression is a string or a
number or it is a column, not null, of the one relation that the plan scans. -/
theorem infer_of_reads (p : Plan) :
    (∀ r, p.scannedRelation = some r ↔ p.ScansOnly r) ∧
      (p.nodeType ≠ Plan.modifyType →
        ∃ top, p.top = .ok top ∧ ∀ columns : List (Option Column),
          (infer p top columns).length = columns.length ∧
          (p.output.length ≠ columns.length → ∀ flag ∈ infer p top columns, flag = true) ∧
          ∀ (i : Nat) (expr : String) (column : Option Column),
            p.output[i]? = some expr → columns[i]? = some column →
              (p.output.length = columns.length →
                ((infer p top columns)[i]? = some false ↔ NeverNull p.ScansOnly expr column)) ∧
              ∀ scan d, Relation.ReflTransGen Plan.PassesTo p scan →
                scan.nodeType ≠ Plan.limitType → scan.Below d → d.relation ≠ none →
                Expression.isLiteral expr = false → (infer p top columns)[i]? = some true) := by
  refine ⟨Plan.scannedRelation_eq_some_iff p, fun hp => ⟨_, Plan.top_of_ne hp, fun columns => ?_⟩⟩
  have hpreserves := preserves_iff_of_reads (Plan.top_of_ne hp) hp
  refine ⟨length_infer p _ columns, fun h _ => eq_true_of_mem_infer h, ?_⟩
  intro i expr column hexpr hcolumn
  constructor
  · intro h
    rw [getElem?_infer_eq_false_iff h hexpr hcolumn]
    simp only [hpreserves]
  · intro scan d hscan hlimit hd hrel hliteral
    apply getElem?_infer_eq_true hexpr hcolumn hliteral
    intro table
    rw [← Bool.not_eq_true, hpreserves]
    exact not_scansOnly hscan hlimit hd hrel table

/-- A bitmap scan below a limit reads the one relation `author`. -/
theorem infer_of_reads_bitmap :
    let index : Plan := ⟨"Bitmap Index Scan", none, none, none, [], []⟩
    let scan : Plan := ⟨"Bitmap Heap Scan", none, some "author", some "a", ["a.id"], [index]⟩
    let p : Plan := ⟨"Limit", none, none, none, ["a.id", "'x'::text", "lower(a.id)"], [scan]⟩
    let id : Column := ⟨"id", 16384, "author", 1, .void, false⟩
    p.nodeType ≠ Plan.modifyType ∧ p.ScansOnly "author" ∧
      infer p .limit [some id, none, some id] = [false, false, true] ∧
      ∃ top, p.top = .ok top ∧ (infer p top [some id, none, some id])[0]? = some false := by
  intro index scan p id
  have hp : p.nodeType ≠ Plan.modifyType := by decide
  have hscans : p.ScansOnly "author" := (infer_of_reads p).1 "author" |>.mp (by decide)
  refine ⟨hp, hscans, by decide +kernel, ?_⟩
  obtain ⟨top, htop, hinfer⟩ := (infer_of_reads p).2 hp
  obtain ⟨-, -, hflag⟩ := hinfer [some id, none, some id]
  refine ⟨top, htop, ((hflag 0 "a.id" (some id) rfl rfl).1 rfl).mpr (.inr ⟨by decide +kernel, ?_⟩)⟩
  exact ⟨id, rfl, rfl, hscans⟩

/-- In a plan that modifies a table, a column behind any qualifier is never null exactly if the
column is not null and its table has the name of the modified one. What the statement calls the
modified table does not matter. -/
theorem infer_of_modify {r q : String} (hp : p.nodeType = Plan.modifyType) (htop : p.top = .ok top)
    (hr : p.relation = some r) (h : p.output.length = columns.length)
    (hexpr : p.output[i]? = some expr) (hcolumn : columns[i]? = some column)
    (hq : Expression.IsQualified expr q) :
    (infer p top columns)[i]? = some false ↔
      ∃ c, column = some c ∧ c.nullable = false ∧ c.tableName = r := by
  obtain ⟨tag, rfl⟩ := Plan.exists_eq_modify_of_top hp htop
  rw [getElem?_infer_eq_false_iff h hexpr hcolumn, hr]
  simp only [NeverNull, hq.isLiteral, hq.isColumn, preserves_modify_iff, Option.some_inj,
    Bool.false_eq_true, false_or, true_and, eq_comm (a := r)]

/-- An update of `t`, called `a`, that returns a column of another scan of `t`, called `c`. The rows
of `c` are on the null side of an outer join. -/
def selfJoin : Plan :=
  ⟨"ModifyTable", some "Update", some "t", some "a", ["c.id"],
    [⟨"Nested Loop", none, none, none, ["a.ctid", "c.id"],
      [⟨"Seq Scan", none, some "t", some "a", ["a.ctid", "a.id"], []⟩,
        ⟨"Hash Left Join", none, none, none, ["b.id", "c.id"],
          [⟨"Seq Scan", none, some "t", some "b", ["b.id"], []⟩,
            ⟨"Hash", none, none, none, ["c.id"],
              [⟨"Seq Scan", none, some "t", some "c", ["c.id"], []⟩]⟩]⟩]⟩]⟩

/-- The column `id` of `t`, which the catalog forbids to be null. -/
def selfJoinColumn : Column :=
  ⟨"id", 16384, "t", 1, .void, false⟩

theorem isQualified_selfJoin : Expression.IsQualified "c.id" "c" := by
  refine ⟨"c".toList, "id".toList, "id".toList, by decide +kernel, ?_, ?_⟩
  · exact .bare (by decide) (by decide)
  · exact .bare (by decide) (by decide)

theorem infer_of_modify_selfJoin :
    selfJoin.top = .ok (.modify .update (some "t")) ∧ Expression.IsQualified "c.id" "c" ∧
      (infer selfJoin (.modify .update (some "t")) [some selfJoinColumn])[0]? = some false := by
  have htop : selfJoin.top = .ok (.modify .update (some "t")) := by rfl
  have hexpr : selfJoin.output[0]? = some "c.id" := rfl
  have hcolumn : [some selfJoinColumn][0]? = some (some selfJoinColumn) := rfl
  have hflag := infer_of_modify rfl htop rfl rfl hexpr hcolumn isQualified_selfJoin
  exact ⟨htop, isQualified_selfJoin, hflag.mpr ⟨selfJoinColumn, rfl, rfl, rfl⟩⟩

/-- A column of another scan than that of the modified rows is not always called nullable. -/
theorem not_forall_nullable_of_qualifier :
    ¬ ∀ (p : Plan) (top : TopNode) (r a q expr : String) (columns : List (Option Column)) (i : Nat),
      p.nodeType = Plan.modifyType → p.top = .ok top → p.relation = some r →
      p.aliasName = some a → columns.length = p.output.length → p.output[i]? = some expr →
      Expression.IsQualified expr q → q ≠ a → (infer p top columns)[i]? = some true := by
  intro hall
  have h := hall selfJoin (.modify .update (some "t")) "t" "a" "c" "c.id" [some selfJoinColumn] 0
    rfl rfl rfl rfl rfl rfl isQualified_selfJoin (by decide)
  exact absurd h (by decide +kernel)

end Nullability

end TypedSql
