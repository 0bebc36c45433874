import TypedSql.Proofs.Plan.Quoted
import TypedSql.Proofs.Settings.Namespace
import TypedSql.Proofs.Text.Runs

/-!
# Columns as they are written

A name is written as it is when it is made of letters, digits, underscores and dollar signs, and
otherwise between double quotes, with each double quote in it written twice. A column that is
written behind the name of its table is recognized as a column (`Expression.IsQualified.isColumn`)
and never taken for a string or a number (`Expression.IsQualified.isLiteral`).
-/

namespace TypedSql

namespace Expression

/-- A name with each double quote in it written twice. -/
def doubled (name : List Char) : List Char :=
  name.flatMap fun c => if c = '"' then ['"', '"'] else [c]

/-- The ways to write a name. -/
inductive Writes : List Char → List Char → Prop where
  | bare {c : Char} {cs : List Char} (first : Text.isIdentStart c = true)
      (rest : cs.all isIdentChar = true) : Writes (c :: cs) (c :: cs)
  | quoted {name : List Char} (ne_nil : name ≠ []) : Writes ('"' :: doubled name ++ ['"']) name

/-- An expression that is a column behind the name `qualifier`. -/
def IsQualified (expr qualifier : String) : Prop :=
  ∃ front back column, Text.trim expr.toList = front ++ '.' :: back ∧
    Writes front qualifier.toList ∧ Writes back column

variable {c : Char} {name text rest : List Char}

theorem doubled_eq_twice (name : List Char) : doubled name = twice '"' name := rfl

theorem afterIdent_quoted (hname : name ≠ []) (hrest : rest.head? ≠ some '"') :
    afterIdent ('"' :: (doubled name ++ '"' :: rest)) = some rest := by
  obtain ⟨c, name, rfl⟩ := List.exists_cons_of_ne_nil hname
  rw [doubled_eq_twice]
  by_cases hc : c = '"'
  · rw [hc, twice_cons_self]
    exact afterQuoted_twice name hrest
  · have hall := afterQuoted_twice (c :: name) hrest
    rw [twice_cons_of_ne hc, List.cons_append] at hall ⊢
    rw [afterIdent]
    · exact hall
    · intro cs heq
      exact hc (List.cons.inj heq).1
    · intro cs heq
      exact hc (List.cons.inj heq).1

theorem afterIdent_bare {cs : List Char} (hc : Text.isIdentStart c = true)
    (hcs : ∀ d ∈ cs, isIdentChar d = true) (hrest : ∀ d ∈ rest.head?, isIdentChar d = false) :
    afterIdent (c :: (cs ++ rest)) = some rest := by
  have hne : c ≠ '"' := by
    rintro rfl
    exact absurd hc (by decide)
  rw [afterIdent, if_pos hc, Runs.dropWhile_append hcs hrest]
  all_goals
    intros
    exact hne ‹_›

/-- A written name is read up to its end. -/
theorem Writes.afterIdent_append (h : Writes text name)
    (hrest : ∀ d ∈ rest.head?, isIdentChar d = false ∧ d ≠ '"') :
    afterIdent (text ++ rest) = some rest := by
  cases h with
  | bare first rest' =>
    exact afterIdent_bare first (List.all_eq_true.mp rest') fun d hd => (hrest d hd).1
  | quoted hne =>
    rw [List.append_assoc, List.cons_append]
    exact afterIdent_quoted hne fun hhead => (hrest '"' hhead).2 rfl

theorem Writes.head (h : Writes text name) :
    ∃ c cs, text = c :: cs ∧ (Text.isIdentStart c = true ∨ c = '"') := by
  cases h with
  | bare first _ => exact ⟨_, _, rfl, .inl first⟩
  | quoted _ => exact ⟨_, _, rfl, .inr rfl⟩

theorem isDigit_of_isIdentStart (h : Text.isIdentStart c = true) : c.isDigit = false := by
  have hstart : Text.isIdentStart c = (c.isUpper || c.isLower || c == '_') := rfl
  have hunder : c = '_' ↔ c.toNat = 95 := Char.toNat_inj.symm
  rw [hstart, Bool.or_eq_true, Bool.or_eq_true, Text.isUpper_iff, Text.isLower_iff, beq_iff_eq,
    hunder] at h
  have hdigit : c.isDigit = true ↔ 48 ≤ c.toNat ∧ c.toNat ≤ 57 := Char.isDigit_iff_toNat
  rw [← Bool.not_eq_true, hdigit]
  omega

namespace IsQualified

variable {expr qualifier : String}

theorem isColumn (h : IsQualified expr qualifier) : isColumn expr = true := by
  obtain ⟨front, back, column, htext, hfront, hback⟩ := h
  have hdot : afterIdent (front ++ '.' :: back) = some ('.' :: back) := by
    apply hfront.afterIdent_append
    rintro d ⟨⟩
    decide
  have hend : afterIdent back = some [] := by
    rw [← List.append_nil back]
    exact hback.afterIdent_append nofun
  simp only [Expression.isColumn, htext, hdot, hend, beq_self_eq_true]

theorem isLiteral (h : IsQualified expr qualifier) : isLiteral expr = false := by
  obtain ⟨front, back, column, htext, hfront, -⟩ := h
  obtain ⟨c, cs, rfl, hc⟩ := hfront.head
  have hquote : c ≠ '\'' := by
    rintro rfl
    exact absurd hc (by decide)
  have hdigit : c.isDigit = false := by
    rcases hc with hc | rfl
    · exact isDigit_of_isIdentStart hc
    · rfl
  simp [Expression.isLiteral, htext, isString, isNumber, hquote, hdigit]

end IsQualified

end Expression

end TypedSql
