import TypedSql.Plan.Expression

/-!
# Quoted parts of an expression

Between two quotes a quote is written twice. The text behind a quoted part is what follows its
closing quote, which is the first one that is not doubled (`Expression.afterQuoted_eq_some_iff`).
-/

namespace TypedSql

namespace Expression

/-- A text with each `quote` in it written twice. -/
def twice (quote : Char) (text : List Char) : List Char :=
  text.flatMap fun c => if c = quote then [quote, quote] else [c]

variable {quote c : Char} {text rest cs : List Char}

@[simp] theorem twice_nil (quote : Char) : twice quote [] = [] := rfl

theorem twice_cons_self (quote : Char) (text : List Char) :
    twice quote (quote :: text) = quote :: quote :: twice quote text := by
  simp [twice]

theorem twice_cons_of_ne (h : c ≠ quote) (text : List Char) :
    twice quote (c :: text) = c :: twice quote text := by
  simp [twice, h]

theorem afterQuoted_cons_of_ne (hc : c ≠ quote) (hcs : cs ≠ []) :
    afterQuoted quote (c :: cs) = afterQuoted quote cs := by
  obtain ⟨d, cs, rfl⟩ := List.exists_cons_of_ne_nil hcs
  rw [afterQuoted, if_neg hc]

/-- A quoted text is read up to the quote that ends it. -/
theorem afterQuoted_twice (text : List Char) (hrest : rest.head? ≠ some quote) :
    afterQuoted quote (twice quote text ++ quote :: rest) = some rest := by
  induction text with
  | nil =>
    cases rest with
    | nil => exact if_pos rfl
    | cons d rest =>
      have hd : d ≠ quote := fun h => hrest (congrArg some h)
      rw [twice_nil, List.nil_append, afterQuoted, if_pos rfl, if_neg hd]
  | cons c text ih =>
    by_cases hc : c = quote
    · rw [hc, twice_cons_self, List.cons_append, List.cons_append, afterQuoted, if_pos rfl,
        if_pos rfl, ih]
    · rw [twice_cons_of_ne hc, List.cons_append, afterQuoted_cons_of_ne hc (by simp), ih]

theorem exists_of_afterQuoted (h : afterQuoted quote cs = some rest) :
    ∃ text, cs = twice quote text ++ quote :: rest ∧ rest.head? ≠ some quote := by
  fun_induction afterQuoted quote cs with
  | case1 | case3 => contradiction
  | case2 =>
    obtain rfl := Option.some.inj h
    exact ⟨[], rfl, nofun⟩
  | case4 cs ih =>
    obtain ⟨text, hcs, hrest⟩ := ih h
    exact ⟨quote :: text, by rw [twice_cons_self, hcs]; rfl, hrest⟩
  | case5 d cs hd =>
    obtain rfl := Option.some.inj h
    exact ⟨[], rfl, fun hhead => hd (Option.some.inj hhead)⟩
  | case6 c d cs hc ih =>
    obtain ⟨text, hcs, hrest⟩ := ih h
    exact ⟨c :: text, by rw [twice_cons_of_ne hc, hcs]; rfl, hrest⟩

theorem afterQuoted_eq_some_iff :
    afterQuoted quote cs = some rest ↔
      ∃ text, cs = twice quote text ++ quote :: rest ∧ rest.head? ≠ some quote := by
  constructor
  · exact exists_of_afterQuoted
  · rintro ⟨text, rfl, hrest⟩
    exact afterQuoted_twice text hrest

end Expression

end TypedSql
