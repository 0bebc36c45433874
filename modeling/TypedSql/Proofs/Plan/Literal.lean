import TypedSql.Proofs.Plan.Nullability
import TypedSql.Proofs.Text.Pieces

/-!
# What is taken for a string or a number

An expression is taken for a literal when it is a string or a number with perhaps a cast behind it
(`Expression.isLiteral_iff`). A number is a digit with any of the characters of numbers behind it,
and a cast is two colons with any of the characters of type names behind them. Blanks, points and
double quotes are such characters, and nothing asks whether they make one name.

So a cast may be followed by an operator that is a word and by a column, and the whole is still
taken for a literal and its result for never null (`Nullability.isLiteral_exact`). Only a column
with a character that is in no type name keeps this from happening.
-/

namespace TypedSql

namespace Expression

/-- The texts that are taken for a string or a number. -/
inductive IsConstant : List Char → Prop where
  | string (text : List Char) : IsConstant ('\'' :: (twice '\'' text ++ ['\'']))
  | number {c : Char} {cs : List Char} (first : c.isDigit = true)
    (rest : ∀ d ∈ cs, isNumberChar d = true) : IsConstant (c :: cs)

/-- The texts that are taken for the name of a type. -/
def IsTypeText (text : List Char) : Prop :=
  ∃ c cs, text = c :: cs ∧ Text.isIdentStart c = true ∧ ∀ d ∈ cs, isCastChar d = true

/-- The texts that are taken for nothing or for one cast. -/
inductive IsCastText : List Char → Prop where
  | nil : IsCastText []
  | cast {type : List Char} (type_text : IsTypeText type) : IsCastText (':' :: ':' :: type)

/-- A column, perhaps behind a qualifier. -/
inductive IsReference : List Char → Prop where
  | bare {text name : List Char} (writes : Writes text name) : IsReference text
  | qualified {front qualifier back name : List Char} (front_writes : Writes front qualifier)
    (back_writes : Writes back name) : IsReference (front ++ '.' :: back)

/-- A constant with a cast to `type`, an operator that is a word, and a column. -/
def operation (constant type operator column : List Char) : String :=
  String.ofList (constant ++ (':' :: ':' :: (type ++ ' ' :: (operator ++ ' ' :: column))))

variable {constant type operator column text name s : List Char} {expr : String}

/-! ### Casts -/

theorem isCast_iff : isCast s = true ↔ IsCastText s := by
  constructor
  · intro h
    unfold isCast at h
    split at h
    · exact .nil
    · rename_i c cs
      rw [Bool.and_eq_true, List.all_eq_true] at h
      exact .cast ⟨c, cs, rfl, h⟩
    · contradiction
  · rintro (_ | ⟨c, cs, rfl, hc, hcs⟩)
    · rfl
    · rw [isCast, hc, Bool.true_and, List.all_eq_true]
      exact hcs

theorem IsCastText.head?_eq (h : IsCastText s) : ∀ c ∈ s.head?, c = ':' := by
  rintro c hc
  cases h with
  | nil => contradiction
  | cast => exact (Option.some.inj hc).symm

/-- What stands behind a constant is a cast, or else it is no literal. -/
theorem isString_or_isNumber_append (h : IsConstant constant) (hs : ∀ c ∈ s.head?, c = ':') :
    (isString (constant ++ s) || isNumber (constant ++ s)) = isCast s := by
  cases h with
  | string text =>
    have hhead : s.head? ≠ some '\'' := fun h => absurd (hs '\'' h) (by decide)
    have hread : afterQuoted '\'' (twice '\'' text ++ '\'' :: s) = some s :=
      afterQuoted_twice text hhead
    simp [isString, isNumber, hread]
  | @number c cs first rest =>
    have hquote : c ≠ '\'' := by
      rintro rfl
      contradiction
    have hend : ∀ d ∈ s.head?, isNumberChar d = false := by
      intro d hd
      rw [hs d hd]
      rfl
    have hdrop : (cs ++ s).dropWhile isNumberChar = s := Runs.dropWhile_append rest hend
    simp [isString, isNumber, hquote, first, hdrop]

theorem exists_of_isString (h : isString s = true) :
    ∃ constant cast, s = constant ++ cast ∧ IsConstant constant ∧ IsCastText cast := by
  unfold isString at h
  split at h
  · obtain ⟨cast, hread, hcast⟩ := (Option.any_eq_true _ _).mp h
    obtain ⟨text, rfl, -⟩ := afterQuoted_eq_some_iff.mp hread
    exact ⟨_, cast, by simp, .string text, isCast_iff.mp hcast⟩
  · contradiction

theorem exists_of_isNumber (h : isNumber s = true) :
    ∃ constant cast, s = constant ++ cast ∧ IsConstant constant ∧ IsCastText cast := by
  cases s with
  | nil => contradiction
  | cons c cs =>
    rw [isNumber, Bool.and_eq_true] at h
    refine ⟨c :: cs.takeWhile isNumberChar, cs.dropWhile isNumberChar, ?_, ?_, isCast_iff.mp h.2⟩
    · rw [List.cons_append, List.takeWhile_append_dropWhile]
    · exact .number h.1 fun d hd => List.mem_takeWhile_imp hd

/-- An expression is taken for a literal exactly if it is taken for a string or a number with
perhaps a cast behind it. -/
theorem isLiteral_iff (expr : String) :
    isLiteral expr = true ↔ ∃ constant cast, Text.trim expr.toList = constant ++ cast ∧
      IsConstant constant ∧ IsCastText cast := by
  rw [isLiteral]
  constructor
  · intro h
    rcases Bool.or_eq_true_iff.mp h with h | h
    · exact exists_of_isString h
    · exact exists_of_isNumber h
  · rintro ⟨constant, cast, htrim, hconstant, hcast⟩
    rw [htrim, isString_or_isNumber_append hconstant hcast.head?_eq]
    exact isCast_iff.mpr hcast

/-! ### Operations -/

theorem isBlank_of_isDigit {c : Char} (h : c.isDigit = true) : Text.isBlank c = false :=
  Text.isBlank_of_isWord (Text.isWord_of_isDigit h)

theorem IsConstant.head (h : IsConstant constant) :
    ∃ c cs, constant = c :: cs ∧ (c = '\'' ∨ c.isDigit = true) := by
  cases h with
  | string text => exact ⟨_, _, rfl, .inl rfl⟩
  | number first _ => exact ⟨_, _, rfl, .inr first⟩

theorem isBlank_of_isIdentChar {c : Char} (h : isIdentChar c = true) : Text.isBlank c = false := by
  rw [isIdentChar, Bool.or_eq_true, beq_iff_eq] at h
  rcases h with h | rfl
  · exact Text.isBlank_of_isWord h
  · rfl

theorem Writes.getLast (h : Writes text name) :
    ∃ c, text.getLast? = some c ∧ Text.isBlank c = false := by
  cases h with
  | @bare c cs first rest =>
    refine ⟨(c :: cs).getLast (List.cons_ne_nil c cs), List.getLast?_eq_some_getLast _, ?_⟩
    rcases List.mem_cons.mp (List.getLast_mem (List.cons_ne_nil c cs)) with hlast | hlast
    · rw [hlast]
      exact Text.isBlank_of_isWord (Text.isWord_of_isIdentStart first)
    · exact isBlank_of_isIdentChar (List.all_eq_true.mp rest _ hlast)
  | quoted => exact ⟨'"', List.getLast?_concat .., rfl⟩

theorem IsReference.getLast (h : IsReference column) :
    ∃ c, column.getLast? = some c ∧ Text.isBlank c = false := by
  cases h with
  | bare hwrites => exact hwrites.getLast
  | qualified _ hback =>
    obtain ⟨c, hlast, hc⟩ := hback.getLast
    refine ⟨c, ?_, hc⟩
    rw [List.getLast?_append, List.getLast?_cons, hlast]
    rfl

/-- An operation has no blanks around it. -/
theorem trim_operation (hconstant : IsConstant constant) (hcolumn : IsReference column) :
    Text.trim (operation constant type operator column).toList =
      constant ++ (':' :: ':' :: (type ++ ' ' :: (operator ++ ' ' :: column))) := by
  obtain ⟨c, cs, rfl, hc⟩ := hconstant.head
  obtain ⟨d, hlast, hd⟩ := hcolumn.getLast
  rw [operation, String.toList_ofList]
  apply Text.trim_of_ends
  · rintro _ ⟨⟩
    rcases hc with rfl | hc
    · rfl
    · exact isBlank_of_isDigit hc
  · have hend : (c :: cs ++ (':' :: ':' :: (type ++ ' ' :: (operator ++ ' ' :: column)))).getLast? =
        some d := by
      simp [List.getLast?_append, List.getLast?_cons, hlast]
    rw [hend]
    rintro _ ⟨⟩
    exact hd

theorem isCastChar_of_isAlpha {c : Char} (h : c.isAlpha = true) : isCastChar c = true := by
  simp [isCastChar, Text.isWord, Char.isAlphanum, h]

theorem isTypeText_append_iff (hoperator : ∀ c ∈ operator, c.isAlpha = true) :
    IsTypeText (type ++ ' ' :: (operator ++ ' ' :: column)) ↔
      IsTypeText type ∧ ∀ c ∈ column, isCastChar c = true := by
  have hblank : isCastChar ' ' = true := by decide
  constructor
  · rintro ⟨c, cs, htype, hc, hcs⟩
    cases type with
    | nil =>
      obtain rfl : ' ' = c := (List.cons.inj htype).1
      contradiction
    | cons d type =>
      obtain ⟨rfl, rfl⟩ := List.cons.inj htype
      refine ⟨⟨d, type, rfl, hc, fun c hmem => hcs c ?_⟩, fun c hmem => hcs c ?_⟩ <;> simp [hmem]
  · rintro ⟨⟨c, cs, rfl, hc, hcs⟩, hcolumn⟩
    refine ⟨c, cs ++ ' ' :: (operator ++ ' ' :: column), rfl, hc, fun d hd => ?_⟩
    simp only [List.mem_append, List.mem_cons] at hd
    rcases hd with hd | rfl | hd | rfl | hd
    · exact hcs d hd
    · exact hblank
    · exact isCastChar_of_isAlpha (hoperator d hd)
    · exact hblank
    · exact hcolumn d hd

/-- An operation is taken for a literal exactly if its type is taken for one and no character of its
column is in no type. -/
theorem isLiteral_operation_iff (hconstant : IsConstant constant)
    (hoperator : ∀ c ∈ operator, c.isAlpha = true) (hcolumn : IsReference column) :
    isLiteral (operation constant type operator column) = true ↔
      IsTypeText type ∧ ∀ c ∈ column, isCastChar c = true := by
  rw [isLiteral, trim_operation hconstant hcolumn,
    isString_or_isNumber_append hconstant (by rintro _ ⟨⟩; rfl), isCast_iff,
    ← isTypeText_append_iff hoperator]
  constructor
  · rintro (_ | h)
    exact h
  · exact .cast

theorem afterIdent_eq_none {c : Char} {cs : List Char} (hc : Text.isIdentStart c = false)
    (hquote : c ≠ '"') : afterIdent (c :: cs) = none := by
  rw [afterIdent, if_neg (by simp [hc])]
  all_goals
    intros
    exact hquote ‹_›

theorem isColumn_operation (hconstant : IsConstant constant) (hcolumn : IsReference column) :
    isColumn (operation constant type operator column) = false := by
  obtain ⟨c, cs, rfl, hc⟩ := hconstant.head
  have hstart : Text.isIdentStart c = false ∧ c ≠ '"' := by
    rcases hc with rfl | hc
    · decide
    · exact ⟨Text.isIdentStart_of_isDigit hc, by rintro rfl; contradiction⟩
  rw [isColumn, trim_operation hconstant hcolumn, List.cons_append,
    afterIdent_eq_none hstart.1 hstart.2]

end Expression

namespace Nullability

open Expression

/-- What is taken for a literal is a string or a number and perhaps a cast, by their characters. An
operation on a column is therefore taken for one, and called never null in every plan, exactly if
all characters of its type and its column are those of types. -/
theorem isLiteral_exact {constant operator column : List Char} (hconstant : IsConstant constant)
    (hoperator : ∀ c ∈ operator, c.isAlpha = true) (hcolumn : IsReference column)
    (type : List Char) (expr : String) :
    (isLiteral expr = true ↔ ∃ constant cast,
      Text.trim expr.toList = constant ++ cast ∧ IsConstant constant ∧ IsCastText cast) ∧
    (isLiteral (operation constant type operator column) = true ↔
      IsTypeText type ∧ ∀ c ∈ column, isCastChar c = true) ∧
    ∀ (p : Plan) (top : TopNode) (columns : List (Option Column)) (i : Nat),
      p.output.length = columns.length →
      p.output[i]? = some (operation constant type operator column) →
        ((infer p top columns)[i]? = some false ↔
          IsTypeText type ∧ ∀ c ∈ column, isCastChar c = true) := by
  have hliteral : isLiteral (operation constant type operator column) = true ↔
      IsTypeText type ∧ ∀ c ∈ column, isCastChar c = true :=
    isLiteral_operation_iff hconstant hoperator hcolumn
  refine ⟨isLiteral_iff expr, hliteral, fun p top columns i hlength hexpr => ?_⟩
  have hi : i < columns.length := hlength ▸ (List.getElem?_eq_some_iff.mp hexpr).1
  rw [getElem?_infer_eq_false_iff hlength hexpr (List.getElem?_eq_getElem hi), ← hliteral,
    NeverNull, isColumn_operation hconstant hcolumn]
  simp

/-- The constant `'t'`, cast to a boolean, or the column `active` of `c`. -/
theorem isLiteral_exact_or :
    IsConstant "'t'".toList ∧ (∀ c ∈ "OR".toList, c.isAlpha = true) ∧
      IsReference "c.active".toList ∧
      operation "'t'".toList "boolean".toList "OR".toList "c.active".toList =
        "'t'::boolean OR c.active" ∧
      isLiteral "'t'::boolean OR c.active" = true := by
  have hconstant : IsConstant "'t'".toList := .string ['t']
  have hoperator : ∀ c ∈ "OR".toList, c.isAlpha = true := List.all_eq_true.mp rfl
  have hcolumn : IsReference "c.active".toList :=
    .qualified (@Writes.bare 'c' [] rfl rfl) (@Writes.bare 'a' "ctive".toList rfl rfl)
  have htext : operation "'t'".toList "boolean".toList "OR".toList "c.active".toList =
      "'t'::boolean OR c.active" := by decide +kernel
  refine ⟨hconstant, hoperator, hcolumn, htext, ?_⟩
  rw [← htext]
  exact (isLiteral_exact hconstant hoperator hcolumn _ "").2.1.mpr
    ⟨⟨'b', "oolean".toList, rfl, rfl, List.all_eq_true.mp rfl⟩, List.all_eq_true.mp rfl⟩

/-- An expression that reads a column is taken for a literal and called never null. -/
theorem exists_isLiteral_operation :
    ∃ constant type operator column : List Char, IsConstant constant ∧ Text.IsIdent type ∧
      operator ≠ [] ∧ (∀ c ∈ operator, c.isAlpha = true) ∧ IsReference column ∧
      let expr := operation constant type operator column
      isLiteral expr = true ∧
        infer ⟨"Seq Scan", none, some "c", some "c", [expr], []⟩ .select [none] = [false] := by
  refine ⟨"'t'".toList, "boolean".toList, "OR".toList, "active".toList, .string ['t'],
    by decide +kernel, by decide +kernel, List.all_eq_true.mp rfl,
    .bare (@Writes.bare 'a' "ctive".toList rfl rfl), ?_⟩
  decide +kernel

end Nullability

end TypedSql
