import TypedSql.Text.Blank

/-!
# Blanks and pieces of a text

Trimming stops at the first character that is no blank, and a text is cut only at its separators.
The pieces say what the text was: a text whose pieces come first among those of another one ends
where the other one has a separator. A text is also cut at a single separator, behind a start that
it has or in front of its end.
-/

namespace TypedSql

namespace Text

variable {sep : Char} {s t : List Char}

theorem trimStart_cons {c : Char} (hc : isBlank c = true) (s : List Char) :
    trimStart (c :: s) = trimStart s := by
  rw [trimStart, List.dropWhile_cons_of_pos hc, trimStart]

theorem trimStart_of_head {s : List Char} (h : ∀ c ∈ s.head?, isBlank c = false) :
    trimStart s = s := by
  cases s with
  | nil => rfl
  | cons c s => simp [trimStart, h c rfl]

theorem trim_of_ends {s : List Char} (hhead : ∀ c ∈ s.head?, isBlank c = false)
    (hlast : ∀ c ∈ s.getLast?, isBlank c = false) : trim s = s := by
  have hreverse : s.reverse.dropWhile isBlank = s.reverse := by
    apply trimStart_of_head
    rwa [List.head?_reverse]
  rw [trim, trimStart_of_head hhead, trimEnd, hreverse, List.reverse_reverse]

theorem prefix_trimEnd (s : List Char) : trimEnd s <+: s := by
  have hsuffix := s.reverse.dropWhile_suffix isBlank
  rw [trimEnd]
  exact List.reverse_suffix.mp (by rwa [List.reverse_reverse])

/-- A trimmed text does not start with a blank. -/
theorem isBlank_head?_trim (s : List Char) : ∀ c ∈ (trim s).head?, isBlank c = false := by
  intro c hc
  obtain ⟨rest, hrest⟩ := List.head?_eq_some_iff.mp hc
  obtain ⟨back, hback⟩ := prefix_trimEnd (trimStart s)
  have hhead := List.head?_dropWhile_not isBlank s
  rw [← trim, hrest] at hback
  rw [← trimStart, ← hback] at hhead
  exact hhead

/-- A trimmed text does not end with a blank. -/
theorem isBlank_getLast?_trim (s : List Char) : ∀ c ∈ (trim s).getLast?, isBlank c = false := by
  intro c hc
  have hhead := List.head?_dropWhile_not isBlank (trimStart s).reverse
  rw [trim, trimEnd, List.getLast?_reverse] at hc
  rw [Option.mem_def.mp hc] at hhead
  exact hhead

@[simp] theorem trim_trim (s : List Char) : trim (trim s) = trim s :=
  trim_of_ends (isBlank_head?_trim s) (isBlank_getLast?_trim s)

theorem mem_of_mem_trim {s : List Char} {c : Char} (h : c ∈ trim s) : c ∈ s :=
  (List.dropWhile_suffix isBlank).subset ((prefix_trimEnd _).subset h)

theorem pieces_of_not_mem {sep : Char} {s : List Char} (h : sep ∉ s) : pieces sep s = [s] := by
  induction s with
  | nil => rfl
  | cons c s ih =>
    rw [List.mem_cons, not_or] at h
    rw [pieces, if_neg (Ne.symm h.1), ih h.2]

theorem pieces_ne_nil (sep : Char) (s : List Char) : pieces sep s ≠ [] := by
  cases s with
  | nil => exact List.cons_ne_nil _ _
  | cons c s =>
    rw [pieces]
    split
    · exact List.cons_ne_nil _ _
    · cases pieces sep s <;> exact List.cons_ne_nil _ _

theorem pieces_append (s t : List Char) :
    pieces sep (s ++ sep :: t) = pieces sep s ++ pieces sep t := by
  induction s with
  | nil => simp [pieces]
  | cons c s ih =>
    rw [List.cons_append, pieces, pieces]
    split
    · rw [ih, List.cons_append]
    · obtain ⟨first, rest, h⟩ := List.exists_cons_of_ne_nil (pieces_ne_nil sep s)
      rw [ih, h, List.cons_append, List.cons_append]

/-- The pieces with separators between them are the text. -/
theorem intercalate_pieces (sep : Char) (s : List Char) :
    [sep].intercalate (pieces sep s) = s := by
  induction s with
  | nil => rfl
  | cons c s ih =>
    obtain ⟨first, rest, h⟩ := List.exists_cons_of_ne_nil (pieces_ne_nil sep s)
    rw [h] at ih
    rw [pieces]
    split
    · next hc =>
      rw [h, List.intercalate_cons_cons, ih, hc]
      rfl
    · rw [h]
      cases rest with
      | nil => simpa using ih
      | cons second rest =>
        rw [List.intercalate_cons_cons] at ih ⊢
        rw [List.cons_append, List.cons_append, ih]

theorem intercalate_append {α : Type} {xs ys : List (List α)} (sep : List α) (hx : xs ≠ [])
    (hy : ys ≠ []) :
    sep.intercalate (xs ++ ys) = sep.intercalate xs ++ sep ++ sep.intercalate ys := by
  induction xs with
  | nil => exact absurd rfl hx
  | cons x xs ih =>
    cases xs with
    | nil => simp [List.intercalate_cons_of_ne_nil hy]
    | cons x' xs =>
      have hne : x' :: xs ++ ys ≠ [] := List.cons_ne_nil _ _
      rw [List.cons_append, List.intercalate_cons_of_ne_nil hne, ih (List.cons_ne_nil _ _),
        List.intercalate_cons_cons]
      simp only [List.append_assoc]

theorem eq_of_pieces_prefix (h : pieces sep s <+: pieces sep t) :
    s = t ∨ ∃ rest, t = s ++ sep :: rest := by
  obtain ⟨more, hm⟩ := h
  have ht := intercalate_pieces sep t
  by_cases hnil : more = []
  · rw [← hm, hnil, List.append_nil, intercalate_pieces] at ht
    exact .inl ht
  · rw [← hm, intercalate_append _ (pieces_ne_nil sep s) hnil, intercalate_pieces] at ht
    exact .inr ⟨_, by rw [← ht, List.append_assoc]; rfl⟩

theorem splitAtFirst_append (h : sep ∉ s) :
    splitAtFirst sep (s ++ sep :: t) = some (s, t) := by
  induction s with
  | nil => simp [splitAtFirst]
  | cons c s ih =>
    rw [List.mem_cons, not_or] at h
    rw [List.cons_append, splitAtFirst, if_neg (Ne.symm h.1), ih h.2, Option.map_some]

theorem splitAtFirst_of_not_mem (h : sep ∉ s) : splitAtFirst sep s = none := by
  induction s with
  | nil => rfl
  | cons c s ih =>
    rw [List.mem_cons, not_or] at h
    rw [splitAtFirst, if_neg (Ne.symm h.1), ih h.2, Option.map_none]

theorem splitAtLast_append (h : sep ∉ t) :
    splitAtLast sep (s ++ sep :: t) = some (s, t) := by
  have hreverse : (s ++ sep :: t).reverse = t.reverse ++ sep :: s.reverse := by simp
  rw [splitAtLast, hreverse, splitAtFirst_append (by simpa using h)]
  simp

theorem exists_of_splitAtLast {front back : List Char}
    (h : splitAtLast sep s = some (front, back)) : s = front ++ sep :: back ∧ sep ∉ back := by
  by_cases hmem : sep ∈ s.reverse
  · obtain ⟨behind, before, hs, hbehind⟩ := List.eq_append_cons_of_mem hmem
    rw [splitAtLast, hs, splitAtFirst_append hbehind] at h
    obtain ⟨rfl, rfl⟩ := Prod.mk.inj (Option.some.inj h)
    rw [← List.reverse_reverse s, hs]
    simpa using hbehind
  · rw [splitAtLast, splitAtFirst_of_not_mem hmem] at h
    contradiction

theorem afterStart_eq_some_iff {start rest : List Char} :
    afterStart start s = some rest ↔ s = start ++ rest := by
  constructor
  · exact eq_append_of_afterStart
  · rintro rfl
    exact afterStart_append start rest

theorem beforeEnd_eq_some_iff {tail rest : List Char} :
    beforeEnd tail s = some rest ↔ s = rest ++ tail := by
  rw [beforeEnd, Option.map_eq_some_iff]
  simp only [afterStart_eq_some_iff]
  constructor
  · rintro ⟨front, hfront, rfl⟩
    rw [← List.reverse_reverse s, hfront, List.reverse_append, List.reverse_reverse]
  · rintro rfl
    exact ⟨rest.reverse, List.reverse_append, List.reverse_reverse rest⟩

end Text

end TypedSql
