import TypedSql.Proofs.Placeholder.Pieces

/-!
# The numbers of names

Numbers are given out while the markers are written, and the list of names grows on the way. A name
that has a number keeps it, because names are only added behind the others
(`Prepared.prefix_number`, `Prepared.prefix_pieces`). So a marker that was written early agrees with
the final list of names: each call is replaced by the place of its name in that list
(`Prepared.ofTokens_numbers`).
-/

namespace TypedSql

namespace Prepared

variable {names later : List String} {name : String} {t : Token} {ts : List Token}

/-- The names that calls among the tokens have, one for each call. -/
def occurrences (ts : List Token) : List String :=
  ts.filterMap Token.placeholderName

/-- The marker of a name in a list of names. -/
def marker (names : List String) (name : String) : String :=
  s!"${names.idxOf name + 1}"

/-- What a token becomes when all names have their numbers. -/
def replaced (names : List String) (t : Token) : String :=
  match t.placeholderName with
  | some name => marker names name
  | none => t.literal

/-! ### One call -/

theorem number_of_mem (h : name ∈ names) : number names name = (names.idxOf name + 1, names) := by
  rw [number, List.idxOf_eq_getD_idxOf?]
  cases hi : names.idxOf? name with
  | some i => rfl
  | none => exact absurd h (List.idxOf?_eq_none_iff.mp hi)

theorem number_of_not_mem (h : name ∉ names) :
    number names name = (names.length + 1, names ++ [name]) := by
  rw [number, List.idxOf?_eq_none_iff.mpr h]

theorem prefix_number (names : List String) (name : String) :
    names <+: (number names name).2 := by
  by_cases h : name ∈ names
  · simp only [number_of_mem h, List.prefix_rfl]
  · rw [number_of_not_mem h]
    exact List.prefix_append _ _

theorem mem_number (names : List String) (name : String) : name ∈ (number names name).2 := by
  by_cases h : name ∈ names
  · rwa [number_of_mem h]
  · simp [number_of_not_mem h]

/-- A new name is numbered with its own place in the list. -/
theorem number_fst (names : List String) (name : String) :
    (number names name).1 = (number names name).2.idxOf name + 1 := by
  by_cases h : name ∈ names
  · rw [number_of_mem h]
  · rw [number_of_not_mem h, List.idxOf_append_of_notMem h]
    simp

theorem nodup_number (h : names.Nodup) (name : String) : (number names name).2.Nodup := by
  by_cases hm : name ∈ names
  · rwa [number_of_mem hm]
  · rw [number_of_not_mem hm]
    refine List.nodup_append.mpr ⟨h, by simp, fun a ha b hb => ?_⟩
    rintro rfl
    exact hm (List.mem_singleton.mp hb ▸ ha)

/-- Behind the names of the list, a name is new when it is not the one that was just numbered. -/
theorem number_append_eraseDups (names : List String) (name : String) (rest : List String) :
    (number names name).2 ++ (rest.removeAll (number names name).2).eraseDups =
      names ++ ((name :: rest).removeAll names).eraseDups := by
  by_cases h : name ∈ names
  · rw [number_of_mem h]
    simp [List.removeAll, h]
  · rw [number_of_not_mem h]
    simp [List.removeAll, h, List.eraseDups_cons, List.filter_filter, beq_eq_decide,
      Bool.and_comm]

/-! ### All tokens -/

theorem pieces_cons_of_some (h : t.placeholderName = some name) :
    pieces names (t :: ts) = (s!"${(number names name).1}" :: (pieces (number names name).2 ts).1,
      (pieces (number names name).2 ts).2) := by
  rw [pieces, h]

theorem pieces_cons_of_none (h : t.placeholderName = none) :
    pieces names (t :: ts) = (t.literal :: (pieces names ts).1, (pieces names ts).2) := by
  rw [pieces, h]

/-- The names with numbers keep their places. -/
theorem prefix_pieces (names : List String) (ts : List Token) :
    names <+: (pieces names ts).2 := by
  induction ts generalizing names with
  | nil => exact List.prefix_rfl
  | cons t ts ih =>
    cases h : t.placeholderName with
    | some name =>
      rw [pieces_cons_of_some h]
      exact (prefix_number names name).trans (ih _)
    | none =>
      rw [pieces_cons_of_none h]
      exact ih names

theorem nodup_pieces (h : names.Nodup) (ts : List Token) : (pieces names ts).2.Nodup := by
  induction ts generalizing names with
  | nil => exact h
  | cons t ts ih =>
    cases hname : t.placeholderName with
    | some name =>
      rw [pieces_cons_of_some hname]
      exact ih (nodup_number h name)
    | none =>
      rw [pieces_cons_of_none hname]
      exact ih h

/-- New names come behind the others in the order of their first calls. -/
theorem pieces_snd (names : List String) (ts : List Token) :
    (pieces names ts).2 = names ++ ((occurrences ts).removeAll names).eraseDups := by
  induction ts generalizing names with
  | nil => simp [pieces, occurrences]
  | cons t ts ih =>
    cases h : t.placeholderName with
    | some name =>
      have ho : occurrences (t :: ts) = name :: occurrences ts := by simp [occurrences, h]
      rw [pieces_cons_of_some h, ho, ← number_append_eraseDups]
      exact ih _
    | none =>
      have ho : occurrences (t :: ts) = occurrences ts := by simp [occurrences, h]
      rw [pieces_cons_of_none h, ho]
      exact ih names

theorem marker_of_prefix (h : names <+: later) (hm : name ∈ names) :
    marker later name = marker names name := by
  obtain ⟨rest, rfl⟩ := h
  rw [marker, marker, List.idxOf_append_of_mem hm]

/-- A marker agrees with the names as they are in the end. -/
theorem pieces_fst (names : List String) (ts : List Token) :
    (pieces names ts).1 = ts.map (replaced (pieces names ts).2) := by
  induction ts generalizing names with
  | nil => rfl
  | cons t ts ih =>
    cases h : t.placeholderName with
    | some name =>
      rw [pieces_cons_of_some h]
      -- The number is the place in the list as it is now, which the final one begins with.
      have hmarker : replaced (pieces (number names name).2 ts).2 t =
          s!"${(number names name).1}" := by
        rw [replaced, h, number_fst]
        exact marker_of_prefix (prefix_pieces _ ts) (mem_number names name)
      rw [List.map_cons, hmarker]
      exact congrArg _ (ih _)
    | none =>
      rw [pieces_cons_of_none h, List.map_cons, replaced, h]
      exact congrArg _ (ih names)

/-! ### Numbers of different names -/

theorem marker_inj {other : String} (hm : name ∈ names) :
    marker names name = marker names other ↔ name = other := by
  refine ⟨fun h => ?_, fun h => by rw [h]⟩
  rw [← String.toList_inj, marker, marker, Piece.toList_marker, Piece.toList_marker] at h
  have hn := congrArg Text.digitsValue (List.cons.inj h).2
  rw [Text.digitsValue_toDigits, Text.digitsValue_toDigits, Nat.add_right_cancel_iff] at hn
  exact (List.idxOf_inj hm).mp hn

theorem mem_names_iff : name ∈ (ofTokens ts).names ↔ ∃ t ∈ ts, t.placeholderName = some name := by
  have h : (ofTokens ts).names = (pieces [] ts).2 := rfl
  rw [h, pieces_snd]
  simp [List.removeAll, List.mem_eraseDups, occurrences]

/-- The names are those of the calls, each once, in the order of their first calls. Each call is
replaced by the place of its name among them, and all other text stays. So two calls have the same
marker just when they have the same name, and every number up to the number of names is that of
some call. -/
theorem ofTokens_numbers (ts : List Token) :
    let p := ofTokens ts
    (p.names = (occurrences ts).eraseDups ∧ p.names.Nodup) ∧
    p.sql = String.join (ts.map (replaced p.names)) ∧
    (∀ t ∈ ts, ∀ s ∈ ts, ∀ name other, t.placeholderName = some name →
      s.placeholderName = some other → (replaced p.names t = replaced p.names s ↔ name = other)) ∧
    ∀ n, 1 ≤ n → n ≤ p.names.length →
      ∃ t ∈ ts, (t.placeholderName).isSome ∧ replaced p.names t = s!"${n}" := by
  intro p
  have hnames : p.names = (pieces [] ts).2 := rfl
  refine ⟨⟨?_, ?_⟩, ?_, fun t ht s hs name other hname hother => ?_, fun n hn hle => ?_⟩
  · rw [hnames, pieces_snd]
    simp [List.removeAll]
  · exact nodup_pieces List.nodup_nil ts
  · exact congrArg String.join (pieces_fst [] ts)
  · rw [replaced, replaced, hname, hother]
    exact marker_inj (mem_names_iff.mpr ⟨t, ht, hname⟩)
  · obtain ⟨i, rfl⟩ := Nat.exists_eq_add_of_le' hn
    have hnodup : p.names.Nodup := nodup_pieces List.nodup_nil ts
    obtain ⟨t, ht, hname⟩ := mem_names_iff.mp (List.getElem_mem (l := p.names) (n := i) hle)
    refine ⟨t, ht, by rw [hname]; rfl, ?_⟩
    rw [replaced, hname]
    simp only [marker, hnodup.idxOf_getElem]

example : ofText "SELECT querygen.arg('a'), querygen.arg('b'), querygen.arg('a');" "querygen" =
    ⟨"SELECT $1, $2, $1;", ["a", "b"]⟩ := by decide +kernel

end Prepared

end TypedSql
