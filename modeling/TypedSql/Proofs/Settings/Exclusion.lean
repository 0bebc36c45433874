import TypedSql.Proofs.Text.Pieces
import TypedSql.Proofs.Text.Runs
import TypedSql.Settings

/-!
# What exclusion patterns stand for

In a glob a star stands for any text, also for none, and every other character stands for itself
(`Exclusion.Globs`). A pattern is read as less than a glob: only its first run of stars stands for
any text. A pattern with at most one run of stars covers the paths that it stands for as a glob
(`Exclusion.covers_iff_globs`): these start and end as the pattern does, and the start does not
overlap the end (`Exclusion.Fits`). Lengths in bytes are enough to see that they do not
(`Exclusion.covers_gap_iff_size`).
-/

namespace TypedSql

namespace Exclusion

/-- The paths that a pattern stands for as a glob. -/
inductive Globs : List Char → List Char → Prop where
  | nil : Globs [] []
  | char {c : Char} {pattern path : List Char} (ne_star : c ≠ '*') (rest : Globs pattern path) :
      Globs (c :: pattern) (c :: path)
  | star {pattern path : List Char} (middle : List Char) (rest : Globs pattern path) :
      Globs ('*' :: pattern) (middle ++ path)

/-- A pattern with at most one run of stars. -/
def HasOneRun (pattern : List Char) : Prop :=
  ∃ front stars back, pattern = front ++ List.replicate stars '*' ++ back ∧
    '*' ∉ front ∧ '*' ∉ back

/-- The paths of a pattern with at most one run of stars: the pattern itself if it has no star, and
otherwise what has its start in front and its end behind a text of any length. -/
inductive Fits (pattern path : List Char) : Prop where
  | path (no_star : '*' ∉ pattern) (eq : pattern = path)
  | gap {front back middle : List Char} {stars : Nat}
    (pattern_eq : pattern = front ++ List.replicate (stars + 1) '*' ++ back)
    (front_no_star : '*' ∉ front) (back_no_star : '*' ∉ back)
    (path_eq : path = front ++ middle ++ back)

variable {pattern path front back : List Char} {stars : Nat}

theorem covers_path_iff : (Exclusion.path pattern).covers path = true ↔ pattern = path :=
  beq_iff_eq

theorem covers_gap_iff :
    (gap front back).covers path = true ↔ ∃ middle, path = front ++ middle ++ back := by
  simp only [covers]
  constructor
  · intro h
    split at h
    · contradiction
    · rename_i rest hrest
      obtain ⟨middle, hmiddle⟩ := Option.isSome_iff_exists.mp h
      rw [Text.afterStart_eq_some_iff.mp hrest, Text.beforeEnd_eq_some_iff.mp hmiddle]
      exact ⟨middle, (List.append_assoc ..).symm⟩
  · rintro ⟨middle, rfl⟩
    rw [List.append_assoc, Text.afterStart_append]
    exact Option.isSome_of_eq_some (Text.beforeEnd_eq_some_iff.mpr rfl)

/-- The start and the end of a path do not overlap if both have room in its bytes. -/
theorem covers_gap_iff_size {path : String} :
    (gap front back).covers path.toList = true ↔
      (String.ofList front).utf8ByteSize + (String.ofList back).utf8ByteSize ≤ path.utf8ByteSize ∧
        front <+: path.toList ∧ back <:+ path.toList := by
  have hsize (s t : List Char) : (String.ofList (s ++ t)).utf8ByteSize =
      (String.ofList s).utf8ByteSize + (String.ofList t).utf8ByteSize := by
    rw [String.ofList_append, String.utf8ByteSize_append]
  rw [covers_gap_iff, ← String.ofList_toList (s := path), String.toList_ofList]
  generalize path.toList = path
  constructor
  · rintro ⟨middle, rfl⟩
    refine ⟨?_, List.append_assoc front middle back ▸ List.prefix_append _ _,
      List.suffix_append _ _⟩
    rw [hsize, hsize]
    omega
  · rintro ⟨hroom, ⟨behind, rfl⟩, before, hbefore⟩
    rcases List.append_eq_append_iff.mp hbefore with ⟨overlap, rfl, rfl⟩ | ⟨middle, rfl, rfl⟩
    · -- The bytes of an overlap would be counted twice.
      simp only [hsize] at hroom
      have hnil : (String.ofList overlap).utf8ByteSize = 0 := by omega
      rw [String.utf8ByteSize_eq_zero_iff, String.ofList_eq_empty_iff] at hnil
      exact ⟨[], by simp [hnil]⟩
    · exact ⟨middle, (List.append_assoc ..).symm⟩

theorem ofText_of_not_mem {text : String} (h : '*' ∉ text.toList) :
    ofText text = .path text.toList := by
  rw [ofText, Text.splitAtFirst_of_not_mem h]

/-- A run of stars is one gap. -/
theorem ofText_of_run {text : String}
    (h : text.toList = front ++ List.replicate (stars + 1) '*' ++ back) (hfront : '*' ∉ front)
    (hback : '*' ∉ back) : ofText text = .gap front back := by
  have hrun : ∀ c ∈ List.replicate stars '*', (c == '*') = true := fun c hc =>
    beq_iff_eq.mpr (List.eq_of_mem_replicate hc)
  have hend : ∀ c ∈ back.head?, (c == '*') = false := by
    intro c hc
    rw [beq_eq_false_iff_ne]
    rintro rfl
    exact hback (List.mem_of_head? hc)
  rw [List.append_assoc, List.replicate_succ, List.cons_append] at h
  rw [ofText, h, Text.splitAtFirst_append hfront]
  simp only [Runs.dropWhile_append hrun hend]

section Globs

theorem globs_append_iff (h : '*' ∉ front) :
    Globs (front ++ pattern) path ↔ ∃ rest, path = front ++ rest ∧ Globs pattern rest := by
  induction front generalizing path with
  | nil => exact ⟨fun hg => ⟨path, rfl, hg⟩, by rintro ⟨rest, rfl, hg⟩; exact hg⟩
  | cons c front ih =>
    rw [List.mem_cons, not_or] at h
    constructor
    · intro hg
      cases hg with
      | char _ hrest =>
        obtain ⟨rest, rfl, hg⟩ := (ih h.2).mp hrest
        exact ⟨rest, rfl, hg⟩
      | star => exact absurd rfl h.1
    · rintro ⟨rest, rfl, hg⟩
      exact .char (Ne.symm h.1) ((ih h.2).mpr ⟨rest, rfl, hg⟩)

theorem globs_iff_of_not_mem (h : '*' ∉ pattern) : Globs pattern path ↔ pattern = path := by
  rw [← List.append_nil pattern, globs_append_iff h]
  constructor
  · rintro ⟨rest, rfl, ⟨⟩⟩
    rfl
  · rintro rfl
    exact ⟨[], rfl, .nil⟩

/-- Several stars in a row stand for no more than one. -/
theorem globs_run_iff :
    Globs (List.replicate (stars + 1) '*' ++ back) path ↔
      ∃ middle rest, path = middle ++ rest ∧ Globs back rest := by
  induction stars generalizing path with
  | zero =>
    constructor
    · rintro (_ | ⟨hne, -⟩ | ⟨middle, hrest⟩)
      · exact absurd rfl hne
      · exact ⟨middle, _, rfl, hrest⟩
    · rintro ⟨middle, rest, rfl, hrest⟩
      exact .star middle hrest
  | succ stars ih =>
    constructor
    · rintro (_ | ⟨hne, -⟩ | ⟨middle, hrest⟩)
      · exact absurd rfl hne
      · obtain ⟨more, rest, rfl, hback⟩ := ih.mp hrest
        exact ⟨middle ++ more, rest, (List.append_assoc ..).symm, hback⟩
    · rintro ⟨middle, rest, rfl, hrest⟩
      exact .star middle (ih.mpr ⟨[], rest, rfl, hrest⟩)

theorem globs_gap_iff (hfront : '*' ∉ front) (hback : '*' ∉ back) :
    Globs (front ++ List.replicate (stars + 1) '*' ++ back) path ↔
      ∃ middle, path = front ++ middle ++ back := by
  rw [List.append_assoc, globs_append_iff hfront]
  constructor
  · rintro ⟨rest, rfl, hrun⟩
    obtain ⟨middle, rest, rfl, hrest⟩ := globs_run_iff.mp hrun
    rw [globs_iff_of_not_mem hback] at hrest
    exact ⟨middle, by rw [hrest, List.append_assoc]⟩
  · rintro ⟨middle, rfl⟩
    refine ⟨middle ++ back, List.append_assoc .., globs_run_iff.mpr ⟨middle, back, rfl, ?_⟩⟩
    exact (globs_iff_of_not_mem hback).mpr rfl

end Globs

/-- A pattern with at most one run of stars has none, or is a start and an end with stars between
them. -/
theorem HasOneRun.cases (h : HasOneRun pattern) :
    '*' ∉ pattern ∨ ∃ front stars back, pattern = front ++ List.replicate (stars + 1) '*' ++ back ∧
      '*' ∉ front ∧ '*' ∉ back := by
  obtain ⟨front, stars, back, rfl, hfront, hback⟩ := h
  cases stars with
  | zero => exact .inl (by simp [hfront, hback])
  | succ stars => exact .inr ⟨front, stars, back, rfl, hfront, hback⟩

/-- A pattern with at most one run of stars covers what it stands for as a glob. -/
theorem covers_iff_globs {text : String} (h : HasOneRun text.toList) :
    (ofText text).covers path = true ↔ Globs text.toList path := by
  rcases h.cases with hno | ⟨front, stars, back, htext, hfront, hback⟩
  · rw [ofText_of_not_mem hno, covers_path_iff, globs_iff_of_not_mem hno]
  · rw [ofText_of_run htext hfront hback, covers_gap_iff, htext, globs_gap_iff hfront hback]

theorem HasOneRun.globs_iff_fits (h : HasOneRun pattern) :
    Globs pattern path ↔ Fits pattern path := by
  constructor
  · intro hg
    rcases h.cases with hno | ⟨front, stars, back, rfl, hfront, hback⟩
    · exact .path hno ((globs_iff_of_not_mem hno).mp hg)
    · obtain ⟨middle, hmiddle⟩ := (globs_gap_iff hfront hback).mp hg
      exact .gap rfl hfront hback hmiddle
  · rintro (⟨hno, heq⟩ | ⟨rfl, hfront, hback, hpath⟩)
    · exact (globs_iff_of_not_mem hno).mpr heq
    · exact (globs_gap_iff hfront hback).mpr ⟨_, hpath⟩

end Exclusion

namespace Settings

open Exclusion

theorem isExcluded_iff (s : Settings) (path : String) :
    s.isExcluded path = true ↔
      ∃ pattern ∈ s.exclude, (ofText pattern).covers path.toList = true :=
  List.any_eq_true

/-- Patterns with at most one run of stars exclude the paths that start and end as one of them does,
without an overlap; these are the paths that they stand for as globs. -/
theorem isExcluded_iff_fits {s : Settings} (h : ∀ pattern ∈ s.exclude, HasOneRun pattern.toList)
    (path : String) :
    (s.isExcluded path = true ↔ ∃ pattern ∈ s.exclude, Fits pattern.toList path.toList) ∧
      (s.isExcluded path = true ↔ ∃ pattern ∈ s.exclude, Globs pattern.toList path.toList) ∧
      ∀ front back : List Char,
        ((gap front back).covers path.toList = true ↔
          (String.ofList front).utf8ByteSize + (String.ofList back).utf8ByteSize ≤
              path.utf8ByteSize ∧
            front <+: path.toList ∧ back <:+ path.toList) := by
  have hglobs : s.isExcluded path = true ↔
      ∃ pattern ∈ s.exclude, Globs pattern.toList path.toList := by
    rw [isExcluded_iff]
    exact exists_congr fun pattern => and_congr_right fun hp => covers_iff_globs (h pattern hp)
  refine ⟨?_, hglobs, fun _ _ => covers_gap_iff_size⟩
  rw [hglobs]
  exact exists_congr fun pattern => and_congr_right fun hp => (h pattern hp).globs_iff_fits

/-- The start and the end of a pattern do not share a character of a path. -/
theorem isExcluded_iff_fits_overlap :
    let s : Settings := { default with exclude := ["äb*bä", "queries/alt/**", "plan.sql"] }
    (∀ pattern ∈ s.exclude, HasOneRun pattern.toList) ∧ s.isExcluded "äbbä" = true ∧
      s.isExcluded "queries/alt/" = true ∧ s.isExcluded "plan.sql" = true ∧
      s.isExcluded "äbä" = false := by
  intro s
  have h : ∀ pattern ∈ s.exclude, HasOneRun pattern.toList := by
    intro pattern hp
    obtain rfl | rfl | rfl : pattern = "äb*bä" ∨ pattern = "queries/alt/**" ∨
        pattern = "plan.sql" := by simpa [s] using hp
    · exact ⟨"äb".toList, 1, "bä".toList, by decide +kernel, by decide +kernel, by decide +kernel⟩
    · exact ⟨"queries/alt/".toList, 2, [], by decide +kernel, by decide +kernel, by simp⟩
    · exact ⟨"plan.sql".toList, 0, [], by decide +kernel, by decide +kernel, by simp⟩
  refine ⟨h, (isExcluded_iff_fits h _).1.mpr ?_, (isExcluded_iff_fits h _).1.mpr ?_,
    (isExcluded_iff_fits h _).1.mpr ?_, by decide +kernel⟩
  · exact ⟨"äb*bä", by simp [s], @Fits.gap _ _ "äb".toList "bä".toList [] 0 (by decide +kernel)
      (by decide +kernel) (by decide +kernel) (by decide +kernel)⟩
  · exact ⟨"queries/alt/**", by simp [s], @Fits.gap _ _ "queries/alt/".toList [] [] 1
      (by decide +kernel) (by decide +kernel) (by simp) (by decide +kernel)⟩
  · exact ⟨"plan.sql", by simp [s], .path (by decide +kernel) rfl⟩

end Settings

end TypedSql
