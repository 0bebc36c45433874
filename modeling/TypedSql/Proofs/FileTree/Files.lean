import Mathlib.Data.List.Nodup
import TypedSql.FileTree
import TypedSql.Proofs.Path.Components

/-!
# Files of a tree

The files of a tree are told by the names on the way to them, as these follow from the entries of
its directories (`FileTree.mem_files_iff`). In a tree whose directories have each name once, each
way is listed once (`FileTree.IsProper.nodup_files`).
-/

namespace TypedSql

namespace FileTree

/-- A property of trees follows from the entries of each directory. -/
theorem induct {motive : FileTree → Prop} (file : ∀ content, motive (.file content))
    (directory : ∀ entries, (∀ e ∈ entries, motive e.2) → motive (.directory entries))
    (t : FileTree) : motive t :=
  @rec motive (fun entries => ∀ e ∈ entries, motive e.2) (fun e => motive e.2) file directory
    (by simp) (fun _ _ he hentries => List.forall_mem_cons.mpr ⟨he, hentries⟩) (fun _ _ h => h) t

/-- A file stands at the end of a way of names. -/
inductive HasFile : FileTree → List String → Prop where
  | here (content : Bytes) : HasFile (.file content) []
  | inside {entries : List (String × FileTree)} {name : String} {t : FileTree} {way : List String}
    (entry : (name, t) ∈ entries) (file : HasFile t way) :
      HasFile (.directory entries) (name :: way)

/-- A tree as a disk has it: a directory has each name once, and every name can stand there. -/
inductive IsProper : FileTree → Prop where
  | file (content : Bytes) : IsProper (.file content)
  | directory {entries : List (String × FileTree)} (nodup : (entries.map Prod.fst).Nodup)
    (names : ∀ e ∈ entries, Path.IsName e.1) (proper : ∀ e ∈ entries, IsProper e.2) :
      IsProper (.directory entries)

variable {t : FileTree} {entries : List (String × FileTree)} {way : List String}

theorem filesIn_eq (entries : List (String × FileTree)) :
    filesIn entries = entries.flatMap fun e => (files e.2).map (e.1 :: ·) := by
  induction entries with
  | nil => rfl
  | cons e entries ih =>
    obtain ⟨name, t⟩ := e
    rw [filesIn, ih, List.flatMap_cons]

theorem mem_files_directory_iff :
    way ∈ files (.directory entries) ↔ ∃ e ∈ entries, ∃ rest ∈ files e.2, way = e.1 :: rest := by
  rw [files, filesIn_eq]
  simp [eq_comm]

theorem mem_files_iff : way ∈ files t ↔ t.HasFile way := by
  induction t using induct generalizing way with
  | file content =>
    rw [files, List.mem_singleton]
    constructor
    · rintro rfl
      exact .here content
    · rintro ⟨⟩
      rfl
  | directory entries ih =>
    rw [mem_files_directory_iff]
    constructor
    · rintro ⟨e, he, rest, hrest, rfl⟩
      exact .inside he ((ih e he).mp hrest)
    · rintro (_ | ⟨he, hfile⟩)
      exact ⟨_, he, _, (ih _ he).mpr hfile, rfl⟩

theorem IsProper.isName_of_mem (h : t.IsProper) (hfile : t.HasFile way) :
    ∀ name ∈ way, Path.IsName name := by
  induction hfile with
  | here content => nofun
  | inside he _ ih =>
    cases h with
    | directory nodup names proper =>
      exact List.forall_mem_cons.mpr ⟨names _ he, ih (proper _ he)⟩

/-- No file is listed twice. -/
theorem IsProper.nodup_files (h : t.IsProper) : (files t).Nodup := by
  induction h with
  | file content => exact List.nodup_singleton []
  | @directory entries nodup names proper ih =>
    rw [files, filesIn_eq, List.nodup_flatMap]
    constructor
    · exact fun e he => (ih e he).map fun _ _ heq => (List.cons.inj heq).2
    · rw [List.Nodup, List.pairwise_map] at nodup
      refine nodup.imp fun {e e'} hne => ?_
      -- The ways to different entries differ in their first names.
      refine List.disjoint_left.mpr ?_
      intro way hway hway'
      obtain ⟨_, -, rfl⟩ := List.mem_map.mp hway
      obtain ⟨_, -, heq⟩ := List.mem_map.mp hway'
      exact hne (List.cons.inj heq).1.symm

end FileTree

end TypedSql
