import TypedSql.Proofs.FileTree.Files

/-!
# A tree as a disk

Looking into a tree changes nothing in it. What a look gives is what the path leads to.
-/

namespace TypedSql

/-- Behind a look, which leaves the world as it is, a run goes on in the same world. -/
theorem run_bind_look {σ α β : Type} {world : σ} {act : StateM σ α} {a : α}
    (h : act.run world = (a, world)) (next : α → StateM σ β) :
    (act >>= next).run world = (next a).run world := by
  rw [StateT.run_bind, h]
  rfl

namespace FileTree

/-- A path leads to a file or a directory. -/
def IsThere (tree : FileTree) (path : Path) : Prop :=
  ∃ found, tree.follow path = .ok found

variable {tree found : FileTree} {path : Path} {way : List String} {text : String}

theorem IsProper.of_find? (h : tree.IsProper) (hfind : tree.find? way = some found) :
    found.IsProper := by
  induction way generalizing tree with
  | nil =>
    obtain rfl : tree = found := by simpa [find?] using hfind
    exact h
  | cons name way ih =>
    cases h with
    | file => contradiction
    | @directory entries nodup names proper =>
      rw [find?] at hfind
      split at hfind
      · rename_i t hlookup
        obtain ⟨before, after, rfl, -⟩ := List.lookup_eq_some_iff.mp hlookup
        exact ih (proper (name, t) (by simp)) hfind
      · contradiction

theorem IsProper.of_follow (h : tree.IsProper) (hfollow : tree.follow path = .ok found) :
    found.IsProper := by
  unfold follow at hfollow
  cases hplace : tree.locate path with
  | error e =>
    rw [hplace] at hfollow
    contradiction
  | ok place =>
    rw [hplace] at hfollow
    cases hfind : tree.find? place with
    | none => simp [hfind, bind, Except.bind] at hfollow
    | some t =>
      obtain rfl : t = found := by simpa [hfind, bind, Except.bind] using hfollow
      exact h.of_find? hfind

theorem run_kind? (h : tree.follow path = .ok found) :
    (disk.kind? path).run tree = (some found.kind, tree) := by
  simp only [disk, StateT.run_bind, StateT.run_get, pure_bind, h, StateT.run_pure]
  rfl

theorem run_filesBelow (h : tree.follow path = .ok found) :
    (disk.filesBelow path).run tree = (found.files, tree) := by
  simp only [disk, StateT.run_bind, StateT.run_get, pure_bind, h, StateT.run_pure]
  rfl

theorem run_readText {bytes : Bytes} (h : tree.follow path = .ok (.file bytes))
    (htext : bytes.text? = some text) : (disk.readText path).run tree = (.ok text, tree) := by
  have hread : tree.read path = .ok bytes := by
    rw [read, h]
    rfl
  have hrun : (disk.read path).run tree = (.ok bytes, tree) := by
    simp only [disk, StateT.run_bind, StateT.run_get, pure_bind, hread, StateT.run_pure]
    rfl
  rw [Disk.readText, run_bind_look hrun]
  simp only [htext]
  rfl

end FileTree

end TypedSql
