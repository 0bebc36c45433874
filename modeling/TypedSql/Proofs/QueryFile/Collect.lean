import Mathlib.Data.List.Destutter
import TypedSql.Proofs.FileTree.Disk
import TypedSql.QueryFile.Collect

/-!
# Which query files are collected

Paths that are there name files, themselves or the `.sql` files below them (`QueryFile.Names`). What
is collected are the named files that are not excluded, in the order of the paths, and of equal
files in a row only the first is kept. A file is therefore collected twice exactly if another file
stands between two of its places (`QueryFile.collect_exact`). No file is collected twice if no two
paths name the same one, but paths that overlap may have it repeated
(`QueryFile.exists_collect_repeated`).
-/

namespace TypedSql

namespace Runs

variable {α : Type} {xs ys : List α}

/-- Between equal elements that are not in a row stands another one. -/
theorem exists_between (hxs : xs.IsChain (· ≠ ·)) {a : α} (h : [a, a].Sublist xs) :
    ∃ b, b ≠ a ∧ [a, b, a].Sublist xs := by
  induction xs with
  | nil => contradiction
  | cons c xs ih =>
    rcases List.sublist_cons_iff.mp h with h | ⟨_, ⟨⟩, h⟩
    · obtain ⟨b, hb, hsub⟩ := ih hxs.tail h
      exact ⟨b, hb, hsub.cons c⟩
    · cases xs with
      | nil => contradiction
      | cons b xs =>
        have hne : a ≠ b := (List.isChain_cons_cons.mp hxs).1
        exact ⟨b, hne.symm, (h.of_cons_of_ne hne).cons_cons b |>.cons_cons a⟩

variable [DecidableEq α]

/-- Where equal elements in a row are made one, all that never has two equal ones in a row stays. -/
theorem sublist_destutter' (hys : ys.IsChain (· ≠ ·)) {a : α} (h : ys.Sublist (a :: xs)) :
    ys.Sublist (xs.destutter' (· ≠ ·) a) := by
  induction xs generalizing a ys with
  | nil => exact h
  | cons b xs ih =>
    cases ys with
    | nil => exact List.nil_sublist _
    | cons c ys =>
      by_cases hab : a = b
      · rw [hab, List.destutter'_cons_neg _ (by simp)]
        -- One of the two is lost, but `ys` does not have both.
        apply ih hys
        rcases List.cons_sublist_cons'.mp (hab ▸ h) with hsub | ⟨rfl, hsub⟩
        · exact hsub
        · cases ys with
          | nil => exact (List.nil_sublist xs).cons_cons c
          | cons d ys =>
            have hne : d ≠ c := (List.isChain_cons_cons.mp hys).1.symm
            exact (hsub.of_cons_of_ne hne).cons_cons c
      · rw [List.destutter'_cons_pos _ hab]
        rcases List.cons_sublist_cons'.mp h with hsub | ⟨rfl, hsub⟩
        · exact (ih hys hsub).cons a
        · exact (ih hys.tail hsub).cons_cons c

theorem sublist_destutter (hys : ys.IsChain (· ≠ ·)) (h : ys.Sublist xs) :
    ys.Sublist (xs.destutter (· ≠ ·)) := by
  cases xs with
  | nil => exact h
  | cons a xs => exact sublist_destutter' hys h

theorem mem_destutter_iff {a : α} : a ∈ xs.destutter (· ≠ ·) ↔ a ∈ xs := by
  rw [← List.singleton_sublist, ← List.singleton_sublist]
  exact ⟨fun h => h.trans (List.destutter_sublist _ _), sublist_destutter (.singleton a)⟩

/-- Making one of equal elements in a row leaves no equal ones exactly if equal elements stand only
in a row. -/
theorem nodup_destutter_iff :
    (xs.destutter (· ≠ ·)).Nodup ↔ ∀ a b, [a, b, a].Sublist xs → b = a := by
  constructor
  · intro hnodup a b h
    by_contra hne
    have hchain : [a, b, a].IsChain (· ≠ ·) := by simp [hne, Ne.symm hne]
    have hsub := sublist_destutter hchain h
    have hnot := hsub.nodup hnodup
    simp at hnot
  · intro hrow
    rw [List.nodup_iff_sublist]
    intro a h
    obtain ⟨b, hb, hsub⟩ := exists_between (List.isChain_destutter _ _) h
    exact hb (hrow a b (hsub.trans (List.destutter_sublist _ _)))

end Runs

namespace Path

/-- A name that ends in a point and `extension`, behind at least one character. -/
def EndsIn (name extension : String) : Prop :=
  ∃ stem, stem ≠ [] ∧ name.toList = stem ++ '.' :: extension.toList

theorem hasExtension_iff {name extension : String} (h : '.' ∉ extension.toList) :
    hasExtension name extension = true ↔ EndsIn name extension := by
  unfold hasExtension
  constructor
  · intro hext
    split at hext
    · rename_i stem found hsplit
      obtain ⟨hname, -⟩ := Text.exists_of_splitAtLast hsplit
      rw [Bool.and_eq_true, decide_eq_true_iff] at hext
      refine ⟨stem, by simpa using hext.1, ?_⟩
      rw [hname, ← hext.2, String.toList_ofList]
    · contradiction
  · rintro ⟨stem, hstem, hname⟩
    rw [hname, Text.splitAtLast_append h]
    simp [hstem, String.ofList_toList]

end Path

namespace QueryFile

open FileTree

/-- The files that a path names: the one at the path, or those below the directory at the path whose
names end in `.sql`. -/
inductive Names (tree : FileTree) (path : Path) : Path → Prop where
  | file {content : Bytes} (found : tree.follow path = .ok (.file content)) :
      Names tree path path
  | below {entries : List (String × FileTree)} {front : List String} {name : String}
    (found : tree.follow path = .ok (.directory entries))
    (file : HasFile (.directory entries) (front ++ [name])) (sql : Path.EndsIn name "sql") :
      Names tree path ((front ++ [name]).foldl Path.join path)

/-- The files that a path names, as they are listed. -/
def namedIn (tree : FileTree) (path : Path) : List Path :=
  match tree.follow path with
  | .ok (.file _) => [path]
  | .ok (.directory entries) => below path (files (.directory entries))
  | .error _ => []

/-- The files that paths name and the settings do not exclude, as they are listed. -/
def candidates (tree : FileTree) (settings : Settings) (paths : List Path) : List Path :=
  (paths.flatMap (namedIn tree)).filter fun file => !settings.isExcluded file.text

variable {tree : FileTree} {settings : Settings} {path f : Path} {paths : List Path}

theorem isQueryFile_iff {way : List String} :
    isQueryFile way = true ↔ ∃ front name, way = front ++ [name] ∧ Path.EndsIn name "sql" := by
  have hdot : '.' ∉ "sql".toList := by decide
  rcases List.eq_nil_or_concat way with rfl | ⟨front, name, rfl⟩
  · simp [isQueryFile]
  · rw [List.concat_eq_append, isQueryFile, List.getLast?_concat]
    constructor
    · exact fun h => ⟨front, name, rfl, (Path.hasExtension_iff hdot).mp h⟩
    · rintro ⟨front', name', heq, h⟩
      obtain ⟨-, ⟨⟩⟩ := List.append_inj' heq rfl
      exact (Path.hasExtension_iff hdot).mpr h

theorem mem_below_iff {ways : List (List String)} :
    f ∈ below path ways ↔
      ∃ way ∈ ways, isQueryFile way = true ∧ way.foldl Path.join path = f := by
  simp [below, and_assoc]

theorem mem_namedIn_iff : f ∈ namedIn tree path ↔ Names tree path f := by
  unfold namedIn
  constructor
  · intro h
    split at h
    · rename_i hfound
      rw [List.mem_singleton.mp h]
      exact .file hfound
    · rename_i hfound
      obtain ⟨way, hway, hsql, rfl⟩ := mem_below_iff.mp h
      obtain ⟨front, name, rfl, hname⟩ := isQueryFile_iff.mp hsql
      exact .below hfound (mem_files_iff.mp hway) hname
    · contradiction
  · rintro (hfound | ⟨hfound, hfile, hname⟩)
    · simp [hfound]
    · simp only [hfound]
      refine mem_below_iff.mpr ⟨_, mem_files_iff.mpr hfile, ?_, rfl⟩
      exact isQueryFile_iff.mpr ⟨_, _, rfl, hname⟩

theorem mem_candidates_iff :
    f ∈ candidates tree settings paths ↔
      (∃ path ∈ paths, Names tree path f) ∧ settings.isExcluded f.text = false := by
  simp [candidates, mem_namedIn_iff]

/-! ### Repeats -/

theorem dropRepeats_eq_destutter (files : List Path) :
    dropRepeats files = files.destutter fun p q => p.same q = false := by
  fun_induction dropRepeats files with
  | case1 | case2 => rfl
  | case3 p q rest hsame ih =>
    rw [ih, List.destutter_cons', List.destutter_cons',
      List.destutter'_cons_neg _ (by simp [hsame])]
  | case4 p q rest hsame ih =>
    rw [ih, List.destutter_cons', List.destutter_cons',
      List.destutter'_cons_pos _ (by simpa using hsame)]

theorem sublist_dropRepeats (files : List Path) : (dropRepeats files).Sublist files := by
  rw [dropRepeats_eq_destutter]
  exact List.destutter_sublist _ _

theorem components_dropRepeats (files : List Path) :
    (dropRepeats files).map Path.components =
      (files.map Path.components).destutter (· ≠ ·) := by
  rw [dropRepeats_eq_destutter]
  apply List.map_destutter
  intro p _ q _
  rw [← Bool.not_eq_true, Path.same_iff]

/-- Of equal files one is kept. -/
theorem exists_same_of_mem (files : List Path) (h : f ∈ files) :
    ∃ g ∈ dropRepeats files, g.same f = true := by
  have hmem : f.components ∈ (dropRepeats files).map Path.components := by
    rw [components_dropRepeats, Runs.mem_destutter_iff]
    exact List.mem_map_of_mem h
  obtain ⟨g, hg, hsame⟩ := List.mem_map.mp hmem
  exact ⟨g, hg, Path.same_iff.mpr hsame⟩

/-- A file is repeated exactly if another one stands between two of its places. -/
theorem nodup_dropRepeats_iff (files : List Path) :
    ((dropRepeats files).map Path.components).Nodup ↔
      ∀ f g h, [f, g, h].Sublist files → f.same h = true → f.same g = true := by
  rw [components_dropRepeats, Runs.nodup_destutter_iff]
  constructor
  · intro hrow f g h hsub hsame
    have hmap := hsub.map Path.components
    rw [List.map_cons, List.map_cons, List.map_singleton, ← Path.same_iff.mp hsame] at hmap
    exact Path.same_iff.mpr (hrow _ _ hmap).symm
  · intro hrow a b hsub
    obtain ⟨between, hbetween, heq⟩ := List.sublist_map_iff.mp hsub
    have hlength : between.length = 3 := by simpa using (congrArg List.length heq).symm
    obtain ⟨f, g, h, rfl⟩ := List.length_eq_three.mp hlength
    obtain ⟨rfl, rfl, hh⟩ : a = f.components ∧ b = g.components ∧ a = h.components := by
      simpa using heq
    exact (Path.same_iff.mp (hrow f g h hbetween (Path.same_iff.mpr hh))).symm

/-- The files below a directory are different. -/
theorem nodup_below {ways : List (List String)} (hways : ways.Nodup)
    (hnames : ∀ way ∈ ways, ∀ name ∈ way, Path.IsName name) :
    ((below path ways).map Path.components).Nodup := by
  rw [below, List.map_map]
  have hperm := List.mergeSort_perm (ways.filter isQueryFile) precedes
  apply List.Nodup.map_on
  · intro way hway other hother heq
    have hmem {w : List String} (hw : w ∈ (ways.filter isQueryFile).mergeSort precedes) :
        w ∈ ways := List.mem_of_mem_filter (hperm.subset hw)
    rw [Function.comp, Function.comp, Path.components_foldl_join _ (hnames way (hmem hway)),
      Path.components_foldl_join _ (hnames other (hmem hother)), List.append_cancel_left_eq] at heq
    exact List.map_injective_iff.mpr (fun _ _ => Path.Component.name.inj) heq
  · exact hperm.nodup_iff.mpr (hways.filter _)

theorem nodup_namedIn (h : tree.IsProper) (path : Path) :
    ((namedIn tree path).map Path.components).Nodup := by
  unfold namedIn
  split
  · exact List.nodup_singleton _
  · rename_i hfollow
    have hfound := h.of_follow hfollow
    exact nodup_below hfound.nodup_files fun way hway =>
      hfound.isName_of_mem (mem_files_iff.mp hway)
  · exact .nil

/-- No file is listed twice if no two paths name the same one. -/
theorem nodup_candidates (h : tree.IsProper) (settings : Settings)
    (hpaths : paths.Pairwise fun p q => ∀ f g, Names tree p f → Names tree q g → f.same g = false) :
    ((candidates tree settings paths).map Path.components).Nodup := by
  refine (List.filter_sublist.map Path.components).nodup ?_
  rw [List.map_flatMap, List.nodup_flatMap]
  refine ⟨fun path _ => nodup_namedIn h path, hpaths.imp fun {p q} hdiffer => ?_⟩
  refine List.disjoint_left.mpr ?_
  intro components hp hq
  obtain ⟨f, hf, rfl⟩ := List.mem_map.mp hp
  obtain ⟨g, hg, hsame⟩ := List.mem_map.mp hq
  have hne := hdiffer f g (mem_namedIn_iff.mp hf) (mem_namedIn_iff.mp hg)
  rw [Path.same_iff.mpr hsame.symm] at hne
  contradiction

/-! ### Collecting from a tree -/

theorem run_named? (h : tree.IsThere path) :
    (named? FileTree.disk path).run tree = (some (namedIn tree path), tree) := by
  obtain ⟨found, hfound⟩ := h
  rw [named?, run_bind_look (run_kind? hfound)]
  cases found with
  | file content =>
    simp only [namedIn, hfound]
    rfl
  | directory entries =>
    simp only [namedIn, hfound, kind]
    rw [run_bind_look (run_filesBelow hfound)]
    rfl

theorem run_allNamed (h : ∀ path ∈ paths, tree.IsThere path) :
    (allNamed FileTree.disk paths).run tree = (.ok (paths.flatMap (namedIn tree)), tree) := by
  induction paths with
  | nil => rfl
  | cons path paths ih =>
    obtain ⟨hpath, hpaths⟩ := List.forall_mem_cons.mp h
    rw [allNamed, run_bind_look (run_named? hpath), run_bind_look (ih hpaths)]
    rfl

theorem run_collect (settings : Settings) (h : ∀ path ∈ paths, tree.IsThere path) :
    (collect FileTree.disk settings paths).run tree =
      (.ok (dropRepeats (candidates tree settings paths)), tree) := by
  rw [collect, run_bind_look (run_allNamed h)]
  rfl

/-- What is collected from paths that are there. Every file is named by a path and not excluded, and
every such file is collected. A file is collected twice exactly if another one is listed between two
of its places, so none is if no two paths name the same file. -/
theorem collect_exact (settings : Settings) (hpaths : ∀ path ∈ paths, tree.IsThere path) :
    ∃ files, (collect FileTree.disk settings paths).run tree = (.ok files, tree) ∧
      (∀ f ∈ files, (∃ path ∈ paths, Names tree path f) ∧ settings.isExcluded f.text = false) ∧
      (∀ path ∈ paths, ∀ f, Names tree path f → settings.isExcluded f.text = false →
        ∃ g ∈ files, g.same f = true) ∧
      ((files.map Path.components).Nodup ↔
        ∀ f g h, [f, g, h].Sublist (candidates tree settings paths) → f.same h = true →
          f.same g = true) ∧
      (tree.IsProper →
        (paths.Pairwise fun p q => ∀ f g, Names tree p f → Names tree q g → f.same g = false) →
          (files.map Path.components).Nodup) := by
  have hsub := sublist_dropRepeats (candidates tree settings paths)
  refine ⟨_, run_collect settings hpaths, ?_, ?_, nodup_dropRepeats_iff _, ?_⟩
  · exact fun f hf => mem_candidates_iff.mp (hsub.mem hf)
  · intro path hpath f hnames hexcluded
    exact exists_same_of_mem _ (mem_candidates_iff.mpr ⟨⟨path, hpath, hnames⟩, hexcluded⟩)
  · intro hproper hdiffer
    exact (hsub.map Path.components).nodup (nodup_candidates hproper settings hdiffer)

/-- A directory and a file beside it are collected, each file once. -/
theorem collect_exact_directory :
    let entries : List (String × FileTree) :=
      [("a.sql", .file []), ("b.md", .file []), ("c", .directory [("d.sql", .file [])])]
    let tree : FileTree := .directory [("q", .directory entries), ("e.sql", .file [])]
    (∀ path ∈ [⟨"q"⟩, ⟨"e.sql"⟩], tree.IsThere path) ∧
      ∃ files,
        (collect FileTree.disk .default [⟨"q"⟩, ⟨"e.sql"⟩]).run tree = (.ok files, tree) ∧
          (∃ g ∈ files, g.same ⟨"q/c/d.sql"⟩ = true) ∧ (files.map Path.components).Nodup := by
  intro entries tree
  have hq : tree.follow ⟨"q"⟩ = .ok (.directory entries) := by rfl
  have he : tree.follow ⟨"e.sql"⟩ = .ok (.file []) := by rfl
  have hthere : ∀ path ∈ [⟨"q"⟩, ⟨"e.sql"⟩], tree.IsThere path := by
    simpa using ⟨⟨_, hq⟩, ⟨_, he⟩⟩
  obtain ⟨files, hrun, -, hall, -, hnodup⟩ := collect_exact .default hthere
  refine ⟨hthere, files, hrun, hall ⟨"q"⟩ (by simp) _ ?_ (by decide +kernel), ?_⟩
  · have hfile : HasFile (.directory entries) (["c"] ++ ["d.sql"]) :=
      mem_files_iff.mp (by simp [entries, FileTree.files, filesIn])
    exact .below hq hfile ⟨['d'], by simp, by decide +kernel⟩
  · have hproper : tree.IsProper := by
      refine .directory (by decide +kernel) (by decide +kernel) ?_
      simp only [List.forall_mem_cons]
      refine ⟨.directory (by decide +kernel) (by decide +kernel) ?_, .file [], by simp⟩
      simp only [entries, List.forall_mem_cons]
      refine ⟨.file [], .file [], .directory (by decide +kernel) (by decide +kernel) ?_, by simp⟩
      simp [IsProper.file]
    have hdiffer : ∀ way ∈ FileTree.files (.directory entries),
        (way.foldl Path.join ⟨"q"⟩).same ⟨"e.sql"⟩ = false := by
      simp only [entries, FileTree.files, filesIn]
      decide +kernel
    refine hnodup hproper (List.pairwise_pair.mpr fun f g hf hg => ?_)
    simp only [← mem_namedIn_iff, namedIn, hq, he, List.mem_singleton] at hf hg
    obtain ⟨way, hway, -, rfl⟩ := mem_below_iff.mp hf
    rw [hg]
    exact hdiffer way hway

/-- Three files are collected where there are two. -/
theorem exists_collect_repeated :
    ∃ (tree : FileTree) (settings : Settings) (paths files : List Path),
      tree.IsProper ∧ (∀ path ∈ paths, tree.IsThere path) ∧
        (collect FileTree.disk settings paths).run tree = (.ok files, tree) ∧
          ¬ (files.map Path.components).Nodup := by
  let tree : FileTree := .directory [("a.sql", .file []), ("b.sql", .file [])]
  let paths : List Path := [⟨"a.sql"⟩, ⟨"b.sql"⟩, ⟨"a.sql"⟩]
  have ha : tree.follow ⟨"a.sql"⟩ = .ok (.file []) := by rfl
  have hb : tree.follow ⟨"b.sql"⟩ = .ok (.file []) := by rfl
  have hthere : ∀ path ∈ paths, tree.IsThere path := by
    simp only [paths, List.forall_mem_cons]
    exact ⟨⟨_, ha⟩, ⟨_, hb⟩, ⟨_, ha⟩, by simp⟩
  have hfiles : dropRepeats (candidates tree .default paths) = paths := by decide +kernel
  have hproper : tree.IsProper := by
    refine .directory (by decide +kernel) (by decide +kernel) ?_
    simp [IsProper.file]
  refine ⟨tree, .default, paths, paths, hproper, hthere, ?_, by decide +kernel⟩
  rw [run_collect _ hthere, hfiles]

end QueryFile

end TypedSql
