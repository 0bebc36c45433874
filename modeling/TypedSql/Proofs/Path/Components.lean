import TypedSql.Path
import TypedSql.Proofs.Text.Pieces

/-!
# Components of a path

A slash at the end of a path makes no component, and a name behind it makes one. The components of
the path to a file below a directory are therefore those of the directory and the names on the way
to the file (`Path.components_foldl_join`), however the path to the directory is written.
-/

namespace TypedSql

namespace Path

/-- A name that can stand in a directory. -/
structure IsName (name : String) : Prop where
  ne_empty : name ≠ ""
  ne_here : name ≠ "."
  ne_up : name ≠ ".."
  no_slash : '/' ∉ name.toList

instance (name : String) : Decidable (IsName name) :=
  decidable_of_iff (name ≠ "" ∧ name ≠ "." ∧ name ≠ ".." ∧ '/' ∉ name.toList)
    ⟨fun ⟨hempty, hhere, hup, hslash⟩ => ⟨hempty, hhere, hup, hslash⟩,
      fun h => ⟨h.ne_empty, h.ne_here, h.ne_up, h.no_slash⟩⟩

variable {p q : Path} {name : String}

theorem same_iff : p.same q = true ↔ p.components = q.components :=
  beq_iff_eq

theorem componentOf_of_isName (h : IsName name) : componentOf name = some (.name name) := by
  simp [componentOf, h.ne_empty, h.ne_here, h.ne_up]

theorem components_of_isName (h : IsName name) : components ⟨name⟩ = [.name name] := by
  have hsegments : segments ⟨name⟩ = [name] := by
    rw [segments, Text.pieces_of_not_mem h.no_slash, List.map_singleton, String.ofList_toList]
  have habsolute : isAbsolute ⟨name⟩ = false := by
    rw [isAbsolute, decide_eq_false_iff_not]
    exact fun hhead => h.no_slash (List.mem_of_head? hhead)
  simp [components, hsegments, habsolute, componentOf_of_isName h, h.ne_here]

/-- What is behind a slash adds its own component to those in front of it. -/
theorem components_slash (front back : List Char) (hback : '/' ∉ back) :
    components ⟨String.ofList (front ++ '/' :: back)⟩ =
      components ⟨String.ofList (front ++ ['/'])⟩ ++
        (componentOf (String.ofList back)).toList := by
  obtain ⟨first, rest, hpieces⟩ := List.exists_cons_of_ne_nil (Text.pieces_ne_nil '/' front)
  have hsegments (t : List Char) (ht : '/' ∉ t) :
      segments ⟨String.ofList (front ++ '/' :: t)⟩ =
        String.ofList first :: (rest.map String.ofList ++ [String.ofList t]) := by
    rw [segments, String.toList_ofList, Text.pieces_append, hpieces, Text.pieces_of_not_mem ht]
    simp
  have habsolute (t : List Char) :
      isAbsolute ⟨String.ofList (front ++ '/' :: t)⟩ =
        isAbsolute ⟨String.ofList (front ++ ['/'])⟩ := by
    cases front <;> simp [isAbsolute]
  have hempty : componentOf (String.ofList []) = none := rfl
  simp only [components, habsolute back, hsegments back hback, hsegments [] (by simp)]
  have hsteps (t : List Char) :
      (String.ofList first :: (rest.map String.ofList ++ [String.ofList t])).filterMap componentOf =
        (String.ofList first :: rest.map String.ofList).filterMap componentOf ++
          (componentOf (String.ofList t)).toList := by
    rw [← List.cons_append, List.filterMap_append]
    cases h : componentOf (String.ofList t) <;> simp [h]
  rw [hsteps back, hsteps [], hempty]
  split
  · simp
  · split <;> simp_all

/-- A slash at the end makes no component. -/
theorem components_append_slash {front : List Char} (h : front ≠ []) :
    components ⟨String.ofList (front ++ ['/'])⟩ = components ⟨String.ofList front⟩ := by
  obtain ⟨c, front, rfl⟩ := List.exists_cons_of_ne_nil h
  obtain ⟨first, rest, hpieces⟩ := List.exists_cons_of_ne_nil (Text.pieces_ne_nil '/' (c :: front))
  have hslash : segments ⟨String.ofList (c :: front ++ ['/'])⟩ =
      String.ofList first :: (rest.map String.ofList ++ [""]) := by
    rw [segments, String.toList_ofList, Text.pieces_append, hpieces]
    simp [Text.pieces]
  have hsegments : segments ⟨String.ofList (c :: front)⟩ =
      String.ofList first :: rest.map String.ofList := by
    rw [segments, String.toList_ofList, hpieces]
    rfl
  have habsolute : isAbsolute ⟨String.ofList (c :: front ++ ['/'])⟩ =
      isAbsolute ⟨String.ofList (c :: front)⟩ := by
    simp [isAbsolute]
  have hempty : componentOf "" = none := rfl
  simp only [components, habsolute, hslash, hsegments]
  rw [← List.cons_append, List.filterMap_append]
  simp [hempty]

/-- A name inside a directory is one more component. -/
theorem components_join (p : Path) (h : IsName name) :
    (p.join name).components = p.components ++ [.name name] := by
  obtain ⟨text⟩ := p
  have hback : (componentOf (String.ofList name.toList)).toList = [.name name] := by
    rw [String.ofList_toList, componentOf_of_isName h, Option.toList_some]
  rcases List.eq_nil_or_concat text.toList with hnil | ⟨front, c, htext⟩
  · obtain rfl : text = "" := String.toList_eq_nil_iff.mp hnil
    have hjoin : join ⟨""⟩ name = ⟨name⟩ := by simp [join]
    rw [hjoin, components_of_isName h]
    rfl
  · rw [List.concat_eq_append] at htext
    have hne : text ≠ "" := by
      rintro rfl
      simp at htext
    have htext' : text = String.ofList (front ++ [c]) := by rw [← htext, String.ofList_toList]
    by_cases hc : c = '/'
    · have hjoin : join ⟨text⟩ name = ⟨String.ofList (front ++ '/' :: name.toList)⟩ := by
        rw [join, if_pos (by simp [htext, hc]), htext', hc]
        congr 1
        rw [← String.toList_inj]
        simp
      rw [hjoin, components_slash front _ h.no_slash, hback, htext', hc]
    · have hjoin : join ⟨text⟩ name = ⟨String.ofList (front ++ [c] ++ '/' :: name.toList)⟩ := by
        rw [join, if_neg (by simp [htext, hc, hne]), htext']
        congr 1
        rw [← String.toList_inj]
        simp
      rw [hjoin, components_slash _ _ h.no_slash, components_append_slash (by simp), hback, htext']

/-- The path along names from a directory has the components of the directory and the names. -/
theorem components_foldl_join (p : Path) {way : List String} (h : ∀ name ∈ way, IsName name) :
    (way.foldl join p).components = p.components ++ way.map .name := by
  induction way generalizing p with
  | nil => exact (List.append_nil _).symm
  | cons name way ih =>
    rw [List.foldl_cons, ih _ fun n hn => h n (List.mem_cons_of_mem name hn),
      components_join p (h name List.mem_cons_self), List.append_assoc]
    rfl

end Path

end TypedSql
