import TypedSql.Annotation
import TypedSql.Proofs.Comment.Lines
import TypedSql.Proofs.Settings.Namespace

/-!
# Annotations that are written and read back

An annotation is written as the lines of its documentation and one line that names the query.
`Annotation.IsPrintable.ofGroup_of_lines` reads it back from a comment group that gives these lines.
-/

namespace TypedSql

namespace Annotation

/-- The line that names a query. -/
def line (a : Annotation) : String :=
  "name: " ++ a.name ++ " " ++ a.kind.marker ++ (a.protoType.map (" proto-type=" ++ ·)).getD ""

/-- The lines of the comment in front of a query. -/
def lines (a : Annotation) : List String :=
  a.doc ++ [a.line]

theorem lines_ne_nil (a : Annotation) : a.lines ≠ [] := by
  simp [lines]

/-- An annotation whose parts can be told apart once it is written. -/
structure IsPrintable (a : Annotation) : Prop where
  doc : ∀ line ∈ a.doc, Text.IsTrimmedLine line.toList
  name : Text.IsIdent a.name.toList
  protoType : ∀ value ∈ a.protoType, value.toList ≠ [] ∧ ∀ c ∈ value.toList, Text.isBlank c = false

instance : DecidablePred IsPrintable := fun a =>
  decidable_of_iff ((a.doc.all fun line => decide (Text.IsTrimmedLine line.toList)) = true ∧
      Text.IsIdent a.name.toList ∧
      (a.protoType.all fun v => !v.toList.isEmpty && v.toList.all (!Text.isBlank ·)) = true) <| by
    simp only [List.all_eq_true, decide_eq_true_eq, Option.all_eq_true, Bool.and_eq_true,
      Bool.not_eq_true', List.isEmpty_eq_false_iff]
    exact ⟨fun ⟨h₁, h₂, h₃⟩ => ⟨h₁, h₂, h₃⟩, fun h => ⟨h.doc, h.name, h.protoType⟩⟩

/-- The characters of an option with a value. -/
def optionChars (value : Option String) : List Char :=
  (value.map (" proto-type=" ++ ·)).getD "" |>.toList

theorem toList_line (a : Annotation) :
    a.line.toList = "name: ".toList ++
      (a.name.toList ++ ' ' :: (a.kind.marker.toList ++ optionChars a.protoType)) := by
  simp [line, optionChars]

theorem takeIdent_append {name rest : List Char} (h : Text.IsIdent name)
    (hrest : ∀ c ∈ rest.head?, Text.isWord c = false) :
    takeIdent (name ++ rest) = some (name, rest) := by
  obtain ⟨c, cs, rfl, hc, hcs⟩ := h
  rw [List.cons_append, takeIdent, if_pos hc, Runs.takeWhile_append hcs hrest,
    Runs.dropWhile_append hcs hrest]

theorem isBlank_of_mem_marker (kind : ResultKind) :
    ∀ c ∈ kind.marker.toList, Text.isBlank c = false := by
  have hall : kind.marker.toList.all (!Text.isBlank ·) = true := by
    cases kind <;> rfl
  simpa using hall

theorem takeMarker_append (kind : ResultKind) (rest : List Char) :
    takeMarker (kind.marker.toList ++ rest) = some (kind, rest) := by
  cases kind <;> rfl

theorem skipBlanks_space {s : List Char} (h : ∀ c ∈ s.head?, Text.isBlank c = false) :
    skipBlanks (' ' :: s) = some s := by
  rw [skipBlanks, if_pos (by decide), Text.trimStart_of_head h]

theorem takeOption_optionChars {value : Option String}
    (h : ∀ v ∈ value, v.toList ≠ [] ∧ ∀ c ∈ v.toList, Text.isBlank c = false) :
    takeOption (optionChars value) = some (value.map String.toList) := by
  cases value with
  | none => rfl
  | some v =>
    obtain ⟨hne, hv⟩ := h v rfl
    have hchars : optionChars (some v) = ' ' :: ("proto-type=".toList ++ v.toList) := by
      simp [optionChars]
    have hall : (optionChars (some v)).all Text.isBlank = false := by
      rw [hchars]
      rfl
    have hvalue : (v.toList.takeWhile fun c => !Text.isBlank c) = v.toList := by
      rw [List.takeWhile_eq_self_iff]
      intro c hc
      simp [hv c hc]
    have hempty : v.toList.isEmpty = false := by
      rwa [List.isEmpty_eq_false_iff]
    rw [takeOption, hall, hchars, skipBlanks_space (by rintro c ⟨⟩; decide)]
    simp only [Bool.false_eq_true, if_false, Option.bind_eq_bind, Option.bind_some,
      Text.afterStart_append, hvalue, hempty, List.drop_length, List.all_nil, if_true,
      Option.map_some]

theorem isBlank_head_name {name rest : List Char} (h : Text.IsIdent name) :
    ∀ c ∈ (name ++ rest).head?, Text.isBlank c = false := by
  obtain ⟨c, cs, rfl, hc, -⟩ := h
  rintro d ⟨⟩
  exact Text.isBlank_of_isWord (Text.isWord_of_isIdentStart hc)

theorem ofLine?_line {a : Annotation} (h : a.IsPrintable) :
    ofLine? a.line = some (a.name, a.kind, a.protoType) := by
  have hname : Text.afterStart "name:".toList a.line.toList =
      some (' ' :: (a.name.toList ++
        ' ' :: (a.kind.marker.toList ++ optionChars a.protoType))) := by
    rw [toList_line]
    rfl
  have hmarker : ∀ c ∈ (a.kind.marker.toList ++ optionChars a.protoType).head?,
      Text.isBlank c = false := by
    cases a.kind <;> (rintro c ⟨⟩; decide)
  rw [ofLine?, hname]
  simp only [Option.bind_eq_bind, Option.bind_some]
  rw [Text.trimStart_cons (by decide), Text.trimStart_of_head (isBlank_head_name h.name),
    takeIdent_append h.name (by rintro c ⟨⟩; decide), Option.bind_some, skipBlanks_space hmarker,
    Option.bind_some, takeMarker_append, Option.bind_some, takeOption_optionChars h.protoType]
  simp [Function.comp_def]

/-- What a written annotation ends with: its marker or the value of its option. -/
theorem exists_line_eq_append {a : Annotation} (h : a.IsPrintable) :
    ∃ front last, a.line.toList = front ++ last ∧ last ≠ [] ∧
      ∀ c ∈ last, Text.isBlank c = false := by
  rw [toList_line]
  cases hv : a.protoType with
  | none =>
    refine ⟨"name: ".toList ++ (a.name.toList ++ [' ']), a.kind.marker.toList,
      by simp [optionChars], ?_, isBlank_of_mem_marker a.kind⟩
    cases a.kind <;> decide
  | some v =>
    obtain ⟨hne, hblank⟩ := h.protoType v hv
    refine ⟨"name: ".toList ++ (a.name.toList ++ ' ' :: (a.kind.marker.toList ++
      " proto-type=".toList)), v.toList, by simp [optionChars], hne, hblank⟩

theorem isTrimmedLine_line {a : Annotation} (h : a.IsPrintable) :
    Text.IsTrimmedLine a.line.toList where
  ne := by
    rw [toList_line]
    exact List.cons_ne_nil _ _
  trim := by
    apply Text.trim_of_ends
    · rw [toList_line]
      rintro c ⟨⟩
      decide
    · obtain ⟨front, last, heq, hne, hlast⟩ := exists_line_eq_append h
      intro c hc
      rw [heq, List.getLast?_append_of_ne_nil _ hne] at hc
      exact hlast c (List.mem_of_getLast? hc)
  newline := by
    have hblank : Text.isBlank '\n' = true := by decide
    have hmarker : '\n' ∉ a.kind.marker.toList := by
      cases a.kind <;> decide
    have hname : '\n' ∉ a.name.toList := by
      intro hc
      have hword := h.name.isWord hc
      contradiction
    have hoption : '\n' ∉ optionChars a.protoType := by
      cases hv : a.protoType with
      | none => simp [optionChars]
      | some v =>
        have hvalue : '\n' ∉ v.toList := by
          intro hc
          rw [(h.protoType v hv).2 _ hc] at hblank
          contradiction
        simp [optionChars, hvalue]
    rw [toList_line]
    simp [hname, hmarker, hoption]

theorem IsPrintable.isTrimmedLine_of_mem_lines {a : Annotation} (h : a.IsPrintable) :
    ∀ line ∈ a.lines, Text.IsTrimmedLine line.toList := by
  intro line hline
  rcases List.mem_append.mp hline with hline | hline
  · exact h.doc line hline
  · obtain rfl := List.mem_singleton.mp hline
    exact isTrimmedLine_line h

/-- An annotation is read from the last line of a group, and the lines in front are its doc. -/
theorem ofGroup_eq_ok_iff {g : CommentGroup} {a : Annotation} :
    ofGroup g = .ok a ↔
      ∃ line, g.lines = a.doc ++ [line] ∧ ofLine? line = some (a.name, a.kind, a.protoType) := by
  constructor
  · intro h
    unfold ofGroup at h
    simp only at h
    split at h
    · next name kind protoType hread =>
      obtain rfl := Except.ok.inj h
      have hempty : ofLine? "" = none := rfl
      have hne : g.lines ≠ [] := by
        intro hnil
        rw [hnil, List.getLast?_nil, Option.getD_none, hempty] at hread
        contradiction
      rw [List.getLast?_eq_some_getLast hne] at hread
      exact ⟨_, (List.dropLast_append_getLast hne).symm, hread⟩
    · contradiction
  · rintro ⟨line, hlines, hread⟩
    rw [ofGroup, hlines, List.getLast?_concat, List.dropLast_concat]
    simp only [Option.getD_some, hread]

/-- A written annotation is read back. -/
theorem IsPrintable.ofGroup_of_lines {a : Annotation} {g : CommentGroup} (h : a.IsPrintable)
    (hg : g.lines = a.lines) : ofGroup g = .ok a := by
  have hlast : g.lines.getLast?.getD "" = a.line := by
    rw [hg, lines, List.getLast?_concat]
    rfl
  have hdoc : g.lines.dropLast = a.doc := by
    rw [hg, lines, List.dropLast_concat]
  simp only [ofGroup, hlast, hdoc, ofLine?_line h]

end Annotation

end TypedSql
