import TypedSql.Proofs.Annotation.Print
import TypedSql.Proofs.QueryFile.Errors

/-!
# The grammar of annotations

An annotation line is `name:`, blanks, an identifier, blanks, a marker and perhaps blanks, a
`proto-type=` and a value. A line that is cut into these parts is a `Layout`; only the blanks
behind the colon may be missing. A line has at most one layout (`Layout.chars_inj`), and reading a
line without blanks at its end finds it (`ofLine?_eq_some_iff`). The lines of a comment group have
no blanks at their ends, so the annotation of a group is read exactly where its last line has a
layout (`ofGroup_exact`); any other last line is an error at the last comment.
-/

namespace TypedSql

namespace CommentGroup

/-- The lines of a group do not end with a blank. -/
theorem isBlank_getLast?_of_mem_lines {g : CommentGroup} {line : String} (h : line ∈ g.lines) :
    ∀ c ∈ line.toList.getLast?, Text.isBlank c = false := by
  rw [lines, List.mem_flatMap] at h
  obtain ⟨text, -, hline⟩ := h
  obtain ⟨l, -, rfl⟩ := List.mem_map.mp hline
  rw [String.toList_ofList]
  exact Text.isBlank_getLast?_trim l

theorem comments_ne_nil_of_lines {g : CommentGroup} (h : g.lines ≠ []) : g.comments ≠ [] := by
  intro hnil
  apply h
  simp [lines, hnil]

end CommentGroup

namespace Annotation

/-- Blanks that part two words: at least one. -/
structure Gap where
  chars : List Char
  ne : chars ≠ []
  blank : ∀ c ∈ chars, Text.isBlank c = true

/-- An option as it is written behind a marker. -/
structure OptionLayout where
  gap : Gap
  value : List Char
  ne : value ≠ []
  solid : ∀ c ∈ value, Text.isBlank c = false

/-- A line cut into the parts of an annotation. -/
structure Layout where
  /-- What stands behind the colon: blanks, or nothing. -/
  lead : List Char
  blank : ∀ c ∈ lead, Text.isBlank c = true
  name : List Char
  ident : Text.IsIdent name
  gap : Gap
  kind : ResultKind
  option : Option OptionLayout

@[ext] theorem Gap.ext {g g' : Gap} (h : g.chars = g'.chars) : g = g' := by
  cases g
  cases g'
  congr

namespace Gap

variable {p : Char → Bool} {rest : List Char}

/-- What begins with a gap begins with a blank. -/
theorem isBlank_head? (g : Gap) : ∀ c ∈ (g.chars ++ rest).head?, Text.isBlank c = true := by
  intro c hc
  rw [List.head?_append_of_ne_nil _ g.ne] at hc
  exact g.blank c (List.mem_of_mem_head? hc)

theorem skipBlanks_append (g : Gap) (h : ∀ c ∈ rest.head?, Text.isBlank c = false) :
    skipBlanks (g.chars ++ rest) = some rest := by
  obtain ⟨c, cs, hcs⟩ := List.exists_cons_of_ne_nil g.ne
  have hblank := g.blank
  rw [hcs, List.forall_mem_cons] at hblank
  rw [hcs, List.cons_append, skipBlanks, if_pos hblank.1, Text.trimStart,
    Runs.dropWhile_append hblank.2 h]

/-- Blanks that can be skipped are a gap. -/
theorem exists_of_skipBlanks {s : List Char} (h : skipBlanks s = some rest) :
    ∃ g : Gap, s = g.chars ++ rest := by
  cases s with
  | nil => contradiction
  | cons c s =>
    rw [skipBlanks] at h
    split at h
    · next hc =>
      obtain rfl := Option.some.inj h
      refine ⟨⟨c :: s.takeWhile Text.isBlank, List.cons_ne_nil _ _, ?_⟩, ?_⟩
      · rintro d (_ | ⟨_, hd⟩)
        · exact hc
        · exact List.mem_takeWhile_imp hd
      · show c :: s = c :: (s.takeWhile Text.isBlank ++ Text.trimStart s)
        rw [Text.takeWhile_append_trimStart]
    · contradiction

end Gap

/-- The text of an option, or nothing. -/
def OptionLayout.chars : Option OptionLayout → List Char
  | none => []
  | some o => o.gap.chars ++ ("proto-type=".toList ++ o.value)

namespace Layout

/-- The line that is cut into the parts. -/
def chars (l : Layout) : List Char :=
  "name:".toList ++ (l.lead ++ (l.name ++ (l.gap.chars ++
    (l.kind.marker.toList ++ OptionLayout.chars l.option))))

/-- The line as a text. -/
def text (l : Layout) : String :=
  String.ofList l.chars

/-- The value of the option. -/
def value (l : Layout) : Option String :=
  l.option.map fun o => String.ofList o.value

/-- What the line says, behind lines of documentation. -/
def annotation (l : Layout) (doc : List String) : Annotation :=
  ⟨String.ofList l.name, l.kind, l.value, doc⟩

end Layout

theorem isBlank_head?_marker (kind : ResultKind) (rest : List Char) :
    ∀ c ∈ (kind.marker.toList ++ rest).head?, Text.isBlank c = false := by
  cases kind <;> (rintro c ⟨⟩; decide)

theorem isWord_of_isBlank {c : Char} (h : Text.isBlank c = true) : Text.isWord c = false := by
  cases hw : Text.isWord c with
  | false => rfl
  | true =>
    have hsolid := Text.isBlank_of_isWord hw
    simp [h] at hsolid

/-- A gap ends the identifier in front of it. -/
theorem isWord_head?_gap (g : Gap) (rest : List Char) :
    ∀ c ∈ (g.chars ++ rest).head?, Text.isWord c = false := by
  intro c hc
  exact isWord_of_isBlank (g.isBlank_head? c hc)

namespace OptionLayout

theorem takeOption_chars (o : Option OptionLayout) :
    takeOption (chars o) = some (o.map OptionLayout.value) := by
  cases o with
  | none => rfl
  | some o =>
    have hkey : ∀ c ∈ ("proto-type=".toList ++ o.value).head?, Text.isBlank c = false := by
      rintro c ⟨⟩
      decide
    have hall : (chars (some o)).all Text.isBlank = false := by
      rw [List.all_eq_false]
      exact ⟨'p', by simp [chars], by decide⟩
    have hvalue : (o.value.takeWhile fun c => !Text.isBlank c) = o.value := by
      rw [List.takeWhile_eq_self_iff]
      intro c hc
      simp [o.solid c hc]
    have hempty : o.value.isEmpty = false := by
      rw [List.isEmpty_eq_false_iff]
      exact o.ne
    rw [takeOption, hall, chars, o.gap.skipBlanks_append hkey]
    simp only [Bool.false_eq_true, if_false, Option.bind_eq_bind, Option.bind_some,
      Text.afterStart_append, hvalue, hempty, List.drop_length, List.all_nil, if_true,
      Option.map_some]

/-- An option that is read from a text without blanks at its end is written there. -/
theorem exists_of_takeOption {s : List Char} {value : Option (List Char)}
    (h : takeOption s = some value) (hs : ∀ c ∈ s.getLast?, Text.isBlank c = false) :
    ∃ o : Option OptionLayout, s = chars o ∧ o.map OptionLayout.value = value := by
  rw [takeOption] at h
  split at h
  · next hall =>
    obtain rfl := Option.some.inj h
    exact ⟨none, Runs.eq_nil_of_getLast? (List.all_eq_true.mp hall) hs, rfl⟩
  · simp only [Option.bind_eq_bind, Option.bind_eq_some_iff] at h
    obtain ⟨afterGap, hgap, afterKey, hkey, h⟩ := h
    obtain ⟨gap, rfl⟩ := Gap.exists_of_skipBlanks hgap
    obtain rfl := Text.eq_append_of_afterStart hkey
    obtain ⟨run, rest, rfl, hrun, hrest⟩ :=
      Runs.exists_eq_append (fun c => !Text.isBlank c) afterKey
    rw [Runs.takeWhile_append hrun hrest, List.drop_left] at h
    split at h
    · contradiction
    next hne =>
    split at h
    · next hblank =>
      obtain rfl := Option.some.inj h
      have hnil : rest = [] := by
        apply Runs.eq_nil_of_getLast? (List.all_eq_true.mp hblank)
        intro c hc
        apply hs c
        rw [← List.append_assoc, ← List.append_assoc]
        exact List.mem_getLast?_append_of_mem_getLast? hc
      subst hnil
      rw [List.isEmpty_iff] at hne
      refine ⟨some ⟨gap, run, hne, ?_⟩, ?_, rfl⟩
      · intro c hc
        simpa using hrun c hc
      · rw [chars, List.append_nil]
    · contradiction

theorem chars_inj {o o' : Option OptionLayout} (h : chars o = chars o') : o = o' := by
  have hkey : ∀ value : List Char, ∀ c ∈ ("proto-type=".toList ++ value).head?,
      Text.isBlank c = false := by
    rintro value c ⟨⟩
    decide
  cases o with
  | none =>
    cases o' with
    | none => rfl
    | some o' => exact absurd (List.append_eq_nil_iff.mp h.symm).1 o'.gap.ne
  | some o =>
    cases o' with
    | none => exact absurd (List.append_eq_nil_iff.mp h).1 o.gap.ne
    | some o' =>
      obtain ⟨hgap, hrest⟩ := Runs.append_inj o.gap.blank (hkey _) o'.gap.blank (hkey _) h
      cases o
      cases o'
      simp only [Option.some.injEq, mk.injEq]
      exact ⟨Gap.ext hgap, List.append_cancel_left hrest⟩

end OptionLayout

namespace Layout

theorem toList_text (l : Layout) : l.text.toList = l.chars :=
  String.toList_ofList

/-- A line has at most one layout. -/
theorem chars_inj {l l' : Layout} (h : l.chars = l'.chars) : l = l' := by
  have hhead := List.append_cancel_left h
  obtain ⟨hlead, hname⟩ := Runs.append_inj l.blank (isBlank_head_name l.ident) l'.blank
    (isBlank_head_name l'.ident) hhead
  obtain ⟨hname, hgap⟩ := Runs.append_inj (fun _ => l.ident.isWord) (isWord_head?_gap _ _)
    (fun _ => l'.ident.isWord) (isWord_head?_gap _ _) hname
  obtain ⟨hgap, hmarker⟩ := Runs.append_inj l.gap.blank (isBlank_head?_marker _ _) l'.gap.blank
    (isBlank_head?_marker _ _) hgap
  have htake := congrArg takeMarker hmarker
  rw [takeMarker_append, takeMarker_append] at htake
  obtain ⟨hkind, hoption⟩ := Prod.ext_iff.mp (Option.some.inj htake)
  cases l
  cases l'
  simp only [mk.injEq]
  exact ⟨hlead, hname, Gap.ext hgap, hkind, OptionLayout.chars_inj hoption⟩

theorem text_inj {l l' : Layout} (h : l.text = l'.text) : l = l' :=
  chars_inj (String.ofList_injective h)

/-- A line that is laid out as an annotation is read as one. -/
theorem ofLine?_text (l : Layout) :
    ofLine? l.text = some (String.ofList l.name, l.kind, l.value) := by
  rw [ofLine?, toList_text, chars, Text.afterStart_append]
  simp only [Option.bind_eq_bind, Option.bind_some]
  rw [Text.trimStart, Runs.dropWhile_append l.blank (isBlank_head_name l.ident),
    takeIdent_append l.ident (isWord_head?_gap _ _), Option.bind_some,
    l.gap.skipBlanks_append (isBlank_head?_marker _ _), Option.bind_some, takeMarker_append,
    Option.bind_some, OptionLayout.takeOption_chars, Option.bind_some, Option.map_map]
  rfl

end Layout

theorem exists_of_takeIdent {s name rest : List Char} (h : takeIdent s = some (name, rest)) :
    Text.IsIdent name ∧ s = name ++ rest := by
  cases s with
  | nil => contradiction
  | cons c s =>
    rw [takeIdent] at h
    split at h
    · next hc =>
      cases h
      refine ⟨⟨c, _, rfl, hc, fun d hd => List.mem_takeWhile_imp hd⟩, ?_⟩
      rw [List.cons_append, List.takeWhile_append_dropWhile]
    · contradiction

theorem eq_append_of_takeMarker {s rest : List Char} {kind : ResultKind}
    (h : takeMarker s = some (kind, rest)) : s = kind.marker.toList ++ rest := by
  obtain ⟨k, -, hk⟩ := List.exists_of_findSome?_eq_some h
  obtain ⟨r, hr, heq⟩ := Option.map_eq_some_iff.mp hk
  cases heq
  exact Text.eq_append_of_afterStart hr

/-- An annotation that is read from a line without blanks at its end is laid out there. -/
theorem exists_layout_of_ofLine? {line name : String} {kind : ResultKind} {value : Option String}
    (h : ofLine? line = some (name, kind, value))
    (hline : ∀ c ∈ line.toList.getLast?, Text.isBlank c = false) :
    ∃ l : Layout,
      l.text = line ∧ (String.ofList l.name, l.kind, l.value) = (name, kind, value) := by
  simp only [ofLine?, Option.bind_eq_bind, Option.bind_eq_some_iff, Option.some.injEq] at h
  obtain ⟨afterName, hname, ⟨ident, afterIdent⟩, hident, afterGap, hgap, ⟨marker, afterMarker⟩,
    hmarker, option, hoption, hparts⟩ := h
  obtain ⟨hisIdent, hafterName⟩ := exists_of_takeIdent hident
  obtain ⟨gap, rfl⟩ := Gap.exists_of_skipBlanks hgap
  obtain rfl := eq_append_of_takeMarker hmarker
  have hafter := Text.takeWhile_append_trimStart afterName
  rw [hafterName] at hafter
  have hchars := Text.eq_append_of_afterStart hname
  rw [← hafter] at hchars
  have hlast : ∀ c ∈ afterMarker.getLast?, Text.isBlank c = false := by
    intro c hc
    apply hline c
    rw [hchars]
    repeat' apply List.mem_getLast?_append_of_mem_getLast?
    exact hc
  obtain ⟨o, rfl, rfl⟩ := OptionLayout.exists_of_takeOption hoption hlast
  refine ⟨⟨afterName.takeWhile Text.isBlank, fun c hc => List.mem_takeWhile_imp hc, ident, hisIdent,
    gap, marker, o⟩, ?_, ?_⟩
  · rw [Layout.text, ← String.ofList_toList (s := line), hchars]
    rfl
  · rw [← hparts, Option.map_map]
    rfl

/-- A line without blanks at its end is read as the annotation whose layout it has. -/
theorem ofLine?_eq_some_iff {line : String} {parts : String × ResultKind × Option String}
    (hline : ∀ c ∈ line.toList.getLast?, Text.isBlank c = false) :
    ofLine? line = some parts ↔
      ∃ l : Layout, l.text = line ∧ (String.ofList l.name, l.kind, l.value) = parts := by
  constructor
  · intro h
    exact exists_layout_of_ofLine? h hline
  · rintro ⟨l, rfl, rfl⟩
    exact l.ofLine?_text

variable {g : CommentGroup}

theorem ofGroup_of_ofLine?_eq_none {line : String} (h : g.lines.getLast? = some line)
    (hnone : ofLine? line = none) : ofGroup g = .error (.of g.lastPos (fault line)) := by
  rw [ofGroup, h]
  simp only [Option.getD_some, hnone]

/-- The code of a last line that is no annotation says whether it starts like one. -/
theorem code_fault (line : String) :
    (fault line).code = if "name:".toList <+: line.toList then DiagnosticCode.parseAnnotationInvalid
      else DiagnosticCode.parseAnnotationMissing := by
  simp only [fault, List.isPrefixOf_iff_prefix]
  split <;> rfl

/-- The annotation of a group of comments is read exactly where the last line is laid out as one.
There is one such layout, and it gives the name, the kind and the option; the lines in front are
the documentation. Any other last line is an error at the last comment. -/
theorem ofGroup_exact (g : CommentGroup) (h : g.lines ≠ []) :
    (∀ a, ofGroup g = .ok a ↔
      ∃ l : Layout, l.text = g.lines.getLast h ∧ a = l.annotation g.lines.dropLast) ∧
    (∀ l l' : Layout, l.text = g.lines.getLast h → l'.text = g.lines.getLast h → l = l') ∧
    ((∀ l : Layout, l.text ≠ g.lines.getLast h) → ∃ last e, g.comments.getLast? = some last ∧
      ofGroup g = .error e ∧ e.pos = last.pos ∧
      e.code = if "name:".toList <+: (g.lines.getLast h).toList
        then DiagnosticCode.parseAnnotationInvalid else DiagnosticCode.parseAnnotationMissing) := by
  have hline := List.getLast?_eq_some_getLast h
  have hsolid := CommentGroup.isBlank_getLast?_of_mem_lines (List.getLast_mem h)
  refine ⟨fun a => ?_, fun l l' hl hl' => Layout.text_inj (hl.trans hl'.symm), fun hl => ?_⟩
  · rw [ofGroup_eq_ok_iff]
    constructor
    · rintro ⟨line, hlines, hread⟩
      have hlast : g.lines.getLast h = line := by
        simp only [hlines, List.getLast_concat]
      rw [← hlast, ofLine?_eq_some_iff hsolid] at hread
      obtain ⟨l, htext, hparts⟩ := hread
      obtain ⟨hname, hkind, hvalue⟩ := by simpa only [Prod.mk.injEq] using hparts
      refine ⟨l, htext, ?_⟩
      rw [Layout.annotation, hname, hkind, hvalue, hlines, List.dropLast_concat]
    · rintro ⟨l, htext, rfl⟩
      exact ⟨_, (List.dropLast_append_getLast h).symm, htext ▸ l.ofLine?_text⟩
  · have hnone : ofLine? (g.lines.getLast h) = none := by
      rw [Option.eq_none_iff_forall_ne_some]
      intro parts hparts
      obtain ⟨l, htext, -⟩ := (ofLine?_eq_some_iff hsolid).mp hparts
      exact hl l htext
    have hne := CommentGroup.comments_ne_nil_of_lines h
    exact ⟨_, _, List.getLast?_eq_some_getLast hne, ofGroup_of_ofLine?_eq_none hline hnone,
      CommentGroup.lastPos_eq hne, code_fault _⟩

/-- The annotation below a paragraph break of a block comment, with a tab, two spaces and a no-break
space between its parts. -/
theorem ofGroup_exact_blockComment :
    let g := CommentGroup.mk
      [⟨.blockComment, "/* Finds one.\n\n name:\tFindOne  :one\u00a0proto-type=x.Y */", .start⟩]
    g.lines ≠ [] ∧
      ofGroup g = .ok ⟨"FindOne", .one, some "x.Y", ["Finds one.", ""]⟩ := by
  intro g
  have hlines : g.lines = ["Finds one.", "", "name:\tFindOne  :one\u00a0proto-type=x.Y"] := by
    decide +kernel
  have hne : g.lines ≠ [] := by
    rw [hlines]
    exact List.cons_ne_nil _ _
  have hsolid : ∀ c ∈ ['x', '.', 'Y'], Text.isBlank c = false := by
    simp only [List.forall_mem_cons]
    exact ⟨rfl, rfl, rfl, List.forall_mem_nil _⟩
  let l : Layout :=
    { lead := ['\t'], blank := List.all_eq_true.mp rfl
      name := "FindOne".toList, ident := by decide
      gap := ⟨[' ', ' '], by decide, List.all_eq_true.mp rfl⟩
      kind := .one
      option := some ⟨⟨['\u00a0'], by decide, List.all_eq_true.mp rfl⟩, ['x', '.', 'Y'], by decide,
        hsolid⟩ }
  refine ⟨hne, ((ofGroup_exact g hne).1 _).mpr ⟨l, ?_, ?_⟩⟩
  · simp only [hlines]
    cbv
  · rw [hlines]
    rfl

end Annotation

end TypedSql
