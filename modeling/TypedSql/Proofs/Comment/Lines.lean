import TypedSql.Proofs.QueryFile.Segments
import TypedSql.Proofs.Text.Pieces

/-!
# Comments written line by line

A trimmed line written behind two dashes and a space is the text of its comment. A comment group
whose comments are such lines, one after another, gives the lines back.
-/

namespace TypedSql

namespace Text

/-- A line with some text in it and without blanks around it. -/
structure IsTrimmedLine (line : List Char) : Prop where
  ne : line ≠ []
  trim : Text.trim line = line
  newline : '\n' ∉ line

instance (line : List Char) : Decidable (IsTrimmedLine line) :=
  decidable_of_iff (line ≠ [] ∧ Text.trim line = line ∧ '\n' ∉ line)
    ⟨fun ⟨h₁, h₂, h₃⟩ => ⟨h₁, h₂, h₃⟩, fun h => ⟨h.ne, h.trim, h.newline⟩⟩

/-- A text without a line feed is one line. -/
theorem lines_of_not_mem {s : List Char} (hne : s ≠ []) (h : '\n' ∉ s) : lines s = [s] := by
  obtain ⟨c, s, rfl⟩ := List.exists_cons_of_ne_nil hne
  simp [lines, pieces_of_not_mem h]

end Text

namespace Token

/-- A line of text as a comment. -/
def ofLine (p : Position) (line : String) : Token :=
  ⟨.lineComment, String.ofList ('-' :: '-' :: ' ' :: line.toList), p⟩

/-- Lines of text as comments, each on the line below the one before. -/
def ofLines : Position → List String → List Token
  | _, [] => []
  | p, line :: lines => ofLine p line :: ofLines ((ofLine p line).stop.step '\n') lines

variable {p : Position} {line : String} {lines : List String}

@[simp] theorem kind_ofLine : (ofLine p line).kind = .lineComment := rfl

@[simp] theorem pos_ofLine : (ofLine p line).pos = p := rfl

@[simp] theorem chars_ofLine : (ofLine p line).chars = '-' :: '-' :: ' ' :: line.toList := by
  simp [ofLine, chars]

theorem endLine_ofLine (h : '\n' ∉ line.toList) : (ofLine p line).endLine = p.line := by
  simp [endLine, List.count_eq_zero.mpr h]

theorem commentText_ofLine (h : Text.IsTrimmedLine line.toList) :
    (ofLine p line).commentText = some line := by
  have htrim : Text.trim (' ' :: line.toList) = line.toList := by
    rw [Text.trim, Text.trimStart_cons (by decide), ← Text.trim, h.trim]
  simp [commentText, Text.afterStart, htrim]

/-- The line on which the next of several lines starts. -/
theorem line_step_stop_ofLine (h : '\n' ∉ line.toList) :
    ((ofLine p line).stop.step '\n').line = p.line + 1 := by
  rw [Position.line_step, if_pos rfl, line_stop, endLine_ofLine h]

theorem isChain_ofLines (h : ∀ line ∈ lines, '\n' ∉ line.toList) :
    (ofLines p lines).IsChain (fun t u => CommentGroup.adjoins t u = true) := by
  induction lines generalizing p with
  | nil => exact .nil
  | cons line lines ih =>
    have hline := h line List.mem_cons_self
    have hrest := ih (p := (ofLine p line).stop.step '\n') fun l hl =>
      h l (List.mem_cons_of_mem _ hl)
    cases lines with
    | nil => exact .singleton _
    | cons next lines =>
      apply List.IsChain.cons_cons _ hrest
      simp only [CommentGroup.adjoins, decide_eq_true_eq]
      rw [pos_ofLine, line_step_stop_ofLine hline, endLine_ofLine hline]

theorem getLast?_ofLines (h : ∀ line ∈ lines, '\n' ∉ line.toList) (hne : lines ≠ []) :
    ∃ t, (ofLines p lines).getLast? = some t ∧ t.endLine + 1 = p.line + lines.length := by
  induction lines generalizing p with
  | nil => contradiction
  | cons line lines ih =>
    have hline := h line List.mem_cons_self
    cases lines with
    | nil =>
      refine ⟨ofLine p line, rfl, ?_⟩
      rw [endLine_ofLine hline]
      rfl
    | cons next lines =>
      obtain ⟨t, ht, hend⟩ := ih (p := (ofLine p line).stop.step '\n')
        (fun l hl => h l (List.mem_cons_of_mem _ hl)) (List.cons_ne_nil _ _)
      refine ⟨t, ?_, ?_⟩
      · rw [ofLines, List.getLast?_cons, ht]
        rfl
      · rw [hend, line_step_stop_ofLine hline, List.length_cons (a := line)]
        omega

end Token

namespace CommentGroup

variable {p : Position} {lines : List String}

/-- A group of comments that are lines gives the lines. -/
theorem lines_ofLines (h : ∀ line ∈ lines, Text.IsTrimmedLine line.toList) :
    (CommentGroup.mk (Token.ofLines p lines)).lines = lines := by
  induction lines generalizing p with
  | nil => rfl
  | cons line lines ih =>
    have hline := h line List.mem_cons_self
    have hrest := ih (p := (Token.ofLine p line).stop.step '\n') fun l hl =>
      h l (List.mem_cons_of_mem _ hl)
    rw [CommentGroup.lines] at hrest ⊢
    rw [Token.ofLines, List.filterMap_cons_some (Token.commentText_ofLine hline),
      List.flatMap_cons, hrest, Text.lines_of_not_mem hline.ne hline.newline, List.map_singleton,
      hline.trim, String.ofList_toList, List.singleton_append]

end CommentGroup

end TypedSql
