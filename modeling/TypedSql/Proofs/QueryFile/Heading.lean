import TypedSql.Proofs.Comment.Lines
import TypedSql.Proofs.Settings.Namespace
import TypedSql.Proofs.Token.Lexeme

/-!
# Statements under a heading

A heading is a number of lines, each written as a comment, above the text of a statement. The line
feed behind the last comment is no token of its own when the statement starts with a fragment,
which then takes it in (`Lexeme.behindNewline`). A heading is cut into its lines wherever it stands
(`Scan.Cuts.heading`), and reading it gives the lines as one run of comments and, behind it, the
statement on the next line (`Token.exists_headed`).
-/

namespace TypedSql

namespace Lexeme

/-- The lexemes of a text behind one more line feed. -/
def behindNewline : List Lexeme → List Lexeme
  | ⟨.fragment, cs⟩ :: ls => ⟨.fragment, '\n' :: cs⟩ :: ls
  | ls => ⟨.fragment, ['\n']⟩ :: ls

theorem behindNewline_of_ne {l : Lexeme} {ls : List Lexeme} (h : l.kind ≠ .fragment) :
    behindNewline (l :: ls) = ⟨.fragment, ['\n']⟩ :: l :: ls := by
  unfold behindNewline
  split
  · rename_i heq
    rw [(List.cons.inj heq).1] at h
    contradiction
  · rfl

@[simp] theorem text_behindNewline (ls : List Lexeme) :
    text (behindNewline ls) = '\n' :: text ls := by
  unfold behindNewline
  split <;> rfl

theorem behindNewline_ne_nil (ls : List Lexeme) : behindNewline ls ≠ [] := by
  unfold behindNewline
  split <;> exact List.cons_ne_nil _ _

/-- A line of text as a comment. -/
def ofLine (line : String) : Lexeme :=
  ⟨.lineComment, '-' :: '-' :: ' ' :: line.toList⟩

/-- The lexemes of a text under a heading of several lines. -/
def heading : List String → List Lexeme → List Lexeme
  | [], ls => ls
  | line :: lines, ls => ofLine line :: behindNewline (heading lines ls)

theorem heading_ne_nil {lines : List String} {ls : List Lexeme} (h : ls ≠ []) :
    heading lines ls ≠ [] := by
  cases lines with
  | nil => exact h
  | cons line lines => exact List.cons_ne_nil _ _

theorem text_heading (lines : List String) (ls : List Lexeme) :
    text (heading lines ls) =
      lines.flatMap (fun line => '-' :: '-' :: ' ' :: line.toList ++ ['\n']) ++ text ls := by
  induction lines with
  | nil => rfl
  | cons line lines ih =>
    rw [heading, text_cons, text_behindNewline, ih]
    simp [ofLine]

end Lexeme

namespace Scan.Cuts

variable {ns before after : List Char} {ls : List Lexeme} {lines : List String}

/-- A line feed in front of a text that is cut in a fresh place. -/
theorem behindNewline (hns : ∀ c ∈ ns, Text.isWord c = true) (hne : ns ≠ [])
    (h : Cuts ns [] ls after) (hls : ls ≠ []) :
    Cuts ns before (Lexeme.behindNewline ls) after := by
  have hnewline (cs : List Char) : lexeme ns before '\n' cs =
      (.fragment, fragmentLength ns ('\n' :: before) cs) := by
    rw [lexeme_of_isBlank _ hne (by decide)]
    · rfl
    · intro d hd
      exact Text.isBlank_of_isWord (hns d (List.mem_of_head? hd))
  have hfresh : Fresh ('\n' :: before) := by
    rintro c ⟨⟩
    decide
  obtain ⟨l, ls, rfl⟩ := List.exists_cons_of_ne_nil hls
  have hcuts := h.fresh hfresh
  cases hcuts with
  | @cons _ _ cs c kind _ head tail =>
    have hends : endsFragment ns ('\n' :: before) c (cs ++ (Lexeme.text ls ++ after)) = true ↔
        kind ≠ .fragment := by
      rw [endsFragment_iff hns hne, head]
    by_cases hkind : kind = .fragment
    · subst hkind
      have hlength := length_of_kind_fragment (by rw [head])
      rw [head] at hlength
      apply Cuts.cons
      · rw [hnewline, List.cons_append, fragmentLength, if_neg (by simp [hends]), ← hlength]
        rfl
      · rw [List.reverse_cons, List.append_assoc]
        exact tail
    · rw [Lexeme.behindNewline_of_ne hkind]
      apply Cuts.cons
      · rw [hnewline, List.nil_append, Lexeme.text_cons, List.cons_append, List.cons_append,
          List.append_assoc, fragmentLength, if_pos (hends.mpr hkind)]
        rfl
      · exact .cons head tail

/-- A line of text is a comment up to the line feed behind it. -/
theorem ofLine {line : String} (hns : ∀ c ∈ ns, Text.isWord c = true) (hne : ns ≠ [])
    (hline : '\n' ∉ line.toList) (hfollow : (Lexeme.text ls ++ after).head? = some '\n')
    (h : Cuts ns ((Lexeme.ofLine line).chars.reverse ++ before) ls after) :
    Cuts ns before (Lexeme.ofLine line :: ls) after := by
  apply Cuts.cons _ h
  have hplace (cs : List Char) : placeholderLength ns before ('-' :: cs) = none :=
    placeholderLength_of_not_isWord hns hne (by decide)
  have htake : (('-' :: ' ' :: line.toList) ++ (Lexeme.text ls ++ after)).takeWhile (· != '\n') =
      '-' :: ' ' :: line.toList := by
    apply Runs.takeWhile_append
    · intro c hc
      have hneq : c ≠ '\n' := by
        rintro rfl
        simp [hline] at hc
      simpa using hneq
    · rw [hfollow]
      rintro c ⟨⟩
      decide
  simp only [lexeme, dollarTagLength_of_ne (show '-' ≠ '$' by decide), hplace, htake]
  rfl

/-- A text under a heading is cut into the lines of the heading and the lexemes it is cut into by
itself. -/
theorem heading (hns : ∀ c ∈ ns, Text.isWord c = true) (hne : ns ≠ [])
    (hlines : ∀ line ∈ lines, '\n' ∉ line.toList) (h : Cuts ns [] ls after) (hls : ls ≠ []) :
    Cuts ns [] (Lexeme.heading lines ls) after := by
  induction lines with
  | nil => exact h
  | cons line lines ih =>
    have hrest := ih fun l hl => hlines l (List.mem_cons_of_mem _ hl)
    rw [Lexeme.heading]
    apply ofLine hns hne (hlines line List.mem_cons_self)
    · rw [Lexeme.text_behindNewline]
      rfl
    · exact behindNewline hns hne hrest (Lexeme.heading_ne_nil hls)

end Scan.Cuts

namespace Lexeme

/-- Whether a lexeme can start a statement: it is no comment and starts with no blank. -/
structure IsStart (l : Lexeme) : Prop where
  comment : l.kind.isComment = false
  blank : ∃ c cs, l.chars = c :: cs ∧ Text.isBlank c = false

end Lexeme

namespace Token

/-- What the tokens of a text under a heading are, when they stand from `p` on: first the lines of
the heading, apart from blanks, and then the lexemes of the text, apart from blanks in front. -/
structure Headed (p : Position) (lines : List String) (ls : List Lexeme)
    (trivia body : List Token) : Prop where
  isTrivia : ∀ t ∈ trivia, t.isTrivia = true
  comments : trivia.filter (·.kind.isComment) = ofLines p lines
  statement : ∃ first rest, body = first :: rest ∧ first.isTrivia = false ∧
    first.significantStart.line = p.line + lines.length ∧
    (first.trimStart :: rest).map Token.lexeme = ls

variable {p : Position} {lines : List String} {l : Lexeme} {ls : List Lexeme}

theorem isTrivia_blank (p : Position) {cs : List Char} (h : cs.all Text.isBlank = true) :
    (⟨.fragment, String.ofList cs, p⟩ : Token).isTrivia = true := by
  simpa [isTrivia, isBlank, chars, TokenKind.isComment] using h

/-- A statement on the line below a place. -/
theorem exists_place_behindNewline (p : Position) (ls : List Lexeme) (hl : l.IsStart) :
    ∃ trivia first rest,
      Lexeme.place p (Lexeme.behindNewline (l :: ls)) = trivia ++ first :: rest ∧
      (∀ t ∈ trivia, t.isTrivia = true ∧ t.kind.isComment = false) ∧ first.isTrivia = false ∧
      first.significantStart.line = p.line + 1 ∧
      (first.trimStart :: rest).map Token.lexeme = l :: ls := by
  obtain ⟨kind, chars⟩ := l
  obtain ⟨hcomment, c, cs, hchars, hc⟩ := hl
  simp only at hcomment hchars
  subst hchars
  by_cases hkind : kind = .fragment
  · subst hkind
    have hnewline : Text.isBlank '\n' = true := by decide
    refine ⟨[], ⟨.fragment, String.ofList ('\n' :: c :: cs), p⟩, _, rfl, by simp, ?_, ?_, ?_⟩
    · simp [isTrivia, isBlank, Token.chars, hc, TokenKind.isComment]
    · simp [significantStart, Token.chars, hc, hnewline]
    · simp [trimStart, lexeme, Token.chars, Text.trimStart, hc, hnewline]
  · have hfragment : (kind == .fragment) = false := beq_eq_false_iff_ne.mpr hkind
    rw [Lexeme.behindNewline_of_ne hkind]
    refine ⟨[⟨.fragment, String.ofList ['\n'], p⟩],
      ⟨kind, String.ofList (c :: cs), p.advance ['\n']⟩, _, rfl, ?_, ?_, ?_, ?_⟩
    · intro t ht
      obtain rfl := List.mem_singleton.mp ht
      exact ⟨isTrivia_blank p (by decide), rfl⟩
    · simp [isTrivia, isBlank, hcomment, hfragment]
    · rw [significantStart_of_ne hkind]
      simp
    · rw [trimStart_of_ne hkind]
      simp [lexeme, Token.chars]

/-- A statement under a heading. -/
theorem exists_headed (p : Position) (ls : List Lexeme) (hne : lines ≠ [])
    (hlines : ∀ line ∈ lines, '\n' ∉ line.toList) (hl : l.IsStart) :
    ∃ trivia body, Lexeme.place p (Lexeme.heading lines (l :: ls)) = trivia ++ body ∧
      Headed p lines (l :: ls) trivia body := by
  induction lines generalizing p with
  | nil => contradiction
  | cons line lines ih =>
    have hline := hlines line List.mem_cons_self
    have hplace (ms : List Lexeme) : Lexeme.place p (Lexeme.ofLine line :: ms) =
        ofLine p line :: Lexeme.place (ofLine p line).stop ms := by
      rw [Lexeme.place, stop, chars_ofLine]
      rfl
    have hcomment : (ofLine p line).isTrivia = true := rfl
    rw [Lexeme.heading, hplace]
    cases lines with
    | nil =>
      obtain ⟨trivia, first, rest, heq, htrivia, hfirst, hstart, hrest⟩ :=
        exists_place_behindNewline (ofLine p line).stop ls hl
      refine ⟨ofLine p line :: trivia, first :: rest, by rw [Lexeme.heading, heq]; rfl, ?_, ?_, ?_⟩
      · intro t ht
        rcases List.mem_cons.mp ht with rfl | ht
        · exact hcomment
        · exact (htrivia t ht).1
      · have hnone : trivia.filter (·.kind.isComment) = [] := by
          rw [List.filter_eq_nil_iff]
          intro t ht
          simp [(htrivia t ht).2]
        rw [List.filter_cons_of_pos rfl, hnone]
        rfl
      · refine ⟨first, rest, rfl, hfirst, ?_, hrest⟩
        rw [hstart, line_stop, endLine_ofLine hline]
        rfl
    | cons next lines =>
      obtain ⟨trivia, body, heq, h⟩ := ih ((ofLine p line).stop.step '\n') (List.cons_ne_nil _ _)
        fun l hl => hlines l (List.mem_cons_of_mem _ hl)
      refine ⟨ofLine p line :: ⟨.fragment, String.ofList ['\n'], (ofLine p line).stop⟩ :: trivia,
        body, ?_, ?_, ?_, ?_⟩
      · rw [Lexeme.heading, Lexeme.behindNewline_of_ne TokenKind.noConfusion, Lexeme.place,
          List.cons_append, List.cons_append, ← heq]
        rfl
      · intro t ht
        rcases List.mem_cons.mp ht with rfl | ht
        · exact hcomment
        · rcases List.mem_cons.mp ht with rfl | ht
          · exact isTrivia_blank _ (by decide)
          · exact h.isTrivia t ht
      · rw [List.filter_cons_of_pos rfl, List.filter_cons_of_neg Bool.false_ne_true, h.comments]
        rfl
      · obtain ⟨first, rest, hbody, hfirst, hstart, hrest⟩ := h.statement
        refine ⟨first, rest, hbody, hfirst, ?_, hrest⟩
        rw [hstart, line_step_stop_ofLine hline, List.length_cons (a := line)]
        omega

theorem kind_trimStart (t : Token) : t.trimStart.kind = t.kind := by
  unfold trimStart
  split
  · rename_i hk
    rw [hk]
  · rfl

end Token

namespace Segment

variable {p : Position} {lines : List String} {blanks trivia body : List Token}

/-- The group of comments that a heading is read as. -/
theorem ofTrivia_of_headed {ls : List Lexeme} (h : Token.Headed p lines ls trivia body)
    (hblanks : ∀ t ∈ blanks, t.kind.isComment = false) (hne : lines ≠ [])
    (hlines : ∀ line ∈ lines, '\n' ∉ line.toList) :
    CommentGroup.ofTrivia (blanks ++ trivia) = [⟨Token.ofLines p lines⟩] := by
  have hnone : blanks.filter (·.kind.isComment) = [] := by
    rw [List.filter_eq_nil_iff]
    intro t ht
    simp [hblanks t ht]
  have hofLines : Token.ofLines p lines ≠ [] := by
    obtain ⟨line, lines, rfl⟩ := List.exists_cons_of_ne_nil hne
    exact List.cons_ne_nil _ _
  rw [CommentGroup.ofTrivia_eq_map_splitBy, List.filter_append, hnone, List.nil_append, h.comments,
    List.splitBy_of_isChain hofLines (Token.isChain_ofLines hlines), List.map_singleton]

theorem touches_of_headed {first : Token} (hne : lines ≠ [])
    (hlines : ∀ line ∈ lines, '\n' ∉ line.toList)
    (hstart : first.significantStart.line = p.line + lines.length) :
    (CommentGroup.mk (Token.ofLines p lines)).touches first.significantStart.line = true := by
  obtain ⟨t, ht, hend⟩ := Token.getLast?_ofLines (p := p) hlines hne
  simp only [CommentGroup.touches, CommentGroup.endLine, ht, decide_eq_true_eq]
  omega

/-- A statement under a heading that ends with its only semicolon is the statement of a segment. -/
theorem exists_of_headed {ms : List Lexeme} {semi : Lexeme}
    (h : Token.Headed p lines (ms ++ [semi]) trivia body) (hsemi : semi.kind = .semicolon)
    (hne : ms ≠ []) (hms : ∀ l ∈ ms, l.kind ≠ .semicolon)
    (hblanks : ∀ t ∈ blanks, t.isTrivia = true ∧ t.kind.isComment = false) :
    ∃ s : Segment, s.Formed ∧ s.semicolon.isSome ∧ s.tokens = blanks ++ (trivia ++ body) ∧
      s.trivia = blanks ++ trivia ∧ (∀ t ∈ s.body, ∃ l ∈ ms, l.kind = t.kind) ∧
      s.statement.map Token.lexeme = ms ++ [semi] ∧
      ∃ first, s.body.head? = some first ∧
        first.significantStart.line = p.line + lines.length := by
  obtain ⟨first, rest, rfl, hfirst, hstart, hmap⟩ := h.statement
  obtain ⟨us, vs, hrest, hus, hvs⟩ := List.map_eq_append_iff.mp hmap
  obtain ⟨semicolon, rfl, hkind⟩ := List.map_eq_singleton_iff.mp hvs
  obtain ⟨u, us, rfl⟩ : ∃ u us', us = u :: us' := by
    apply List.exists_cons_of_ne_nil
    rintro rfl
    exact hne hus.symm
  obtain ⟨rfl, rfl⟩ := List.cons.inj hrest
  have hbody : ∀ t ∈ first :: us, ∃ l ∈ ms, l.kind = t.kind := by
    intro t ht
    rw [← hus]
    rcases List.mem_cons.mp ht with rfl | ht
    · exact ⟨_, List.mem_cons_self, Token.kind_trimStart t⟩
    · exact ⟨_, List.mem_cons_of_mem _ (List.mem_map_of_mem ht), rfl⟩
  refine ⟨⟨blanks ++ trivia, first :: us, some semicolon⟩, ⟨?_, ?_, ?_, ?_⟩, rfl, ?_, rfl, hbody,
    hmap, first, rfl, hstart⟩
  · intro t ht
    rcases List.mem_append.mp ht with ht | ht
    · exact (hblanks t ht).1
    · exact h.isTrivia t ht
  · rintro t ⟨⟩
    exact hfirst
  · intro t ht
    obtain ⟨l, hl, hlt⟩ := hbody t ht
    rw [← hlt]
    exact hms l hl
  · rintro t ⟨⟩
    rw [← hsemi, ← hkind]
    rfl
  · simp [tokens]

end Segment

end TypedSql
