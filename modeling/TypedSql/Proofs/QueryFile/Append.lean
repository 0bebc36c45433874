import TypedSql.Proofs.QueryFile.Reading
import TypedSql.Proofs.Token.Behind

/-!
# A file behind a file

What is read of a file moves with its text. Groups of comments, statements and errors are made from
the lines of tokens relative to each other and from their texts, so the segments of a text that
stands behind another one give the same queries at moved places (`Segment.query_behind`).

A text that ends with a semicolon ends with a segment, so its segments and those of the text
behind it are the segments of both. Only errors reach over that boundary, since an error is dropped
when the one in front of it is on its line. This never makes a file of two parts shorter on errors
than one of the parts (`ParseError.length_foldl_record_le`), and so the parts are read to their
ends when the whole is (`QueryFile.parse_append`).
-/

namespace TypedSql

namespace Runs

/-- Runs of elements that are mapped in a way that keeps the relation of neighbours. -/
theorem splitBy_map {α β : Type} {r : α → α → Bool} {r' : β → β → Bool} {f : α → β}
    (h : ∀ a b, r' (f a) (f b) = r a b) (xs : List α) :
    (xs.map f).splitBy r' = (xs.splitBy r).map (List.map f) := by
  have hloop (xs : List α) (a : α) (group : List α) (groups : List (List α)) :
      List.splitBy.loop r' (xs.map f) (f a) (group.map f) (groups.map (List.map f)) =
        (List.splitBy.loop r xs a group groups).map (List.map f) := by
    induction xs generalizing a group groups with
    | nil => simp [List.splitBy.loop]
    | cons x xs ih =>
      rw [List.map_cons, List.splitBy.loop, List.splitBy.loop, h]
      cases r a x with
      | true => exact ih x (a :: group) groups
      | false =>
        have hstep := ih x [] ((a :: group).reverse :: groups)
        rw [List.map_cons, List.map_reverse] at hstep
        exact hstep
  cases xs with
  | nil => rfl
  | cons a xs => exact hloop xs a [] []

end Runs

/-- The span behind a place. -/
def Span.behind (s : Span) (p : Position) : Span :=
  ⟨s.start.behind p, s.stop.behind p⟩

/-- The query behind a place. -/
def Query.behind (q : Query) (p : Position) : Query :=
  match q with
  | .bad span => .bad (span.behind p)
  | .source query => .source { query with span := query.span.behind p }

/-- The error behind a place. -/
def ParseError.behind (e : ParseError) (p : Position) : ParseError :=
  { e with pos := e.pos.behind p }

namespace CommentGroup

/-- The group behind a place. -/
def behind (g : CommentGroup) (p : Position) : CommentGroup :=
  ⟨g.comments.map (·.behind p)⟩

variable {g : CommentGroup} {p : Position}

theorem adjoins_behind (t u : Token) : adjoins (t.behind p) (u.behind p) = adjoins t u := by
  rw [adjoins, adjoins, Token.endLine_behind, Token.pos_behind, Position.line_behind,
    decide_eq_decide]
  omega

/-- Comments fall into the same groups. -/
theorem ofTrivia_behind (tokens : List Token) :
    ofTrivia (tokens.map (·.behind p)) = (ofTrivia tokens).map (·.behind p) := by
  rw [ofTrivia_eq_map_splitBy, ofTrivia_eq_map_splitBy, List.filter_map,
    Runs.splitBy_map adjoins_behind, List.map_map, List.map_map]
  rfl

theorem lines_behind : (g.behind p).lines = g.lines := by
  unfold lines behind
  rw [List.filterMap_map]
  rfl

theorem touches_behind (hg : g.comments ≠ []) (line : Nat) :
    (g.behind p).touches (p.line - 1 + line) = g.touches line := by
  have hend : (g.behind p).endLine = p.line - 1 + g.endLine := by
    unfold endLine behind
    rw [List.getLast?_map, List.getLast?_eq_some_getLast hg]
    exact Token.endLine_behind
  rw [touches, touches, hend, decide_eq_decide]
  omega

theorem lastPos_behind (hg : g.comments ≠ []) : (g.behind p).lastPos = g.lastPos.behind p := by
  unfold lastPos behind
  rw [List.getLast?_map, List.getLast?_eq_some_getLast hg]
  rfl

end CommentGroup

namespace Annotation

/-- A group reads as the same annotation, or has the same fault. -/
theorem ofGroup_behind {g : CommentGroup} {p : Position} (hg : g.comments ≠ []) :
    ofGroup (g.behind p) = (ofGroup g).mapError (·.behind p) := by
  unfold ofGroup
  simp only [CommentGroup.lines_behind, CommentGroup.lastPos_behind hg]
  split <;> rfl

end Annotation

theorem Draft.sourceQuery_behind {p : Position} (a : Annotation) (tokens : List Token)
    (span : Span) :
    sourceQuery a (tokens.map (·.behind p)) (span.behind p) =
      { sourceQuery a tokens span with span := span.behind p } := by
  have hprepared : Prepared.ofTokens (tokens.map (·.behind p)) = Prepared.ofTokens tokens := by
    apply Prepared.ofTokens_eq_of_map_lexeme
    rw [List.map_map]
    rfl
  unfold sourceQuery
  rw [hprepared, List.map_map]
  rfl

namespace Segment

/-- The segment behind a place. -/
def behind (s : Segment) (p : Position) : Segment where
  trivia := s.trivia.map (·.behind p)
  body := s.body.map (·.behind p)
  semicolon := s.semicolon.map (·.behind p)

variable {s : Segment} {first : Token} {p stop : Position}

@[simp] theorem trivia_behind : (s.behind p).trivia = s.trivia.map (·.behind p) := rfl

@[simp] theorem body_behind : (s.behind p).body = s.body.map (·.behind p) := rfl

@[simp] theorem semicolon_behind : (s.behind p).semicolon = s.semicolon.map (·.behind p) := rfl

theorem tokens_behind : (s.behind p).tokens = s.tokens.map (·.behind p) := by
  rw [tokens, trivia_behind, body_behind, semicolon_behind, tokens, List.map_append,
    List.map_append, Option.toList_map]

theorem Formed.behind (h : s.Formed) : (s.behind p).Formed where
  trivia := by
    intro t ht
    obtain ⟨u, hu, rfl⟩ := List.mem_map.mp ht
    exact h.trivia u hu
  head := by
    intro t ht
    rw [body_behind, List.head?_map] at ht
    obtain ⟨u, hu, rfl⟩ := Option.map_eq_some_iff.mp ht
    exact h.head u hu
  body := by
    intro t ht
    obtain ⟨u, hu, rfl⟩ := List.mem_map.mp ht
    exact h.body u hu
  semicolon := by
    intro t ht
    obtain ⟨u, hu, rfl⟩ := Option.map_eq_some_iff.mp ht
    exact h.semicolon u hu

/-- Moved tokens are cut in the same places. -/
theorem cut_behind (tokens : List Token) :
    cut (tokens.map (·.behind p)) = (cut tokens).map (·.behind p) := by
  induction tokens using cut_induction with
  | nil => rw [List.map_nil, List.map_nil, cut, if_pos rfl]
  | last s hs hsemi hne =>
    rw [← tokens_behind, List.map_singleton]
    apply cut_last hs.behind
    · rw [semicolon_behind, hsemi, Option.map_none]
    · rwa [tokens_behind, ne_eq, List.map_eq_nil_iff]
  | cons s rest hs hsemi ih =>
    rw [List.map_append, ← tokens_behind, cut_append hs.behind, ih, List.map_cons]
    rwa [semicolon_behind, Option.isSome_map]

/-- Behind a semicolon a new segment starts. -/
theorem cut_append_of_semicolon {tokens : List Token}
    (h : ∀ t ∈ tokens.getLast?, t.kind = .semicolon) (rest : List Token) :
    cut (tokens ++ rest) = cut tokens ++ cut rest ∧
      ∀ s ∈ cut tokens, s.semicolon.isSome = true := by
  induction tokens using cut_induction with
  | nil => exact ⟨rfl, fun s hs => absurd hs List.not_mem_nil⟩
  | last s hs hsemi hne =>
    exfalso
    rw [Segment.tokens, hsemi, Option.toList_none, List.append_nil] at h hne
    have hlast := List.getLast?_eq_some_getLast hne
    exact hs.kind_front _ (List.mem_of_getLast? hlast) (h _ hlast)
  | cons s tokens hs hsemi ih =>
    obtain ⟨hcut, hall⟩ := ih fun t ht => h t (by
      rw [List.getLast?_append, Option.mem_def.mp ht]
      rfl)
    constructor
    · rw [List.append_assoc, cut_append hs hsemi, hcut, List.cons_append]
    · intro s' hs'
      rcases List.mem_cons.mp hs' with rfl | hs'
      · exact hsemi
      · exact hall s' hs'

theorem statement_behind (h : ∀ t ∈ s.tokens, 0 < t.pos.line) :
    (s.behind p).statement = s.statement.map (·.behind p) := by
  have hmap : (s.behind p).body ++ (s.behind p).semicolon.toList =
      (s.body ++ s.semicolon.toList).map (·.behind p) := by
    rw [body_behind, semicolon_behind, Option.toList_map, List.map_append]
  rw [statement, statement, hmap]
  cases hs : s.body ++ s.semicolon.toList with
  | nil => rfl
  | cons first rest =>
    have hfirst : first ∈ s.tokens := List.mem_append_right _ (hs ▸ List.mem_cons_self)
    rw [List.map_cons, List.map_cons, ← Token.trimStart_behind (h first hfirst)]

theorem any_isIllegal_behind :
    (s.behind p).body.any Token.isIllegal = s.body.any Token.isIllegal :=
  List.any_map

section Statement

variable (h : ∀ t ∈ s.tokens, 0 < t.pos.line) (hb : s.body.head? = some first)
include h hb

theorem significantStart_first_behind :
    (first.behind p).significantStart = first.significantStart.behind p :=
  Token.significantStart_behind
    (h first (List.mem_append_right _ (List.mem_append_left _ (List.mem_of_head? hb))))

/-- The comment group of a statement moves with it. -/
theorem lead_behind : (s.behind p).lead = s.lead.map (·.behind p) := by
  have hfirst := significantStart_first_behind (p := p) h hb
  unfold lead
  rw [trivia_behind, body_behind, List.head?_map, hb, CommentGroup.ofTrivia_behind,
    List.getLast?_map]
  cases hg : (CommentGroup.ofTrivia s.trivia).getLast? with
  | none => rfl
  | some g =>
    obtain ⟨hne, -⟩ := CommentGroup.sublist_of_mem_ofTrivia (List.mem_of_getLast? hg)
    simp only [Option.map_some, Option.bind_eq_bind, Option.bind_some, hfirst,
      Position.line_behind, CommentGroup.touches_behind hne]
    split <;> rfl

theorem map_ofGroup_lead_behind :
    (s.behind p).lead.map Annotation.ofGroup =
      (s.lead.map Annotation.ofGroup).map (·.mapError (·.behind p)) := by
  rw [lead_behind h hb, Option.map_map, Option.map_map]
  cases hg : s.lead with
  | none => rfl
  | some g =>
    obtain ⟨hlast, -⟩ := (lead_eq_some_iff hb).mp hg
    obtain ⟨hne, -⟩ := CommentGroup.sublist_of_mem_ofTrivia (List.mem_of_getLast? hlast)
    have hread := Annotation.ofGroup_behind (p := p) hne
    exact congrArg some hread

/-- The query of a statement moves with it. -/
theorem query_behind :
    (s.behind p).query (stop.behind p) (first.behind p) = (s.query stop first).behind p := by
  have hstart := significantStart_first_behind (p := p) h hb
  unfold query
  rw [any_isIllegal_behind, map_ofGroup_lead_behind h hb, hstart, statement_behind h,
    semicolon_behind]
  cases hsemi : s.semicolon with
  | none => rfl
  | some semicolon =>
    have hstop : (semicolon.behind p).stop = semicolon.stop.behind p := by
      apply Token.stop_behind
      apply h
      simp [tokens, hsemi]
    simp only [Option.map_some, hstop]
    split
    · rfl
    · cases s.lead.map Annotation.ofGroup with
      | none => rfl
      | some a =>
        cases a with
        | error e => rfl
        | ok a =>
          exact congrArg Query.source
            (Draft.sourceQuery_behind a s.statement ⟨first.significantStart, semicolon.stop⟩)

/-- The fault of a statement moves with it. -/
theorem fault?_behind :
    (s.behind p).fault? (first.behind p) = (s.fault? first).map (·.behind p) := by
  have hstart := significantStart_first_behind (p := p) h hb
  unfold fault?
  rw [any_isIllegal_behind, map_ofGroup_lead_behind h hb, hstart, semicolon_behind]
  cases s.semicolon with
  | none => rfl
  | some semicolon =>
    simp only [Option.map_some]
    split
    · rfl
    · cases s.lead.map Annotation.ofGroup with
      | none => rfl
      | some a => cases a <;> rfl

end Statement

theorem query?_behind (h : ∀ t ∈ s.tokens, 0 < t.pos.line) :
    (s.behind p).query? (stop.behind p) = (s.query? stop).map (·.behind p) := by
  unfold query?
  rw [body_behind, List.head?_map]
  cases hb : s.body.head? with
  | none => rfl
  | some first => exact congrArg some (query_behind h hb)

/-- A terminated statement does not depend on where the file ends. -/
theorem query?_of_semicolon (h : s.semicolon.isSome = true) (stop' : Position) :
    s.query? stop = s.query? stop' := by
  obtain ⟨semicolon, hsemi⟩ := Option.isSome_iff_exists.mp h
  have hquery : s.query stop = s.query stop' := by
    funext first
    rw [query, query, hsemi]
  rw [query?, query?, hquery]

theorem raised_behind (h : ∀ t ∈ s.tokens, 0 < t.pos.line) :
    (s.behind p).raised = s.raised.map (·.behind p) := by
  have htoken (t : Token) : (ReadStep.token (t.behind p)).error? =
      (ReadStep.token t).error?.map (·.behind p) := by
    unfold ReadStep.error?
    simp only [Token.kind_behind]
    split <;> rfl
  have hfault : (s.behind p).body.head?.bind (s.behind p).fault? =
      (s.body.head?.bind s.fault?).map (·.behind p) := by
    rw [body_behind, List.head?_map]
    cases hb : s.body.head? with
    | none => rfl
    | some first => exact fault?_behind h hb
  unfold raised
  rw [hfault, body_behind, List.filterMap_map, List.map_append, List.map_filterMap,
    Option.toList_map]
  exact congrArg (· ++ _) (congrArg (List.filterMap · s.body) (funext htoken))

theorem groups_behind (s : Segment) : (s.behind p).groups = s.groups.map (·.behind p) := by
  have htoken (t : Token) : (ReadStep.token (t.behind p)).groups =
      (ReadStep.token t).groups.map (·.behind p) := by
    by_cases hc : t.kind.isComment = true
    · simp [ReadStep.groups, hc, CommentGroup.behind]
    · simp [ReadStep.groups, hc]
  unfold groups
  rw [trivia_behind, body_behind, CommentGroup.ofTrivia_behind, List.map_append, List.flatMap_map,
    List.map_flatMap]
  exact congrArg (_ ++ ·) (congrArg (s.body.flatMap ·) (funext htoken))

end Segment

namespace ParseError

variable {errors errors' : List ParseError} {p : Position}

theorem record_behind (errors : List ParseError) (e : ParseError) :
    record (errors.map (·.behind p)) (e.behind p) = (record errors e).map (·.behind p) := by
  have hline (last : ParseError) :
      ((last.behind p).pos.line == (e.behind p).pos.line) = (last.pos.line == e.pos.line) := by
    rw [Bool.eq_iff_iff, beq_iff_eq, beq_iff_eq]
    exact Nat.add_left_cancel_iff
  unfold record
  rw [List.getLast?_map, Option.any_map]
  simp only [hline]
  split
  · rfl
  · rw [List.map_append, List.map_singleton]

/-- The same errors are dropped behind a place. -/
theorem foldl_record_behind (raised errors : List ParseError) :
    (raised.map (·.behind p)).foldl record (errors.map (·.behind p)) =
      (raised.foldl record errors).map (·.behind p) := by
  induction raised generalizing errors with
  | nil => rfl
  | cons e raised ih => rw [List.map_cons, List.foldl_cons, record_behind, ih, List.foldl_cons]

theorem line_getLast?_record (errors : List ParseError) (e : ParseError) :
    (record errors e).getLast?.map (·.pos.line) = some e.pos.line := by
  unfold record
  split
  · rename_i hsame
    cases hlast : errors.getLast? with
    | none => simp [hlast] at hsame
    | some last => simpa [hlast] using hsame
  · rw [List.getLast?_concat]
    rfl

/-- Only the line of the last error decides which errors are recorded behind it. -/
theorem exists_foldl_record
    (h : errors.getLast?.map (·.pos.line) = errors'.getLast?.map (·.pos.line))
    (raised : List ParseError) :
    ∃ more, raised.foldl record errors = errors ++ more ∧
      raised.foldl record errors' = errors' ++ more := by
  induction raised generalizing errors errors' with
  | nil => exact ⟨[], by simp, by simp⟩
  | cons e raised ih =>
    have hlast := line_getLast?_record errors e
    have hlast' := line_getLast?_record errors' e
    obtain ⟨more, hmore, hmore'⟩ := ih (hlast.trans hlast'.symm)
    have hsame : (errors.getLast?.any fun last => last.pos.line == e.pos.line) =
        errors'.getLast?.any fun last => last.pos.line == e.pos.line := by
      have hany (errors : List ParseError) :
          (errors.getLast?.any fun last => last.pos.line == e.pos.line) =
            (errors.getLast?.map (·.pos.line)).any (· == e.pos.line) := by
        rw [Option.any_map]
      rw [hany, hany, h]
    rw [List.foldl_cons, List.foldl_cons, hmore, hmore']
    unfold record
    rw [hsame]
    split
    · exact ⟨more, rfl, rfl⟩
    · exact ⟨e :: more, by simp, by simp⟩

/-- Errors in front drop one error at most, and only when they are there. -/
theorem length_foldl_record_le (errors raised : List ParseError) :
    (raised.foldl record []).length ≤ (raised.foldl record errors).length := by
  cases raised with
  | nil => exact Nat.zero_le _
  | cons e raised =>
    have hlast := line_getLast?_record errors e
    obtain ⟨more, hmore, hmore'⟩ :=
      exists_foldl_record ((line_getLast?_record [] e).trans hlast.symm) raised
    have hone : record [] e = [e] := rfl
    have hne : record errors e ≠ [] := by
      intro hnil
      rw [hnil] at hlast
      contradiction
    have hpos := List.length_pos_iff.mpr hne
    rw [List.foldl_cons, List.foldl_cons, hmore, hmore', hone, List.length_append,
      List.length_append, List.length_singleton]
    omega

end ParseError

namespace Draft

section Append

variable {ts us : List Token} {p stop stop' : Position}

theorem map_behind_flatMap {β : Type} {f : Segment → List β} {move : β → β}
    (hf : ∀ s : Segment, (∀ t ∈ s.tokens, 0 < t.pos.line) → f (s.behind p) = (f s).map move)
    (hus : ∀ t ∈ us, 0 < t.pos.line) :
    (Segment.cut (us.map (·.behind p))).flatMap f = ((Segment.cut us).flatMap f).map move := by
  rw [Segment.cut_behind, List.flatMap_map, List.map_flatMap]
  exact List.flatMap_congr fun s hs => hf s fun t ht => hus t (Segment.mem_of_mem_cut hs ht)

/-- The errors of two parts, when the first one ends a statement. -/
theorem allErrors_append (hts : ∀ t ∈ ts.getLast?, t.kind = .semicolon)
    (hus : ∀ t ∈ us, 0 < t.pos.line) :
    allErrors (ts ++ us.map (·.behind p)) =
      (((Segment.cut us).flatMap Segment.raised).map (·.behind p)).foldl ParseError.record
        (allErrors ts) := by
  rw [allErrors, (Segment.cut_append_of_semicolon hts _).1, List.flatMap_append, List.foldl_append,
    map_behind_flatMap (fun s => Segment.raised_behind) hus]
  rfl

theorem length_allErrors_left_le (hts : ∀ t ∈ ts.getLast?, t.kind = .semicolon)
    (hus : ∀ t ∈ us, 0 < t.pos.line) :
    (allErrors ts).length ≤ (allErrors (ts ++ us.map (·.behind p))).length := by
  rw [allErrors_append hts hus]
  exact (ParseError.prefix_foldl_record _ _).length_le

theorem length_allErrors_right_le (hts : ∀ t ∈ ts.getLast?, t.kind = .semicolon)
    (hus : ∀ t ∈ us, 0 < t.pos.line) :
    (allErrors us).length ≤ (allErrors (ts ++ us.map (·.behind p))).length := by
  have hmove := ParseError.foldl_record_behind (p := p) ((Segment.cut us).flatMap Segment.raised) []
  have hlength := congrArg List.length hmove
  rw [List.map_nil, List.length_map] at hlength
  rw [allErrors_append hts hus, allErrors, ← hlength]
  exact ParseError.length_foldl_record_le _ _

/-- Two parts of which the first one ends a statement are read one behind the other. -/
theorem ofTokens_append (hts : ∀ t ∈ ts.getLast?, t.kind = .semicolon)
    (hus : ∀ t ∈ us, 0 < t.pos.line)
    (h : (ofTokens (stop.behind p) (ts ++ us.map (·.behind p))).isFull = false) :
    (ofTokens (stop.behind p) (ts ++ us.map (·.behind p))).queries =
        (ofTokens stop' ts).queries ++ (ofTokens stop us).queries.map (·.behind p) ∧
      (ofTokens (stop.behind p) (ts ++ us.map (·.behind p))).comments =
        (ofTokens stop' ts).comments ++ (ofTokens stop us).comments.map (·.behind p) := by
  have hfew := isFull_ofTokens_iff.mp h
  have hleft : (ofTokens stop' ts).isFull = false :=
    isFull_ofTokens_iff.mpr ((length_allErrors_left_le hts hus).trans hfew)
  have hright : (ofTokens stop us).isFull = false :=
    isFull_ofTokens_iff.mpr ((length_allErrors_right_le hts hus).trans hfew)
  obtain ⟨hcut, hsemi⟩ := Segment.cut_append_of_semicolon hts (us.map (·.behind p))
  constructor
  · rw [queries_ofTokens h, queries_ofTokens hleft, queries_ofTokens hright, hcut,
      List.filterMap_append, Segment.cut_behind, List.filterMap_map, List.map_filterMap]
    congr 1
    · exact List.filterMap_congr fun s hs => Segment.query?_of_semicolon (hsemi s hs) stop'
    · exact List.filterMap_congr fun s hs =>
        Segment.query?_behind fun t ht => hus t (Segment.mem_of_mem_cut hs ht)
  · rw [comments_ofTokens h, comments_ofTokens hleft, comments_ofTokens hright, hcut,
      List.flatMap_append, map_behind_flatMap (fun s _ => Segment.groups_behind s) hus]

end Append

end Draft

namespace QueryFile

/-- A text that ends with a semicolon is read without a look at what follows it, and what follows
it is read without a look back: the statements and the comment groups of both are those of each,
at the places where they stand. -/
theorem parse_append {a ns : String} (hns : Settings.IsNamespace ns)
    (ha : Scanner.EndsStatement a ns) (name b : String)
    (h : (parse name (a ++ b) ns).errors.length ≤ maxErrors) :
    let p := Position.start.advance a.toList
    (parse name (a ++ b) ns).file.queries =
        (parse name a ns).file.queries ++ (parse name b ns).file.queries.map (·.behind p) ∧
      (parse name (a ++ b) ns).file.comments =
        (parse name a ns).file.comments ++ (parse name b ns).file.comments.map (·.behind p) := by
  intro p
  have htokens : tokenize (a ++ b) ns = tokenize a ns ++ (tokenize b ns).map (·.behind p) :=
    Scanner.tokenize_append ha hns b
  have hstop : Position.start.advance (a ++ b).toList =
      (Position.start.advance b.toList).behind p := by
    rw [String.toList_append, Position.advance_append, Position.behind_advance Nat.one_pos,
      Position.behind_start]
  have hlines : ∀ t ∈ tokenize b ns, 0 < t.pos.line := by
    intro t ht
    obtain ⟨us, vs, hsplit⟩ := List.append_of_mem ht
    rw [Scanner.pos_of_tokenize_eq hsplit]
    exact Position.line_pos_advance Nat.one_pos _
  have hfull : (Draft.ofTokens ((Position.start.advance b.toList).behind p)
      (tokenize a ns ++ (tokenize b ns).map (·.behind p))).isFull = false := by
    rw [length_errors_parse, htokens, hstop] at h
    exact decide_eq_false (Nat.not_lt.mpr h)
  unfold parse
  simp only [htokens, hstop]
  exact Draft.ofTokens_append ha hlines hfull

/-- An illegal character breaks its own statement, and those behind it are read as if they stood
alone. -/
theorem parse_append_broken :
    let a := "-- name: A :one\nSELECT \x01;\n\nSELECT 2;"
    let b := " SELECT 3;\n-- name: B :many\nSELECT 1;\n"
    Settings.IsNamespace "ns" ∧ Scanner.EndsStatement a "ns" ∧
      (parse "q.sql" (a ++ b) "ns").errors.length ≤ maxErrors ∧
      (parse "q.sql" a "ns").file.queries.head? = some (.bad ⟨⟨16, 2, 1⟩, ⟨25, 2, 10⟩⟩) ∧
      (parse "q.sql" (a ++ b) "ns").file.queries =
        (parse "q.sql" a "ns").file.queries ++
          (parse "q.sql" b "ns").file.queries.map (·.behind ⟨36, 4, 10⟩) := by
  intro a b
  have hns : Settings.IsNamespace "ns" := by decide +kernel
  have ha : Scanner.EndsStatement a "ns" := by decide +kernel
  have hfew : (parse "q.sql" (a ++ b) "ns").errors.length ≤ maxErrors := by
    rw [length_errors_parse]
    decide +kernel
  have hp : Position.start.advance a.toList = ⟨36, 4, 10⟩ := by decide +kernel
  refine ⟨hns, ha, hfew, by decide +kernel, ?_⟩
  rw [← hp]
  exact (parse_append hns ha "q.sql" b hfew).1

end QueryFile

end TypedSql
