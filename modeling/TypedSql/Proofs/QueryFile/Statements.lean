import TypedSql.Proofs.QueryFile.Segments
import TypedSql.Proofs.Settings.Namespace

/-!
# One query for each statement

A file that is read to its end has one query for each of its segments that holds a token of
substance, in the order of the segments. `Query.Covers` says what the query of a segment is: where
it starts, where it ends, and when it is a source query.

Reading stops once too many errors were recorded. Errors are only ever added, so a file with no
more errors than that was read to its end, and each segment added the query that `Segment.query`
gives for it.
-/

namespace TypedSql

namespace Segment

/-- The query of a segment whose statement starts with `first`. -/
def query (stop : Position) (s : Segment) (first : Token) : Query :=
  match s.semicolon with
  | none => .bad ⟨first.significantStart, stop⟩
  | some semicolon =>
    let span : Span := ⟨first.significantStart, semicolon.stop⟩
    if s.body.any Token.isIllegal then .bad span
    else
      match s.lead.map Annotation.ofGroup with
      | some (.ok a) => .source (Draft.sourceQuery a s.statement span)
      | _ => .bad span

/-- The query of a segment, if there is a statement in it. -/
def query? (stop : Position) (s : Segment) : Option Query :=
  s.body.head?.map (s.query stop)

/-- What is wrong with a statement, apart from its illegal tokens. -/
def fault? (s : Segment) (first : Token) : Option ParseError :=
  match s.semicolon with
  | none => some (.of first.significantStart .unterminated)
  | some _ =>
    if s.body.any Token.isIllegal then none
    else
      match s.lead.map Annotation.ofGroup with
      | none => some (.of first.significantStart .noComment)
      | some (.error e) => some e
      | some (.ok _) => none

end Segment

namespace Draft

@[simp] theorem queries_report (d : Draft) (e : ParseError) : (d.report e).queries = d.queries := by
  unfold report
  split <;> rfl

theorem errors_prefix_report (d : Draft) (e : ParseError) : d.errors <+: (d.report e).errors := by
  unfold report
  split
  · exact List.prefix_refl _
  · exact List.prefix_append _ _

@[simp] theorem queries_add (d : Draft) (q : Query) : (d.add q).queries = d.queries ++ [q] := rfl

theorem foldl_addGroup (isLead : Bool) (groups : List CommentGroup) (d : Draft) :
    (groups.foldl (addGroup isLead) d).errors = d.errors ∧
      (groups.foldl (addGroup isLead) d).queries = d.queries := by
  induction groups generalizing d with
  | nil => exact ⟨rfl, rfl⟩
  | cons g groups ih => exact ih (addGroup isLead d g)

@[simp] theorem errors_addTrivia (d : Draft) (s : Segment) : (d.addTrivia s).errors = d.errors := by
  simp only [addTrivia, (foldl_addGroup _ _ _).1]

@[simp] theorem queries_addTrivia (d : Draft) (s : Segment) :
    (d.addTrivia s).queries = d.queries := by
  simp only [addTrivia, (foldl_addGroup _ _ _).2]

theorem errors_prefix_addToken (d : Draft) (t : Token) : d.errors <+: (d.addToken t).errors := by
  unfold addToken
  split
  · exact List.prefix_refl _
  · split
    · exact errors_prefix_report d _
    all_goals exact List.prefix_refl _

@[simp] theorem queries_addToken (d : Draft) (t : Token) : (d.addToken t).queries = d.queries := by
  unfold addToken
  split
  · rfl
  · split <;> simp

theorem errors_prefix_foldl_addToken (tokens : List Token) (d : Draft) :
    d.errors <+: (tokens.foldl addToken d).errors := by
  induction tokens generalizing d with
  | nil => exact List.prefix_refl _
  | cons t tokens ih => exact (errors_prefix_addToken d t).trans (ih (d.addToken t))

@[simp] theorem queries_foldl_addToken (tokens : List Token) (d : Draft) :
    (tokens.foldl addToken d).queries = d.queries := by
  induction tokens generalizing d with
  | nil => rfl
  | cons t tokens ih => exact (ih (d.addToken t)).trans (queries_addToken d t)

/-- Reading that has stopped has stopped for good. -/
theorem isFull_of_prefix {d d' : Draft} (h : d.errors <+: d'.errors) (hd : d'.isFull = false) :
    d.isFull = false := by
  have := h.length_le
  simp only [isFull, decide_eq_false_iff_not] at hd ⊢
  omega

/-- A statement is recorded as one query behind its tokens, with at most one more error. -/
theorem addStatement_eq (d : Draft) (stop : Position) (s : Segment) (first : Token) :
    d.addStatement stop s first =
      let read := s.body.foldl addToken { d with seen := true }
      if read.isFull then read
      else (s.fault? first).elim (read.add (s.query stop first))
        (read.add (s.query stop first)).report := by
  unfold addStatement Segment.query Segment.fault?
  simp only
  split
  · rfl
  · cases s.semicolon with
    | none => rfl
    | some semicolon =>
      change (if s.body.any Token.isIllegal = true then _ else _) = _
      cases s.body.any Token.isIllegal with
      | true => rfl
      | false =>
        cases s.lead.map Annotation.ofGroup with
        | none => rfl
        | some a => cases a <;> rfl

theorem errors_prefix_addStatement (d : Draft) (stop : Position) (s : Segment) (first : Token) :
    d.errors <+: (d.addStatement stop s first).errors := by
  have hread := errors_prefix_foldl_addToken s.body { d with seen := true }
  refine hread.trans ?_
  rw [addStatement_eq]
  simp only
  split
  · exact List.prefix_refl _
  · cases s.fault? first with
    | none => exact List.prefix_refl _
    | some e => exact errors_prefix_report (add _ _) e

theorem queries_addStatement {d : Draft} {stop : Position} {s : Segment} {first : Token}
    (h : (d.addStatement stop s first).isFull = false) :
    (d.addStatement stop s first).queries = d.queries ++ [s.query stop first] := by
  have hread := queries_foldl_addToken s.body { d with seen := true }
  rw [addStatement_eq] at h ⊢
  simp only at h ⊢
  split at h
  · rename_i hfull
    rw [h] at hfull
    contradiction
  · rename_i hfull
    rw [if_neg hfull]
    cases s.fault? first <;> simp [hread]

theorem errors_prefix_addSegment (d : Draft) (stop : Position) (s : Segment) :
    d.errors <+: (d.addSegment stop s).errors := by
  unfold addSegment
  split
  · exact List.prefix_refl _
  · simp only
    split
    · simp
    · have h := errors_prefix_addStatement (d.addTrivia s) stop s
      rw [errors_addTrivia] at h
      exact h _

theorem queries_addSegment {d : Draft} {stop : Position} {s : Segment}
    (h : (d.addSegment stop s).isFull = false) :
    (d.addSegment stop s).queries = d.queries ++ (s.query? stop).toList := by
  have hd := isFull_of_prefix (errors_prefix_addSegment d stop s) h
  unfold addSegment at h ⊢
  simp only [hd, Bool.false_eq_true, if_false] at h ⊢
  cases hb : s.body with
  | nil => simp [Segment.query?, hb]
  | cons first body =>
    simp only [hb] at h ⊢
    rw [queries_addStatement h]
    simp [Segment.query?, hb]

theorem errors_prefix_foldl_addSegment (stop : Position) (segments : List Segment) (d : Draft) :
    d.errors <+: (segments.foldl (addSegment stop) d).errors := by
  induction segments generalizing d with
  | nil => exact List.prefix_refl _
  | cons s segments ih =>
    exact (errors_prefix_addSegment d stop s).trans (ih (addSegment stop d s))

theorem queries_foldl_addSegment {stop : Position} {segments : List Segment} {d : Draft}
    (h : (segments.foldl (addSegment stop) d).isFull = false) :
    (segments.foldl (addSegment stop) d).queries =
      d.queries ++ segments.filterMap (Segment.query? stop) := by
  induction segments generalizing d with
  | nil => simp
  | cons s segments ih =>
    have hs := isFull_of_prefix (errors_prefix_foldl_addSegment stop segments _) h
    rw [List.foldl_cons, ih h, queries_addSegment hs, List.append_assoc]
    cases hq : s.query? stop <;> simp [hq]

/-- A file that was read to its end has the queries of its segments. -/
theorem queries_ofTokens {stop : Position} {tokens : List Token}
    (h : (ofTokens stop tokens).isFull = false) :
    (ofTokens stop tokens).queries = (Segment.cut tokens).filterMap (Segment.query? stop) :=
  queries_foldl_addSegment h

end Draft

namespace Annotation

/-- A line of text that is an annotation. -/
def IsLine (line : String) : Prop :=
  (ofLine? line).isSome = true

end Annotation

theorem CommentGroup.exists_ofGroup_iff (g : CommentGroup) :
    (∃ a, Annotation.ofGroup g = .ok a) ↔
      ∃ line, g.lines.getLast? = some line ∧ Annotation.IsLine line := by
  have hempty : Annotation.ofLine? "" = none := rfl
  unfold Annotation.ofGroup Annotation.IsLine
  simp only
  cases hl : g.lines.getLast? with
  | none => simp [hempty]
  | some line =>
    cases ho : Annotation.ofLine? line with
    | none => simp [ho]
    | some parts => simp [ho]

namespace Token

/-- Whether a statement on a line is annotated: the last comment group in front of it ends on the
line or on the one before, and its last line of text is an annotation. -/
def AnnotatedAt (segment : List Token) (line : Nat) : Prop :=
  ∃ comments last text,
    (((segment.takeWhile isTrivia).filter (·.kind.isComment)).splitBy
      CommentGroup.adjoins).getLast? = some comments ∧
    comments.getLast? = some last ∧ (last.endLine = line ∨ last.endLine + 1 = line) ∧
    (CommentGroup.mk comments).lines.getLast? = some text ∧
    Annotation.IsLine text

end Token

namespace Segment

variable {s : Segment} {first : Token} {stop : Position}

@[simp] theorem start_query : (s.query stop first).span.start = first.significantStart := by
  unfold query
  split
  · rfl
  · simp only
    split
    · rfl
    · split <;> rfl

@[simp] theorem stop_query :
    (s.query stop first).span.stop = (s.semicolon.map Token.stop).getD stop := by
  unfold query
  cases s.semicolon with
  | none => rfl
  | some semicolon =>
    simp only
    split
    · rfl
    · split <;> rfl

theorem isBad_query_iff :
    (s.query stop first).isBad = false ↔
      s.semicolon.isSome = true ∧ s.body.any Token.isIllegal = false ∧
        ∃ g a, s.lead = some g ∧ Annotation.ofGroup g = .ok a := by
  unfold query
  cases s.semicolon with
  | none => simp [Query.isBad]
  | some semicolon =>
    cases s.body.any Token.isIllegal with
    | true => simp [Query.isBad]
    | false =>
      cases s.lead with
      | none => simp [Query.isBad]
      | some g => cases hg : Annotation.ofGroup g <;> simp [Query.isBad, hg]

theorem lead_eq_some_iff {g : CommentGroup} (hb : s.body.head? = some first) :
    s.lead = some g ↔ (CommentGroup.ofTrivia s.trivia).getLast? = some g ∧
      g.touches first.significantStart.line = true := by
  unfold lead
  rw [hb]
  cases (CommentGroup.ofTrivia s.trivia).getLast? with
  | none => simp
  | some g' =>
    by_cases ht : g'.touches first.significantStart.line = true
    · simp only [Option.bind_eq_bind, Option.bind_some, ht, if_true, Option.some.injEq]
      constructor
      · rintro rfl
        exact ⟨rfl, ht⟩
      · exact And.left
    · simp only [Option.bind_eq_bind, Option.bind_some, ht, Option.some.injEq]
      constructor
      · simp
      · rintro ⟨rfl, ht'⟩
        exact absurd ht' ht

/-- The comments in front of a statement annotate it when the group that belongs to it can be
read. -/
theorem annotatedAt_iff {p q : Position} (hs : s.Formed) (hp : Token.Abut p s.tokens q)
    (hb : s.body.head? = some first) :
    Token.AnnotatedAt s.tokens first.significantStart.line ↔
      ∃ g a, s.lead = some g ∧ Annotation.ofGroup g = .ok a := by
  have hends : ∀ t ∈ s.trivia, t.endLine ≤ first.significantStart.line := by
    obtain ⟨body, hbody⟩ := List.head?_eq_some_iff.mp hb
    intro t ht
    rw [tokens, hbody, List.cons_append] at hp
    exact Nat.le_trans (hp.endLine_le ht) first.line_le_significantStart
  unfold Token.AnnotatedAt
  rw [hs.takeWhile_isTrivia]
  simp only [lead_eq_some_iff hb, CommentGroup.ofTrivia_eq_map_splitBy, List.getLast?_map,
    Option.map_eq_some_iff]
  constructor
  · rintro ⟨comments, last, text, hlast, hend, hline, hread⟩
    obtain ⟨a, ha⟩ := (CommentGroup.exists_ofGroup_iff ⟨comments⟩).mpr ⟨text, hread⟩
    refine ⟨⟨comments⟩, a, ⟨⟨comments, hlast, rfl⟩, ?_⟩, ha⟩
    simp only [CommentGroup.touches, CommentGroup.endLine, hend, decide_eq_true_eq]
    omega
  · rintro ⟨g, a, ⟨⟨comments, hlast, rfl⟩, htouch⟩, ha⟩
    obtain ⟨text, hread⟩ := (CommentGroup.exists_ofGroup_iff ⟨comments⟩).mp ⟨a, ha⟩
    have hne : comments ≠ [] := List.ne_nil_of_mem_splitBy (List.mem_of_getLast? hlast)
    have hend := List.getLast?_eq_some_getLast hne
    have hmem : comments.getLast hne ∈ s.trivia := by
      have hflat := List.flatten_splitBy CommentGroup.adjoins
        (s.trivia.filter (·.kind.isComment))
      have hin : comments.getLast hne ∈ s.trivia.filter (·.kind.isComment) := by
        rw [← hflat]
        exact List.mem_flatten_of_mem (List.mem_of_getLast? hlast) (List.getLast_mem hne)
      exact List.mem_of_mem_filter hin
    refine ⟨comments, comments.getLast hne, text, hlast, hend, ?_, hread⟩
    have hle := hends _ hmem
    simp only [CommentGroup.touches, CommentGroup.endLine, hend, decide_eq_true_eq] at htouch
    omega

end Segment

/-- What the query of a segment is, in a file that ends at `stop`. -/
structure Query.Covers (stop : Position) (segment : List Token) (q : Query) : Prop where
  /-- It starts with the first token of substance, at its first character that is not blank. -/
  start : ∃ first, segment.find? Token.isSubstance = some first ∧
    (first.StartsAt q.span.start ∨ first.IsVerticalTab ∧ q.span.start = first.pos)
  /-- It ends with the semicolon, if there is one. -/
  stop : q.span.stop =
    ((segment.find? fun t => t.kind == .semicolon).map Token.stop).getD stop
  /-- It is a source query when it is terminated, legal and annotated. -/
  source : q.isBad = false ↔
    (∃ semicolon ∈ segment, semicolon.kind = .semicolon) ∧
      (∀ t ∈ segment, t.isIllegal = false) ∧ Token.AnnotatedAt segment q.span.start.line

namespace Segment

variable {s : Segment} {first : Token} {stop : Position}

theorem covers_query {p q : Position} (hs : s.Formed) (hp : Token.Abut p s.tokens q)
    (hb : s.body.head? = some first)
    (hstart : first.StartsAt first.significantStart ∨
      first.IsVerticalTab ∧ first.significantStart = first.pos) :
    (s.query stop first).Covers stop s.tokens where
  start := ⟨first, by rw [hs.find?_isSubstance, hb], by simpa using hstart⟩
  stop := by rw [stop_query, hs.find?_semicolon]
  source := by
    have hterminated : (∃ semicolon ∈ s.tokens, semicolon.kind = .semicolon) ↔
        s.semicolon.isSome = true := by
      rw [← hs.find?_semicolon]
      simp
    have hlegal : (∀ t ∈ s.tokens, t.isIllegal = false) ↔
        s.body.any Token.isIllegal = false := by
      rw [← hs.any_isIllegal]
      simp
    rw [isBad_query_iff, hterminated, hlegal, start_query, annotatedAt_iff hs hp hb]

/-- The segments of a file and their queries, one by one. -/
theorem forall₂_covers {segments : List Segment} (hs : ∀ s ∈ segments, s.Formed)
    (hp : ∀ s ∈ segments, ∃ p q, Token.Abut p s.tokens q)
    (hstart : ∀ s ∈ segments, ∀ first ∈ s.body.head?,
      first.StartsAt first.significantStart ∨
        first.IsVerticalTab ∧ first.significantStart = first.pos) :
    List.Forall₂ (Query.Covers stop)
      ((segments.map tokens).filter fun segment => segment.any Token.isSubstance)
      (segments.filterMap (query? stop)) := by
  induction segments with
  | nil => exact .nil
  | cons s segments ih =>
    have hrest := ih (fun t ht => hs t (List.mem_cons_of_mem s ht))
      (fun t ht => hp t (List.mem_cons_of_mem s ht))
      (fun t ht => hstart t (List.mem_cons_of_mem s ht))
    have hformed := hs s List.mem_cons_self
    obtain ⟨p, q, hpq⟩ := hp s List.mem_cons_self
    rw [List.map_cons, List.filter_cons, hformed.any_isSubstance, List.filterMap_cons]
    cases hb : s.body with
    | nil => simpa [query?, hb] using hrest
    | cons first body =>
      have hhead : s.body.head? = some first := by rw [hb]; rfl
      simp only [query?, hhead, Option.map_some, List.isEmpty_cons, Bool.not_false, if_true]
      exact .cons (covers_query hformed hpq hhead (hstart s List.mem_cons_self first hhead)) hrest

/-- The spans of queries lie one behind another between two places. -/
def Ordered (p q : Position) (queries : List Query) : Prop :=
  queries.Pairwise (fun a b => a.span.stop.offset ≤ b.span.start.offset) ∧
    ∀ a ∈ queries, p.offset ≤ a.span.start.offset ∧
      a.span.start.offset < a.span.stop.offset ∧ a.span.stop.offset ≤ q.offset

/-- The query of a segment ends where the segment does. -/
theorem stop_span_query {p q : Position} (hp : Token.Abut p s.tokens q)
    (hstop : s.semicolon = none → q = stop) :
    (s.query stop first).span.stop = q := by
  rw [stop_query]
  cases hsemi : s.semicolon with
  | none => exact (hstop hsemi).symm
  | some semicolon =>
    rw [tokens, hsemi, Option.toList_some, ← List.append_assoc] at hp
    obtain ⟨m, -, -, -, rfl⟩ := Token.abut_append.mp hp
    rfl

/-- The query of a segment spans a part of it. -/
theorem ordered_query? {p q : Position} (stop : Position) (hs : s.Formed)
    (hp : Token.Abut p s.tokens q)
    (hstop : s.semicolon = none → q = stop) : Ordered p q (s.query? stop).toList := by
  cases hb : s.body with
  | nil => simp [query?, hb, Ordered]
  | cons first body =>
    have hhead : s.body.head? = some first := by rw [hb]; rfl
    simp only [query?, hhead, Option.map_some, Option.toList_some]
    refine ⟨by simp, fun a ha => ?_⟩
    obtain rfl := List.mem_singleton.mp ha
    have hlast : (s.query stop first).span.stop = q := stop_span_query hp hstop
    rw [tokens, hb, List.cons_append] at hp
    obtain ⟨m, hm, hfirst, hne, hq⟩ := Token.abut_append.mp hp
    have htrivia := hs.head first hhead
    simp only [Token.isTrivia, Bool.or_eq_false_iff] at htrivia
    have h₁ := hm.offset_le
    have h₂ := first.offset_le_significantStart
    have h₃ := Token.significantStart_lt_stop hne htrivia.2
    have h₄ := hq.offset_le
    rw [hlast, start_query, ← hfirst] at *
    omega

theorem Ordered.append {p m q : Position} {xs ys : List Query} (hx : Ordered p m xs)
    (hy : Ordered m q ys) (hpm : p.offset ≤ m.offset) (hmq : m.offset ≤ q.offset) :
    Ordered p q (xs ++ ys) := by
  refine ⟨List.pairwise_append.mpr ⟨hx.1, hy.1, fun a ha b hb => ?_⟩, fun a ha => ?_⟩
  · exact Nat.le_trans (hx.2 a ha).2.2 (hy.2 b hb).1
  · rcases List.mem_append.mp ha with ha | ha
    · have := hx.2 a ha
      omega
    · have := hy.2 a ha
      omega

/-- The queries of a file do not overlap. -/
theorem ordered_cut {p : Position} {ts : List Token} (hp : Token.Abut p ts stop) :
    Ordered p stop ((cut ts).filterMap (query? stop)) := by
  induction ts using cut_induction generalizing p with
  | nil => simp [Ordered]
  | last s hs =>
    have h := ordered_query? _ hs hp fun _ => rfl
    rw [List.filterMap_cons]
    cases hq : s.query? stop with
    | none => simp [Ordered]
    | some q => simpa [hq] using h
  | cons s rest hs hsemi ih =>
    obtain ⟨m, hm, hrest⟩ := Token.abut_append.mp hp
    have h := ordered_query? stop hs hm fun hnone => by simp [hnone] at hsemi
    have happ := h.append (ih hrest) hm.offset_le hrest.offset_le
    rw [List.filterMap_cons]
    cases hq : s.query? stop with
    | none => simpa [hq] using happ
    | some q => simpa [hq] using happ

end Segment

namespace Scanner

/-- Scanning cuts a text at the places where its tokens say they are. -/
theorem abut_tokenize (src ns : String) :
    Token.Abut .start (tokenize src ns) (Position.start.advance src.toList) :=
  abut_tokens (ofText src ns)

theorem startsAt_of_mem_tokenize {src ns : String} (hns : Settings.IsNamespace ns) {t : Token}
    (ht : t ∈ tokenize src ns) (hb : t.isBlank = false) :
    t.StartsAt t.significantStart ∨ t.IsVerticalTab ∧ t.significantStart = t.pos := by
  refine startsAt_of_mem_tokens (s := ofText src ns) ?_ hns.1 ht hb
  intro c hc
  exact Text.isBlank_of_isWord (hns.isWord (List.mem_of_head? hc))

end Scanner

namespace QueryFile

theorem length_errors_parse (name src ns : String) :
    (parse name src ns).errors.length =
      (Draft.ofTokens (Position.start.advance src.toList) (tokenize src ns)).errors.length := by
  simp [parse, ParseError.sorted]

/-- No statement is lost, split or merged: a file with at most `maxErrors` errors has one query
for each segment that holds a token of substance. -/
theorem queries_cover_segments {ns : String} (hns : Settings.IsNamespace ns) (name src : String)
    (h : (parse name src ns).errors.length ≤ maxErrors) :
    List.Forall₂ (Query.Covers (Position.start.advance src.toList))
        ((Token.segments (tokenize src ns)).filter fun segment => segment.any Token.isSubstance)
        (parse name src ns).file.queries ∧
      (parse name src ns).file.queries.Pairwise
        (fun a b => a.span.stop.offset ≤ b.span.start.offset) ∧
      ∀ q ∈ (parse name src ns).file.queries, q.span.start.offset < q.span.stop.offset := by
  have hcover := Scanner.abut_tokenize src ns
  have hqueries : (parse name src ns).file.queries = (Segment.cut (tokenize src ns)).filterMap
      (Segment.query? (Position.start.advance src.toList)) := by
    refine Draft.queries_ofTokens (decide_eq_false ?_)
    rw [length_errors_parse] at h
    omega
  have hflat := Token.flatten_segments (tokenize src ns)
  rw [← Segment.map_tokens_cut] at hflat
  rw [hqueries]
  refine ⟨?_, (Segment.ordered_cut hcover).1, fun q hq => ((Segment.ordered_cut hcover).2 q hq).2.1⟩
  rw [← Segment.map_tokens_cut]
  refine Segment.forall₂_covers (fun s hs => Segment.formed_of_mem_cut hs) ?_ ?_
  · intro s hs
    rw [← hflat] at hcover
    exact hcover.exists_of_mem (List.mem_map_of_mem hs)
  · intro s hs first hfirst
    have htrivia := (Segment.formed_of_mem_cut hs).head first hfirst
    simp only [Token.isTrivia, Bool.or_eq_false_iff] at htrivia
    have hmem : first ∈ tokenize src ns := by
      rw [← hflat]
      refine List.mem_flatten_of_mem (List.mem_map_of_mem hs) ?_
      exact List.mem_append_right _ (List.mem_append_left _ (List.mem_of_head? hfirst))
    exact Scanner.startsAt_of_mem_tokenize hns hmem htrivia.2

/-- An empty statement, an annotated one, one without annotation, and one without its end. -/
theorem queries_cover_segments_mixed :
    let src := ";\n-- name: A :one\nSELECT ';';\n\n/* b */ SELECT 2;\n  x"
    Settings.IsNamespace "querygen" ∧ (parse "a.sql" src "querygen").errors.length ≤ maxErrors ∧
      (parse "a.sql" src "querygen").file.queries.map Query.isBad = [false, true, true] ∧
      List.Forall₂ (Query.Covers (Position.start.advance src.toList))
        ((Token.segments (tokenize src "querygen")).filter fun segment =>
          segment.any Token.isSubstance)
        (parse "a.sql" src "querygen").file.queries := by
  have hns : Settings.IsNamespace "querygen" := by decide +kernel
  have herrors : (parse "a.sql" ";\n-- name: A :one\nSELECT ';';\n\n/* b */ SELECT 2;\n  x"
      "querygen").errors.length ≤ maxErrors := by
    rw [length_errors_parse]
    decide +kernel
  exact ⟨hns, herrors, by decide +kernel, (queries_cover_segments hns _ _ herrors).1⟩

/-- A statement may start with a blank character: a vertical tab is blank, and it is no part of
the blanks in front of a statement. -/
theorem exists_start_blank :
    ¬ ∀ name src ns : String, Settings.IsNamespace ns →
      (parse name src ns).errors.length ≤ maxErrors →
      List.Forall₂
        (fun segment q => ∃ first, segment.find? Token.isSubstance = some first ∧
          first.StartsAt q.span.start)
        ((Token.segments (tokenize src ns)).filter fun segment => segment.any Token.isSubstance)
        (parse name src ns).file.queries := by
  intro hall
  have h := hall "a.sql" "\x0bSELECT 1;" "querygen"
    (by decide +kernel)
    (by rw [length_errors_parse]; decide +kernel)
  have hfirst : ((Token.segments (tokenize "\x0bSELECT 1;" "querygen")).filter
      fun segment => segment.any Token.isSubstance).map (·.find? Token.isSubstance) =
        [some ⟨.illegal .character, "\x0b", .start⟩] := by
    decide +kernel
  obtain ⟨segment, hsegment, hfind⟩ := List.map_eq_singleton_iff.mp hfirst
  rw [hsegment] at h
  obtain ⟨q, -, ⟨first, hfind', blanks, c, rest, hchars, -, hc, -⟩, -⟩ :=
    List.forall₂_cons_left_iff.mp h
  obtain rfl := Option.some.inj (hfind'.symm.trans hfind)
  have hmem : c ∈ "\x0b".toList := by
    rw [show "\x0b".toList = blanks ++ c :: rest from hchars]
    simp
  obtain rfl : c = '\x0b' := by simpa using hmem
  exact absurd hc (by decide)

end QueryFile

end TypedSql
