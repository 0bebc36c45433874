import TypedSql.Proofs.QueryFile.Reading
import TypedSql.Proofs.QueryFile.Standalone

/-!
# Errors of a file

Errors are raised where an illegal token stands, where a statement starts and where the last comment
in front of it stands, so not in the order of their places. Each is at a place of the file
(`Draft.isPlaceIn_of_mem_errors`).

A statement that cannot be used raises an error on one of its lines or on one of the lines of its
comments (`Segment.exists_raised_of_isBad`). The error may be dropped, but then another one on the
same line was recorded. A file without errors has therefore only statements that can be used, and
`QueryFile.errors_exact` puts this together with the number and the order of the errors, and with
what was read of the file (`Draft.exists_records_read`).
-/

namespace TypedSql

namespace Position

/-- A place in a text: the text in front of it is read up to it and has as many bytes as it says. -/
def IsPlaceIn (src : String) (p : Position) : Prop :=
  ∃ before after : String,
    src = before ++ after ∧ p.offset = before.utf8ByteSize ∧ p = start.advance before.toList

theorem isPlaceIn_advance {src : String} {front rest : List Char} (h : src.toList = front ++ rest) :
    IsPlaceIn src (start.advance front) := by
  refine ⟨String.ofList front, String.ofList rest, ?_, (isEnd_advance front).offset, ?_⟩
  · rw [← String.toList_inj, h]
    simp
  · rw [String.toList_ofList]

theorem le_trans {p q r : Position} (hpq : p.le q = true) (hqr : q.le r = true) :
    p.le r = true := by
  simp only [le, Bool.or_eq_true, Bool.and_eq_true, decide_eq_true_iff, beq_iff_eq] at hpq hqr ⊢
  omega

theorem le_total (p q : Position) : (p.le q || q.le p) = true := by
  simp only [le, Bool.or_eq_true, Bool.and_eq_true, decide_eq_true_iff, beq_iff_eq]
  omega

end Position

theorem ParseError.pairwise_sorted (errors : List ParseError) :
    (sorted errors).Pairwise fun a b => a.pos.le b.pos = true := by
  apply List.pairwise_mergeSort
  · exact fun _ _ _ => Position.le_trans
  · exact fun a b => Position.le_total a.pos b.pos

namespace Token

variable {p q : Position} {ts : List Token}

/-- Each token ends on the line of a later one or before it. -/
theorem Abut.pairwise_line (h : Abut p ts q) :
    ts.Pairwise fun t u => t.endLine ≤ u.pos.line := by
  induction ts generalizing p with
  | nil => exact .nil
  | cons t ts ih =>
    obtain ⟨rfl, hne, hts⟩ := h
    refine .cons (fun u hu => ?_) (ih hts)
    obtain ⟨before, after, rfl⟩ := List.append_of_mem hu
    obtain ⟨m, hbefore, rfl, -⟩ := abut_append.mp hts
    rw [← line_stop]
    exact hbefore.line_le

theorem Abut.endLine_le_of_mem (h : Abut p ts q) {t : Token} (ht : t ∈ ts) :
    t.endLine ≤ q.line := by
  obtain ⟨before, after, rfl⟩ := List.append_of_mem ht
  obtain ⟨m, -, -, -, hafter⟩ := abut_append.mp h
  rw [← line_stop]
  exact hafter.line_le

theorem line_le_endLine (t : Token) : t.pos.line ≤ t.endLine :=
  Nat.le_add_right _ _

theorem line_significantStart_le (t : Token) : t.significantStart.line ≤ t.endLine := by
  obtain ⟨s, rest, hchars, hstart⟩ := t.exists_significantStart
  rw [hstart, Position.line_advance, endLine, hchars, List.count_append]
  omega

theorem isPlaceIn_of_mem {src ns : String} {t : Token} (ht : t ∈ tokenize src ns)
    {front rest : List Char} (hchars : t.chars = front ++ rest) :
    (t.pos.advance front).IsPlaceIn src := by
  obtain ⟨us, vs, htokens⟩ := List.append_of_mem ht
  have hsrc : src.toList = us.flatMap chars ++ front ++ (rest ++ vs.flatMap chars) := by
    rw [Scanner.toList_of_tokenize_eq htokens, hchars, List.append_assoc, List.append_assoc]
  rw [Scanner.pos_of_tokenize_eq htokens, ← Position.advance_append]
  exact Position.isPlaceIn_advance hsrc

end Token

namespace CommentGroup

theorem lastPos_eq {g : CommentGroup} (h : g.comments ≠ []) :
    g.lastPos = (g.comments.getLast h).pos := by
  rw [lastPos, List.getLast?_eq_some_getLast h]
  rfl

theorem start_span_eq {g : CommentGroup} (h : g.comments ≠ []) :
    g.span.start = (g.comments.head h).pos := by
  rw [span, List.head?_eq_some_head h]
  rfl

end CommentGroup

namespace Annotation

theorem pos_of_ofGroup_eq_error {g : CommentGroup} {e : ParseError} (h : ofGroup g = .error e) :
    e.pos = g.lastPos := by
  unfold ofGroup at h
  simp only at h
  split at h
  · contradiction
  · exact congrArg ParseError.pos (Except.error.inj h).symm

end Annotation

namespace Segment

variable {s : Segment} {first : Token} {stop p q : Position}

/-- The tokens of a segment have no gaps, and its statement ends where they end. -/
theorem exists_abut_of_mem_cut {tokens : List Token} (h : Token.Abut p tokens stop)
    (hs : s ∈ cut tokens) :
    ∃ p' q', Token.Abut p' s.tokens q' ∧ (s.semicolon = none → q' = stop) := by
  induction tokens using cut_induction generalizing p with
  | nil => contradiction
  | last s' =>
    obtain rfl := List.mem_singleton.mp hs
    exact ⟨p, stop, h, fun _ => rfl⟩
  | cons s' rest hs' hsemi ih =>
    obtain ⟨m, hm, hrest⟩ := Token.abut_append.mp h
    rcases List.mem_cons.mp hs with rfl | hs
    · exact ⟨p, m, hm, fun hnone => by simp [hnone] at hsemi⟩
    · exact ih hrest hs

/-- The lead comment group of a statement stands in front of it. -/
theorem lines_lead (hp : Token.Abut p s.tokens q) {g : CommentGroup}
    (hb : s.body.head? = some first) (hg : s.lead = some g) :
    g.span.start.line ≤ g.lastPos.line ∧ g.lastPos.line ≤ first.significantStart.line := by
  obtain ⟨hlast, -⟩ := (lead_eq_some_iff hb).mp hg
  obtain ⟨hne, hsub⟩ := CommentGroup.sublist_of_mem_ofTrivia (List.mem_of_getLast? hlast)
  obtain ⟨body, hbody⟩ := List.head?_eq_some_iff.mp hb
  rw [tokens, hbody, List.cons_append] at hp
  rw [CommentGroup.lastPos_eq hne, CommentGroup.start_span_eq hne]
  constructor
  · obtain ⟨m, htrivia, -⟩ := Token.abut_append.mp hp
    have hlines : g.comments.Pairwise fun t u => t.pos.line ≤ u.pos.line :=
      (htrivia.pairwise_line.sublist hsub).imp fun h => (Token.line_le_endLine _).trans h
    exact hlines.rel_head_of_rel_head_head (List.getLast_mem hne) (Nat.le_refl _)
  · have hend := hp.endLine_le (hsub.subset (List.getLast_mem hne))
    exact ((Token.line_le_endLine _).trans hend).trans first.line_le_significantStart

/-- A statement starts and has its illegal tokens on its lines. -/
theorem lines_body (hp : Token.Abut p s.tokens q) (hb : s.body.head? = some first) :
    first.significantStart.line ≤ q.line ∧ ∀ t ∈ s.body, t.kind ≠ .fragment →
      first.significantStart.line ≤ t.pos.line ∧ t.pos.line ≤ q.line := by
  obtain ⟨body, hbody⟩ := List.head?_eq_some_iff.mp hb
  rw [tokens] at hp
  obtain ⟨_, -, hp⟩ := Token.abut_append.mp hp
  obtain ⟨_, hp, hq⟩ := Token.abut_append.mp hp
  have hend : ∀ t ∈ s.body, t.endLine ≤ q.line := fun t ht =>
    (hp.endLine_le_of_mem ht).trans hq.line_le
  refine ⟨first.line_significantStart_le.trans (hend first (List.mem_of_head? hb)), ?_⟩
  intro t ht hk
  refine ⟨?_, (Token.line_le_endLine t).trans (hend t ht)⟩
  rw [hbody] at hp ht
  rcases List.mem_cons.mp ht with rfl | ht
  · rw [Token.significantStart_of_ne hk]
  · exact first.line_significantStart_le.trans ((List.pairwise_cons.mp hp.pairwise_line).1 t ht)

/-- A statement that cannot be used has a fault of its own, or an illegal token. -/
theorem fault_or_isIllegal_of_isBad (h : (s.query stop first).isBad = true) :
    (∃ e, s.fault? first = some e) ∨ ∃ t ∈ s.body, t.isIllegal = true := by
  unfold query at h
  unfold fault?
  cases hsemi : s.semicolon with
  | none => exact .inl ⟨_, rfl⟩
  | some semicolon =>
    cases hillegal : s.body.any Token.isIllegal with
    | true => exact .inr (List.any_eq_true.mp hillegal)
    | false =>
      cases hlead : s.lead.map Annotation.ofGroup with
      | none => exact .inl ⟨_, rfl⟩
      | some a =>
        cases a with
        | error e => exact .inl ⟨e, rfl⟩
        | ok a => simp [hsemi, hillegal, hlead, Query.isBad] at h

/-- The fault of a statement is where the statement starts, or at its last comment. -/
theorem pos_fault {e : ParseError} (h : s.fault? first = some e) :
    e.pos = first.significantStart ∨ ∃ g, s.lead = some g ∧ e.pos = g.lastPos := by
  unfold fault? at h
  split at h
  · obtain rfl := Option.some.inj h
    exact .inl rfl
  · split at h
    · contradiction
    · split at h
      · obtain rfl := Option.some.inj h
        exact .inl rfl
      · rename_i e' hlead
        obtain rfl := Option.some.inj h
        obtain ⟨g, hg, hread⟩ := Option.map_eq_some_iff.mp hlead
        exact .inr ⟨g, hg, Annotation.pos_of_ofGroup_eq_error hread⟩
      · contradiction

theorem steps_eq (hb : s.body.head? = some first) :
    s.steps = .trivia s :: (s.body.map ReadStep.token ++ [.finish s first]) := by
  obtain ⟨body, hbody⟩ := List.head?_eq_some_iff.mp hb
  rw [steps, hbody]

theorem error?_token {t : Token} (h : t.isIllegal = true) :
    ∃ e, (ReadStep.token t).error? = some e ∧ e.pos = t.pos := by
  unfold Token.isIllegal at h
  split at h
  · rename_i reason hk
    exact ⟨.of t.pos (.illegal reason), by rw [ReadStep.error?, hk], rfl⟩
  · contradiction

theorem pos_of_error?_token {t : Token} {e : ParseError} (h : (ReadStep.token t).error? = some e) :
    e.pos = t.pos := by
  simp only [ReadStep.error?] at h
  split at h
  · obtain rfl := Option.some.inj h
    rfl
  · contradiction

/-- The line on which the comments of a statement start, or else the statement. -/
def firstLine (s : Segment) (q : Query) : Nat :=
  (s.lead.map fun g => g.span.start.line).getD q.span.start.line

/-- A statement that cannot be used raises an error on one of its lines or on one of the lines of
its comments. -/
theorem exists_raised_of_isBad (hp : Token.Abut p s.tokens q)
    (hstop : s.semicolon = none → q = stop) (hb : s.body.head? = some first)
    (h : (s.query stop first).isBad = true) :
    ∃ step ∈ s.steps, ∃ e, step.error? = some e ∧
      s.firstLine (s.query stop first) ≤ e.pos.line ∧
      e.pos.line ≤ (s.query stop first).span.stop.line := by
  obtain ⟨hend, hbody⟩ := lines_body hp hb
  have hfirst : s.firstLine (s.query stop first) ≤ first.significantStart.line := by
    unfold firstLine
    cases hg : s.lead with
    | none => rw [start_query]; exact Nat.le_refl _
    | some g => exact (lines_lead hp hb hg).1.trans (lines_lead hp hb hg).2
  rw [stop_span_query hp hstop, steps_eq hb]
  rcases fault_or_isIllegal_of_isBad h with ⟨e, he⟩ | ⟨t, ht, hi⟩
  · refine ⟨.finish s first, by simp, e, he, ?_⟩
    rcases pos_fault he with hpos | ⟨g, hg, hpos⟩
    · rw [hpos]
      exact ⟨hfirst, hend⟩
    · obtain ⟨hstart, hlast⟩ := lines_lead hp hb hg
      rw [hpos, firstLine, hg]
      exact ⟨hstart, hlast.trans hend⟩
  · obtain ⟨e, he, hpos⟩ := error?_token hi
    refine ⟨.token t, by simp [ht], e, he, ?_⟩
    have hk : t.kind ≠ .fragment := by
      intro hk
      simp [Token.isIllegal, hk] at hi
    rw [hpos]
    exact ⟨hfirst.trans (hbody t ht hk).1, (hbody t ht hk).2⟩

theorem eq_of_finish_mem {s' : Segment} (h : .finish s first ∈ s'.steps) :
    s = s' ∧ s.body.head? = some first := by
  unfold steps at h
  cases hb : s'.body with
  | nil => simp [hb] at h
  | cons first' body =>
    obtain ⟨rfl, rfl⟩ : s = s' ∧ first = first' := by simpa [hb] using h
    exact ⟨rfl, by rw [hb]; rfl⟩

theorem mem_body_of_token_mem {t : Token} (h : .token t ∈ s.steps) : t ∈ s.body := by
  unfold steps at h
  cases hb : s.body with
  | nil => simp [hb] at h
  | cons first body => simpa [hb] using h

/-- When the end of a statement was read, so was the whole statement. -/
theorem steps_subset_of_finish_mem {segments : List Segment} {done left : List ReadStep}
    (h : segments.flatMap steps = done ++ left) (hfinish : .finish s first ∈ done) :
    s ∈ segments ∧ s.body.head? = some first ∧ s.steps ⊆ done := by
  induction segments generalizing done with
  | nil =>
    obtain ⟨rfl, -⟩ := List.append_eq_nil_iff.mp h.symm
    contradiction
  | cons s' segments ih =>
    rw [List.flatMap_cons] at h
    rcases List.append_eq_append_iff.mp h with ⟨more, rfl, hmore⟩ | ⟨gap, hsteps, -⟩
    · rcases List.mem_append.mp hfinish with hmem | hmem
      · obtain ⟨rfl, hfirst⟩ := eq_of_finish_mem hmem
        exact ⟨List.mem_cons_self, hfirst, List.subset_append_left _ _⟩
      · obtain ⟨hs, hfirst, hsub⟩ := ih hmore hmem
        exact ⟨List.mem_cons_of_mem s' hs, hfirst,
          List.Subset.trans hsub (List.subset_append_right _ _)⟩
    · obtain ⟨rfl, hfirst⟩ := eq_of_finish_mem (hsteps ▸ List.mem_append_left gap hfinish)
      refine ⟨List.mem_cons_self, hfirst, ?_⟩
      -- The end of a statement is the last step of its segment.
      rcases List.eq_nil_or_concat gap with rfl | ⟨gap, step, rfl⟩
      · rw [hsteps, List.append_nil]
        exact List.Subset.refl _
      · rw [steps_eq hfirst, List.concat_eq_append, ← List.append_assoc, ← List.cons_append]
          at hsteps
        obtain ⟨hfront, -⟩ := List.append_inj' hsteps rfl
        have hmem : .finish s first ∈ ReadStep.trivia s :: s.body.map ReadStep.token :=
          hfront ▸ List.mem_append_left gap hfinish
        simp at hmem

/-- A query is that of its statement, and when it cannot be used an error is recorded between the
first line of its comments and its last line. -/
structure Reported (stop : Position) (errors : List ParseError) (s : Segment) (q : Query) :
    Prop where
  query : s.query? stop = some q
  error : q.isBad = true →
    ∃ e ∈ errors, s.firstLine q ≤ e.pos.line ∧ e.pos.line ≤ q.span.stop.line

theorem isBad_eq_false_of_reported {segments : List Segment} {queries : List Query}
    (h : List.Forall₂ (Reported stop []) segments queries) {q : Query} (hq : q ∈ queries) :
    q.isBad = false := by
  induction h with
  | nil => contradiction
  | cons hreported _ ih =>
    rcases List.mem_cons.mp hq with rfl | hq
    · by_contra hbad
      obtain ⟨e, he, -⟩ := hreported.error (by simpa using hbad)
      contradiction
    · exact ih hq

end Segment

namespace ReadStep

/-- The segment whose statement a step ends. -/
def finished? : ReadStep → Option Segment
  | .trivia _ | .token _ => none
  | .finish s _ => some s

theorem filterMap_finished?_steps (segments : List Segment) :
    (segments.flatMap Segment.steps).filterMap finished? =
      segments.filter fun s => !s.body.isEmpty := by
  induction segments with
  | nil => rfl
  | cons s segments ih =>
    rw [List.flatMap_cons, List.filterMap_append, ih, List.filter_cons]
    have htokens (body : List Token) : (body.map token).filterMap finished? = [] := by
      simp [List.filterMap_map, finished?]
    unfold Segment.steps
    cases hb : s.body with
    | nil => simp [finished?]
    | cons first body =>
      rw [List.filterMap_cons_none rfl, List.filterMap_append, htokens]
      simp [finished?]

theorem forall₂_finished? {R : Segment → Query → Prop} {stop : Position} {steps : List ReadStep}
    (h : ∀ s first, .finish s first ∈ steps → R s (s.query stop first)) :
    List.Forall₂ R (steps.filterMap finished?) (steps.filterMap (query? stop)) := by
  induction steps with
  | nil => exact .nil
  | cons step steps ih =>
    have hrest := ih fun s first hmem => h s first (List.mem_cons_of_mem step hmem)
    cases step with
    | trivia s => exact hrest
    | token t => exact hrest
    | finish s first => exact .cons (h s first List.mem_cons_self) hrest

end ReadStep

namespace Draft

variable {stop : Position} {tokens : List Token}

theorem exists_step_of_mem_errors {e : ParseError} (h : e ∈ (ofTokens stop tokens).errors) :
    ∃ s ∈ Segment.cut tokens, ∃ step ∈ s.steps, step.error? = some e := by
  obtain ⟨done, left, hsteps, hrecords, -⟩ := exists_records_ofTokens stop tokens
  rw [hrecords.errors] at h
  rcases ParseError.mem_of_mem_foldl_record h with h | h
  · contradiction
  · obtain ⟨step, hstep, he⟩ := List.mem_filterMap.mp h
    have hmem : step ∈ (Segment.cut tokens).flatMap Segment.steps :=
      hsteps ▸ List.mem_append_left left hstep
    obtain ⟨s, hs, hstep⟩ := List.mem_flatMap.mp hmem
    exact ⟨s, hs, step, hstep, he⟩

/-- Each query is that of the statement at its place, and when it cannot be used an error was
recorded on its lines. -/
theorem forall₂_reported {p : Position} (h : Token.Abut p tokens stop) :
    List.Forall₂ (Segment.Reported stop (ofTokens stop tokens).errors)
      (((Segment.cut tokens).filter fun s => !s.body.isEmpty).take
        (ofTokens stop tokens).queries.length)
      (ofTokens stop tokens).queries := by
  obtain ⟨done, left, hsteps, hrecords, -⟩ := exists_records_ofTokens stop tokens
  have hall : List.Forall₂ (Segment.Reported stop (ofTokens stop tokens).errors)
      (done.filterMap ReadStep.finished?) (ofTokens stop tokens).queries := by
    rw [hrecords.queries]
    apply ReadStep.forall₂_finished?
    intro s first hfinish
    obtain ⟨hs, hfirst, hsub⟩ := Segment.steps_subset_of_finish_mem hsteps hfinish
    obtain ⟨p', q', hp, hstop⟩ := Segment.exists_abut_of_mem_cut h hs
    refine ⟨by rw [Segment.query?, hfirst, Option.map_some], fun hbad => ?_⟩
    obtain ⟨step, hstep, e, he, hlow, hhigh⟩ :=
      Segment.exists_raised_of_isBad hp hstop hfirst hbad
    obtain ⟨e', he', hline⟩ :=
      ParseError.exists_mem_foldl_record [] (List.mem_filterMap.mpr ⟨step, hsub hstep, he⟩)
    rw [hrecords.errors]
    exact ⟨e', he', hline ▸ hlow, hline ▸ hhigh⟩
  have hprefix : done.filterMap ReadStep.finished? <+:
      (Segment.cut tokens).filter fun s => !s.body.isEmpty := by
    rw [← ReadStep.filterMap_finished?_steps, hsteps, List.filterMap_append]
    exact List.prefix_append _ _
  rw [← hall.length_eq, ← List.prefix_iff_eq_take.mp hprefix]
  exact hall

/-- The tokens of a file are those that were read and those that are left, and the draft of the file
holds what the steps gave in which the former were read. -/
theorem exists_records_read (stop : Position) (tokens : List Token) :
    ∃ done, done.flatMap ReadStep.tokens ++ unread stop tokens = tokens ∧
      Records stop done (ofTokens stop tokens) := by
  obtain ⟨done, left, hsteps, hrecords, hleft, -⟩ := exists_records_ofTokens stop tokens
  refine ⟨done, ?_, hrecords⟩
  have htokens (segments : List Segment) :
      (segments.flatMap Segment.steps).flatMap ReadStep.tokens =
        (segments.map Segment.tokens).flatten := by
    rw [List.flatMap_assoc, ← List.flatMap_def]
    exact List.flatMap_congr fun s _ => s.flatMap_tokens_steps
  rw [← hleft, ← List.flatMap_append, ← hsteps, htokens, Segment.flatten_tokens_cut]

/-- A file that was read to its end has a query for each statement. -/
theorem length_queries_ofTokens (h : (ofTokens stop tokens).isFull = false) :
    (ofTokens stop tokens).queries.length =
      ((Segment.cut tokens).filter fun s => !s.body.isEmpty).length := by
  rw [queries_ofTokens h]
  induction Segment.cut tokens with
  | nil => rfl
  | cons s segments ih => cases hb : s.body <;> simp [Segment.query?, hb, ih]

/-- A file is left in front of its end only behind one error too many. -/
theorem length_errors_of_unread (h : unread stop tokens ≠ []) :
    (ofTokens stop tokens).errors.length = maxErrors + 1 := by
  obtain ⟨done, left, -, hrecords, hleft, hfull⟩ := exists_records_ofTokens stop tokens
  have hne : left ≠ [] := by
    rintro rfl
    exact h hleft.symm
  have hmany := hfull hne
  rw [isFull, decide_eq_true_iff] at hmany
  exact Nat.le_antisymm hrecords.bounded hmany

/-- Each error is at a place of the file. -/
theorem isPlaceIn_of_mem_errors {src ns : String} {e : ParseError}
    (h : e ∈ (ofTokens stop (tokenize src ns)).errors) : e.pos.IsPlaceIn src := by
  obtain ⟨s, hs, step, hstep, he⟩ := exists_step_of_mem_errors h
  have hmem {t : Token} (ht : t ∈ s.tokens) : t ∈ tokenize src ns := Segment.mem_of_mem_cut hs ht
  have hstart {t : Token} (ht : t ∈ s.tokens) : t.pos.IsPlaceIn src :=
    Token.isPlaceIn_of_mem (hmem ht) (List.nil_append t.chars).symm
  cases step with
  | trivia s => contradiction
  | token t =>
    have ht : t ∈ s.body := Segment.mem_body_of_token_mem hstep
    rw [Segment.pos_of_error?_token he]
    exact hstart (List.mem_append_right _ (List.mem_append_left _ ht))
  | finish s first =>
    obtain ⟨rfl, hfirst⟩ := Segment.eq_of_finish_mem hstep
    rcases Segment.pos_fault he with hpos | ⟨g, hg, hpos⟩
    · obtain ⟨front, rest, hchars, hsignificant⟩ := first.exists_significantStart
      have hbody : first ∈ s.tokens :=
        List.mem_append_right _ (List.mem_append_left _ (List.mem_of_head? hfirst))
      rw [hpos, hsignificant]
      exact Token.isPlaceIn_of_mem (hmem hbody) hchars
    · obtain ⟨hlast, -⟩ := (Segment.lead_eq_some_iff hfirst).mp hg
      obtain ⟨hne, hsub⟩ := CommentGroup.sublist_of_mem_ofTrivia (List.mem_of_getLast? hlast)
      rw [hpos, CommentGroup.lastPos_eq hne]
      exact hstart (List.mem_append_left _ (hsub.subset (List.getLast_mem hne)))

end Draft

namespace QueryFile

theorem mem_errors_parse {name src ns : String} {e : ParseError} :
    e ∈ (parse name src ns).errors ↔
      e ∈ (Draft.ofTokens (Position.start.advance src.toList) (tokenize src ns)).errors :=
  List.mem_mergeSort

/-- Errors that are recorded in the order of their places stay in this order. -/
theorem errors_parse_of_pairwise {src ns : String} {errors : List ParseError} (name : String)
    (h : (Draft.ofTokens (Position.start.advance src.toList) (tokenize src ns)).errors = errors)
    (hplaces : errors.Pairwise fun a b => a.pos.le b.pos = true) :
    (parse name src ns).errors = errors := by
  rw [parse, h]
  exact List.mergeSort_of_pairwise hplaces

/-- The errors of a file are sorted and in number one more than `maxErrors` at most. The tokens of
the file are those that were read, which gave what the draft of the file holds, and those that are
left. Any are left only when there is this one more error, and without it each statement has its
query. Each error is at a place of the file, and each statement that cannot be used has one on its
lines. -/
theorem errors_exact (name src ns : String) :
    let p := parse name src ns
    let stop := Position.start.advance src.toList
    let unread := Draft.unread stop (tokenize src ns)
    let statements := (Segment.cut (tokenize src ns)).filter fun s => !s.body.isEmpty
    p.errors.Pairwise (fun a b => a.pos.le b.pos = true) ∧
      p.errors.length ≤ maxErrors + 1 ∧
      (∃ done, done.flatMap ReadStep.tokens ++ unread = tokenize src ns ∧
        Draft.Records stop done (Draft.ofTokens stop (tokenize src ns))) ∧
      (unread ≠ [] → p.errors.length = maxErrors + 1) ∧
      (p.errors.length ≤ maxErrors →
        unread = [] ∧ p.file.queries.length = statements.length) ∧
      (∀ e ∈ p.errors, e.pos.IsPlaceIn src) ∧
      List.Forall₂ (Segment.Reported stop p.errors)
        (statements.take p.file.queries.length) p.file.queries ∧
      ∀ f, p.result = .ok f → f.hasBad = false := by
  intro p stop unread statements
  have hlength : p.errors.length = (Draft.ofTokens stop (tokenize src ns)).errors.length :=
    length_errors_parse name src ns
  have hbounded : p.errors.length ≤ maxErrors + 1 := by
    obtain ⟨done, left, -, hrecords, -⟩ := Draft.exists_records_ofTokens stop (tokenize src ns)
    exact hlength ▸ hrecords.bounded
  have hstopped : unread ≠ [] → p.errors.length = maxErrors + 1 := fun h =>
    hlength.trans (Draft.length_errors_of_unread h)
  have hreported : List.Forall₂ (Segment.Reported stop p.errors)
      (statements.take p.file.queries.length) p.file.queries := by
    refine (Draft.forall₂_reported (Scanner.abut_tokenize src ns)).imp ?_
    rintro s q ⟨hquery, herror⟩
    refine ⟨hquery, fun hbad => ?_⟩
    obtain ⟨e, he, hlines⟩ := herror hbad
    exact ⟨e, mem_errors_parse.mpr he, hlines⟩
  refine ⟨?_, hbounded, Draft.exists_records_read stop _, hstopped, ?_, ?_, hreported, ?_⟩
  · exact ParseError.pairwise_sorted _
  · intro hfew
    constructor
    · by_contra hne
      have hmany := hstopped hne
      omega
    · refine Draft.length_queries_ofTokens (decide_eq_false ?_)
      rw [← hlength]
      exact Nat.not_lt.mpr hfew
  · exact fun e he => Draft.isPlaceIn_of_mem_errors (mem_errors_parse.mp he)
  · intro f hf
    unfold ParsedFile.result at hf
    split at hf
    · rename_i hnone
      obtain rfl := Except.ok.inj hf
      rw [List.isEmpty_iff.mp hnone] at hreported
      rw [QueryFile.hasBad, List.any_eq_false]
      intro q hq
      rw [Segment.isBad_eq_false_of_reported hreported hq]
      exact Bool.false_ne_true
    · contradiction

/-- Two statements on one line that cannot be used leave one error. -/
example :
    let draft := Draft.ofTokens ⟨20, 1, 21⟩ (tokenize "SELECT 1; SELECT $$;" "q")
    draft.queries.map Query.isBad = [true, true] ∧ draft.errors.map (·.pos) = [.start] := by
  decide +kernel

end QueryFile

end TypedSql
