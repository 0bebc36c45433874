import TypedSql.Proofs.QueryFile.Annotated
import TypedSql.Proofs.QueryFile.Grouping

/-!
# The comments of a file

The comments of a file are kept in groups, none is lost, and which of them share a group can be read
off the text. The first group documents the file, unless it follows a statement or leads one
(`QueryFile.comments_exact`).

While a file is read, only the first segment with a comment or a statement decides about the doc
(`Draft.doc_ofTokens`): the segments in front of it leave the draft as it is, and those behind it
find it marked.
-/

namespace TypedSql

namespace Segment

/-- A segment without comments and without a statement. -/
def IsQuiet (s : Segment) : Prop :=
  CommentGroup.ofTrivia s.trivia = [] ∧ s.body = []

/-- The doc of a file in which no comment and no statement stands in front of the segment. -/
def fileDoc (s : Segment) : List String :=
  match CommentGroup.ofTrivia s.trivia with
  | [] => []
  | [g] => if s.lead.isSome then [] else g.lines
  | g :: _ :: _ => g.lines

end Segment

namespace Draft

variable {d : Draft} {s : Segment} {stop : Position}

@[simp] theorem seen_report (d : Draft) (e : ParseError) : (d.report e).seen = d.seen := by
  unfold report
  split <;> rfl

@[simp] theorem seen_addToken (d : Draft) (t : Token) : (d.addToken t).seen = d.seen := by
  unfold addToken
  split
  · rfl
  · split <;> simp

theorem seen_foldl_addToken (ts : List Token) (d : Draft) :
    (ts.foldl addToken d).seen = d.seen := by
  induction ts generalizing d with
  | nil => rfl
  | cons t ts ih => rw [List.foldl_cons, ih, seen_addToken]

/-- A statement does not change the doc of a file, and no later comment does. -/
theorem addStatement_doc (d : Draft) (stop : Position) (s : Segment) (first : Token) :
    (d.addStatement stop s first).doc = d.doc ∧ (d.addStatement stop s first).seen = true := by
  have hdoc := doc_foldl_addToken s.body { d with seen := true }
  have hseen := seen_foldl_addToken s.body { d with seen := true }
  rw [addStatement_eq]
  simp only
  split
  · exact ⟨hdoc, hseen⟩
  · cases s.fault? first with
    | none => exact ⟨hdoc, hseen⟩
    | some e => exact ⟨(doc_report _ e).trans hdoc, (seen_report _ e).trans hseen⟩

theorem foldl_addGroup_of_seen (isLead : Bool) (groups : List CommentGroup) (h : d.seen = true) :
    (groups.foldl (addGroup isLead) d).doc = d.doc ∧
      (groups.foldl (addGroup isLead) d).seen = true := by
  induction groups generalizing d with
  | nil => exact ⟨rfl, h⟩
  | cons g groups ih =>
    obtain ⟨hdoc, hseen⟩ := ih (d := addGroup isLead d g) rfl
    refine ⟨hdoc.trans ?_, hseen⟩
    simp [addGroup, h]

/-- Once a comment or a statement was met, the doc of a file is settled. -/
theorem addSegment_of_seen (stop : Position) (s : Segment) (h : d.seen = true) :
    (d.addSegment stop s).doc = d.doc ∧ (d.addSegment stop s).seen = true := by
  have htrivia : (d.addTrivia s).doc = d.doc ∧ (d.addTrivia s).seen = true := by
    obtain ⟨hdoc, hseen⟩ :=
      foldl_addGroup_of_seen false (CommentGroup.ofTrivia s.trivia).dropLast h
    obtain ⟨hdoc', hseen'⟩ := foldl_addGroup_of_seen s.lead.isSome
      (CommentGroup.ofTrivia s.trivia).getLast?.toList hseen
    exact ⟨hdoc'.trans hdoc, hseen'⟩
  unfold addSegment
  split
  · exact ⟨rfl, h⟩
  · simp only
    split
    · exact htrivia
    · obtain ⟨hdoc, hseen⟩ := addStatement_doc (d.addTrivia s) stop s _
      exact ⟨hdoc.trans htrivia.1, hseen⟩

theorem foldl_addSegment_of_seen (stop : Position) (segments : List Segment) (h : d.seen = true) :
    (segments.foldl (addSegment stop) d).doc = d.doc := by
  induction segments generalizing d with
  | nil => rfl
  | cons s segments ih =>
    obtain ⟨hdoc, hseen⟩ := addSegment_of_seen stop s h
    exact (ih hseen).trans hdoc

theorem addSegment_of_isQuiet (h : s.IsQuiet) (d : Draft) (stop : Position) :
    d.addSegment stop s = d := by
  obtain ⟨hgroups, hbody⟩ := h
  simp [addSegment, addTrivia, hgroups, hbody]

theorem foldl_addSegment_of_isQuiet {segments : List Segment} (h : ∀ s ∈ segments, s.IsQuiet)
    (d : Draft) (stop : Position) : segments.foldl (addSegment stop) d = d := by
  induction segments with
  | nil => rfl
  | cons s segments ih =>
    rw [List.foldl_cons, addSegment_of_isQuiet (h s List.mem_cons_self)]
    exact ih fun s' hs' => h s' (List.mem_cons_of_mem s hs')

theorem addTrivia_empty (s : Segment) : (empty.addTrivia s).doc = s.fileDoc ∧
    (CommentGroup.ofTrivia s.trivia ≠ [] → (empty.addTrivia s).seen = true) := by
  unfold addTrivia Segment.fileDoc
  match CommentGroup.ofTrivia s.trivia with
  | [] => exact ⟨rfl, fun h => absurd rfl h⟩
  | [g] =>
    refine ⟨?_, fun _ => rfl⟩
    cases s.lead.isSome <;> simp [addGroup, empty]
  | g :: g' :: groups =>
    have hfirst : (addGroup false empty g).seen = true := rfl
    obtain ⟨hdoc, hseen⟩ := foldl_addGroup_of_seen false (g' :: groups).dropLast hfirst
    obtain ⟨hdoc', hseen'⟩ := foldl_addGroup_of_seen s.lead.isSome
      (g :: g' :: groups).getLast?.toList hseen
    exact ⟨hdoc'.trans hdoc, fun _ => hseen'⟩

theorem addSegment_empty (stop : Position) (h : ¬ s.IsQuiet) :
    (empty.addSegment stop s).doc = s.fileDoc ∧ (empty.addSegment stop s).seen = true := by
  obtain ⟨hdoc, hseen⟩ := addTrivia_empty s
  have hfull : empty.isFull = false := rfl
  unfold addSegment
  simp only [hfull, Bool.false_eq_true, if_false]
  cases hbody : s.body with
  | nil => exact ⟨hdoc, hseen fun hgroups => h ⟨hgroups, hbody⟩⟩
  | cons first body =>
    obtain ⟨hdoc', hseen'⟩ := addStatement_doc (empty.addTrivia s) stop s first
    exact ⟨hdoc'.trans hdoc, hseen'⟩

/-- The first segment with a comment or a statement decides about the doc of a file. -/
theorem doc_ofTokens {ts : List Token} {quiet rest : List Segment}
    (hcut : Segment.cut ts = quiet ++ s :: rest) (hquiet : ∀ s' ∈ quiet, s'.IsQuiet)
    (hs : ¬ s.IsQuiet) : (ofTokens stop ts).doc = s.fileDoc := by
  obtain ⟨hdoc, hseen⟩ := addSegment_empty stop hs
  rw [ofTokens, hcut, List.foldl_append, foldl_addSegment_of_isQuiet hquiet, List.foldl_cons,
    foldl_addSegment_of_seen stop rest hseen, hdoc]

theorem doc_ofTokens_of_isQuiet {ts : List Token} (h : ∀ s ∈ Segment.cut ts, s.IsQuiet) :
    (ofTokens stop ts).doc = [] := by
  rw [ofTokens, foldl_addSegment_of_isQuiet h]
  rfl

end Draft

/-- A comment group leads a statement: only blanks are between the last comment and the statement,
which starts on the next line or before it. -/
def CommentGroup.Leads (ts : List Token) (g : CommentGroup) (q : Query) : Prop :=
  ∃ us t ms first vs, ts = us ++ t :: (ms ++ first :: vs) ∧ g.comments.getLast? = some t ∧
    (∀ m ∈ ms, m.isBlank = true) ∧ first.isSubstance = true ∧
    q.span.start = first.significantStart ∧ q.span.start.line ≤ t.endLine + 1

namespace CommentGroup

theorem isComment_of_mem_ofTrivia {ts : List Token} {g : CommentGroup} (h : g ∈ ofTrivia ts)
    {t : Token} (ht : t ∈ g.comments) : t.kind.isComment = true := by
  have hmem := List.mem_flatMap.mpr ⟨g, h, ht⟩
  rw [flatMap_comments_ofTrivia] at hmem
  exact (List.mem_filter.mp hmem).2

/-- The last comment is in the last group. -/
theorem getLast?_filter {ts : List Token} {g : CommentGroup}
    (h : (ofTrivia ts).getLast? = some g) :
    (ts.filter (·.kind.isComment)).getLast? = g.comments.getLast? := by
  obtain ⟨front, heq⟩ := List.getLast?_eq_some_iff.mp h
  obtain ⟨hne, -⟩ := sublist_of_mem_ofTrivia (List.mem_of_getLast? h)
  have ht := List.getLast?_eq_some_getLast hne
  rw [← flatMap_comments_ofTrivia, heq, List.flatMap_append, List.flatMap_singleton,
    List.getLast?_append, ht, Option.some_or]

end CommentGroup

namespace Segment

variable {s : Segment} {ts : List Token} {g : CommentGroup} {stop p : Position}

theorem exists_head?_of_lead (h : s.lead = some g) : ∃ first, s.body.head? = some first := by
  cases hfirst : s.body.head? with
  | none => simp [lead, hfirst] at h
  | some first => exact ⟨first, rfl⟩

theorem isSubstance_of_head? {first : Token} (h : s.Formed) (hfirst : s.body.head? = some first) :
    first.isSubstance = true := by
  have hkind := h.body first (List.mem_of_head? hfirst)
  simp [Token.isSubstance, h.head first hfirst, hkind]

/-- The groups in front of a statement have no comment in common. -/
theorem eq_of_mem_comments {g g' : CommentGroup} (hnodup : s.trivia.Nodup)
    (hg : g ∈ CommentGroup.ofTrivia s.trivia) (hg' : g' ∈ CommentGroup.ofTrivia s.trivia)
    {t : Token} (ht : t ∈ g.comments) (ht' : t ∈ g'.comments) : g = g' := by
  have hcomments := hnodup.filter (·.kind.isComment)
  rw [← CommentGroup.flatMap_comments_ofTrivia] at hcomments
  exact Runs.eq_of_nodup_flatMap hcomments hg hg' ht ht'

/-- What follows the blanks behind a comment in front of a statement is the statement. -/
theorem body_of_mem_trivia {us ms vs : List Token} {t first : Token}
    (hnodup : (us ++ t :: (ms ++ first :: vs)).Nodup)
    (hs : s ∈ cut (us ++ t :: (ms ++ first :: vs))) (ht : t ∈ s.trivia)
    (hms : ∀ m ∈ ms, m.isBlank = true) (hfirst : first.isSubstance = true) :
    (∃ front, s.trivia = front ++ t :: ms) ∧ s.body.head? = some first := by
  obtain ⟨front, after, -, htrivia, hbody, hafter⟩ := exists_trivia_eq hnodup hs ht
  rw [Token.isSubstance, Bool.and_eq_true, Bool.not_eq_true', bne_iff_ne] at hfirst
  have hms' : ∀ m ∈ ms, m.isTrivia = true := fun m hm => by simp [Token.isTrivia, hms m hm]
  have hhead : ∀ m ∈ (first :: vs).head?, m.isTrivia = false := by
    rintro m ⟨⟩
    exact hfirst.1
  rw [Runs.takeWhile_append hms' hhead] at htrivia
  rw [Runs.dropWhile_append hms' hhead, List.append_assoc] at hbody
  refine ⟨⟨front, htrivia⟩, ?_⟩
  cases hb : s.body with
  | cons first' body =>
    rw [hb] at hbody
    rw [(List.cons.inj hbody).1]
    rfl
  | nil =>
    -- Without a statement, a semicolon follows the comments and blanks, or nothing does.
    rw [hb] at hbody
    cases hc : s.semicolon with
    | none => simp [hc] at hafter hbody; simp [hafter] at hbody
    | some semicolon =>
      rw [hc] at hbody
      obtain rfl := (List.cons.inj hbody).1
      exact absurd ((formed_of_mem_cut hs).semicolon first hc) hfirst.2

/-- A comment group that leads a statement is the last one in front of it. -/
theorem lead_eq_some_of_leads {q : Query} (hnodup : ts.Nodup) (hs : s ∈ cut ts)
    (hg : g ∈ CommentGroup.ofTrivia s.trivia) (h : g.Leads ts q) : s.lead = some g := by
  obtain ⟨us, t, ms, first, vs, rfl, hlast, hms, hfirst, hstart, hline⟩ := h
  have htg : t ∈ g.comments := List.mem_of_getLast? hlast
  obtain ⟨⟨front, htrivia⟩, hbody⟩ := body_of_mem_trivia hnodup hs
    ((CommentGroup.sublist_of_mem_ofTrivia hg).2.subset htg) hms hfirst
  rw [lead_eq_some_iff hbody]
  constructor
  · obtain ⟨g', hg'⟩ := Option.isSome_iff_exists.mp
      (List.getLast?_isSome.mpr (List.ne_nil_of_mem hg))
    have hlast' := CommentGroup.getLast?_filter hg'
    rw [htrivia, List.filter_append, List.filter_cons,
      if_pos (CommentGroup.isComment_of_mem_ofTrivia hg htg),
      Token.filter_isComment_of_isBlank hms, List.getLast?_concat] at hlast'
    rw [hg', eq_of_mem_comments (nodup_trivia hnodup hs) hg (List.mem_of_getLast? hg') htg
      (List.mem_of_getLast? hlast'.symm)]
  · rw [hstart] at hline
    simpa [CommentGroup.touches, CommentGroup.endLine, hlast] using hline

theorem leads_of_lead_eq_some {first : Token} (hs : s ∈ cut ts)
    (hfirst : s.body.head? = some first) (h : s.lead = some g) :
    g.Leads ts (s.query stop first) := by
  obtain ⟨hlast, htouches⟩ := (lead_eq_some_iff hfirst).mp h
  obtain ⟨t, ht⟩ := Option.isSome_iff_exists.mp (List.getLast?_isSome.mpr
    (CommentGroup.sublist_of_mem_ofTrivia (List.mem_of_getLast? hlast)).1)
  rw [CommentGroup.touches, CommentGroup.endLine, ht, decide_eq_true_iff] at htouches
  obtain ⟨comments, hcomments⟩ :=
    List.getLast?_eq_some_iff.mp ((CommentGroup.getLast?_filter hlast).trans ht)
  obtain ⟨front, back, htrivia, -, hback⟩ := List.filter_eq_append_iff.mp hcomments
  obtain ⟨front', ms, rfl, -, -, hms⟩ := List.filter_eq_cons_iff.mp hback
  obtain ⟨before, after, hts, -⟩ := exists_append_of_mem_cut hs
  obtain ⟨body, hbody⟩ := List.head?_eq_some_iff.mp hfirst
  have hformed := formed_of_mem_cut hs
  refine ⟨before ++ (front ++ front'), t, ms, first, body ++ (s.semicolon.toList ++ after), ?_, ht,
    ?_, isSubstance_of_head? hformed hfirst, start_query, ?_⟩
  · rw [hts, tokens, htrivia, hbody]
    simp
  · intro m hm
    have hm' := hformed.trivia m (by rw [htrivia]; simp [hm])
    have := List.filter_eq_nil_iff.mp hms m hm
    simpa [Token.isTrivia, this] using hm'
  · rw [start_query]
    exact htouches

/-- A comment group in front of a statement leads one if and only if it belongs to this one. -/
theorem exists_leads_iff (stop : Position) (hnodup : ts.Nodup) (hs : s ∈ cut ts)
    (hg : g ∈ CommentGroup.ofTrivia s.trivia) :
    (∃ q ∈ (cut ts).filterMap (query? stop), g.Leads ts q) ↔ s.lead = some g := by
  constructor
  · rintro ⟨q, -, h⟩
    exact lead_eq_some_of_leads hnodup hs hg h
  · intro h
    obtain ⟨first, hfirst⟩ := exists_head?_of_lead h
    exact ⟨_, query_mem stop hs hfirst, leads_of_lead_eq_some hs hfirst h⟩

theorem groups_of_isQuiet (h : s.IsQuiet) : s.groups = [] := by
  rw [groups, h.1, h.2]
  rfl

theorem comments_ne_nil_of_mem_groups (hg : g ∈ s.groups) : g.comments ≠ [] := by
  rcases List.mem_append.mp hg with hg | hg
  · exact (CommentGroup.sublist_of_mem_ofTrivia hg).1
  · obtain ⟨t, -, ht⟩ := List.mem_flatMap.mp hg
    rw [ReadStep.groups] at ht
    split at ht
    · obtain rfl := List.mem_singleton.mp ht
      exact List.cons_ne_nil t []
    · contradiction

/-- Only the last group in front of a statement can belong to it. -/
theorem lead_ne_some_head {g' : CommentGroup} {gs : List CommentGroup} (hnodup : s.trivia.Nodup)
    (hgroups : CommentGroup.ofTrivia s.trivia = g :: g' :: gs) : s.lead ≠ some g := by
  intro hlead
  -- The last group is not the first one, since a comment of it would be in the list twice.
  have hcomments := hnodup.filter (·.kind.isComment)
  rw [← CommentGroup.flatMap_comments_ofTrivia, hgroups, List.flatMap_cons] at hcomments
  obtain ⟨first, hfirst⟩ := exists_head?_of_lead hlead
  have hlast := ((lead_eq_some_iff hfirst).mp hlead).1
  have hmem := List.mem_of_getLast? hlast
  obtain ⟨t, ht⟩ := List.exists_mem_of_ne_nil _ (CommentGroup.sublist_of_mem_ofTrivia hmem).1
  rw [hgroups, List.getLast?_cons_cons] at hlast
  exact (List.nodup_append.mp hcomments).2.2 t ht t
    (List.mem_flatMap.mpr ⟨g, List.mem_of_getLast? hlast, ht⟩) rfl

/-- The first group in front of a statement is the doc, unless it belongs to the statement. -/
theorem fileDoc_of_cons {gs : List CommentGroup} (hnodup : s.trivia.Nodup)
    (hgroups : CommentGroup.ofTrivia s.trivia = g :: gs) :
    (s.lead = some g → s.fileDoc = []) ∧ (s.lead ≠ some g → s.fileDoc = g.lines) := by
  cases gs with
  | nil =>
    have hlead : s.lead.isSome = true ↔ s.lead = some g := by
      unfold lead
      rw [hgroups]
      cases s.body.head? with
      | none => simp
      | some first => by_cases h : g.touches first.significantStart.line = true <;> simp [h]
    rw [fileDoc, hgroups]
    simp only [hlead]
    exact ⟨fun h => if_pos h, fun h => if_neg h⟩
  | cons g' gs =>
    rw [fileDoc, hgroups]
    exact ⟨fun h => absurd h (lead_ne_some_head hnodup hgroups), fun _ => rfl⟩

/-- The first segment with a comment or a statement, behind quiet ones. -/
theorem exists_cut_eq (ts : List Token) :
    (∀ s ∈ cut ts, s.IsQuiet) ∨ ∃ quiet s rest, cut ts = quiet ++ s :: rest ∧
      (∀ s' ∈ quiet, s'.IsQuiet) ∧ ¬ s.IsQuiet := by
  classical
  obtain ⟨quiet, loud, hcut, hquiet, hloud⟩ :=
    Runs.exists_eq_append (fun s : Segment => decide s.IsQuiet) (cut ts)
  cases loud with
  | nil =>
    left
    rw [hcut, List.append_nil]
    exact fun s hs => of_decide_eq_true (hquiet s hs)
  | cons s rest =>
    exact .inr ⟨quiet, s, rest, hcut, fun s' hs' => of_decide_eq_true (hquiet s' hs'),
      of_decide_eq_false (hloud s rfl)⟩

section Loud

variable {quiet rest : List Segment} (hcut : cut ts = quiet ++ s :: rest)
  (hquiet : ∀ s' ∈ quiet, s'.IsQuiet) (habut : Token.Abut p ts stop)

include hcut

theorem mem_of_cut_eq : s ∈ cut ts :=
  hcut ▸ List.mem_append_right _ List.mem_cons_self

theorem eq_append_of_cut_eq :
    ts = quiet.flatMap tokens ++
      (s.trivia ++ (s.body ++ (s.semicolon.toList ++ rest.flatMap tokens))) := by
  have htokens : (cut ts).flatMap tokens = ts := flatten_tokens_cut ts
  rw [hcut, List.flatMap_append, List.flatMap_cons] at htokens
  simpa [tokens] using htokens.symm

include hquiet

theorem flatMap_groups_cut :
    (cut ts).flatMap groups = s.groups ++ rest.flatMap groups := by
  have hnil : quiet.flatMap groups = [] := by
    rw [List.flatMap_eq_nil_iff]
    exact fun s' hs' => groups_of_isQuiet (hquiet s' hs')
  rw [hcut, List.flatMap_append, hnil, List.nil_append, List.flatMap_cons]

include habut

/-- The comments in front of the first statement are in front of all. -/
theorem stop_le_start_of_mem_trivia {t : Token} (ht : t ∈ s.trivia) {q : Query}
    (hq : q ∈ (cut ts).filterMap (query? stop)) :
    t.stop.offset ≤ q.span.start.offset := by
  obtain ⟨s', hs', hquery⟩ := List.mem_filterMap.mp hq
  obtain ⟨first, hfirst, rfl⟩ := Option.map_eq_some_iff.mp hquery
  have hbody : first ∈ s'.body := List.mem_of_head? hfirst
  rw [start_query]
  refine le_trans ?_ first.offset_le_significantStart
  have horder := habut.pairwise_offset
  rw [eq_append_of_cut_eq hcut] at horder
  refine (List.pairwise_append.mp (List.pairwise_append.mp horder).2.1).2.2 t ht first ?_
  rw [hcut, List.mem_append, List.mem_cons] at hs'
  rcases hs' with hs' | rfl | hs'
  · rw [(hquiet s' hs').2] at hbody
    contradiction
  · exact List.mem_append_left _ hbody
  · have hmem : first ∈ rest.flatMap tokens := List.mem_flatMap.mpr
      ⟨s', hs', List.mem_append_right _ (List.mem_append_left _ hbody)⟩
    exact List.mem_append_right _ (List.mem_append_right _ hmem)

/-- Without a comment in front of the first statement, all comments are behind its start. -/
theorem start_lt_stop_of_isComment {first t : Token} (hgroups : CommentGroup.ofTrivia s.trivia = [])
    (hfirst : s.body.head? = some first) (ht : t ∈ ts) (hk : t.kind.isComment = true) :
    first.significantStart.offset < t.stop.offset := by
  have hlt := habut.offset_lt_stop ht
  have hquiet' : (quiet.flatMap tokens).filter (·.kind.isComment) = [] := by
    rw [List.filter_flatMap, List.flatMap_eq_nil_iff]
    intro s' hs'
    have hmem : s' ∈ cut ts := hcut ▸ List.mem_append_left _ hs'
    rw [← flatMap_comments_groups (formed_of_mem_cut hmem), groups_of_isQuiet (hquiet s' hs')]
    rfl
  have htrivia : s.trivia.filter (·.kind.isComment) = [] := by
    rw [← CommentGroup.flatMap_comments_ofTrivia, hgroups]
    rfl
  obtain ⟨body, hbody⟩ := List.head?_eq_some_iff.mp hfirst
  have heq := eq_append_of_cut_eq hcut
  have horder := habut.pairwise_offset
  rw [heq, hbody] at horder
  rw [heq, hbody] at ht
  -- The parts in front of the first token of the statement have no comment, and it is none itself.
  rcases List.mem_append.mp ht with ht | ht
  · exact absurd hk (List.filter_eq_nil_iff.mp hquiet' t ht)
  rcases List.mem_append.mp ht with ht | ht
  · exact absurd hk (List.filter_eq_nil_iff.mp htrivia t ht)
  rcases List.mem_cons.mp ht with rfl | ht
  · have hhead := (formed_of_mem_cut (mem_of_cut_eq hcut)).head t hfirst
    simp [Token.isTrivia, hk] at hhead
  · have hbehind := (List.pairwise_append.mp (List.pairwise_append.mp horder).2.1).2.1
    have hstop := (List.pairwise_cons.mp hbehind).1 t ht
    have := first.significantStart_le_stop
    omega

end Loud

end Segment

/-- What makes a comment group the doc of a file: it is the first one, no statement is in front of
it, and it leads none. -/
structure CommentGroup.Documents (ts : List Token) (f : QueryFile) (g : CommentGroup) : Prop where
  first : f.comments.head? = some g
  precedes : ∀ q ∈ f.queries, g.span.stop.offset ≤ q.span.start.offset
  leads : ∀ q ∈ f.queries, ¬ g.Leads ts q

namespace CommentGroup.Documents

variable {s : Segment} {ts : List Token} {g : CommentGroup} {f : QueryFile} {stop p : Position}
  {quiet rest : List Segment}

section Read

variable (habut : Token.Abut p ts stop)
  (hqueries : f.queries = (Segment.cut ts).filterMap (Segment.query? stop))
  (hcomments : f.comments = (Segment.cut ts).flatMap Segment.groups)
include habut hqueries hcomments

/-- With a comment in front of the first statement, the first group documents the file unless it
leads the statement. -/
theorem iff_of_cons {gs : List CommentGroup} (hcut : Segment.cut ts = quiet ++ s :: rest)
    (hquiet : ∀ s' ∈ quiet, s'.IsQuiet) (hgroups : ofTrivia s.trivia = g :: gs)
    (g' : CommentGroup) : g'.Documents ts f ↔ g' = g ∧ s.lead ≠ some g := by
  have hhead : f.comments.head? = some g := by
    rw [hcomments, Segment.flatMap_groups_cut hcut hquiet, Segment.groups, hgroups]
    rfl
  have hg : g ∈ ofTrivia s.trivia := hgroups ▸ List.mem_cons_self
  rw [ne_eq, ← Segment.exists_leads_iff stop habut.nodup (Segment.mem_of_cut_eq hcut) hg]
  constructor
  · rintro ⟨hfirst, -, hleads⟩
    obtain rfl := Option.some.inj (hfirst.symm.trans hhead)
    refine ⟨rfl, ?_⟩
    rintro ⟨q, hq, h⟩
    exact hleads q (hqueries ▸ hq) h
  · rintro ⟨rfl, hleads⟩
    refine ⟨hhead, fun q hq => ?_, fun q hq h => hleads ⟨q, hqueries ▸ hq, h⟩⟩
    obtain ⟨hne, hsub⟩ := sublist_of_mem_ofTrivia hg
    rw [span, List.getLast?_eq_some_getLast hne]
    exact Segment.stop_le_start_of_mem_trivia hcut hquiet habut
      (hsub.subset (List.getLast_mem hne)) (hqueries ▸ hq)

/-- Without a comment in front of the first statement, no group documents the file. -/
theorem not_of_nil (hcut : Segment.cut ts = quiet ++ s :: rest)
    (hquiet : ∀ s' ∈ quiet, s'.IsQuiet) (hs : ¬ s.IsQuiet) (hgroups : ofTrivia s.trivia = [])
    (g : CommentGroup) : ¬ g.Documents ts f := by
  rintro ⟨hfirst, hprecedes, -⟩
  obtain ⟨first, body, hbody⟩ := List.exists_cons_of_ne_nil fun hbody => hs ⟨hgroups, hbody⟩
  have hhead : s.body.head? = some first := by rw [hbody]; rfl
  have hg : g ∈ (Segment.cut ts).flatMap Segment.groups := hcomments ▸ List.mem_of_head? hfirst
  obtain ⟨s', -, hg'⟩ := List.mem_flatMap.mp hg
  have hne := Segment.comments_ne_nil_of_mem_groups hg'
  have hlast := List.mem_flatMap.mpr ⟨g, hg, List.getLast_mem hne⟩
  rw [Segment.flatMap_comments_cut, List.mem_filter] at hlast
  have hquery := Segment.query_mem stop (Segment.mem_of_cut_eq hcut) hhead
  have hle := hprecedes _ (hqueries ▸ hquery)
  rw [span, List.getLast?_eq_some_getLast hne, Segment.start_query] at hle
  exact absurd hle (Nat.not_le.mpr
    (Segment.start_lt_stop_of_isComment hcut hquiet habut hgroups hhead hlast.1 hlast.2))

/-- The doc of a file consists of the lines of the group that documents it. -/
theorem doc_ofTokens :
    (∀ g : CommentGroup, g.Documents ts f → (Draft.ofTokens stop ts).doc = g.lines) ∧
      ((∀ g : CommentGroup, ¬ g.Documents ts f) → (Draft.ofTokens stop ts).doc = []) := by
  rcases Segment.exists_cut_eq ts with hquiet | ⟨quiet, s, rest, hcut, hquiet, hs⟩
  · -- In a file of quiet segments there is no group at all.
    have hnil : f.comments = [] := by
      rw [hcomments, List.flatMap_eq_nil_iff]
      exact fun s hs => Segment.groups_of_isQuiet (hquiet s hs)
    refine ⟨fun g hg => ?_, fun _ => Draft.doc_ofTokens_of_isQuiet hquiet⟩
    have := hg.first
    rw [hnil] at this
    contradiction
  rw [Draft.doc_ofTokens hcut hquiet hs]
  cases hgroups : ofTrivia s.trivia with
  | nil =>
    have hdoc : s.fileDoc = [] := by rw [Segment.fileDoc, hgroups]
    exact ⟨fun g hg => absurd hg
      (not_of_nil habut hqueries hcomments hcut hquiet hs hgroups g), fun _ => hdoc⟩
  | cons g gs =>
    have hnodup := Segment.nodup_trivia habut.nodup (Segment.mem_of_cut_eq hcut)
    obtain ⟨hlead, hfree⟩ := Segment.fileDoc_of_cons hnodup hgroups
    simp only [iff_of_cons habut hqueries hcomments hcut hquiet hgroups]
    constructor
    · rintro g' ⟨rfl, h⟩
      exact hfree h
    · intro h
      exact hlead (not_not.mp fun hne => h g ⟨rfl, hne⟩)

end Read

end CommentGroup.Documents

namespace QueryFile

/-- The comments of a file with at most `maxErrors` errors are the comment tokens of the text, put
into groups in order. Two that follow each other are in one group if and only if neither is inside
of a statement, only blanks are between them, and at most one line feed is. The doc of the file
consists of the lines of the first group if it is in front of every statement and leads none, and is
empty else. -/
theorem comments_exact (name src ns : String) (h : (parse name src ns).errors.length ≤ maxErrors) :
    let f := (parse name src ns).file
    f.comments.flatMap (·.comments) = (tokenize src ns).filter (·.kind.isComment) ∧
      (∀ g ∈ f.comments, g.comments ≠ []) ∧
      (∀ us t ms u vs, tokenize src ns = us ++ t :: (ms ++ u :: vs) →
        t.kind.isComment = true → u.kind.isComment = true →
        (∀ m ∈ ms, m.kind.isComment = false) →
        ((∃ g ∈ f.comments, t ∈ g.comments ∧ u ∈ g.comments) ↔
          (¬ ∃ q ∈ f.queries, q.Holds t) ∧ (¬ ∃ q ∈ f.queries, q.Holds u) ∧
            (∀ m ∈ ms, m.isBlank = true) ∧ (ms.flatMap Token.chars).count '\n' ≤ 1)) ∧
      (∀ g : CommentGroup, g.Documents (tokenize src ns) f → f.doc = g.lines) ∧
      ((∀ g : CommentGroup, ¬ g.Documents (tokenize src ns) f) → f.doc = []) := by
  intro f
  have habut := Scanner.abut_tokenize src ns
  have hfull : (Draft.ofTokens (Position.start.advance src.toList)
      (tokenize src ns)).isFull = false := by
    rw [length_errors_parse] at h
    exact decide_eq_false (Nat.not_lt.mpr h)
  have hqueries : f.queries = _ := Draft.queries_ofTokens hfull
  have hcomments : f.comments = _ := Draft.comments_ofTokens hfull
  refine ⟨?_, ?_, ?_, CommentGroup.Documents.doc_ofTokens habut hqueries hcomments⟩
  · exact (congrArg _ hcomments).trans (Segment.flatMap_comments_cut (tokenize src ns))
  · intro g hg
    obtain ⟨s, -, hg⟩ := List.mem_flatMap.mp (hcomments ▸ hg)
    exact Segment.comments_ne_nil_of_mem_groups hg
  · intro us t ms u vs hts ht hu hms
    have hholds {v : Token} (hv : v ∈ tokenize src ns) (hk : v.kind.isComment = true) :
        (¬ ∃ q ∈ f.queries, q.Holds v) ↔ ∀ s ∈ Segment.cut (tokenize src ns), v ∉ s.body := by
      rw [hqueries, Segment.exists_holds_iff habut hv hk]
      simp
    rw [hcomments, hholds (by simp [hts]) ht, hholds (by simp [hts]) hu]
    exact Segment.exists_group_iff (hts ▸ habut) hts.symm ht hu hms

/-- The doc, the comment that leads a statement, and a comment inside of it. -/
theorem comments_exact_doc :
    let src := "/* a\n*/ -- b\n\n-- name: A :one\nSELECT /* c */ 1;\n"
    let f := (parse "a.sql" src "querygen").file
    (parse "a.sql" src "querygen").errors.length ≤ maxErrors ∧
      f.comments.map (·.comments.length) = [2, 1, 1] ∧ f.doc = ["a", "b"] ∧
      f.comments.flatMap (·.comments) =
        (tokenize src "querygen").filter (·.kind.isComment) := by
  have herrors : (parse "a.sql" "/* a\n*/ -- b\n\n-- name: A :one\nSELECT /* c */ 1;\n"
      "querygen").errors.length ≤ maxErrors := by
    rw [length_errors_parse]
    decide +kernel
  exact ⟨herrors, by decide +kernel, by decide +kernel,
    (comments_exact "a.sql" _ "querygen" herrors).1⟩

end QueryFile

end TypedSql
