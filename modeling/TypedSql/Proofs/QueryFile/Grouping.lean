import Mathlib.Data.List.Nodup
import TypedSql.Proofs.QueryFile.Errors
import TypedSql.Proofs.Token.Call

/-!
# Which comments make a group

Two comments of a file that follow each other are in one group if and only if they stand in front of
the same statement and adjoin. Since a statement ends the comments in front of it, this is a matter
of the tokens between the two (`Segment.exists_group_iff`).

Where a comment is in a file is told by the spans of the statements (`Query.Holds`). The tokens of a
file have places of their own, so none of them is in the file twice, and a comment is either in
front of a statement or inside of one (`Segment.exists_holds_iff`).
-/

namespace TypedSql

namespace Runs

variable {α : Type} {as bs as' bs' : List α} {x y : α}

/-- In a list without repetitions, each element stands at one place. -/
theorem append_cons_inj_of_nodup (h : (as ++ x :: bs).Nodup)
    (heq : as ++ x :: bs = as' ++ x :: bs') : as = as' ∧ bs = bs' := by
  obtain ⟨-, hxbs, hdisjoint⟩ := List.nodup_append.mp h
  have has : x ∉ as := fun hx => hdisjoint x hx x List.mem_cons_self rfl
  have hbs : x ∉ bs := (List.nodup_cons.mp hxbs).1
  obtain ⟨has', -, hbs'⟩ := (List.append_cons_inj_of_notMem has hbs).mp heq
  exact ⟨has', hbs'⟩

/-- In a list without repetitions, each element comes from one part. -/
theorem eq_of_nodup_flatMap {β : Type} {f : β → List α} {l : List β} {a b : β}
    (h : (l.flatMap f).Nodup) (ha : a ∈ l) (hb : b ∈ l) (hx : x ∈ f a) (hx' : x ∈ f b) : a = b := by
  by_contra hne
  rw [List.nodup_flatMap] at h
  have : Std.Symm (Function.onFun List.Disjoint f) := ⟨fun _ _ h _ hb ha => h ha hb⟩
  exact h.2.forall ha hb hne hx hx'

/-- Two neighbours are in one run if and only if they are related. -/
theorem exists_mem_splitBy_iff {r : α → α → Bool} (h : (as ++ x :: y :: bs).Nodup) :
    (∃ g ∈ (as ++ x :: y :: bs).splitBy r, x ∈ g ∧ y ∈ g) ↔ r x y = true := by
  constructor
  · rintro ⟨g, hg, hx, hy⟩
    by_contra hr
    have hlist : as ++ x :: y :: bs = (as ++ [x]) ++ y :: bs := by simp
    rw [hlist] at h hg
    rw [List.splitBy_append_cons bs (by simpa using hr)] at hg
    obtain ⟨-, -, hdisjoint⟩ := List.nodup_append.mp h
    rcases List.mem_append.mp hg with hg | hg
    · have hmem := List.mem_flatten_of_mem hg hy
      rw [List.flatten_splitBy] at hmem
      exact hdisjoint y hmem y List.mem_cons_self rfl
    · have hmem := List.mem_flatten_of_mem hg hx
      rw [List.flatten_splitBy] at hmem
      exact hdisjoint x (by simp) x hmem rfl
  · intro hr
    have hmem : x ∈ ((as ++ x :: y :: bs).splitBy r).flatten := by
      rw [List.flatten_splitBy]
      simp
    obtain ⟨g, hg, hx⟩ := List.mem_flatten.mp hmem
    refine ⟨g, hg, hx, ?_⟩
    obtain ⟨front, back, rfl⟩ := List.append_of_mem hx
    obtain ⟨before, after, hsplit⟩ := List.append_of_mem hg
    obtain ⟨hflat, hnil, -, hbreak⟩ := List.splitBy_eq_iff.mp hsplit
    have heq : as ++ x :: y :: bs = before.flatten ++ front ++ x :: (back ++ after.flatten) := by
      simpa using hflat
    obtain ⟨-, hback⟩ := append_cons_inj_of_nodup h heq
    cases back with
    | cons z back =>
      obtain ⟨rfl, -⟩ := List.cons.inj hback
      simp
    | nil =>
      -- Then `x` is the last of its run, and the next run starts with `y`.
      cases after with
      | nil => contradiction
      | cons g' after =>
        obtain ⟨_, hne, hfalse⟩ := (List.isChain_cons_cons.mp (List.isChain_append.mp hbreak).2.1).1
        obtain ⟨z, g', rfl⟩ := List.exists_cons_of_ne_nil hne
        obtain ⟨rfl, -⟩ := List.cons.inj hback
        simp [hr] at hfalse

end Runs

namespace Token

variable {p q : Position} {ts us vs ms : List Token} {t u : Token}

theorem Abut.pairwise_offset (h : Abut p ts q) :
    ts.Pairwise fun t u => t.stop.offset ≤ u.pos.offset := by
  induction ts generalizing p with
  | nil => exact .nil
  | cons t ts ih =>
    obtain ⟨rfl, -, hts⟩ := h
    refine .cons (fun u hu => ?_) (ih hts)
    obtain ⟨before, after, rfl⟩ := List.append_of_mem hu
    obtain ⟨m, hbefore, rfl, -⟩ := abut_append.mp hts
    exact hbefore.offset_le

theorem Abut.stop_le (h : Abut p ts q) (ht : t ∈ ts) : t.stop.offset ≤ q.offset := by
  obtain ⟨before, after, rfl⟩ := List.append_of_mem ht
  obtain ⟨_, -, -, -, hafter⟩ := abut_append.mp h
  exact hafter.offset_le

theorem significantStart_le_stop (t : Token) : t.significantStart.offset ≤ t.stop.offset := by
  obtain ⟨front, rest, hchars, hstart⟩ := t.exists_significantStart
  rw [hstart, stop, hchars, Position.advance_append]
  exact Position.offset_le_advance _ _

theorem isComment_of_isBlank (h : t.isBlank = true) : t.kind.isComment = false := by
  rw [isBlank, Bool.and_eq_true, beq_iff_eq] at h
  rw [h.1]
  rfl

theorem filter_isComment_of_isBlank (h : ∀ m ∈ ms, m.isBlank = true) :
    ms.filter (·.kind.isComment) = [] := by
  rw [List.filter_eq_nil_iff]
  intro m hm
  simp [isComment_of_isBlank (h m hm)]

/-- No token is there twice. -/
theorem Abut.nodup (h : Abut p ts q) : ts.Nodup := by
  refine h.pairwise_offset.imp_of_mem fun {t u} ht _ hle => ?_
  rintro rfl
  exact absurd (h.offset_lt_stop ht) (Nat.not_lt.mpr hle)

/-- Two comments adjoin if at most one line feed lies between them. -/
theorem Abut.adjoins_iff (h : Abut p (us ++ t :: (ms ++ u :: vs)) q) :
    CommentGroup.adjoins t u = true ↔ (ms.flatMap chars).count '\n' ≤ 1 := by
  obtain ⟨_, -, -, -, hbehind⟩ := abut_append.mp h
  have hline := congrArg Position.line hbehind.pos_eq_advance
  rw [Position.line_advance, line_stop] at hline
  rw [CommentGroup.adjoins, decide_eq_true_iff, hline]
  omega

end Token

theorem CommentGroup.flatMap_comments_ofTrivia (ts : List Token) :
    (ofTrivia ts).flatMap comments = ts.filter (·.kind.isComment) := by
  rw [ofTrivia_eq_map_splitBy, List.flatMap_map]
  exact List.flatMap_id.trans (List.flatten_splitBy _ _)

namespace Segment

variable {s s' : Segment} {ts us vs ms : List Token} {t u : Token}

/-- A segment of a file is followed by nothing if it has no semicolon. -/
theorem exists_append_of_mem_cut (h : s ∈ cut ts) :
    ∃ before after, ts = before ++ (s.tokens ++ after) ∧ (s.semicolon.isSome ∨ after = []) := by
  induction ts using cut_induction with
  | nil => contradiction
  | last s' =>
    obtain rfl := List.mem_singleton.mp h
    exact ⟨[], [], (List.append_nil _).symm, .inr rfl⟩
  | cons s' rest _ hsemi ih =>
    rcases List.mem_cons.mp h with rfl | h
    · exact ⟨[], rest, rfl, .inl hsemi⟩
    · obtain ⟨before, after, rfl, hafter⟩ := ih h
      exact ⟨s'.tokens ++ before, after, (List.append_assoc _ _ _).symm, hafter⟩

theorem exists_mem_cut_of_mem (h : t ∈ ts) : ∃ s ∈ cut ts, t ∈ s.tokens := by
  rw [← flatten_tokens_cut ts] at h
  obtain ⟨_, hmem, ht⟩ := List.mem_flatten.mp h
  obtain ⟨s, hs, rfl⟩ := List.mem_map.mp hmem
  exact ⟨s, hs, ht⟩

/-- A token is in one segment only. -/
theorem eq_of_mem_tokens (hnodup : ts.Nodup) (hs : s ∈ cut ts) (hs' : s' ∈ cut ts)
    (ht : t ∈ s.tokens) (ht' : t ∈ s'.tokens) : s = s' := by
  have htokens : ((cut ts).flatMap tokens).Nodup := by
    rwa [List.flatMap, flatten_tokens_cut]
  exact Runs.eq_of_nodup_flatMap htokens hs hs' ht ht'

theorem sublist_tokens (hs : s ∈ cut ts) : s.tokens.Sublist ts := by
  obtain ⟨before, after, rfl, -⟩ := exists_append_of_mem_cut hs
  exact (List.sublist_append_left _ _).trans (List.sublist_append_right _ _)

theorem nodup_trivia (hnodup : ts.Nodup) (hs : s ∈ cut ts) : s.trivia.Nodup :=
  (hnodup.sublist (sublist_tokens hs)).sublist (List.sublist_append_left _ _)

theorem notMem_body_of_mem_trivia (hnodup : ts.Nodup) (hs : s ∈ cut ts) (hs' : s' ∈ cut ts)
    (ht : t ∈ s.trivia) : t ∉ s'.body := by
  intro ht'
  obtain rfl := eq_of_mem_tokens hnodup hs hs' (List.mem_append_left _ ht)
    (List.mem_append_right _ (List.mem_append_left _ ht'))
  have htokens := hnodup.sublist (sublist_tokens hs)
  exact (List.nodup_append.mp htokens).2.2 t ht t (List.mem_append_left _ ht') rfl

/-- A comment that is not inside of a statement is in front of one, or of nothing. -/
theorem mem_trivia_of_notMem_body (hs : s ∈ cut ts) (ht : t.kind.isComment = true)
    (hmem : t ∈ s.tokens) (hbody : t ∉ s.body) : t ∈ s.trivia := by
  rw [tokens, List.mem_append, List.mem_append, Option.mem_toList] at hmem
  rcases hmem with hmem | hmem | hmem
  · exact hmem
  · exact absurd hmem hbody
  · rw [(formed_of_mem_cut hs).semicolon t hmem] at ht
    contradiction

/-- What stands around a comment or a blank in front of a statement. -/
theorem exists_trivia_eq (hnodup : (us ++ t :: vs).Nodup) (hs : s ∈ cut (us ++ t :: vs))
    (ht : t ∈ s.trivia) :
    ∃ front after, front <:+ us ∧ s.trivia = front ++ t :: vs.takeWhile Token.isTrivia ∧
      vs.dropWhile Token.isTrivia = s.body ++ s.semicolon.toList ++ after ∧
      (s.semicolon.isSome ∨ after = []) := by
  obtain ⟨before, after, heq, hafter⟩ := exists_append_of_mem_cut hs
  obtain ⟨front, back, htrivia⟩ := List.append_of_mem ht
  have hformed := formed_of_mem_cut hs
  have hplace : us ++ t :: vs =
      before ++ front ++ t :: (back ++ (s.body ++ s.semicolon.toList ++ after)) := by
    rw [heq, tokens, htrivia]
    simp
  obtain ⟨rfl, rfl⟩ := Runs.append_cons_inj_of_nodup hnodup hplace
  have hback : ∀ m ∈ back, m.isTrivia = true := by
    intro m hm
    apply hformed.trivia
    rw [htrivia]
    exact List.mem_append_right _ (List.mem_cons_of_mem t hm)
  have hhead := hformed.isTrivia_head after hafter
  refine ⟨front, after, List.suffix_append before front, ?_, Runs.dropWhile_append hback hhead,
    hafter⟩
  rw [Runs.takeWhile_append hback hhead, htrivia]

/-- Between two comments in front of one statement are comments and blanks. -/
theorem isTrivia_of_mem_trivia (hnodup : (us ++ t :: (ms ++ u :: vs)).Nodup)
    (hs : s ∈ cut (us ++ t :: (ms ++ u :: vs))) (ht : t ∈ s.trivia) (hu : u ∈ s.trivia) :
    ∀ m ∈ ms, m.isTrivia = true := by
  obtain ⟨front, after, hfront, htrivia, -⟩ := exists_trivia_eq hnodup hs ht
  obtain ⟨-, hright, hdisjoint⟩ := List.nodup_append.mp hnodup
  obtain ⟨htms, hright⟩ := List.nodup_cons.mp hright
  obtain ⟨-, -, hmsu⟩ := List.nodup_append.mp hright
  have hufront : u ∉ front := fun h => hdisjoint u (hfront.subset h) u (by simp) rfl
  have hut : u ≠ t := by
    rintro rfl
    exact htms (by simp)
  have hmem : u ∈ (ms ++ u :: vs).takeWhile Token.isTrivia := by
    simpa [htrivia, hufront, hut] using hu
  rw [List.takeWhile_append] at hmem
  split at hmem
  · next hlength =>
    intro m hm
    rw [← (List.takeWhile_prefix Token.isTrivia).eq_of_length hlength] at hm
    exact List.mem_takeWhile_imp hm
  · exact absurd rfl (hmsu u ((List.takeWhile_prefix _).subset hmem) u List.mem_cons_self)

/-- Two comments with blanks between them are in one group in front of a statement if and only if
they adjoin. -/
theorem exists_ofTrivia_iff (hnodup : (us ++ t :: (ms ++ u :: vs)).Nodup)
    (hs : s ∈ cut (us ++ t :: (ms ++ u :: vs))) (hstrivia : t ∈ s.trivia)
    (ht : t.kind.isComment = true) (hu : u.kind.isComment = true)
    (hms : ∀ m ∈ ms, m.isBlank = true) :
    (∃ g ∈ CommentGroup.ofTrivia s.trivia, t ∈ g.comments ∧ u ∈ g.comments) ↔
      CommentGroup.adjoins t u = true := by
  obtain ⟨front, after, -, htrivia, -⟩ := exists_trivia_eq hnodup hs hstrivia
  have htake : (ms ++ u :: vs).takeWhile Token.isTrivia =
      ms ++ u :: vs.takeWhile Token.isTrivia := by
    rw [List.takeWhile_append_of_pos fun m hm => by simp [Token.isTrivia, hms m hm],
      List.takeWhile_cons_of_pos (by simp [Token.isTrivia, hu])]
  have hfilter : s.trivia.filter (·.kind.isComment) = front.filter (·.kind.isComment) ++
      t :: u :: (vs.takeWhile Token.isTrivia).filter (·.kind.isComment) := by
    rw [htrivia, htake]
    simp [List.filter_append, ht, hu, Token.filter_isComment_of_isBlank hms]
  have hcomments : (s.trivia.filter (·.kind.isComment)).Nodup := (nodup_trivia hnodup hs).filter _
  rw [hfilter] at hcomments
  rw [CommentGroup.ofTrivia_eq_map_splitBy, hfilter, ← Runs.exists_mem_splitBy_iff hcomments]
  simp

/-- Two comments that follow each other are in one group of the file if and only if both are outside
of statements, only blanks are between them, and no blank line is. -/
theorem exists_group_iff {p q : Position} (habut : Token.Abut p (us ++ t :: (ms ++ u :: vs)) q)
    (hts : us ++ t :: (ms ++ u :: vs) = ts) (ht : t.kind.isComment = true)
    (hu : u.kind.isComment = true) (hms : ∀ m ∈ ms, m.kind.isComment = false) :
    (∃ g ∈ (cut ts).flatMap groups, t ∈ g.comments ∧ u ∈ g.comments) ↔
      (∀ s ∈ cut ts, t ∉ s.body) ∧ (∀ s ∈ cut ts, u ∉ s.body) ∧ (∀ m ∈ ms, m.isBlank = true) ∧
        (ms.flatMap Token.chars).count '\n' ≤ 1 := by
  have hnodup := habut.nodup
  have htu : t ≠ u := by
    rintro rfl
    exact (List.nodup_cons.mp (List.nodup_append.mp hnodup).2.1).1 (by simp)
  rw [← habut.adjoins_iff]
  subst hts
  constructor
  · rintro ⟨g, hg, htg, hug⟩
    obtain ⟨s, hs, hgs⟩ := List.mem_flatMap.mp hg
    rcases List.mem_append.mp hgs with hgs | hgs
    · have hsub := (CommentGroup.sublist_of_mem_ofTrivia hgs).2.subset
      have htrivia := isTrivia_of_mem_trivia hnodup hs (hsub htg) (hsub hug)
      have hblank : ∀ m ∈ ms, m.isBlank = true := fun m hm => by
        simpa [Token.isTrivia, hms m hm] using htrivia m hm
      refine ⟨fun s' hs' => notMem_body_of_mem_trivia hnodup hs hs' (hsub htg),
        fun s' hs' => notMem_body_of_mem_trivia hnodup hs hs' (hsub hug), hblank, ?_⟩
      exact (exists_ofTrivia_iff hnodup hs (hsub htg) ht hu hblank).mp ⟨g, hgs, htg, hug⟩
    · -- A comment inside of a statement is the only one of its group.
      obtain ⟨m, -, hm⟩ := List.mem_flatMap.mp hgs
      rw [ReadStep.groups] at hm
      split at hm
      · obtain rfl := List.mem_singleton.mp hm
        exact absurd ((List.mem_singleton.mp htg).trans (List.mem_singleton.mp hug).symm) htu
      · contradiction
  · rintro ⟨htbody, -, hblank, hadjoins⟩
    obtain ⟨s, hs, hmem⟩ := exists_mem_cut_of_mem
      (List.mem_append_right us (List.mem_cons_self (a := t) (l := ms ++ u :: vs)))
    have htrivia := mem_trivia_of_notMem_body hs ht hmem (htbody s hs)
    obtain ⟨g, hg, htu⟩ := (exists_ofTrivia_iff hnodup hs htrivia ht hu hblank).mpr hadjoins
    exact ⟨g, List.mem_flatMap.mpr ⟨s, hs, List.mem_append_left _ hg⟩, htu⟩

theorem flatMap_comments_groups (h : s.Formed) :
    s.groups.flatMap CommentGroup.comments = s.tokens.filter (·.kind.isComment) := by
  have hbody : (s.body.flatMap fun t => (ReadStep.token t).groups).flatMap CommentGroup.comments =
      s.body.filter (·.kind.isComment) := by
    induction s.body with
    | nil => rfl
    | cons t body ih =>
      rw [List.flatMap_cons, List.flatMap_append, ih, ReadStep.groups, List.filter_cons]
      split <;> rfl
  have hsemicolon : s.semicolon.toList.filter (·.kind.isComment) = [] := by
    rw [List.filter_eq_nil_iff]
    intro t ht
    rw [h.semicolon t (by simpa using ht)]
    exact Bool.false_ne_true
  rw [groups, List.flatMap_append, CommentGroup.flatMap_comments_ofTrivia, hbody, tokens,
    List.filter_append, List.filter_append, hsemicolon, List.append_nil]

/-- The comments of a file are in its groups, in order. -/
theorem flatMap_comments_cut (ts : List Token) :
    ((cut ts).flatMap groups).flatMap CommentGroup.comments = ts.filter (·.kind.isComment) := by
  have htokens : (cut ts).flatMap tokens = ts := flatten_tokens_cut ts
  rw [List.flatMap_assoc]
  conv_rhs => rw [← htokens, List.filter_flatMap]
  exact List.flatMap_congr fun s hs => flatMap_comments_groups (formed_of_mem_cut hs)

end Segment

/-- A token is inside of a statement. -/
def Query.Holds (q : Query) (t : Token) : Prop :=
  q.span.start.offset ≤ t.pos.offset ∧ t.stop.offset ≤ q.span.stop.offset

namespace Segment

variable {s : Segment} {ts : List Token} {t : Token} {p stop : Position}

/-- A comment that a statement holds is one of its tokens. -/
theorem mem_body_of_holds {first : Token} (habut : Token.Abut p ts stop) (ht : t ∈ ts)
    (hk : t.kind.isComment = true) (hs : s ∈ cut ts) (hfirst : s.body.head? = some first)
    (h : (s.query stop first).Holds t) : t ∈ s.body := by
  obtain ⟨hstart, hstop⟩ := h
  rw [start_query] at hstart
  rw [stop_query] at hstop
  have hlt := habut.offset_lt_stop ht
  have hpos := first.offset_le_significantStart
  obtain ⟨body, hbody⟩ := List.head?_eq_some_iff.mp hfirst
  obtain ⟨before, after, rfl, hafter⟩ := exists_append_of_mem_cut hs
  obtain ⟨-, horder, hbefore⟩ := List.pairwise_append.mp habut.pairwise_offset
  obtain ⟨horder, -, hbehind⟩ := List.pairwise_append.mp horder
  obtain ⟨-, -, hfront⟩ := List.pairwise_append.mp horder
  rcases List.mem_append.mp ht with ht | ht
  · have := hbefore t ht first (by simp [tokens, hbody])
    omega
  rcases List.mem_append.mp ht with ht | ht
  · by_contra hnot
    have htrivia := mem_trivia_of_notMem_body hs hk ht hnot
    have := hfront t htrivia first (by simp [hbody])
    omega
  · rcases hafter with hsemi | rfl
    · obtain ⟨semicolon, hsemi⟩ := Option.isSome_iff_exists.mp hsemi
      have := hbehind semicolon (by simp [tokens, hsemi]) t ht
      simp only [hsemi, Option.map_some, Option.getD_some] at hstop
      omega
    · contradiction

theorem holds_of_mem_body {first : Token} (habut : Token.Abut p ts stop)
    (hk : t.kind.isComment = true) (hs : s ∈ cut ts) (hfirst : s.body.head? = some first)
    (ht : t ∈ s.body) : (s.query stop first).Holds t := by
  obtain ⟨body, hcons⟩ := List.head?_eq_some_iff.mp hfirst
  have htokens := habut.pairwise_offset.sublist (sublist_tokens hs)
  constructor
  · have hne : t ≠ first := by
      rintro rfl
      have := (formed_of_mem_cut hs).head t hfirst
      simp [Token.isTrivia, hk] at this
    have hmem : t ∈ body := by simpa [hcons, hne] using ht
    rw [tokens, hcons, List.cons_append] at htokens
    obtain ⟨hbehind, -⟩ := List.pairwise_cons.mp (List.pairwise_append.mp htokens).2.1
    rw [start_query]
    exact first.significantStart_le_stop.trans (hbehind t (List.mem_append_left _ hmem))
  · rw [stop_query]
    cases hsemi : s.semicolon with
    | none =>
      exact habut.stop_le ((sublist_tokens hs).subset
        (List.mem_append_right _ (List.mem_append_left _ ht)))
    | some semicolon =>
      rw [tokens, hsemi, ← List.append_assoc] at htokens
      have hle := (List.pairwise_append.mp htokens).2.2 t (List.mem_append_right _ ht) semicolon
        (by simp)
      exact hle.trans (Position.offset_le_advance _ _)

theorem query_mem {first : Token} (stop : Position) (hs : s ∈ cut ts)
    (hfirst : s.body.head? = some first) :
    s.query stop first ∈ (cut ts).filterMap (query? stop) :=
  List.mem_filterMap.mpr ⟨s, hs, by rw [query?, hfirst, Option.map_some]⟩

/-- The statements of a file hold the comments inside of them. -/
theorem exists_holds_iff (habut : Token.Abut p ts stop) (ht : t ∈ ts)
    (hk : t.kind.isComment = true) :
    (∃ q ∈ (cut ts).filterMap (query? stop), q.Holds t) ↔ ∃ s ∈ cut ts, t ∈ s.body := by
  constructor
  · rintro ⟨q, hq, hholds⟩
    obtain ⟨s, hs, hquery⟩ := List.mem_filterMap.mp hq
    obtain ⟨first, hfirst, rfl⟩ := Option.map_eq_some_iff.mp hquery
    exact ⟨s, hs, mem_body_of_holds habut ht hk hs hfirst hholds⟩
  · rintro ⟨s, hs, hbody⟩
    obtain ⟨first, body, hcons⟩ := List.exists_cons_of_ne_nil (List.ne_nil_of_mem hbody)
    have hfirst : s.body.head? = some first := by rw [hcons]; rfl
    exact ⟨_, query_mem stop hs hfirst, holds_of_mem_body habut hk hs hfirst hbody⟩

end Segment

end TypedSql
