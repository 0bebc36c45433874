import TypedSql.Proofs.QueryFile.Statements

/-!
# Files of annotated statements

A segment is annotated when its statement is terminated and legal and the comments in front of it
are one group that belongs to the statement and reads as an annotation. Such a segment adds a source
query and neither an error nor a comment of the file, so a file of annotated segments has one source
query for each of them and is otherwise empty (`Draft.ofTokens_of_isAnnotated`).
-/

namespace TypedSql

namespace Segment

/-- A terminated and legal statement below one group of comments that reads as `a`. -/
structure IsAnnotated (s : Segment) (a : Annotation) : Prop where
  lead : ∃ g, CommentGroup.ofTrivia s.trivia = [g] ∧ s.lead = some g ∧ Annotation.ofGroup g = .ok a
  legal : ∀ t ∈ s.body, t.isIllegal = false
  semicolon : s.semicolon.isSome

namespace IsAnnotated

variable {s : Segment} {a : Annotation}

theorem any_isIllegal (h : s.IsAnnotated a) : s.body.any Token.isIllegal = false := by
  rw [List.any_eq_false]
  intro t ht
  rw [h.legal t ht]
  exact Bool.false_ne_true

theorem fault?_eq (h : s.IsAnnotated a) (first : Token) : s.fault? first = none := by
  obtain ⟨semicolon, hs⟩ := Option.isSome_iff_exists.mp h.semicolon
  obtain ⟨g, -, hg, ha⟩ := h.lead
  simp [fault?, hs, h.any_isIllegal, hg, ha]

theorem query?_eq (h : s.IsAnnotated a) (stop : Position) :
    ∃ span, s.query? stop = some (.source (Draft.sourceQuery a s.statement span)) := by
  obtain ⟨semicolon, hs⟩ := Option.isSome_iff_exists.mp h.semicolon
  obtain ⟨g, -, hg, ha⟩ := h.lead
  obtain ⟨first, hb⟩ : ∃ first, s.body.head? = some first := by
    cases hb : s.body with
    | nil => simp [Segment.lead, hb] at hg
    | cons first body => exact ⟨first, rfl⟩
  refine ⟨⟨first.significantStart, semicolon.stop⟩, ?_⟩
  rw [query?, hb, Option.map_some, query, hs]
  simp only [h.any_isIllegal, Bool.false_eq_true, if_false, hg, Option.map_some, ha]

end IsAnnotated

end Segment

namespace Draft

variable {d : Draft} {s : Segment} {a : Annotation}

theorem errors_addToken {t : Token} (h : t.isIllegal = false) :
    (d.addToken t).errors = d.errors := by
  unfold addToken
  split
  · rfl
  · split
    · rename_i hk
      simp [Token.isIllegal, hk] at h
    all_goals rfl

@[simp] theorem doc_report (d : Draft) (e : ParseError) : (d.report e).doc = d.doc := by
  unfold report
  split <;> rfl

@[simp] theorem doc_addToken (d : Draft) (t : Token) : (d.addToken t).doc = d.doc := by
  unfold addToken
  split
  · rfl
  · split <;> simp

theorem errors_foldl_addToken {ts : List Token} (h : ∀ t ∈ ts, t.isIllegal = false) :
    (ts.foldl addToken d).errors = d.errors := by
  induction ts generalizing d with
  | nil => rfl
  | cons t ts ih =>
    rw [List.foldl_cons, ih fun u hu => h u (List.mem_cons_of_mem t hu),
      errors_addToken (h t List.mem_cons_self)]

theorem doc_foldl_addToken (ts : List Token) (d : Draft) : (ts.foldl addToken d).doc = d.doc := by
  induction ts generalizing d with
  | nil => rfl
  | cons t ts ih => rw [List.foldl_cons, ih, doc_addToken]

theorem doc_addTrivia (h : s.IsAnnotated a) : (d.addTrivia s).doc = d.doc := by
  obtain ⟨g, hgroups, hg, -⟩ := h.lead
  simp [addTrivia, hgroups, hg, addGroup]

theorem addStatement_of_isAnnotated (h : s.IsAnnotated a) (d : Draft) (stop : Position)
    (first : Token) :
    (d.addStatement stop s first).errors = d.errors ∧
      (d.addStatement stop s first).doc = d.doc := by
  have herrors := errors_foldl_addToken (d := { d with seen := true }) h.legal
  have hdoc := doc_foldl_addToken s.body { d with seen := true }
  rw [addStatement_eq, h.fault?_eq]
  simp only
  split
  · exact ⟨herrors, hdoc⟩
  · exact ⟨herrors, hdoc⟩

/-- An annotated segment adds no error and no comment of the file. -/
theorem addSegment_of_isAnnotated (h : s.IsAnnotated a) (d : Draft) (stop : Position) :
    (d.addSegment stop s).errors = d.errors ∧ (d.addSegment stop s).doc = d.doc := by
  unfold addSegment
  split
  · exact ⟨rfl, rfl⟩
  · simp only
    cases s.body with
    | nil => exact ⟨errors_addTrivia d s, doc_addTrivia h⟩
    | cons first body =>
      obtain ⟨herrors, hdoc⟩ := addStatement_of_isAnnotated h (d.addTrivia s) stop first
      exact ⟨herrors.trans (errors_addTrivia d s), hdoc.trans (doc_addTrivia h)⟩

theorem foldl_addSegment_of_isAnnotated {segments : List Segment}
    (h : ∀ s ∈ segments, ∃ a, s.IsAnnotated a) (d : Draft) (stop : Position) :
    (segments.foldl (addSegment stop) d).errors = d.errors ∧
      (segments.foldl (addSegment stop) d).doc = d.doc := by
  induction segments generalizing d with
  | nil => exact ⟨rfl, rfl⟩
  | cons s segments ih =>
    obtain ⟨a, ha⟩ := h s List.mem_cons_self
    obtain ⟨herrors, hdoc⟩ := addSegment_of_isAnnotated ha d stop
    obtain ⟨herrors', hdoc'⟩ :=
      ih (fun t ht => h t (List.mem_cons_of_mem s ht)) (addSegment stop d s)
    exact ⟨herrors'.trans herrors, hdoc'.trans hdoc⟩

/-- A file of annotated segments has neither errors nor comments of its own. -/
theorem ofTokens_of_isAnnotated {tokens : List Token} (stop : Position)
    (h : ∀ s ∈ Segment.cut tokens, ∃ a, s.IsAnnotated a) :
    (ofTokens stop tokens).errors = [] ∧ (ofTokens stop tokens).doc = [] :=
  foldl_addSegment_of_isAnnotated h empty stop

end Draft

end TypedSql
