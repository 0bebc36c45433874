import TypedSql.Proofs.QueryFile.Statements

/-!
# Reading step by step

A file is read in steps: what stands in front of a statement, each token of the statement, and its
end. A step raises at most one error, and reading stops for good behind the step that records one
error too many, which may be inside of a statement. `Draft.readAll` reads in this way and tells what
is left. It gives the draft of the file (`Draft.fst_readAll_steps`), so what it leaves is what was
not read of the file (`Draft.unread`).

What a draft holds is a matter of the steps that were done (`Draft.Records`). One step keeps this
(`Draft.Records.read`), and so does reading on until it stops (`Draft.Records.exists_readAll`).
-/

namespace TypedSql

namespace ParseError

/-- The errors recorded so far and one more, unless it is on the line of the last of them. -/
def record (errors : List ParseError) (e : ParseError) : List ParseError :=
  if errors.getLast?.any fun last => last.pos.line == e.pos.line then errors else errors ++ [e]

variable {errors raised : List ParseError} {e : ParseError}

theorem length_record_le (errors : List ParseError) (e : ParseError) :
    (record errors e).length ≤ errors.length + 1 := by
  unfold record
  split
  · exact Nat.le_succ _
  · rw [List.length_append, List.length_singleton]

theorem prefix_record (errors : List ParseError) (e : ParseError) :
    errors <+: record errors e := by
  unfold record
  split
  · exact List.prefix_refl _
  · exact List.prefix_append _ _

theorem prefix_foldl_record (errors raised : List ParseError) :
    errors <+: raised.foldl record errors := by
  induction raised generalizing errors with
  | nil => exact List.prefix_refl _
  | cons e raised ih => exact (prefix_record errors e).trans (ih (record errors e))

/-- An error that is dropped is not the only one on its line. -/
theorem exists_mem_record (errors : List ParseError) (e : ParseError) :
    ∃ e' ∈ record errors e, e'.pos.line = e.pos.line := by
  unfold record
  split
  · rename_i hsame
    cases hlast : errors.getLast? with
    | none => simp [hlast] at hsame
    | some last => exact ⟨last, List.mem_of_getLast? hlast, by simpa [hlast] using hsame⟩
  · exact ⟨e, by simp, rfl⟩

theorem exists_mem_foldl_record (errors : List ParseError) (h : e ∈ raised) :
    ∃ e' ∈ raised.foldl record errors, e'.pos.line = e.pos.line := by
  induction raised generalizing errors with
  | nil => contradiction
  | cons e' raised ih =>
    rcases List.mem_cons.mp h with rfl | h
    · obtain ⟨e', hmem, hline⟩ := exists_mem_record errors e
      exact ⟨e', (prefix_foldl_record _ raised).subset hmem, hline⟩
    · exact ih (record errors e') h

theorem mem_of_mem_foldl_record (h : e ∈ raised.foldl record errors) : e ∈ errors ∨ e ∈ raised := by
  induction raised generalizing errors with
  | nil => exact .inl h
  | cons e' raised ih =>
    rcases ih h with h | h
    · unfold record at h
      split at h
      · exact .inl h
      · rcases List.mem_append.mp h with h | h
        · exact .inl h
        · exact .inr (List.mem_cons.mpr (.inl (List.mem_singleton.mp h)))
    · exact .inr (List.mem_cons_of_mem e' h)

end ParseError

/-- A step of reading a file. -/
inductive ReadStep where
  /-- What stands in front of the statement of a segment, and a segment without a statement. -/
  | trivia (s : Segment)
  /-- A token of a statement. -/
  | token (t : Token)
  /-- The end of a statement that starts with `first`. -/
  | finish (s : Segment) (first : Token)

namespace ReadStep

/-- The tokens that are read in a step. -/
def tokens : ReadStep → List Token
  | .trivia s => s.trivia ++ if s.body.isEmpty then s.semicolon.toList else []
  | .token t => [t]
  | .finish s _ => s.semicolon.toList

/-- The error that a step raises. -/
def error? : ReadStep → Option ParseError
  | .trivia _ => none
  | .token t =>
    match t.kind with
    | .illegal reason => some (.of t.pos (.illegal reason))
    | _ => none
  | .finish s first => s.fault? first

/-- The query that a step adds. -/
def query? (stop : Position) : ReadStep → Option Query
  | .trivia _ | .token _ => none
  | .finish s first => some (s.query stop first)

/-- The comment groups that a step adds. -/
def groups : ReadStep → List CommentGroup
  | .trivia s => CommentGroup.ofTrivia s.trivia
  | .token t => if t.kind.isComment then [⟨[t]⟩] else []
  | .finish _ _ => []

end ReadStep

namespace Segment

/-- The steps in which a segment is read. -/
def steps (s : Segment) : List ReadStep :=
  .trivia s ::
    match s.body with
    | [] => []
    | first :: _ => s.body.map ReadStep.token ++ [.finish s first]

theorem flatMap_tokens_steps (s : Segment) : s.steps.flatMap ReadStep.tokens = s.tokens := by
  unfold steps tokens
  cases hb : s.body with
  | nil => simp [ReadStep.tokens, hb]
  | cons first body => simp [ReadStep.tokens, hb, List.flatMap_map]

/-- The errors that reading a segment raises: one for each illegal token of the statement, and the
fault of the statement. -/
def raised (s : Segment) : List ParseError :=
  s.body.filterMap (fun t => (ReadStep.token t).error?) ++ (s.body.head?.bind s.fault?).toList

/-- The comment groups that reading a segment adds: those in front of the statement, and each
comment in it. -/
def groups (s : Segment) : List CommentGroup :=
  CommentGroup.ofTrivia s.trivia ++ s.body.flatMap fun t => (ReadStep.token t).groups

theorem filterMap_error?_steps (s : Segment) : s.steps.filterMap ReadStep.error? = s.raised := by
  unfold steps raised
  cases s.body with
  | nil => rfl
  | cons first body =>
    rw [List.filterMap_cons_none rfl, List.filterMap_append, List.filterMap_map]
    cases hf : s.fault? first <;> simp [ReadStep.error?, hf] <;> rfl

theorem flatMap_groups_steps (s : Segment) : s.steps.flatMap ReadStep.groups = s.groups := by
  unfold steps groups
  cases s.body with
  | nil => simp [ReadStep.groups]
  | cons first body => simp [ReadStep.groups, List.flatMap_map]

end Segment

namespace Draft

variable {stop : Position} {d : Draft} {done : List ReadStep}

theorem errors_report (d : Draft) (e : ParseError) :
    (d.report e).errors = ParseError.record d.errors e := by
  unfold report ParseError.record
  split <;> rfl

@[simp] theorem comments_report (d : Draft) (e : ParseError) :
    (d.report e).comments = d.comments := by
  unfold report
  split <;> rfl

theorem comments_foldl_addGroup (isLead : Bool) (groups : List CommentGroup) (d : Draft) :
    (groups.foldl (addGroup isLead) d).comments = d.comments ++ groups := by
  induction groups generalizing d with
  | nil => exact (List.append_nil _).symm
  | cons g groups ih => rw [List.foldl_cons, ih, addGroup, List.append_assoc, List.singleton_append]

theorem comments_addTrivia (d : Draft) (s : Segment) :
    (d.addTrivia s).comments = d.comments ++ CommentGroup.ofTrivia s.trivia := by
  rw [addTrivia, comments_foldl_addGroup, comments_foldl_addGroup, List.append_assoc]
  rcases List.eq_nil_or_concat (CommentGroup.ofTrivia s.trivia) with h | ⟨groups, g, h⟩
  · rw [h]
    rfl
  · rw [h, List.concat_eq_append, List.dropLast_concat, List.getLast?_concat, Option.toList_some]

/-- Read one step. -/
def read (stop : Position) (d : Draft) : ReadStep → Draft
  | .trivia s =>
    let d := d.addTrivia s
    if s.body.isEmpty then d else { d with seen := true }
  | .token t => d.addToken t
  | .finish s first =>
    (s.fault? first).elim (d.add (s.query stop first)) (d.add (s.query stop first)).report

/-- Read steps until too many errors are recorded, and tell which steps are left. -/
def readAll (stop : Position) : Draft → List ReadStep → Draft × List ReadStep
  | d, [] => (d, [])
  | d, step :: steps =>
    if d.isFull then (d, step :: steps) else readAll stop (d.read stop step) steps

/-- The tokens of a file that are left when reading stops. -/
def unread (stop : Position) (tokens : List Token) : List Token :=
  (readAll stop empty ((Segment.cut tokens).flatMap Segment.steps)).2.flatMap ReadStep.tokens

section Steps

theorem readAll_of_isFull (h : d.isFull = true) (steps : List ReadStep) :
    readAll stop d steps = (d, steps) := by
  cases steps with
  | nil => rfl
  | cons step steps => rw [readAll, if_pos h]

theorem readAll_append (d : Draft) (steps steps' : List ReadStep) :
    (readAll stop d (steps ++ steps')).1 = (readAll stop (readAll stop d steps).1 steps').1 := by
  induction steps generalizing d with
  | nil => rfl
  | cons step steps ih =>
    rw [List.cons_append, readAll, readAll]
    split
    · rename_i h
      rw [readAll_of_isFull h]
    · exact ih _

theorem readAll_tokens (d : Draft) (tokens : List Token) :
    (readAll stop d (tokens.map ReadStep.token)).1 = tokens.foldl addToken d := by
  induction tokens generalizing d with
  | nil => rfl
  | cons t tokens ih =>
    rw [List.map_cons, readAll, List.foldl_cons, ← ih]
    split
    · rename_i h
      rw [addToken, if_pos h, readAll_of_isFull h]
    · rfl

/-- The steps of a segment read the segment. -/
theorem readAll_steps_segment (d : Draft) (s : Segment) :
    (readAll stop d s.steps).1 = d.addSegment stop s := by
  unfold addSegment Segment.steps
  rw [readAll]
  split
  · rfl
  · simp only [read]
    cases hb : s.body with
    | nil => rfl
    | cons first body =>
      simp only [List.isEmpty_cons, Bool.false_eq_true, if_false]
      rw [addStatement_eq, readAll_append, readAll_tokens, hb, readAll, apply_ite Prod.fst]
      rfl

/-- Reading a file in steps gives its draft. -/
theorem fst_readAll_steps (stop : Position) (tokens : List Token) :
    (readAll stop empty ((Segment.cut tokens).flatMap Segment.steps)).1 = ofTokens stop tokens := by
  unfold ofTokens
  generalize empty = d
  induction Segment.cut tokens generalizing d with
  | nil => rfl
  | cons s segments ih =>
    rw [List.flatMap_cons, readAll_append, readAll_steps_segment, ih, List.foldl_cons]

end Steps

section Step

variable {s : Segment} {t : Token}

theorem errors_read (h : d.isFull = false) (step : ReadStep) :
    (d.read stop step).errors = step.error?.toList.foldl ParseError.record d.errors := by
  cases step with
  | trivia s =>
    simp only [read]
    split <;> simp [ReadStep.error?]
  | token t =>
    simp only [read, addToken, ReadStep.error?, h, Bool.false_eq_true, if_false]
    cases t.kind <;> simp [errors_report]
  | finish s first =>
    simp only [read, ReadStep.error?]
    cases s.fault? first <;> simp [errors_report, add]

theorem queries_read (step : ReadStep) :
    (d.read stop step).queries = d.queries ++ (step.query? stop).toList := by
  cases step with
  | trivia s =>
    simp only [read]
    split <;> simp [ReadStep.query?]
  | token t => simp [read, ReadStep.query?]
  | finish s first =>
    simp only [read]
    cases s.fault? first <;> simp [ReadStep.query?]

theorem comments_read (h : d.isFull = false) (step : ReadStep) :
    (d.read stop step).comments = d.comments ++ step.groups := by
  cases step with
  | trivia s =>
    simp only [read]
    split <;> simp [ReadStep.groups, comments_addTrivia]
  | token t =>
    simp only [read, addToken, ReadStep.groups, h, Bool.false_eq_true, if_false]
    cases t.kind <;> simp [TokenKind.isComment]
  | finish s first =>
    simp only [read]
    cases s.fault? first <;> simp [ReadStep.groups, add]

end Step

/-- What a draft holds after some steps. -/
structure Records (stop : Position) (done : List ReadStep) (d : Draft) : Prop where
  /-- Of the errors that were raised, each is dropped that is on the line of the last one kept. -/
  errors : d.errors = (done.filterMap ReadStep.error?).foldl ParseError.record []
  queries : d.queries = done.filterMap (ReadStep.query? stop)
  comments : d.comments = done.flatMap ReadStep.groups
  /-- One error too many is recorded at most. -/
  bounded : d.errors.length ≤ maxErrors + 1

namespace Records

theorem empty (stop : Position) : Records stop [] empty :=
  ⟨rfl, rfl, rfl, Nat.zero_le _⟩

/-- One step adds its query, its comment groups and the error it raises, if that is not dropped. -/
theorem read (h : Records stop done d) (hd : d.isFull = false) (step : ReadStep) :
    Records stop (done ++ [step]) (d.read stop step) where
  errors := by
    rw [errors_read hd, h.errors, List.filterMap_append, List.foldl_append]
    cases he : step.error? <;> simp [he]
  queries := by
    rw [queries_read, h.queries, List.filterMap_append]
    cases hq : step.query? stop <;> simp [hq]
  comments := by
    rw [comments_read hd, h.comments, List.flatMap_append, List.flatMap_singleton]
  bounded := by
    have hlength : d.errors.length ≤ maxErrors := by simpa [isFull] using hd
    rw [errors_read hd]
    cases step.error? with
    | none => exact Nat.le_succ_of_le hlength
    | some e =>
      exact (ParseError.length_record_le d.errors e).trans (Nat.add_le_add_right hlength 1)

/-- Reading on does some of the steps, and leaves steps only when too many errors are recorded. -/
theorem exists_readAll (h : Records stop done d) (steps : List ReadStep) :
    ∃ more, steps = more ++ (readAll stop d steps).2 ∧
      Records stop (done ++ more) (readAll stop d steps).1 ∧
      ((readAll stop d steps).2 ≠ [] → (readAll stop d steps).1.isFull = true) := by
  induction steps generalizing d done with
  | nil => exact ⟨[], rfl, by rwa [List.append_nil], fun hne => absurd rfl hne⟩
  | cons step steps ih =>
    rw [readAll]
    split
    · rename_i hfull
      exact ⟨[], rfl, by rwa [List.append_nil], fun _ => hfull⟩
    · rename_i hfull
      obtain ⟨more, hsteps, hrecords, hleft⟩ := ih (h.read (by simpa using hfull) step)
      refine ⟨step :: more, congrArg (step :: ·) hsteps, ?_, hleft⟩
      rwa [List.append_assoc, List.singleton_append] at hrecords

end Records

/-- What the draft of a file holds: its errors, queries and comments are those of the first steps,
and a step is left only when too many errors are recorded. -/
theorem exists_records_ofTokens (stop : Position) (tokens : List Token) :
    ∃ done left, (Segment.cut tokens).flatMap Segment.steps = done ++ left ∧
      Records stop done (ofTokens stop tokens) ∧ left.flatMap ReadStep.tokens = unread stop tokens ∧
      (left ≠ [] → (ofTokens stop tokens).isFull = true) := by
  obtain ⟨done, hsteps, hrecords, hleft⟩ :=
    (Records.empty stop).exists_readAll ((Segment.cut tokens).flatMap Segment.steps)
  rw [fst_readAll_steps] at hrecords hleft
  exact ⟨done, _, hsteps, hrecords, rfl, hleft⟩

/-- The errors that are recorded when a file is read to its end. -/
def allErrors (tokens : List Token) : List ParseError :=
  ((Segment.cut tokens).flatMap Segment.raised).foldl ParseError.record []

theorem filterMap_error?_steps (segments : List Segment) :
    (segments.flatMap Segment.steps).filterMap ReadStep.error? =
      segments.flatMap Segment.raised := by
  rw [List.filterMap_flatMap]
  exact List.flatMap_congr fun s _ => s.filterMap_error?_steps

/-- A file is read to its end when not too many errors are recorded until there. -/
theorem isFull_ofTokens_iff {tokens : List Token} :
    (ofTokens stop tokens).isFull = false ↔ (allErrors tokens).length ≤ maxErrors := by
  obtain ⟨done, left, hsteps, hrecords, -, hleft⟩ := exists_records_ofTokens stop tokens
  have hall : allErrors tokens =
      (left.filterMap ReadStep.error?).foldl ParseError.record (ofTokens stop tokens).errors := by
    rw [allErrors, ← filterMap_error?_steps, hsteps, List.filterMap_append, List.foldl_append,
      hrecords.errors]
  constructor
  · intro hfull
    have hnil : left = [] := by
      by_contra hne
      rw [hleft hne] at hfull
      contradiction
    rw [hall, hnil]
    simpa [isFull] using hfull
  · intro hfew
    have hle := (ParseError.prefix_foldl_record (ofTokens stop tokens).errors
      (left.filterMap ReadStep.error?)).length_le
    rw [← hall] at hle
    rw [isFull, decide_eq_false_iff_not, Nat.not_lt]
    exact hle.trans hfew

/-- A file that was read to its end has the comment groups of its segments. -/
theorem comments_ofTokens {tokens : List Token} (h : (ofTokens stop tokens).isFull = false) :
    (ofTokens stop tokens).comments = (Segment.cut tokens).flatMap Segment.groups := by
  obtain ⟨done, left, hsteps, hrecords, -, hleft⟩ := exists_records_ofTokens stop tokens
  have hnil : left = [] := by
    by_contra hne
    rw [hleft hne] at h
    contradiction
  rw [hnil, List.append_nil] at hsteps
  rw [hrecords.comments, ← hsteps, List.flatMap_assoc]
  exact List.flatMap_congr fun s _ => s.flatMap_groups_steps

end Draft

end TypedSql
