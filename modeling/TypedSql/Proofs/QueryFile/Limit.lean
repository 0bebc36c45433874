import TypedSql.Proofs.QueryFile.Errors

/-!
# Files without errors and files with too many

A file without errors has only statements that can be used. The reading of a file stops at a step
that records one error too many, and whether there is such a step can be told from the number of
errors alone (`QueryFile.stopsAtLimit_iff`).
-/

namespace TypedSql

namespace Draft

variable {stop : Position} {d : Draft}

/-- A draft gets full at a step, behind steps that leave it with few enough errors. -/
theorem isFull_readAll_iff (hd : d.isFull = false) (steps : List ReadStep) :
    (readAll stop d steps).1.isFull = true ↔
      ∃ done step left, steps = done ++ step :: left ∧
        (readAll stop d done).1.isFull = false ∧
          ((readAll stop d done).1.read stop step).isFull = true := by
  induction steps generalizing d with
  | nil => simp [readAll, hd]
  | cons step steps ih =>
    have hcons (steps : List ReadStep) :
        readAll stop d (step :: steps) = readAll stop (d.read stop step) steps := by
      rw [readAll, if_neg (by simp [hd])]
    rw [hcons]
    -- The draft gets full at the first step, or else at one of those behind it.
    cases hstep : (d.read stop step).isFull with
    | true =>
      rw [readAll_of_isFull hstep]
      exact iff_of_true hstep ⟨[], step, steps, rfl, hd, hstep⟩
    | false =>
      rw [ih hstep]
      constructor
      · rintro ⟨done, next, left, rfl, hfew, hfull⟩
        exact ⟨step :: done, next, left, rfl, by rwa [hcons], by rwa [hcons]⟩
      · rintro ⟨done, next, left, hsteps, hfew, hfull⟩
        cases done with
        | nil =>
          obtain ⟨rfl, -⟩ := List.cons_eq_cons.mp hsteps
          have hread : (d.read stop step).isFull = true := hfull
          rw [hstep] at hread
          contradiction
        | cons first done =>
          obtain ⟨rfl, rfl⟩ := List.cons_eq_cons.mp hsteps
          rw [hcons] at hfew hfull
          exact ⟨done, next, left, rfl, hfew, hfull⟩

end Draft

namespace QueryFile

/-- The reading of a file stops at a step that records one error too many. -/
def StopsAtLimit (src ns : String) : Prop :=
  let stop := Position.start.advance src.toList
  let read (steps : List ReadStep) : Draft := (Draft.readAll stop .empty steps).1
  ∃ done step left, (Segment.cut (tokenize src ns)).flatMap Segment.steps = done ++ step :: left ∧
    (read done).isFull = false ∧ ((read done).read stop step).isFull = true

variable {name src ns : String}

theorem stopsAtLimit_iff_isFull (src ns : String) :
    StopsAtLimit src ns ↔
      (Draft.ofTokens (Position.start.advance src.toList) (tokenize src ns)).isFull = true := by
  rw [StopsAtLimit, ← Draft.isFull_readAll_iff rfl, Draft.fst_readAll_steps]

instance (src ns : String) : Decidable (StopsAtLimit src ns) :=
  decidable_of_iff _ (stopsAtLimit_iff_isFull src ns).symm

theorem stopsAtLimit_iff (name src ns : String) :
    StopsAtLimit src ns ↔ maxErrors < (parse name src ns).errors.length := by
  rw [stopsAtLimit_iff_isFull, Draft.isFull, decide_eq_true_iff, length_errors_parse]

theorem hasBad_parse (h : (parse name src ns).errors = []) :
    (parse name src ns).file.hasBad = false := by
  have hreported := Draft.forall₂_reported (Scanner.abut_tokenize src ns)
  have hnone :
      (Draft.ofTokens (Position.start.advance src.toList) (tokenize src ns)).errors = [] := by
    rw [← List.length_eq_zero_iff, ← length_errors_parse name, h, List.length_nil]
  rw [hnone] at hreported
  rw [QueryFile.hasBad, List.any_eq_false]
  intro q hq
  rw [Segment.isBad_eq_false_of_reported hreported hq]
  exact Bool.false_ne_true

end QueryFile

end TypedSql
