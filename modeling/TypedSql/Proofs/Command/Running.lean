import TypedSql.Command.Run
import TypedSql.Proofs.FileTree.Disk

/-!
# Parts of a run that end well

A part of a run may fail, say something and change the world. Reading only says something when all
that it asks for is there: it gives a value and leaves the world as it is (`Running.Returns`). There
is one rule for each way in which such parts are put together, and from these follows what reading
query files gives (`Command.returns_readPaths`).
-/

namespace TypedSql

namespace Running

variable {σ α β : Type} {world : σ} {a : α} {b : β}

/-- A part of a run gives a value and leaves the world as it is. It may say something on the way. -/
def Returns (world : σ) (act : Running (StateM σ) α) (value : α) : Prop :=
  ∀ messages, ∃ lines, (act.run.run messages).run world = ((.ok value, messages ++ lines), world)

namespace Returns

theorem pure (world : σ) (a : α) : Returns world (pure a) a := by
  intro messages
  exact ⟨[], by rw [List.append_nil]; rfl⟩

theorem bind {act : Running (StateM σ) α} {next : α → Running (StateM σ) β}
    (h : Returns world act a) (hnext : Returns world (next a) b) :
    Returns world (act >>= next) b := by
  intro messages
  obtain ⟨lines, hlines⟩ := h messages
  obtain ⟨more, hmore⟩ := hnext (messages ++ lines)
  refine ⟨lines ++ more, ?_⟩
  rw [ExceptT.run_bind, StateT.run_bind, run_bind_look hlines, ← List.append_assoc]
  exact hmore

theorem lift {act : StateM σ α} (h : act.run world = (a, world)) :
    Returns world (liftM act : Running (StateM σ) α) a := by
  intro messages
  refine ⟨[], ?_⟩
  rw [List.append_nil]
  have hrun : (act >>= fun value => Pure.pure (value, messages)).run world =
      ((a, messages), world) :=
    run_bind_look h _
  exact run_bind_look hrun fun r => Pure.pure (Except.ok r.1, r.2)

end Returns

end Running

namespace Command

open Running

variable {σ α ε : Type} {world : σ} {a : α} {s : Surroundings (StateM σ)} {settings : Settings}
  {paths : List Path} {entries : List (Path × String)}

theorem returns_say (world : σ) (options : CommandOptions) (line : String) :
    Returns world (say options line) () := by
  intro messages
  unfold say
  split
  · exact ⟨[line], rfl⟩
  · exact Returns.pure world () messages

theorem returns_orFail {act : StateM σ (Except ε α)} (wrap : ε → Failure)
    (h : act.run world = (.ok a, world)) : Returns world (orFail wrap act) a :=
  (Returns.lift h).bind (.pure world a)

theorem run_load {path : Path} {text : String} (ns : String)
    (h : (s.disk.readText path).run world = (.ok text, world)) :
    (QueryFile.load s.disk ns path).run world =
      (.ok (QueryFile.parse path.text text ns), world) := by
  rw [QueryFile.load, run_bind_look h]
  rfl

/-- Paths with their texts as query files. -/
def parsedFiles (ns : String) (entries : List (Path × String)) : List ParsedFile :=
  entries.map fun e => QueryFile.parse e.1.text e.2 ns

theorem returns_readFiles (options : CommandOptions) (ns : String)
    (h : ∀ e ∈ entries, (s.disk.readText e.1).run world = (.ok e.2, world)) :
    Returns world (readFiles s options ns (entries.map Prod.fst)) (parsedFiles ns entries) := by
  induction entries with
  | nil => exact .pure world []
  | cons e entries ih =>
    obtain ⟨he, hentries⟩ := List.forall_mem_cons.mp h
    refine (returns_orFail _ (run_load ns he)).bind ?_
    refine (returns_say world options _).bind ?_
    exact (ih hentries).bind (.pure world _)

theorem returns_readPaths (options : CommandOptions)
    (hcollect : (QueryFile.collect s.disk settings paths).run world =
      (.ok (entries.map Prod.fst), world))
    (h : ∀ e ∈ entries, (s.disk.readText e.1).run world = (.ok e.2, world)) :
    Returns world (readPaths s options settings paths) (parsedFiles settings.ns entries) := by
  refine (returns_orFail _ hcollect).bind ?_
  exact (returns_say world options _).bind (returns_readFiles options settings.ns h)

end Command

end TypedSql
