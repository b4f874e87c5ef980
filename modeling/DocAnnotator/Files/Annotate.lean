import DocAnnotator.Annotate
import DocAnnotator.Files.Workspace

/-! ## Annotating files

    Several files are annotated side by side. Each is read and worked on until it has to wait for
    a description; those that wait then get one description each, in turn, until none is left. A
    file is written when its last comment is there and its text has changed. What stops the work on
    one file does not touch the others.

    `annotateFiles` gives one result per path: whether the file was changed, or what stopped it.
-/

namespace DocAnnotator

/-- How the work on a file ends. -/
abbrev FileResult := Except Error Bool

/-- Work on a file. -/
inductive FileJob where
  /-- It is over. -/
  | done (result : FileResult)
  /-- Comments are missing for some targets; those of the targets before are there, in reverse. -/
  | waiting (path : FilePath) (code : Text) (plan : Plan) (targets : List Target)
      (insertions : List Insertion)

namespace Workspace

/-- Ends the work on a file: it is written where its text has changed. -/
def conclude (w : Workspace) (path : FilePath) (code : Text) (updated : Except Error Text) :
    FileResult × Workspace :=
  match updated with
  | .error e => (.error e, w)
  | .ok text =>
    if text = code then (.ok false, w) else w.write path (Utf8.encode text)

/-- Writes the comment for the next target of a job. -/
def advance (w : Workspace) : FileJob → FileJob × Workspace
  | .done result => (.done result, w)
  | .waiting path code plan [] insertions =>
    let (result, w) := w.conclude path code (plan.finish code insertions.reverse)
    (.done result, w)
  | .waiting path code plan (target :: rest) insertions =>
    let (comment, session) := plan.comment target w.session
    let w := { w with session := session }
    match comment, rest with
    | .error e, _ => (.done (.error e), w)
    | .ok insertion, [] =>
      let (result, w) := w.conclude path code (plan.finish code (insertion :: insertions).reverse)
      (.done result, w)
    | .ok insertion, rest => (.waiting path code plan rest (insertion :: insertions), w)

/-- Advances a job a number of times. -/
def advanceTimes (w : Workspace) (job : FileJob) : Nat → FileJob × Workspace
  | 0 => (job, w)
  | n + 1 =>
    let (job, w) := w.advance job
    w.advanceTimes job n

/-- Starts the work on a file. Without a description service nothing waits. -/
def start (grammar : Grammar) (options : Options) (w : Workspace) (path : FilePath) :
    FileJob × Workspace :=
  match w.read path with
  | .error e => (.done (.error e), w)
  | .ok content =>
    match Utf8.decode content with
    | .error fault => (.done (.error (.malformedText fault)), w)
    | .ok code =>
      let (plan, warnings) := prepare grammar options path.text code
      let w := { w with session := w.session.warn warnings }
      match plan with
      | .error e => (.done (.error e), w)
      | .ok none => (.done (.ok false), w)
      | .ok (some plan) =>
        let job := .waiting path code plan plan.targets []
        if plan.describer.isNone then w.advanceTimes job plan.targets.length else (job, w)

/-- Starts the work on several files. -/
def startAll (grammar : Grammar) (options : Options) (w : Workspace) :
    List FilePath → List FileJob × Workspace
  | [] => ([], w)
  | path :: rest =>
    let (job, w) := w.start grammar options path
    let (jobs, w) := w.startAll grammar options rest
    (job :: jobs, w)

/-- One turn for every job. -/
def round (w : Workspace) : List FileJob → List FileJob × Workspace
  | [] => ([], w)
  | job :: rest =>
    let (job, w) := w.advance job
    let (jobs, w) := w.round rest
    (job :: jobs, w)

/-- A number of turns for every job. -/
def rounds (w : Workspace) (jobs : List FileJob) : Nat → List FileJob × Workspace
  | 0 => (jobs, w)
  | n + 1 =>
    let (jobs, w) := w.round jobs
    w.rounds jobs n

end Workspace

/-- The number of turns that a job still takes. -/
def FileJob.turns : FileJob → Nat
  | .done _ => 0
  | .waiting _ _ _ targets _ => targets.length

/-- The result of a job; one that is not over has changed nothing. -/
def FileJob.result : FileJob → FileResult
  | .done result => result
  | .waiting .. => .ok false

/-- Annotates several files and gives one result for each. -/
def annotateFiles (grammar : Grammar) (options : Options) (w : Workspace) (paths : List FilePath) :
    List FileResult × Workspace :=
  let (jobs, w) := w.startAll grammar options paths
  let turns := jobs.foldl (fun n job => max n job.turns) 0
  let (jobs, w) := w.rounds jobs turns
  (jobs.map FileJob.result, w)

end DocAnnotator
