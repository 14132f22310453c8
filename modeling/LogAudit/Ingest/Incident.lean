import LogAudit.Ingest.Engine

/-!
# Incidents

Apart from what sinks and the validator do, a run can meet with incidents: a file can be read no
further, a thread cannot be started, or something breaks off in a thread. Wherever a thread breaks
off, it gives back the permits that it holds, and whoever waits for it goes on.
-/

namespace LogAudit.Ingest

/-- An incident in the thread of a file. -/
inductive Mishap where
  /-- It fails or breaks off before it has started tasks, or when all of them have ended. -/
  | failure (error : Error)
  /-- It can read no more chunks, or cannot start a task for the chunk it has. -/
  | cut
  /-- It breaks off while it writes down an error or reports. -/
  | silence
  /-- A worker of a task breaks off. -/
  | worker (task worker : Nat)

/-- An incident in a run. -/
inductive Incident where
  /-- The thread of a file cannot be started. No more files are. -/
  | unstarted
  | file (number : Nat) (mishap : Mishap)

namespace Task

/-- A worker breaks off. -/
def loseWorker (worker : Nat) (t : Task) : Task :=
  { t with workers := t.workers.set worker .ended }

end Task

namespace Thread

/-- An incident in a thread, if it can happen. -/
def suffer (t : Thread) (b : Board) : Mishap → Option (Thread × Board)
  | .failure error =>
    match t.stage with
    | .opening | .sampling _ _ | .testing _ _ _ => some (t.go (.failing error), b)
    | .joining => if t.tasks = [] then some (t.go (.failing error), b) else none
    | _ => none
  | .cut =>
    match t.stage with
    | .reading _ => some (t.go .joining, b)
    | .starting _ _ => some (t.go .joining, { b with chunks := b.chunks.mark.leave })
    | _ => none
  | .silence =>
    match t.stage with
    | .failing _ | .closing _ => some (t.go .leaving, b)
    | _ => none
  | .worker task worker =>
    (t.tasks[task]?).map fun k => ({ t with tasks := t.tasks.set task (k.loseWorker worker) }, b)

end Thread

/-- What can happen in a run, to it, and go wrong in it. -/
inductive Happening where
  | action (action : Action)
  | incident (incident : Incident)

namespace State

/-- An incident in a run, if it can happen. -/
def suffer (s : State) : Incident → Option State
  | .unstarted =>
    match s.main with
    | .starting _ _ =>
      some { s with main := .joining, board := { s.board with files := s.board.files.mark.leave } }
    | _ => none
  | .file number mishap =>
    match s.threads[number]? with
    | none => none
    | some t => (t.suffer s.board mishap).map fun (t, board) =>
      { s with threads := s.threads.set number t, board }

/-- Something happens, if it can. -/
def meet (x : Setup) (s : State) : Happening → Option State
  | .action action => s.act x action
  | .incident incident => s.suffer incident

/-- Many things happen, one after the other. -/
def afterAll (x : Setup) (s : State) : List Happening → Option State
  | [] => some s
  | happening :: history => (s.meet x happening).bind fun s => s.afterAll x history

end State

end LogAudit.Ingest
