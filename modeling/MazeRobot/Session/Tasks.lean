import MazeRobot.Session.Basic

/-! # Taking turns

The tasks of a session have their turns one after the other, in the order of the queue;
a task that has not ended goes to the end of it.  Whoever waits is at the end of the
queue too, so waiting for one turn (`Session.pass`) lets every task in the queue have
exactly one.

A run takes a tick at a time: it starts the run if need be, and then captures, waits and
resolves for as long as the run is executing.  `Session.run` does this in the
foreground, a task with the job `run` does it in the background. -/

namespace MazeRobot

namespace Session

/-- A task has ended. -/
def finish (s : Session) (t : Task) (ending : Ending) : Session :=
  { s with ended := (t.id, ending) :: s.ended }

/-- A task waits for its next turn. -/
def requeue (s : Session) (t : Task) (ticket : Ticket) : Session :=
  { s with queue := s.queue ++ [{ t with stage := .waiting ticket }] }

/-- A run captures for the next tick, or ends. -/
def goOn (s : Session) (t : Task) : Session :=
  match s.executor with
  | none => s.finish t (.failed .noMaze)
  | some e =>
    if e.isExecuting then s.requeue t ⟨s.loads, e.generation⟩
    else s.finish t (.ran e.snapshot)

/-- Starts a run unless one is executing. -/
def beginRun (s : Session) : Session × Except Failure Unit :=
  if s.isExecuting then (s, .ok ()) else reply (fun _ => ()) s.start

/-- The session once a run has been started, unless one was executing. -/
def ensureStarted (s : Session) : Session := s.beginRun.1

/-- The turn of a task that has been taken off the queue. -/
def turn (s : Session) (t : Task) : Session :=
  if t.cancelled then s.finish t .cancelled
  else
    match t.stage with
    | .fresh =>
      -- a tick notes its ticket before anything else has a turn
      match s.capture with
      | .error f => s.finish t (.failed f)
      | .ok ticket =>
        match t.job with
        | .tick => s.requeue t ticket
        | .run =>
          match s.beginRun with
          | (s, .error f) => s.finish t (.failed f)
          | (s, .ok _) => s.goOn t
    | .waiting ticket =>
      match s.resolve ticket with
      | (s, .error f) => s.finish t (.failed f)
      | (s, .ok r) =>
        match t.job with
        | .tick => s.finish t (.ticked r)
        -- an obsolete tick of a run counts as one that did nothing
        | .run => s.goOn t

/-- The turn of the task in front. -/
def runNext (s : Session) : Session :=
  match s.queue with
  | [] => s
  | t :: rest => { s with queue := rest }.turn t

/-- `n` turns. -/
def runTurns : (n : Nat) → Session → Session
  | 0, s => s
  | n + 1, s => runTurns n s.runNext

/-- One turn for every task in the queue. -/
def pass (s : Session) : Session := s.runTurns s.queue.length

/-- `n` times one turn for every task in the queue. -/
def passes : (n : Nat) → Session → Session
  | 0, s => s
  | n + 1, s => passes n s.pass

/-- How a task ended, if it has. -/
def ending? (s : Session) (id : Nat) : Option Ending := s.ended.lookup id

/-- A number of turns that is enough for all tasks to end.  The program does not change
while only tasks have turns.  Every start takes a fresh task or a deed of the listener,
and a run that is neither started nor stopped from outside uses up an entry of its trace
with every tick. -/
def budget (s : Session) : Nat :=
  let deeds := (s.script.flatMap Reaction.deeds).length
  let tasks := s.queue.length + deeds + 1
  let starts := s.queue.length + 2 * deeds + 1
  -- a run that has not heard of an edit still goes by the trace from before
  let entries := max s.ingestion.program.trace.length (s.executor.elim 0 fun e => e.trace.length)
  tasks * (starts * (entries + 2) + 2)

/-- Turns until something is the case, at most `limit`. -/
def runUntil (stop : Session → Bool) : (limit : Nat) → Session → Session
  | 0, s => s
  | limit + 1, s => if stop s then s else runUntil stop limit s.runNext

/-- Turns until the queue is empty. -/
def settle (s : Session) : Session := runUntil (fun s => s.queue.isEmpty) s.budget s

/-- Waits for a task.  Whoever waits is woken after the turns that are then in the
queue; a task that ended before needs no waiting. -/
def join (s : Session) (id : Nat) : Session :=
  if (s.ending? id).isSome then s
  else (runUntil (fun s => (s.ending? id).isSome) s.budget s).pass

/-- A tick in the foreground. -/
def tick (s : Session) : Session × Except Failure (Option StepResult) :=
  match s.capture with
  | .error f => (s, .error f)
  | .ok ticket => s.pass.resolve ticket

/-- The beginning of a tick that resolves when it is joined. -/
def beginTick (s : Session) : Session × Nat :=
  let (s, id) := s.spawn .tick
  (s.pass, id)

/-- `n` tasks with a single tick each. -/
def spawnTicks : (n : Nat) → Session → Session × List Nat
  | 0, s => (s, [])
  | n + 1, s =>
    let (s, id) := s.spawn .tick
    let (s, ids) := spawnTicks n s
    (s, id :: ids)

/-- What a tick task answers. -/
def tickResult (s : Session) (id : Nat) : Except Failure (Option StepResult) :=
  match s.ending? id with
  | some (.ticked r) => .ok r
  | some (.failed f) => .error f
  | _ => .ok none

/-- `n` ticks that are all captured before the first one resolves.  Two more turns pass
until whoever waits for all of them goes on. -/
def ticks (s : Session) (n : Nat) : Session × Except Failure (List (Option StepResult)) :=
  if n = 0 then (s, .ok [])
  else
    let (s, ids) := s.spawnTicks n
    let s := runUntil (fun s => ids.all fun id => (s.ending? id).isSome) s.budget s
    let s := s.pass.pass
    (s, ids.mapM s.tickResult)

/-- Ticks while the run is executing, at most `limit` times. -/
def tickWhileExecuting : (limit : Nat) → Session → Session × Except Failure Unit
  | 0, s => (s, .ok ())
  | limit + 1, s =>
    if s.isExecuting then
      match s.tick with
      | (s, .error f) => (s, .error f)
      | (s, .ok _) => tickWhileExecuting limit s
    else (s, .ok ())

/-- Starts if need be and ticks until the run stops executing, at most `maxTicks` times
if there is a limit; the answer is how things stand then. -/
def run (s : Session) (maxTicks : Option Nat := none) : Session × Except Failure Snapshot :=
  match s.requireExecutor with
  | .error f => (s, .error f)
  | .ok _ =>
    match s.beginRun with
    | (s, .error f) => (s, .error f)
    | (s, .ok _) =>
      match tickWhileExecuting (maxTicks.getD s.budget) s with
      | (s, .error f) => (s, .error f)
      | (s, .ok _) => (s, s.snapshot)

/-- Loads a maze.  The tasks go on while a further attempt is due. -/
def load (s : Session) (loading : Loading) : Session × Except Failure Maze :=
  let s := loading.log.foldl (fun s line => s.settle.record (.logged line)) s
  s.finishLoad loading.result

end Session

end MazeRobot
