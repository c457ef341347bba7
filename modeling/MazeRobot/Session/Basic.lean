import MazeRobot.Executor.Basic
import MazeRobot.Ingestion
import MazeRobot.Log
import MazeRobot.Store.Retry

/-! # Sessions

A `Session` is one learner working on one maze: the entry point for commands, the
executor of the maze that was loaded last, the ticks and background runs under way, and
a journal of everything that was logged or shown to the listener.

User actions take effect at once.  A tick does not: it first notes which executor it is
meant for and under which generation (`Session.capture`), waits, and only then steps
(`Session.resolve`).  If the maze was loaded anew, or the run started, paused or reset
in the meantime, the tick does nothing.

A listener may act on the session itself, and it may fail.  Its `script` says on which view
it waits, what it then does and whether it fails in the end; each entry is used once.  A
listener that fails makes the action fail that has told it, but what the action has changed
before stays changed. -/

namespace MazeRobot

/-- What a listener sees of a session. -/
structure View where
  mazeId : Text
  execution : Snapshot
  commands : List Command
  pending : Option Command
  notice : Option Notice

/-- An entry of the journal. -/
inductive Event where
  | logged (entry : LogEntry)
  | viewed (view : View)

/-- What a user or a listener can do to a run. -/
inductive Deed where
  | start
  | pause
  | toggle
  | reset
  | play
  deriving DecidableEq, Repr, Inhabited

/-- What a listener does, deed by deed, on the first view it has been waiting for.  A deed
that fails is its last, and it fails then too. -/
structure Reaction where
  due : View → Bool
  deeds : List Deed
  /-- What it fails with after its deeds, if it does. -/
  failure : Option Failure := none

/-- How the reaction ends once its deeds are done. -/
def Reaction.outcome (r : Reaction) : Except Failure Unit :=
  match r.failure with
  | none => .ok ()
  | some f => .error f

/-- What a tick notes before it waits. -/
structure Ticket where
  /-- Which of the loaded mazes it is meant for. -/
  load : Nat
  generation : Nat
  deriving DecidableEq, Repr, Inhabited

/-- What a task does. -/
inductive Job where
  /-- Ticks until the run stops executing. -/
  | run
  /-- A single tick. -/
  | tick
  deriving DecidableEq, Repr, Inhabited

/-- How far a task has come. -/
inductive Stage where
  | fresh
  /-- A tick is waiting. -/
  | waiting (ticket : Ticket)
  deriving DecidableEq, Repr, Inhabited

/-- A task that has not ended yet. -/
structure Task where
  id : Nat
  job : Job
  stage : Stage := .fresh
  cancelled : Bool := false
  deriving DecidableEq, Repr, Inhabited

/-- How a task ended. -/
inductive Ending where
  | ran (last : Snapshot)
  | ticked (result : Option StepResult)
  | failed (failure : Failure)
  | cancelled

/-- One learner working on one maze. -/
structure Session where
  ingestion : Ingestion
  /-- The maze that was loaded last. -/
  maze? : Option Maze := none
  executor : Option Executor := none
  /-- How many mazes have been loaded; it tells the executors apart. -/
  loads : Nat := 0
  /-- The time. -/
  now : Float := 0
  /-- Whether steps and actions are logged. -/
  verbose : Bool := true
  /-- Whether there is a listener. -/
  listening : Bool := true
  /-- What the listener is still going to do. -/
  script : List Reaction := []
  /-- The tasks that have not ended, the one whose turn is next in front. -/
  queue : List Task := []
  ended : List (Nat × Ending) := []
  /-- The background run that pause, reset and load cancel. -/
  background : Option Nat := none
  /-- The id of the next task. -/
  nextTask : Nat := 0
  /-- What was logged and shown, in order. -/
  journal : List Event := []
  deriving Inhabited

namespace Session

/-- Whether there is a run that would take a step. -/
def isExecuting (s : Session) : Bool := s.executor.any Executor.isExecuting

/-- The executor, which every action on a run needs. -/
def requireExecutor (s : Session) : Except Failure Executor :=
  match s.executor with
  | some e => .ok e
  | none => .error .noMaze

/-- What renderers see of the run; refused if there is none. -/
def snapshot (s : Session) : Except Failure Snapshot := s.requireExecutor.map Executor.snapshot

/-- What a listener would see now. -/
def viewOf (s : Session) (e : Executor) : View where
  mazeId := e.maze.id
  execution := e.snapshot
  commands := s.ingestion.program.commands
  pending := s.ingestion.mode.pending?
  notice := s.ingestion.activeNotice s.now

/-- What a listener would be shown now; refused if there is no run. -/
def view (s : Session) : Except Failure View := s.requireExecutor.map s.viewOf

/-- Adds an entry to the journal. -/
def record (s : Session) (event : Event) : Session :=
  { s with journal := s.journal ++ [event] }

/-- Adds a log line unless the session is quiet. -/
def log (s : Session) (kind : LogKind) (text : String) (indent : Nat := 0) : Session :=
  if s.verbose then s.record (.logged (.of kind text indent)) else s

/-- Cancels the background run.  A task that is having its turn is not in the queue and
goes on. -/
def cancelBackground (s : Session) : Session :=
  match s.background with
  | none => s
  | some id =>
    let cancel (t : Task) : Task := if t.id = id then { t with cancelled := true } else t
    { s with background := none, queue := s.queue.map cancel }

/-- Adds a task at the end of the queue. -/
def spawn (s : Session) (job : Job) : Session × Nat :=
  ({ s with queue := s.queue ++ [{ id := s.nextTask, job }], nextTask := s.nextTask + 1 },
    s.nextTask)

/-- Another answer, unless the action has failed. -/
def reply (f : α → β) (acted : Session × Except Failure α) : Session × Except Failure β :=
  (acted.1, acted.2.map f)

/-! ## Actions, given what comes of telling the listener -/

/-- Starts a run unless one is executing. -/
def startThen (notify : Session → Session × Except Failure Unit) (s : Session) (e : Executor) :
    Session × Except Failure Bool :=
  match e.start with
  | (_, false) => (s, .ok false)
  | (e, true) =>
    let s := { s with executor := some e }
    reply (fun _ => true) (notify (s.log .info s!"Run started: {e.trace.length} steps"))

/-- Pauses the run and cancels the background run. -/
def pauseThen (notify : Session → Session × Except Failure Unit) (s : Session) (e : Executor) :
    Session × Except Failure Bool :=
  match e.pause with
  | (_, false) => (s.cancelBackground, .ok false)
  | (e, true) =>
    let s := { s with executor := some e }.cancelBackground
    reply (fun _ => true) (notify (s.log .info s!"Paused at step {e.phase.cursor + 1}"))

/-- Pauses an executing run and starts any other; tells whether it executes now. -/
def toggleThen (notify : Session → Session × Except Failure Unit) (s : Session) (e : Executor) :
    Session × Except Failure Bool :=
  if e.isExecuting then reply (fun _ => false) (s.pauseThen notify e) else s.startThen notify e

/-- Takes the run back to idle and cancels the background run. -/
def resetThen (notify : Session → Session × Except Failure Unit) (s : Session) (e : Executor) :
    Session × Except Failure Unit :=
  let s := { s with executor := some e.reset }.cancelBackground
  notify (s.log .info "Reset")

/-- Starts a background run in place of the one before, which is given up even if the start
fails. -/
def playThen (notify : Session → Session × Except Failure Unit) (s : Session) (e : Executor) :
    Session × Except Failure Nat :=
  -- a run that is executing is not begun anew: the new task goes on with it
  match s.cancelBackground.startThen notify e with
  | (s, .error f) => (s, .error f)
  | (s, .ok _) =>
    let (s, id) := s.spawn .run
    ({ s with background := some id }, .ok id)

/-- Installs a maze that was loaded: a new idle executor on the present trace. -/
def installThen (notify : Session → Session × Except Failure Unit) (s : Session) (m : Maze) :
    Session × Except Failure Unit :=
  let s := s.cancelBackground
  let executor := Executor.create m s.ingestion.program.trace (some m.startPose)
  let s := { s with maze? := some m, executor := some executor, loads := s.loads + 1 }
  notify (s.log .info s!"Loaded maze '{m.name}' ({m.size}x{m.size})")

/-- An edit of the program.  The executor comes last among those told about it, so it
follows the edits that everybody else has heard of. -/
def onIngestion (s : Session) (edited : Ingestion × Except Failure α) :
    Session × Except Failure α :=
  let (ingestion, told) := edited
  let follow (e : Executor) : Executor := e.setTrace ingestion.program.trace
  let executor :=
    if ingestion.program.heardByAll = s.ingestion.program.heardByAll then s.executor
    else s.executor.map follow
  ({ s with ingestion, executor }, told)

/-- Absorbs a detected command. -/
def detectThen (notify : Session → Session × Except Failure Unit) (s : Session) (c : Command) :
    Session × Except Failure Bool :=
  match s.onIngestion (s.ingestion.submit s.isExecuting s.now c) with
  | (s, .ok true) =>
    let label := ((s.ingestion.activeNotice s.now).map Notice.label).getD c.kind.word
    let mode := if s.ingestion.mode.isBuilding then " (loop body)" else ""
    reply (fun _ => true) (notify (s.log .ingestion s!"Detected {label}{mode}" 2))
  | refused => refused

/-- The log lines for a step. -/
def logStep (s : Session) (e : Executor) (r : StepResult) : Session :=
  let name := (r.command.map fun c => c.kind.word).getD "end"
  let place (x y : Int) := s!"({x}, {y})"
  let filled := (r.filled.map fun c => s!" filled hole at {place c.x c.y}").getD ""
  let s := s.log .step
    (s!"[Step {r.index + 1}/{e.trace.length}] {name} → {place r.robot.x r.robot.y}" ++ filled) 2
  match e.phase with
  | .success => s.log .success s!"Goal reached in {e.world.moves} moves"
  | .failed reason => s.log .error s!"Failed: {reason.message}"
  | _ => s

/-- Takes one step, unless the tick is obsolete. -/
def resolveThen (notify : Session → Session × Except Failure Unit) (s : Session) (ticket : Ticket) :
    Session × Except Failure (Option StepResult) :=
  match s.executor with
  | none => (s, .ok none)
  | some e =>
    if ticket.load = s.loads then
      match e.step (some ticket.generation) with
      | .error f => (s, .error f)
      | .ok (_, none) => (s, .ok none)
      | .ok (e, some r) =>
        reply (fun _ => some r) (notify ({ s with executor := some e }.logStep e r))
    else (s, .ok none)

/-- Does a deed, whatever its answer. -/
def doThen (notify : Session → Session × Except Failure Unit) (s : Session) (deed : Deed) :
    Session × Except Failure Unit :=
  match s.executor with
  | none => (s, .error .noMaze)
  | some e =>
    match deed with
    | .start => reply (fun _ => ()) (s.startThen notify e)
    | .pause => reply (fun _ => ()) (s.pauseThen notify e)
    | .toggle => reply (fun _ => ()) (s.toggleThen notify e)
    | .reset => s.resetThen notify e
    | .play => reply (fun _ => ()) (s.playThen notify e)

/-- Does deeds in order, up to the first one that fails. -/
def doAllThen (notify : Session → Session × Except Failure Unit) :
    (deeds : List Deed) → Session → Session × Except Failure Unit
  | [], s => (s, .ok ())
  | d :: rest, s =>
    match s.doThen notify d with
    | (s, .error f) => (s, .error f)
    | (s, .ok _) => doAllThen notify rest s

/-- Shows the listener the present state; it may react up to `limit` times, and its
reactions are shown to it in turn.  Fails if the listener does. -/
def notifyUpTo (limit : Nat) (s : Session) : Session × Except Failure Unit :=
  match s.executor with
  | none => (s, .ok ())
  | some e =>
    if s.listening then
      let v := s.viewOf e
      let s := s.record (.viewed v)
      match limit, s.script with
      | limit + 1, r :: rest =>
        -- the reaction is crossed off before its deeds show further views
        if r.due v then
          match doAllThen (notifyUpTo limit) r.deeds { s with script := rest } with
          | (s, .error f) => (s, .error f)
          | (s, .ok _) => (s, r.outcome)
        else (s, .ok ())
      | _, _ => (s, .ok ())
    else (s, .ok ())

/-- Shows the listener the present state. -/
def notify (s : Session) : Session × Except Failure Unit := notifyUpTo s.script.length s

/-! ## Actions -/

/-- An action that needs a maze. -/
def withExecutor (s : Session) (f : Executor → Session × Except Failure α) :
    Session × Except Failure α :=
  match s.executor with
  | none => (s, .error .noMaze)
  | some e => f e

/-- Starts a run unless one is executing; tells whether it did. -/
def start (s : Session) : Session × Except Failure Bool :=
  s.withExecutor (s.startThen notify)

/-- Pauses an executing run; tells whether there was one. -/
def pause (s : Session) : Session × Except Failure Bool :=
  s.withExecutor (s.pauseThen notify)

/-- Pauses an executing run and starts any other; tells whether it executes now. -/
def toggle (s : Session) : Session × Except Failure Bool :=
  s.withExecutor (s.toggleThen notify)

/-- Takes the run back to idle. -/
def reset (s : Session) : Session × Except Failure Unit :=
  s.withExecutor (s.resetThen notify)

/-- Starts a background run in place of the one before; the answer is its task. -/
def play (s : Session) : Session × Except Failure Nat :=
  s.withExecutor (s.playThen notify)

/-- Installs a maze that was loaded: a new idle executor on the present trace. -/
def install (s : Session) (m : Maze) : Session × Except Failure Unit := s.installThen notify m

/-- The end of a load.  It changes nothing if there is no maze to install; if there is one, it
still fails if the listener does, but the maze is installed by then. -/
def finishLoad (s : Session) (result : Except Failure Maze) : Session × Except Failure Maze :=
  match result with
  | .ok m => reply (fun _ => m) (s.install m)
  | .error e => (s, .error e)

/-- A detected command; the answer is whether it was accepted. -/
def detect (s : Session) (c : Command) : Session × Except Failure Bool := s.detectThen notify c

/-! ## Ticks -/

/-- What a tick notes before it waits. -/
def capture (s : Session) : Except Failure Ticket :=
  s.requireExecutor.map fun e => ⟨s.loads, e.generation⟩

/-- The end of a tick: one step, unless the tick is obsolete. -/
def resolve (s : Session) (ticket : Ticket) : Session × Except Failure (Option StepResult) :=
  s.resolveThen notify ticket

end Session

end MazeRobot
