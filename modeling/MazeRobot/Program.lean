import MazeRobot.Command.Edit
import MazeRobot.Command.Unroll

/-! # The editable program

A `Program` is a list of commands together with its trace and the listeners to be told
about every new trace.  Each edit replaces the commands, unrolls them again and then
tells the listeners in turn.

A listener may fail.  The edit is kept all the same, and the listeners after the failing
one are not told.  An edit at an index outside the program changes nothing. -/

namespace MazeRobot

/-- Somebody who is told about every new trace.  What a listener does with a trace may
depend on all that it has heard, the latest first; here it only matters whether it
fails. -/
structure Listener where
  fails : List Trace → Bool
  heard : List Trace := []

namespace Listener

/-- A listener that never fails. -/
def quiet : Listener := { fails := fun _ => false }

/-- A listener that always fails. -/
def failing : Listener := { fails := fun _ => true }

/-- Tells a listener about a trace; the answer is whether it failed. -/
def hear (l : Listener) (t : Trace) : Listener × Bool :=
  let heard := t :: l.heard
  ({ l with heard }, l.fails heard)

/-- Tells listeners in turn until one fails. -/
def tellAll (t : Trace) : List Listener → List Listener × Bool
  | [] => ([], false)
  | l :: rest =>
    match l.hear t with
    | (l, true) => (l :: rest, true)
    | (l, false) =>
      let (rest, failed) := tellAll t rest
      (l :: rest, failed)

end Listener

/-- Commands, their trace, and who is told about it. -/
structure Program where
  commands : List Command
  trace : Trace
  listeners : List Listener
  /-- How many edits every listener has heard of. -/
  heardByAll : Nat := 0

namespace Program

/-- A program with the given commands. -/
def ofCommands (commands : List Command) (listeners : List Listener := []) : Program :=
  { commands, trace := Command.unrollAll commands, listeners }

instance : Inhabited Program := ⟨ofCommands []⟩

/-- Number of top-level commands. -/
def size (p : Program) : Nat := p.commands.length

/-- Replaces the commands and tells the listeners. -/
def put (p : Program) (commands : List Command) : Program × Except Failure Unit :=
  let trace := Command.unrollAll commands
  let (listeners, failed) := Listener.tellAll trace p.listeners
  let heardByAll := if failed then p.heardByAll else p.heardByAll + 1
  (⟨commands, trace, listeners, heardByAll⟩,
    if failed then .error (.listener trace.length) else .ok ())

/-- The ordinary index for an index that has to lie inside the program. -/
def index (p : Program) (i : Int) : Except Failure Nat :=
  if 0 ≤ i ∧ i < p.size then .ok i.toNat else .error (.commandIndex i p.size)

/-- The command at a signed position. -/
def get (p : Program) (i : Int) : Except Failure Command :=
  (Position.get p.commands i).mapError .position

/-- Adds a command at the end. -/
def append (p : Program) (c : Command) : Program × Except Failure Unit :=
  p.put (p.commands ++ [c])

/-- Takes out the command at an index. -/
def remove (p : Program) (i : Int) : Program × Except Failure Command :=
  match p.index i with
  | .error e => (p, .error e)
  | .ok k =>
    match p.commands[k]? with
    | none => (p, .error (.commandIndex i p.size))
    | some c =>
      let (p, told) := p.put (p.commands.eraseIdx k)
      (p, told.map fun _ => c)

/-- Puts another command at an index. -/
def replace (p : Program) (i : Int) (c : Command) : Program × Except Failure Unit :=
  match p.index i with
  | .error e => (p, .error e)
  | .ok k => p.put (p.commands.set k c)

/-- Takes out all commands. -/
def clear (p : Program) : Program × Except Failure Unit := p.put []

/-- Adds a listener after those already there. -/
def listen (p : Program) (l : Listener) : Program :=
  { p with listeners := p.listeners ++ [l] }

/-- Drops all listeners. -/
def unlisten (p : Program) : Program := { p with listeners := [] }

end Program

end MazeRobot
