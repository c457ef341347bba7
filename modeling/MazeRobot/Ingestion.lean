import MazeRobot.Program

/-! # From detections to program edits

Detected commands arrive one at a time, so a loop is built in stages: a first loop
detection opens it, the commands that follow fill its body, and a second loop detection
closes it and appends the finished loop to the program (`Mode`).  While a run is
executing, detections are ignored.

Every accepted detection puts up a `Notice` for a while. -/

namespace MazeRobot

/-- Whether a loop is being built. -/
inductive Mode where
  | idle
  | building (count : Nat) (body : List Command)
  deriving DecidableEq, Repr, Inhabited

namespace Mode

/-- The loop being built. -/
def pending? : Mode → Option Command
  | idle => none
  | building count body => some (.loop (some count) body)

/-- Whether a loop is open. -/
def isBuilding : Mode → Bool
  | idle => false
  | building _ _ => true

/-- The count of the loop being built. -/
def count? : Mode → Option Nat
  | idle => none
  | building count _ => some count

end Mode

/-- What was detected last, shown until a point in time. -/
structure Notice where
  label : String
  expires : Float

/-- Whether a notice is still shown. -/
def Notice.isActive (n : Notice) (now : Float) : Bool := now < n.expires

/-- The label of a notice for the end of a loop. -/
def endLoopLabel : String := "End Loop"

/-- Repetitions of a loop for which nobody chose a count. -/
def standardLoopCount : Nat := 2

/-- For how many seconds a notice is shown unless told otherwise. -/
def standardDisplay : Float := 1.5

/-- The state of the entry point for detections and edits. -/
structure Ingestion where
  program : Program
  mode : Mode := .idle
  notice : Option Notice := none
  /-- The count proposed for a new loop. -/
  defaultCount : Nat := standardLoopCount
  /-- For how many seconds a notice is shown. -/
  display : Float := standardDisplay
  deriving Inhabited

namespace Ingestion

/-- An entry point for edits of a program, with options that may be absent. -/
def create (program : Program) (defaultCount : Json := .null) (display : Option Float := none) :
    Except Failure Ingestion := do
  let count ← if defaultCount matches .null then pure (standardLoopCount : Int)
    else Command.chosenCount defaultCount
  return { program, defaultCount := clampCount count, display := display.getD standardDisplay }

/-- The notice that is shown at a point in time. -/
def activeNotice (i : Ingestion) (now : Float) : Option Notice :=
  i.notice.filter fun n => n.isActive now

/-- An edit of the program, seen from the entry point. -/
def onProgram (i : Ingestion) (edited : Program × α) : Ingestion × α :=
  ({ i with program := edited.1 }, edited.2)

/-- The label under which a detection is announced in a given mode. -/
def labelFor (mode : Mode) (c : Command) : String :=
  if c.isLoop && mode.isBuilding then endLoopLabel else c.kind.word

/-- Announces a detection. -/
def announce (i : Ingestion) (now : Float) (c : Command) : Ingestion :=
  { i with notice := some ⟨labelFor i.mode c, now + i.display⟩ }

/-- The count of a loop opened by a detection that carries `count`; zero counts as
absent. -/
def openingCount (i : Ingestion) (count : Option Nat) : Nat :=
  match count with
  | none | some 0 => clampCount i.defaultCount
  | some (n + 1) => clampCount (n + 1 : Nat)

/-- What a detection does to mode and program. -/
def absorb (i : Ingestion) (c : Command) : Ingestion × Except Failure Unit :=
  match c, i.mode with
  | .loop _ _, .building count body =>
    let (i, told) := i.onProgram (i.program.append (.loop (some count) body))
    (if told.isOk then { i with mode := .idle } else i, told)
  | .loop count _, .idle => ({ i with mode := .building (i.openingCount count) [] }, .ok ())
  | .basic a, .building count body =>
    ({ i with mode := .building count (body ++ [.basic a]) }, .ok ())
  | .basic a, .idle => i.onProgram (i.program.append (.basic a))

/-- A detection.  The answer is whether it was accepted: nothing happens while a run is
executing. -/
def submit (i : Ingestion) (running : Bool) (now : Float) (c : Command) :
    Ingestion × Except Failure Bool :=
  if running then (i, .ok false)
  else
    let (i, told) := (i.announce now c).absorb c
    (i, told.map fun _ => true)

/-- Another count for the loop being built; the answer is whether there is one. -/
def setPendingCount (i : Ingestion) (n : Int) : Ingestion × Bool :=
  match i.mode with
  | .idle => (i, false)
  | .building _ body => ({ i with mode := .building (clampCount n) body }, true)

/-- As `setPendingCount`, for a count that has yet to be turned into a number. -/
def choosePendingCount (i : Ingestion) (count : Json) : Ingestion × Except Failure Bool :=
  match i.mode with
  | .idle => (i, .ok false)
  | .building _ _ =>
    match Command.chosenCount count with
    | .error e => (i, .error e)
    | .ok n =>
      let (i, changed) := i.setPendingCount n
      (i, .ok changed)

/-- Drops the loop being built. -/
def cancelLoop (i : Ingestion) : Ingestion × Option Command :=
  ({ i with mode := .idle }, i.mode.pending?)

/-- Removes a command of the program. -/
def removeCommand (i : Ingestion) (index : Int) : Ingestion × Except Failure Command :=
  i.onProgram (i.program.remove index)

/-- Replaces a command of the program. -/
def updateCommand (i : Ingestion) (index : Int) (c : Command) : Ingestion × Except Failure Unit :=
  i.onProgram (i.program.replace index c)

/-- Empties the program; an open loop stays open. -/
def clearProgram (i : Ingestion) : Ingestion × Except Failure Unit :=
  i.onProgram i.program.clear

/-- Count and body of the loop at an index, for an edit that needs one. -/
def loopAt (i : Ingestion) (index : Int) (edit : LoopEdit) :
    Except Failure (Option Nat × List Command) :=
  match i.program.index index with
  | .error e => .error e
  | .ok k =>
    match i.program.commands[k]? with
    | none => .error (.commandIndex index i.program.size)
    | some (.loop count body) => .ok (count, body)
    | some (.basic a) => .error (.loopOnly a.kind edit)

/-- Adds a command at the end of a loop's body. -/
def addChild (i : Ingestion) (index : Int) (c : Command) : Ingestion × Except Failure Unit :=
  match i.loopAt index .addChild with
  | .error e => (i, .error e)
  | .ok (count, body) => i.updateCommand index (.loop count (body ++ [c]))

/-- Takes a command out of a loop's body. -/
def removeChild (i : Ingestion) (index child : Int) : Ingestion × Except Failure Command :=
  match i.loopAt index .removeChild with
  | .error e => (i, .error e)
  | .ok (count, body) =>
    if 0 ≤ child ∧ child < body.length then
      match body[child.toNat]? with
      | none => (i, .error (.childIndex child body.length))
      | some c =>
        let (i, told) := i.updateCommand index (.loop count (body.eraseIdx child.toNat))
        (i, told.map fun _ => c)
    else (i, .error (.childIndex child body.length))

/-- Another count for a loop, brought into range. -/
def updateCount (i : Ingestion) (index : Int) (n : Int) : Ingestion × Except Failure Unit :=
  match i.loopAt index .setCount with
  | .error e => (i, .error e)
  | .ok (_, body) => i.updateCommand index (.loop (some (clampCount n)) body)

/-- As `updateCount`, for a count that has yet to be turned into a number; whether there
is a loop is settled first. -/
def chooseCount (i : Ingestion) (index : Int) (count : Json) : Ingestion × Except Failure Unit :=
  match i.loopAt index .setCount with
  | .error e => (i, .error e)
  | .ok _ =>
    match Command.chosenCount count with
    | .error e => (i, .error e)
    | .ok n => i.updateCount index n

end Ingestion

end MazeRobot
