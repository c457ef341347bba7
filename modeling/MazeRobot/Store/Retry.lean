import MazeRobot.Failure
import MazeRobot.Log
import MazeRobot.Maze.Basic

/-! # Loading with patience

A maze may be saved anew while it is being read, so a load that fails for a passing
reason is tried again.  `Retry.load` takes the outcomes of successive reads as a
function of the number of earlier ones. -/

namespace MazeRobot

/-- Whether a failed read may succeed a moment later: the storage was out of reach or
refused a file, or it held a record that does not check out. -/
def Failure.isTransient : Failure → Bool
  | .outage _ | .longFileName | .invalid _ => true
  | _ => false

/-- How a load with retries went. -/
structure Loading where
  result : Except Failure Maze
  /-- The number of reads. -/
  calls : Nat
  /-- What was logged, in order. -/
  log : List LogEntry

namespace Retry

/-- Reads a maze at most this often unless told otherwise. -/
def standardAttempts : Int := 3

/-- The line that announces a further attempt. -/
def announcement (id : Text) (attempts : Int) (call : Nat) : LogEntry :=
  .of .error s!"Maze store retry {call}/{attempts} for '{id}'"

example : announcement "a" 3 2 = ⟨.error, "[!] Maze store retry 2/3 for 'a'"⟩ := by decide

/-- The answer to a caller who needs the maze. -/
def demand (id : Text) : Option Maze → Except Failure Maze
  | some m => .ok m
  | none => .error (.mazeNotFound id)

/-- Reads again after `call` reads, at most `left` more times after the next. -/
def attempt (outcome : Nat → Except Failure (Option Maze)) (id : Text) (attempts : Int)
    (call : Nat) : (left : Nat) → Loading
  | 0 => ⟨(outcome call).bind (demand id), call + 1, []⟩
  | left + 1 =>
    match outcome call with
    | .ok found => ⟨demand id found, call + 1, []⟩
    | .error e =>
      if e.isTransient then
        let later := attempt outcome id attempts (call + 1) left
        { later with log := announcement id attempts (call + 2) :: later.log }
      else ⟨.error e, call + 1, []⟩

/-- The number of attempts in force: the one chosen, where zero is no choice, or else the
one configured. -/
def attemptsInForce (chosen : Option Int) (configured : Int) : Int :=
  match chosen with
  | none | some 0 => configured
  | some n => n

/-- Loads a maze.  There is always at least one attempt. -/
def load (outcome : Nat → Except Failure (Option Maze)) (id : Text)
    (chosen : Option Int := none) (configured : Int := standardAttempts) : Loading :=
  let attempts := attemptsInForce chosen configured
  attempt outcome id attempts 0 (attempts - 1).toNat

end Retry

end MazeRobot
