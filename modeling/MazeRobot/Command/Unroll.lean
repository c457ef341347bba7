import MazeRobot.Command.Basic

/-! # Traces

`Command.unrollAll` turns a program into its trace: every loop is replaced in place by
its unrolled body, repeated as often as the loop says.  Nested counts therefore
multiply.  A body is unrolled once and then repeated, so deep nests of loops around
nothing cost no more than their depth. -/

namespace MazeRobot

/-- A linear run of commands.  Unrolled traces hold no loop. -/
abbrev Trace := List Command

namespace Command

/-- How often a loop runs its body: once without a count. -/
def repetitions (count : Option Nat) : Nat := count.getD 1

mutual

/-- The trace of one command. -/
def unroll : Command → Trace
  | basic a => [basic a]
  | loop count body => (List.replicate (repetitions count) (unrollAll body)).flatten

/-- The trace of a program. -/
def unrollAll : List Command → Trace
  | [] => []
  | c :: rest => unroll c ++ unrollAll rest

end

@[simp] theorem unrollAll_append (xs ys : List Command) :
    unrollAll (xs ++ ys) = unrollAll xs ++ unrollAll ys := by
  induction xs with
  | nil => simp [unrollAll]
  | cons x xs ih => simp [unrollAll, ih]

end Command

end MazeRobot
