import MazeRobot.Command.Unroll
import MazeRobot.Executor.Basic
import MazeRobot.Proofs.World

/-!
# A direct interpreter of programs

`Command.interpret` runs a program on the tree of its commands.  There is no trace and no
cursor: a loop runs its body as often as its count says, and the first action that ends
the run ends everything around it.  A run that gets to the end of the program has not
reached the goal.

`interpretAll_unrollAll` says that unrolling a program keeps its course, and
`World.Does.act_eq` that the rules for actions are those of the interpreter.
-/

namespace MazeRobot

/-- How far a run has come after some piece of a program. -/
inductive Course where
  /-- The run goes on from here. -/
  | onward (w : World)
  | arrived (w : World)
  | failed (w : World) (reason : FailureReason)
  deriving DecidableEq, Repr

namespace Course

/-- Goes on with what comes next, unless the run has ended. -/
def andThen (c : Course) (next : World → Course) : Course :=
  match c with
  | onward w => next w
  | arrived w => arrived w
  | failed w reason => failed w reason

/-- Goes on with the same piece `n` times. -/
def times (next : World → Course) : (n : Nat) → World → Course
  | 0, w => onward w
  | n + 1, w => (next w).andThen (times next n)

@[simp] theorem onward_andThen (w : World) (next : World → Course) :
    (onward w).andThen next = next w := rfl

@[simp] theorem andThen_onward (c : Course) : c.andThen onward = c := by
  cases c <;> rfl

/-- Courses one after the other can be grouped in any way. -/
theorem andThen_assoc (c : Course) (f g : World → Course) :
    (c.andThen f).andThen g = c.andThen fun w => (f w).andThen g := by
  cases c <;> rfl

end Course

/-- What can be told of a run that is over. -/
structure Outcome where
  status : RunStatus
  reason : Option FailureReason
  robot : Pose
  grid : Grid
  moves : Nat
  deriving DecidableEq, Repr

/-- How the whole run turned out; whoever could still go on has not reached the goal. -/
def Course.outcome : Course → Outcome
  | .onward w => ⟨.failed, some .goalNotReached, w.robot, w.overlay, w.moves⟩
  | .arrived w => ⟨.success, none, w.robot, w.overlay, w.moves⟩
  | .failed w reason => ⟨.failed, some reason, w.robot, w.overlay, w.moves⟩

/-- The course of a single action, told from the tile ahead. -/
def World.act (w : World) (a : Action) : Course :=
  let ahead := w.robot.ahead
  let there : World := ⟨⟨ahead.x, ahead.y, w.robot.heading⟩, w.overlay, w.moves + 1⟩
  match a with
  | .forward =>
    match w.overlay.look? ahead with
    | none => .failed w .outOfBounds
    | some .wall => .failed w .wallCollision
    | some .hole => .failed there .fellInHole
    | some .goal => .arrived there
    | some .floor | some .start => .onward there
  | .turnRight => .onward ⟨w.robot.turnedRight, w.overlay, w.moves⟩
  | .turnLeft => .onward ⟨w.robot.turnedLeft, w.overlay, w.moves⟩
  | .ifHole =>
    if w.overlay.look? ahead = some .hole then
      .onward ⟨w.robot, w.overlay.put ahead .floor, w.moves⟩
    else .onward w

/-- An `ifHole` fills the hole ahead, and the run goes on. -/
theorem World.act_ifHole (w : World) :
    w.act .ifHole = .onward { w with overlay := w.overlay.fill w.robot.ahead } := by
  unfold act Grid.fill
  by_cases hole : w.overlay.look? w.robot.ahead = some .hole
  · simp only [hole, if_true]
  · simp only [hole, if_false]

namespace Command

mutual

/-- The course of a command.  A loop without a count runs its body once. -/
def interpret : Command → World → Course
  | basic a, w => w.act a
  | loop none body, w => interpretAll body w
  | loop (some n) body, w => Course.times (interpretAll body) n w

/-- The course of commands in sequence. -/
def interpretAll : List Command → World → Course
  | [], w => .onward w
  | c :: rest, w => (interpret c w).andThen (interpretAll rest)

end

/-- A loop runs its body again and again, whatever its count. -/
theorem interpret_loop (count : Option Nat) (body : List Command) :
    interpret (loop count body) = Course.times (interpretAll body) (repetitions count) := by
  funext w
  cases count with
  | none =>
    rw [interpret]
    exact (Course.andThen_onward _).symm
  | some n => rfl

/-! ## Unrolling -/

/-- Programs one after the other are interpreted one after the other. -/
theorem interpretAll_append (xs ys : List Command) (w : World) :
    interpretAll (xs ++ ys) w = (interpretAll xs w).andThen (interpretAll ys) := by
  induction xs generalizing w with
  | nil => simp only [List.nil_append, interpretAll, Course.onward_andThen]
  | cons x xs ih =>
    rw [List.cons_append, interpretAll, interpretAll, Course.andThen_assoc]
    congr 1
    funext w'
    exact ih w'

/-- Copies of a piece are the piece run that many times. -/
theorem interpretAll_replicate (n : Nat) (xs : List Command) :
    interpretAll (List.replicate n xs).flatten = Course.times (interpretAll xs) n := by
  induction n with
  | zero => rfl
  | succ n ih =>
    funext w
    rw [List.replicate_succ, List.flatten_cons, interpretAll_append, ih, Course.times]

theorem interpretAll_singleton (c : Command) (w : World) :
    interpretAll [c] w = interpret c w := by
  rw [interpretAll]
  exact Course.andThen_onward _

mutual

/-- The trace of a command takes the course of the command. -/
theorem interpretAll_unroll : (c : Command) → interpretAll (unroll c) = interpret c
  | basic a => by
    funext w
    rw [unroll, interpretAll_singleton]
  | loop count body => by
    rw [unroll, interpretAll_replicate, interpretAll_unrollAll body, interpret_loop]

/-- The trace of a program takes the course of the program. -/
theorem interpretAll_unrollAll : (cs : List Command) → interpretAll (unrollAll cs) = interpretAll cs
  | [] => rfl
  | c :: rest => by
    funext w
    rw [unrollAll, interpretAll_append, interpretAll_unroll c, interpretAll_unrollAll rest,
      interpretAll]

end

/-- No command of the trace is a loop. -/
def Linear (trace : Trace) : Prop := ∀ c ∈ trace, ∃ a, c = basic a

mutual

/-- What a command is unrolled to holds no loops. -/
theorem linear_unroll : (c : Command) → Linear (unroll c)
  | basic a => by
    intro c hc
    rw [unroll, List.mem_singleton] at hc
    exact ⟨a, hc⟩
  | loop count body => by
    intro c hc
    rw [unroll] at hc
    obtain ⟨copy, hcopy, hmem⟩ := List.mem_flatten.mp hc
    rw [List.eq_of_mem_replicate hcopy] at hmem
    exact linear_unrollAll body c hmem

/-- Traces of programs hold no loop. -/
theorem linear_unrollAll : (cs : List Command) → Linear (unrollAll cs)
  | [] => fun _ hc => nomatch hc
  | c :: rest => by
    intro d hd
    rw [unrollAll] at hd
    cases List.mem_append.mp hd with
    | inl h => exact linear_unroll c d h
    | inr h => exact linear_unrollAll rest d h

end

end Command

/-! ## Actions -/

/-- The course that a verdict means, given the world after the action. -/
def Verdict.course (v : Verdict) (w : World) : Course :=
  match v with
  | .continues _ => .onward w
  | .reachesGoal => .arrived w
  | .fails reason => .failed w reason

/-- The rules for actions are those of the interpreter. -/
theorem World.Does.act_eq {w w' : World} {a : Action} {v : Verdict} (h : w.Does a w' v) :
    w.act a = v.course w' := by
  cases h with
  | leaves ahead | collides ahead | falls ahead | arrives ahead =>
    simp only [act, ahead, Verdict.course, advance, Pose.movedTo]
  | walks ahead free =>
    rcases free with rfl | rfl <;>
      simp only [act, ahead, Verdict.course, advance, Pose.movedTo]
  | turnsRight | turnsLeft => rfl
  | fills ahead => simp only [act, ahead, Verdict.course, if_true]
  | passes ahead => simp only [act, if_neg ahead, Verdict.course]

end MazeRobot
