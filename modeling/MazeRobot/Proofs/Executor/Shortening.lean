import Mathlib.Logic.Relation
import MazeRobot.Proofs.Executor.Run

/-!
# Shortening programs

Some pieces of a program do nothing (a turn and the turn back, four turns the same way) and
some do the same thing twice (an `ifHole` right behind another).  Shortening such a piece,
wherever it stands, does not change how a complete run ends.

The traces of the two programs differ in length, by a multiple of the enclosing counts, and
one of them may be empty.  None of this matters to the interpreter: a piece is a function
from worlds to courses, and what stands around it only sees that function
(`interpretAll_of_shortens`).
-/

namespace MazeRobot

namespace Command

/-- A piece of a program, and a shorter piece that does the same. -/
inductive Redundant : List Command → List Command → Prop where
  | rightLeft : Redundant [basic .turnRight, basic .turnLeft] []
  | leftRight : Redundant [basic .turnLeft, basic .turnRight] []
  | fourRight : Redundant (List.replicate 4 (basic .turnRight)) []
  | fourLeft : Redundant (List.replicate 4 (basic .turnLeft)) []
  | ifHoleTwice : Redundant [basic .ifHole, basic .ifHole] [basic .ifHole]

/-- One redundant piece is shortened, at the top of a program or in the body of a loop at
any depth. -/
inductive Shortens : List Command → List Command → Prop where
  | here {long short : List Command} (before after : List Command) (h : Redundant long short) :
      Shortens (before ++ long ++ after) (before ++ short ++ after)
  | inside {body body' : List Command} (before : List Command) (count : Option Nat)
      (after : List Command) (h : Shortens body body') :
      Shortens (before ++ loop count body :: after) (before ++ loop count body' :: after)

/-! ## Pieces -/

theorem interpretAll_basic_cons (a : Action) (rest : List Command) (w : World) :
    interpretAll (basic a :: rest) w = (w.act a).andThen (interpretAll rest) := rfl

/-- Four quarter turns are a full turn. -/
theorem right_right_right_right (h : Heading) : h.right.right.right.right = h := by
  simp [Heading.right]

/-- Four turns to the left are none. -/
theorem left_left_left_left (h : Heading) : h.left.left.left.left = h := by
  simp [Heading.left]

/-- A redundant piece and its short form are the same function. -/
theorem interpretAll_of_redundant {long short : List Command} (h : Redundant long short) :
    interpretAll long = interpretAll short := by
  funext w
  cases h with
  | rightLeft =>
    show Course.onward ⟨w.robot.turnedRight.turnedLeft, w.overlay, w.moves⟩ = .onward w
    rw [Pose.turnedLeft_turnedRight]
  | leftRight =>
    show Course.onward ⟨w.robot.turnedLeft.turnedRight, w.overlay, w.moves⟩ = .onward w
    rw [Pose.turnedRight_turnedLeft]
  | fourRight =>
    show Course.onward ⟨⟨w.robot.x, w.robot.y, w.robot.heading.right.right.right.right⟩,
      w.overlay, w.moves⟩ = .onward w
    rw [right_right_right_right]
  | fourLeft =>
    show Course.onward ⟨⟨w.robot.x, w.robot.y, w.robot.heading.left.left.left.left⟩,
      w.overlay, w.moves⟩ = .onward w
    rw [left_left_left_left]
  | ifHoleTwice =>
    -- the second one finds no hole
    have hfilled : World.act { w with overlay := w.overlay.fill w.robot.ahead } .ifHole =
        w.act .ifHole := by
      rw [World.act_ifHole, World.act_ifHole, Grid.fill_fill]
    rw [interpretAll_basic_cons, World.act_ifHole, Course.onward_andThen, interpretAll_singleton,
      interpretAll_singleton]
    exact hfilled

/-- What stands before and after a piece only sees what the piece does. -/
theorem interpretAll_context {piece piece' : List Command}
    (h : interpretAll piece = interpretAll piece') (before after : List Command) :
    interpretAll (before ++ piece ++ after) = interpretAll (before ++ piece' ++ after) := by
  funext w
  rw [interpretAll_append, interpretAll_append, h, ← interpretAll_append, ← interpretAll_append]

/-- Shortening does not change what a program does. -/
theorem interpretAll_of_shortens {program program' : List Command}
    (h : Shortens program program') : interpretAll program = interpretAll program' := by
  induction h with
  | here before after h => exact interpretAll_context (interpretAll_of_redundant h) before after
  | @inside body body' before count after _ ih =>
    -- a loop repeats the function that its body is
    have hloop : interpretAll [loop count body] = interpretAll [loop count body'] := by
      funext w
      rw [interpretAll_singleton, interpretAll_singleton, interpret_loop, interpret_loop, ih]
    have hcontext := interpretAll_context hloop before after
    rwa [List.append_assoc, List.append_assoc] at hcontext

end Command

namespace Executor

/-- However often a program is shortened: it is run to completion as before, and ends with
the same status, reason, robot, grid and moves. -/
theorem outcome_eq_of_shortens (m : Maze) (hm : m.WellFormed) (initial : Option Pose)
    (program program' : List Command)
    (h : Relation.ReflTransGen Command.Shortens program program') :
    ∃ rs e rs' e',
      (create m (Command.unrollAll program) initial).Completes rs e ∧
      (create m (Command.unrollAll program') initial).Completes rs' e' ∧
      e'.outcome = e.outcome := by
  have hsame : Command.interpretAll program = Command.interpretAll program' := by
    induction h with
    | refl => rfl
    | tail _ last ih => exact ih.trans (Command.interpretAll_of_shortens last)
  obtain ⟨rs, e, hrun, hout⟩ := exists_completes hm program initial
  obtain ⟨rs', e', hrun', hout'⟩ := exists_completes hm program' initial
  refine ⟨rs, e, rs', e', hrun, hrun', ?_⟩
  rw [hout, hout', hsame]

/-- A doubled `ifHole` in a nest of loops, and then all there is before the loop: the second
program reaches the goal with half of the steps. -/
theorem outcome_eq_of_shortens_trench :
    let program : List Command :=
      [.basic .turnLeft, .basic .turnRight,
        .loop (some 2) [.loop none [.basic .ifHole, .basic .ifHole], .basic .forward]]
    let program' : List Command :=
      [.loop (some 2) [.loop none [.basic .ifHole], .basic .forward]]
    Maze.trench.WellFormed ∧ Relation.ReflTransGen Command.Shortens program program' ∧
      ∃ rs e rs' e',
        (create .trench (Command.unrollAll program)).Completes rs e ∧
        (create .trench (Command.unrollAll program')).Completes rs' e' ∧
        e'.outcome = e.outcome := by
  intro program program'
  -- first the pair inside the loop, then the turns in front of it
  have hdoubled : Command.Shortens program [.basic .turnLeft, .basic .turnRight,
      .loop (some 2) [.loop none [.basic .ifHole], .basic .forward]] :=
    .inside [.basic .turnLeft, .basic .turnRight] (some 2) []
      (.inside [] none [.basic .forward] (.here [] [] .ifHoleTwice))
  have hturns : Command.Shortens [.basic .turnLeft, .basic .turnRight,
      .loop (some 2) [.loop none [.basic .ifHole], .basic .forward]] program' :=
    .here [] [.loop (some 2) [.loop none [.basic .ifHole], .basic .forward]] .leftRight
  have h : Relation.ReflTransGen Command.Shortens program program' :=
    (Relation.ReflTransGen.single hdoubled).tail hturns
  exact ⟨Maze.trench_wellFormed, h,
    outcome_eq_of_shortens .trench Maze.trench_wellFormed none program program' h⟩

end Executor

end MazeRobot
