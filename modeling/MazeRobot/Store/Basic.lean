import MazeRobot.Failure
import MazeRobot.Maze.Basic

/-! # Maze stores

A `MazeStore` keeps mazes under their ids.  Loading an unknown id gives nothing, saving
replaces what was there, deleting an unknown id changes nothing, and `list` gives every
maze once, in the order of the ids.  A store may be changed by any operation, even by a
refused one. -/

namespace MazeRobot

/-- The operations of a store whose state is `σ`. -/
class MazeStore (σ : Type) where
  load : σ → Text → σ × Except Failure (Option Maze)
  save : σ → Maze → σ × Except Failure Unit
  delete : σ → Text → σ × Except Failure Unit
  list : σ → σ × Except Failure (List Maze)

namespace MazeStore

/-- Saves mazes in turn until one is refused. -/
def saveAll [MazeStore σ] (s : σ) : List Maze → σ × Except Failure Unit
  | [] => (s, .ok ())
  | m :: rest =>
    match save s m with
    | (s, .ok _) => saveAll s rest
    | (s, .error e) => (s, .error e)

end MazeStore

/-- Mazes in the order of their ids; mazes with equal ids keep their order. -/
def Maze.sortById (mazes : List Maze) : List Maze :=
  mazes.mergeSort fun a b => decide (a.id ≤ b.id)

end MazeRobot
