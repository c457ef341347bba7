import MazeRobot.Catalog
import MazeRobot.Store.Basic

/-! # Filling an empty store

`MazeStore.seed` saves the built-in mazes into a store that lists none, so that nothing
is ever overwritten. -/

namespace MazeRobot

/-- Saves the built-in mazes into an empty store and tells how many were saved. -/
def MazeStore.seed [MazeStore σ] (s : σ) : σ × Except Failure Nat :=
  match list s with
  | (s, .error e) => (s, .error e)
  | (s, .ok (_ :: _)) => (s, .ok 0)
  | (s, .ok []) =>
    let (s, saved) := saveAll s Catalog.mazes
    (s, saved.map fun _ => Catalog.mazes.length)

end MazeRobot
