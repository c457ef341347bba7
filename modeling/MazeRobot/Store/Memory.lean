import MazeRobot.Store.Basic

/-! # Mazes kept in memory -/

namespace MazeRobot

/-- Mazes kept in memory, at most one for each id. -/
structure MemoryStore where
  mazes : List Maze := []
  deriving DecidableEq, Repr, Inhabited

namespace MemoryStore

/-- The maze with the given id. -/
def find? (s : MemoryStore) (id : Text) : Option Maze := s.mazes.find? fun m => m.id == id

/-- The store without the given id. -/
def erase (s : MemoryStore) (id : Text) : MemoryStore :=
  ⟨s.mazes.filter fun m => m.id != id⟩

/-- The store with a maze under its id. -/
def put (s : MemoryStore) (m : Maze) : MemoryStore := ⟨m :: (s.erase m.id).mazes⟩

/-- The mazes in the order of their ids. -/
def toList (s : MemoryStore) : List Maze := Maze.sortById s.mazes

/-- A store that holds the given mazes; of two with one id the later one counts. -/
def ofList (mazes : List Maze) : MemoryStore := mazes.foldl put {}

instance : MazeStore MemoryStore where
  load s id := (s, .ok (s.find? id))
  save s m := (s.put m, .ok ())
  delete s id := (s.erase id, .ok ())
  list s := (s, .ok s.toList)

@[simp] theorem find?_put_self (s : MemoryStore) (m : Maze) : (s.put m).find? m.id = some m := by
  simp [find?, put]

theorem find?_put_of_ne (s : MemoryStore) (m : Maze) {id : Text} (h : m.id ≠ id) :
    (s.put m).find? id = s.find? id := by
  simp only [find?, put, erase, List.find?_cons, List.find?_filter]
  split
  · rename_i same
    exact absurd (eq_of_beq same) h
  · congr 1
    funext n
    by_cases e : n.id = id
    · simp [e, Ne.symm h]
    · simp [e]

end MemoryStore

end MazeRobot
