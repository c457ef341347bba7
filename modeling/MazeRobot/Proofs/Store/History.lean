import Mathlib.Data.List.Induction
import MazeRobot.Proofs.Store.Order
import MazeRobot.Store.Memory

/-!
# What a maze store should answer

A store is used by one `Request` after the other.  Which answers are right follows from
the earlier requests alone (`Answers`): a maze is there if it was saved and has not been
deleted since (`kept`).  A store in memory that was empty at first always gives the right
answer (`MemoryStore.answers_serve`).
-/

namespace MazeRobot

namespace MazeStore

/-- What can be asked of a maze store. -/
inductive Request where
  | load (id : Text)
  | save (m : Maze)
  | delete (id : Text)
  | list

/-- What a maze store answers. -/
inductive Reply where
  | found (m? : Option Maze)
  | done
  | listed (mazes : List Maze)
  deriving DecidableEq

variable {σ : Type} [MazeStore σ]

/-- One request. -/
def serve (s : σ) : Request → σ × Except Failure Reply
  | .load id => ((load s id).1, (load s id).2.map .found)
  | .save m => ((save s m).1, (save s m).2.map fun _ => .done)
  | .delete id => ((delete s id).1, (delete s id).2.map fun _ => .done)
  | .list => ((list s).1, (list s).2.map .listed)

/-- The store after some requests. -/
def serveAll (s : σ) (past : List Request) : σ := past.foldl (fun s q => (serve s q).1) s

/-- One more request is served after those before it. -/
theorem serveAll_append (s : σ) (past : List Request) (q : Request) :
    serveAll s (past ++ [q]) = (serve (serveAll s past) q).1 := by
  rw [serveAll, List.foldl_append]
  rfl

/-- What a request decides about the maze with an id: whether it is there from now on, and
which one it is.  Most requests decide nothing. -/
def Request.fate? (id : Text) : Request → Option (Option Maze)
  | .save m => if m.id = id then some (some m) else none
  | .delete other => if other = id then some none else none
  | _ => none

/-- The maze that was saved last under an id, if it has not been deleted since. -/
def kept (past : List Request) (id : Text) : Option Maze :=
  (past.reverse.findSome? (Request.fate? id)).getD none

/-- One more request settles what is kept under its own id and leaves the others. -/
theorem kept_append (past : List Request) (q : Request) (id : Text) :
    kept (past ++ [q]) id = (q.fate? id).getD (kept past id) := by
  rw [kept, List.reverse_append, List.reverse_singleton, List.singleton_append,
    List.findSome?_cons]
  cases q.fate? id <;> rfl

/-- The right answers after some requests. -/
inductive Answers (past : List Request) : Request → Reply → Prop where
  | load (id : Text) : Answers past (.load id) (.found (kept past id))
  | save (m : Maze) : Answers past (.save m) .done
  | delete (id : Text) : Answers past (.delete id) .done
  | list {mazes : List Maze} (ascending : mazes.Pairwise fun a b => a.id ≤ b.id ∧ a.id ≠ b.id)
    (mem_iff : ∀ m, m ∈ mazes ↔ kept past m.id = some m) : Answers past .list (.listed mazes)

end MazeStore

namespace MemoryStore

open MazeStore

variable {s : MemoryStore}

theorem find?_erase_self (s : MemoryStore) (id : Text) : (s.erase id).find? id = none := by
  rw [find?, erase, List.find?_eq_none]
  intro m hm
  have hne := (List.mem_filter.1 hm).2
  simpa using hne

/-- Erasing leaves the other mazes. -/
theorem find?_erase_of_ne (s : MemoryStore) {id id' : Text} (h : id' ≠ id) :
    (s.erase id').find? id = s.find? id := by
  rw [find?, find?, erase, List.find?_filter]
  congr 1
  funext m
  by_cases hm : m.id = id
  · simp [hm, h.symm]
  · simp [hm]

/-- What is found after a request is what the request settles, and otherwise what was found
before. -/
theorem find?_serve (s : MemoryStore) (q : Request) (id : Text) :
    (serve s q).1.find? id = (q.fate? id).getD (s.find? id) := by
  cases q with
  | load _ => rfl
  | list => rfl
  | save m =>
    by_cases h : m.id = id
    · subst h
      rw [Request.fate?, if_pos rfl]
      exact find?_put_self s m
    · rw [Request.fate?, if_neg h]
      exact find?_put_of_ne s m h
  | delete id' =>
    by_cases h : id' = id
    · subst h
      rw [Request.fate?, if_pos rfl]
      exact find?_erase_self s id'
    · rw [Request.fate?, if_neg h]
      exact find?_erase_of_ne s h

/-- What is found after all requests is what they have kept. -/
theorem find?_serveAll (past : List Request) (id : Text) :
    (serveAll ({} : MemoryStore) past).find? id = kept past id := by
  induction past using List.reverseRecOn with
  | nil => rfl
  | append_singleton past q ih => rw [serveAll_append, find?_serve, kept_append, ih]

/-- Erasing keeps the ids distinct. -/
theorem distinct_erase (h : Maze.Distinct s.mazes) (id : Text) :
    Maze.Distinct (s.erase id).mazes := h.filter _

/-- Every request keeps the ids distinct. -/
theorem distinct_serve (h : Maze.Distinct s.mazes) (q : Request) :
    Maze.Distinct (serve s q).1.mazes := by
  cases q with
  | load _ => exact h
  | list => exact h
  | delete id => exact distinct_erase h id
  | save m =>
    refine List.pairwise_cons.2 ⟨fun n hn => ?_, distinct_erase h m.id⟩
    have hne := (List.mem_filter.1 hn).2
    exact Ne.symm (by simpa using hne)

/-- From an empty memory on all requests keep the ids distinct. -/
theorem distinct_serveAll (past : List Request) :
    Maze.Distinct (serveAll ({} : MemoryStore) past).mazes := by
  induction past using List.reverseRecOn with
  | nil => exact List.Pairwise.nil
  | append_singleton past q ih =>
    rw [serveAll_append]
    exact distinct_serve ih q

/-- With distinct ids every maze is found under its own. -/
theorem mem_iff_find? (h : Maze.Distinct s.mazes) (m : Maze) :
    m ∈ s.mazes ↔ s.find? m.id = some m := by
  constructor
  · intro hm
    cases hfind : s.find? m.id with
    | none =>
      have hne := List.find?_eq_none.1 hfind m hm
      exact absurd (beq_self_eq_true m.id) hne
    | some n =>
      have hid : (n.id == m.id) = true := List.find?_some (p := fun n : Maze => n.id == m.id) hfind
      rw [h.eq_of_id_eq (List.mem_of_find?_eq_some hfind) hm (eq_of_beq hid)]
  · exact List.mem_of_find?_eq_some

/-- A store in memory gives the right answers. -/
theorem answers_serve (past : List Request) (q : Request) :
    ∃ reply, Answers past q reply ∧
      (serve (serveAll ({} : MemoryStore) past) q).2 = .ok reply := by
  cases q with
  | load id =>
    refine ⟨_, .load id, ?_⟩
    rw [← find?_serveAll past id]
    rfl
  | save m => exact ⟨_, .save m, rfl⟩
  | delete id => exact ⟨_, .delete id, rfl⟩
  | list =>
    have hdistinct := distinct_serveAll past
    refine ⟨_, .list (Maze.pairwise_sortById hdistinct) fun m => ?_, rfl⟩
    rw [Maze.mem_sortById, mem_iff_find? hdistinct, find?_serveAll]

end MemoryStore

end MazeRobot
