/-! # Counting the leading elements

Some elements at the head of a list go on and the others do not.  How many go on is found
without asking every one: `halve` looks at the middle of those in question, and `leading`
first takes longer and longer steps from the head and then halves the last of them.

The question may fail, so it matters which elements are asked.  Where they do not stand in
order the count is what these questions say of it. -/

namespace MazeRobot

namespace Sorting

/-- Whether a list is worked off as it stands or from its end. -/
inductive Direction where
  | forward
  | backward
  deriving DecidableEq

/-- The list, the element to begin with at its head. -/
def Direction.turn (d : Direction) (xs : List α) : List α :=
  match d with
  | .forward => xs
  | .backward => xs.reverse

/-- Turning a list round keeps its elements. -/
theorem Direction.perm_turn (d : Direction) (xs : List α) : (d.turn xs).Perm xs := by
  cases d
  · rfl
  · exact List.reverse_perm xs

/-- The middle of the places from `low` to `high`.  Of two middles it is the one that
stands later before the list is turned. -/
def Direction.middle (d : Direction) (low high : Nat) : Nat :=
  match d with
  | .forward => low + (high - low) / 2
  | .backward => low + (high - low - 1) / 2

/-- How many elements go on, if those before `low` do and the one at `high` does not. -/
def halve (d : Direction) (goes : α → Except ε Bool) (xs : List α) (low high : Nat) :
    Except ε Nat :=
  if low < high then
    match xs[d.middle low high]? with
    | none => .ok low
    | some x => do
      if ← goes x then halve d goes xs (d.middle low high + 1) high
      else halve d goes xs low (d.middle low high)
  else .ok low
termination_by high - low
decreasing_by all_goals cases d <;> simp only [Direction.middle] <;> omega

/-- Steps from the head, each about twice as long as the one before.  The element at
`near` goes on; the result is the last place known to do so, and one that does not. -/
def stride (goes : α → Except ε Bool) (xs : List α) (near far : Nat) :
    Except ε (Nat × Nat) :=
  match h : xs[far]? with
  | none => .ok (near, xs.length)
  | some x => do
    if ← goes x then stride goes xs far (2 * far + 1) else return (near, far)
termination_by xs.length - far
decreasing_by
  obtain ⟨inside, _⟩ := List.getElem?_eq_some_iff.mp h
  omega

/-- How many elements go on. -/
def leading (d : Direction) (goes : α → Except ε Bool) (xs : List α) : Except ε Nat :=
  match xs with
  | [] => .ok 0
  | x :: _ => do
    if ← goes x then
      let (near, far) ← stride goes xs 0 1
      halve d goes xs (near + 1) far
    else return 0

end Sorting

end MazeRobot
