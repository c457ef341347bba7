/-! # Positions counted from either end

A signed position names an element of a list: `0, 1, …` count from the front and
`-1, -2, …` from the back.  `Position.resolve?` gives the ordinary index, so that
`resolve? n i = some k` holds only for `k < n`.

`Position.get` and `Position.set` tell two faults apart: a position that does not fit into
sixty-four bits is refused whatever the list is, any other one if the list has no such
element (`Position.Fault`). -/

namespace MazeRobot

namespace Position

/-- The ordinary index of a signed position in a list of `n` elements. -/
def resolve? (n : Nat) (i : Int) : Option Nat :=
  let k := if i < 0 then i + n else i
  if 0 ≤ k ∧ k < n then some k.toNat else none

/-- Why a position names nothing. -/
inductive Fault where
  /-- The list has no such element. -/
  | outside
  /-- The position does not fit into sixty-four bits. -/
  | tooWide
  deriving DecidableEq, Repr

/-- Positions range from `-limit` to below `limit`. -/
def limit : Nat := Nat.pow 2 63

/-- The fault of a position that names no element. -/
def faultOf (i : Int) : Fault := if -limit ≤ i ∧ i < limit then .outside else .tooWide

/-- The element at a signed position. -/
def get (xs : List α) (i : Int) : Except Fault α :=
  match (resolve? xs.length i).bind fun k => xs[k]? with
  | some a => .ok a
  | none => .error (faultOf i)

/-- The list with the element at a signed position replaced. -/
def set (xs : List α) (i : Int) (a : α) : Except Fault (List α) :=
  match resolve? xs.length i with
  | some k => .ok (xs.set k a)
  | none => .error (faultOf i)

/-- An ordinary index names an element. -/
theorem lt_of_resolve?_eq_some {n k : Nat} {i : Int} (h : resolve? n i = some k) : k < n := by
  simp only [resolve?] at h
  grind

/-- A position inside the list, counted from the front, is its own index. -/
theorem resolve?_of_lt {n : Nat} {i : Int} (h0 : 0 ≤ i) (h : i < n) :
    resolve? n i = some i.toNat := by
  have hi : ¬ i < 0 := by omega
  simp [resolve?, hi, h0, h]

end Position

end MazeRobot
