import MazeRobot.Store.Sorting.Merge

/-! # Sorting by a comparison that may fail

`Sorting.sort` orders a list by `less`, which either compares two elements or fails.  The
result is the first failure, so it matters which elements are compared, and when.  It
matters as well if `less` is no order: one element that is less than no other and greater
than none leaves the others apart.

* The list is cut into runs.  A run is followed for as long as each element is less than
  the one before, or for as long as none is; a falling run is turned round.
* A run of fewer than `leastRun` elements is filled up with those that follow.  Each is
  put in its place, which is found by halving (`halve`).
* Neighbouring runs are merged.  The list is halved again and again; a boundary between
  two runs has the level of the first half that tells them apart (`boundaryLevel`), and
  boundaries of deeper levels go first.  Long stretches are taken in leaps (`merge`).

If `less` is an order, elements of which neither is less stay as they stood.
`perm_of_sort` says that the result has the same elements as the list. -/

namespace MazeRobot

namespace Sorting

/-- Elements in order with a further one in its place. -/
def insert (less : α → α → Except ε Bool) (xs : List α) (x : α) : Except ε (List α) := do
  let i ← halve .forward (fun y => return !(← less x y)) xs 0 xs.length
  return xs.take i ++ x :: xs.drop i

/-- How many elements go on with a run after `x`, if `falls` says whether it falls. -/
def followed (less : α → α → Except ε Bool) (falls : Bool) (x : α) : List α → Except ε Nat
  | [] => .ok 0
  | y :: rest => do
    if (← less y x) == falls then return (← followed less falls y rest) + 1 else return 0

/-- How many elements go on with a run that begins with `x`, and whether it falls. -/
def follow (less : α → α → Except ε Bool) (x : α) : List α → Except ε (Nat × Bool)
  | [] => .ok (0, false)
  | y :: rest => do
    let falls ← less y x
    return ((← followed less falls y rest) + 1, falls)

/-- Lists of fewer elements are a single run. -/
def singleRun : Nat := 64

/-- The least length of the runs of a list of `n` elements: `n` halved, and rounded up,
until it is below `singleRun`. -/
def leastRun (n : Nat) (odd : Bool := false) : Nat :=
  if singleRun ≤ n then leastRun (n / 2) (odd || n % 2 == 1) else n + odd.toNat
termination_by n
decreasing_by simp only [singleRun] at *; omega

/-- Elements in order that stand side by side in the list. -/
structure Run (α : Type) where
  /-- How many elements stand before them. -/
  start : Nat
  items : List α
  /-- The level of the boundary behind them. -/
  level : Nat := 0

/-- The level of a boundary whose neighbours have their middles at `a` and `b` halves of
an element in a list of `n`. -/
def boundaryLevel (n : Nat) : (fuel a b : Nat) → Nat
  | 0, _, _ => 0
  | fuel + 1, a, b =>
    if n ≤ a then boundaryLevel n fuel (2 * (a - n)) (2 * (b - n)) + 1
    else if n ≤ b then 1
    else boundaryLevel n fuel (2 * a) (2 * b) + 1

/-- The runs of a list, the latest first, and the patience of the next merge. -/
structure Runs (α : Type) where
  runs : List (Run α) := []
  patience : Nat := worthwhile

/-- Merges the last run with those before it whose boundary lies deeper than `level`. -/
def mergeDeeper (less : α → α → Except ε Bool) (level patience : Nat) (last : Run α) :
    List (Run α) → Except ε (Run α × Runs α)
  | [] => .ok (last, ⟨[], patience⟩)
  | r :: before =>
    if level < r.level then do
      let (items, patience) ← merge less patience r.items last.items
      mergeDeeper less level patience { start := r.start, items } before
    else .ok (last, ⟨r :: before, patience⟩)

/-- Adds a run to those of a list of `n` elements. -/
def Runs.add (less : α → α → Except ε Bool) (n : Nat) (s : Runs α) (items : List α) :
    Except ε (Runs α) :=
  match s.runs with
  | [] => .ok { s with runs := [{ start := 0, items }] }
  | last :: before => do
    let start := last.start + last.items.length
    let a := last.start + start
    let level := boundaryLevel n n a (a + last.items.length + items.length)
    let (last, s) ← mergeDeeper less level s.patience last before
    return { s with runs := { start, items } :: { last with level } :: s.runs }

/-- Merges all runs, the latest first; a run between two goes to the shorter one. -/
def mergeAll (less : α → α → Except ε Bool) (patience : Nat) :
    List (Run α) → Except ε (List α)
  | [] => .ok []
  | [r] => .ok r.items
  | [r, q] => (merge less patience q.items r.items).map Prod.fst
  | r :: q :: p :: before => do
    if p.items.length < r.items.length then
      let (items, patience) ← merge less patience p.items q.items
      mergeAll less patience (r :: { p with items } :: before)
    else
      let (items, patience) ← merge less patience q.items r.items
      mergeAll less patience ({ q with items } :: p :: before)
termination_by runs => runs.length

/-- Cuts the rest of a list of `n` elements into runs of at least `least` and merges them
with the runs before. -/
def sortRest (less : α → α → Except ε Bool) (n least : Nat) (s : Runs α) :
    List α → Except ε (List α)
  | [] => mergeAll less s.patience s.runs
  | x :: rest => do
    let (more, falls) ← follow less x rest
    let run := x :: rest.take more
    let run := if falls then run.reverse else run
    let rest := rest.drop more
    let missing := least - run.length
    let run ← (rest.take missing).foldlM (insert less) run
    sortRest less n least (← s.add less n run) (rest.drop missing)
termination_by xs => xs.length
decreasing_by simp only [List.length_drop, List.length_cons]; omega

/-- The elements in order, or the first comparison that fails. -/
def sort (less : α → α → Except ε Bool) (xs : List α) : Except ε (List α) :=
  sortRest less xs.length (leastRun xs.length) {} xs

variable {α ε : Type} {less : α → α → Except ε Bool}

/-- An element in its place is added to the others. -/
theorem perm_of_insert {xs ys : List α} {x : α} (h : insert less xs x = .ok ys) :
    ys.Perm (x :: xs) := by
  simp only [insert, bind, Except.bind, pure, Except.pure] at h
  split at h
  · cases h
  · next i _ =>
    cases h
    have moved : (xs.take i ++ x :: xs.drop i).Perm (x :: (xs.take i ++ xs.drop i)) :=
      List.perm_middle
    rwa [List.take_append_drop] at moved

/-- A run that is filled up holds the elements that were taken in. -/
theorem perm_of_fill {xs run ys : List α} (h : xs.foldlM (insert less) run = .ok ys) :
    ys.Perm (run ++ xs) := by
  induction xs generalizing run with
  | nil => cases h; simp
  | cons x xs ih =>
    simp only [List.foldlM_cons, bind, Except.bind] at h
    split at h
    · cases h
    · next grown placed =>
      exact (ih h).trans (((perm_of_insert placed).append_right xs).trans List.perm_middle.symm)

/-- All elements of some runs, the latest run first. -/
def elements (runs : List (Run α)) : List α := runs.flatMap Run.items

/-- Merging the two runs below the top neither loses nor repeats an element. -/
theorem perm_of_mergeDeeper {level patience : Nat} {last top : Run α} {before : List (Run α)}
    {s : Runs α} (h : mergeDeeper less level patience last before = .ok (top, s)) :
    (elements (top :: s.runs)).Perm (elements (last :: before)) := by
  fun_induction mergeDeeper less level patience last before with
  | case1 => cases h; rfl
  | case2 patience last r rest deeper ih =>
    simp only [bind, Except.bind] at h
    split at h
    · cases h
    · next merged hm =>
      refine (ih merged.1 merged.2 h).trans ?_
      simp only [elements, List.flatMap_cons]
      refine ((perm_of_merge hm).trans List.perm_append_comm).append_right _ |>.trans ?_
      simp
  | case3 => cases h; rfl

/-- A run is added with all its elements, whatever is merged for it. -/
theorem perm_of_add {n : Nat} {s added : Runs α} {items : List α}
    (h : s.add less n items = .ok added) :
    (elements added.runs).Perm (elements s.runs ++ items) := by
  unfold Runs.add at h
  split at h
  · next none_there => cases h; simp [elements, none_there]
  · next last before some_there =>
    simp only [bind, Except.bind, pure, Except.pure] at h
    split at h
    · cases h
    · next result merged =>
      cases h
      have kept := perm_of_mergeDeeper merged
      rw [some_there]
      simp only [elements, List.flatMap_cons] at kept ⊢
      exact List.perm_append_comm.trans (kept.append_right items)

/-- The runs merged into one hold the elements of all of them. -/
theorem perm_of_mergeAll {patience : Nat} {runs : List (Run α)} {ys : List α}
    (h : mergeAll less patience runs = .ok ys) : ys.Perm (elements runs) := by
  fun_induction mergeAll less patience runs generalizing ys with
  | case1 => cases h; rfl
  | case2 _ r => cases h; simp [elements]
  | case3 patience r q =>
    cases hm : merge less patience q.items r.items with
    | error e => simp [hm, Except.map] at h
    | ok merged =>
      simp only [hm, Except.map, Except.ok.injEq] at h
      subst h
      simpa [elements] using (perm_of_merge hm).trans List.perm_append_comm
  -- the third run is shorter than the one on top: that one is kept, the two below merged
  | case4 patience r q p before shorter ih =>
    simp only [bind, Except.bind] at h
    split at h
    · cases h
    · next merged hm =>
      refine (ih _ _ h).trans ?_
      simp only [elements, List.flatMap_cons]
      have two := (perm_of_merge hm).trans List.perm_append_comm
      simpa using (two.append_right (before.flatMap Run.items)).append_left r.items
  -- otherwise the two topmost runs are merged
  | case5 patience r q p before shorter ih =>
    simp only [bind, Except.bind] at h
    split at h
    · cases h
    · next merged hm =>
      refine (ih _ _ h).trans ?_
      simp only [elements, List.flatMap_cons]
      have two := (perm_of_merge hm).trans List.perm_append_comm
      simpa using two.append_right (p.items ++ before.flatMap Run.items)

/-- Sorting what is left keeps every element. -/
theorem perm_of_sortRest {n least : Nat} {s : Runs α} {xs ys : List α}
    (h : sortRest less n least s xs = .ok ys) : ys.Perm (elements s.runs ++ xs) := by
  fun_induction sortRest less n least s xs with
  | case1 => simpa using perm_of_mergeAll h
  | case2 s x rest ih =>
    simp only [bind, Except.bind] at h
    split at h
    · cases h
    · next followed hf =>
      obtain ⟨more, falls⟩ := followed
      simp only at h
      split at h
      · cases h
      · next run filled =>
        split at h
        · cases h
        · next added ha =>
          -- the natural run may be taken backwards, which changes the order only
          have turned : (if falls = true then (x :: rest.take more).reverse
              else x :: rest.take more).Perm (x :: rest.take more) := by
            split
            · exact List.reverse_perm _
            · rfl
          have ih := ih more falls added
          simp only [dite_eq_ite] at ih
          generalize (if falls = true then (x :: rest.take more).reverse
              else x :: rest.take more) = natural at filled h turned ih
          -- filled up to the least length and with what is left, it is the list begun with
          have whole : (run ++ (rest.drop more).drop (least - natural.length)).Perm
              (x :: rest) := by
            refine ((perm_of_fill filled).append_right _).trans ?_
            rw [List.append_assoc, List.take_append_drop]
            simpa using turned.append_right (rest.drop more)
          refine (ih h).trans ?_
          refine ((perm_of_add ha).append_right _).trans ?_
          rw [List.append_assoc]
          exact whole.append_left _

/-- Sorting loses nothing and adds nothing. -/
theorem perm_of_sort {xs ys : List α} (h : sort less xs = .ok ys) : ys.Perm xs := by
  simpa [elements] using perm_of_sortRest h

end Sorting

end MazeRobot
