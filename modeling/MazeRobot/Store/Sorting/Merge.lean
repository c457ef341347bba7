import MazeRobot.Store.Sorting.Search

/-! # Merging two lists in order

`Sorting.merge` makes one list of two.  What leads the first list and belongs before the
second is left where it is, and so is what ends the second list and belongs behind the
first.  The shorter list of what remains goes into the longer one (`mergeInto`), and it is
known then which element goes first and which one goes last.

Elements are taken one at a time until one list has given enough in a row.  From there on
they are taken in leaps, as many from a list as go before the head of the other, until the
leaps get short.  How many in a row are enough is the `patience`: it falls with every
further pair of leaps, rises when the leaps end, and is kept from one merge to the next.

Of equal elements those of the first list go first.  `perm_of_merge` says that nothing is
lost and nothing added, whatever the comparison says. -/

namespace MazeRobot

namespace Sorting

/-- How many elements make a leap worth its while. -/
def worthwhile : Nat := 7

/-- How the next elements are taken. -/
inductive Stage where
  /-- One at a time, after some in a row from the short list, or from the long one. -/
  | single (shortRow longRow : Nat)
  /-- All of one list that go before the head of the other, and then that head.  The
  second leap of a pair knows how many the first one took. -/
  | leap (overShort : Bool) (first? : Option Nat)

/-- What follows a leap that took `count` elements, and the patience from then on. -/
def Stage.afterLeap (overShort : Bool) (first? : Option Nat) (count patience : Nat) :
    Stage × Nat :=
  match first? with
  | none => (.leap (!overShort) (some count), patience)
  | some first =>
    if worthwhile ≤ first || worthwhile ≤ count then
      (.leap (!overShort) none, max 1 (patience - 1))
    else (.single 0 0, patience + 1)

/-- What follows an element that was taken alone. -/
def Stage.afterOne (d : Direction) (shortRow longRow patience : Nat) : Stage :=
  if patience ≤ max shortRow longRow then .leap (d = .forward) none else .single shortRow longRow

/-- The short list merged into the long one, with the patience in the end.  An element
`y` of the long list goes before an `x` of the short one if `overtakes y x`.  The last
element of the short list goes behind all others. -/
def mergeInto (d : Direction) (overtakes : α → α → Except ε Bool) (stage : Stage)
    (patience : Nat) : (short long : List α) → Except ε (List α × Nat)
  | x :: x' :: short, y :: long =>
    match stage with
    | .single shortRow longRow => do
      if ← overtakes y x then
        let stage := .afterOne d 0 (longRow + 1) patience
        let (merged, patience) ← mergeInto d overtakes stage patience (x :: x' :: short) long
        return (y :: merged, patience)
      else
        let stage := .afterOne d (shortRow + 1) 0 patience
        let (merged, patience) ← mergeInto d overtakes stage patience (x' :: short) (y :: long)
        return (x :: merged, patience)
    | .leap true first? => do
      let count ← leading d (fun x => return !(← overtakes y x)) (x :: x' :: short)
      let taken := (x :: x' :: short).take count
      let short := (x :: x' :: short).drop count
      if short.length ≤ 1 || long.isEmpty then
        return (taken ++ (y :: long ++ short), patience)
      let (stage, patience) := Stage.afterLeap true first? count patience
      let (merged, patience) ← mergeInto d overtakes stage patience short long
      return (taken ++ y :: merged, patience)
    | .leap false first? => do
      let count ← leading d (fun y => overtakes y x) (y :: long)
      let taken := (y :: long).take count
      let long := (y :: long).drop count
      if long.isEmpty || short.isEmpty then
        return (taken ++ x :: (long ++ x' :: short), patience)
      let (stage, patience) := Stage.afterLeap false first? count patience
      let (merged, patience) ← mergeInto d overtakes stage patience (x' :: short) long
      return (taken ++ x :: merged, patience)
  | short, long => .ok (long ++ short, patience)
termination_by short long => short.length + long.length
decreasing_by all_goals simp only [List.length_drop, List.length_cons]; omega

/-- Two lists merged in a direction, of which the long one gives the first element. -/
def mergeFrom (d : Direction) (overtakes : α → α → Except ε Bool) (patience : Nat)
    (short long : List α) : Except ε (List α × Nat) :=
  match d.turn long with
  | [] => .ok (short, patience)
  | y :: rest => do
    let (merged, patience) ←
      mergeInto d overtakes (.single 0 0) patience (d.turn short) rest
    return (d.turn (y :: merged), patience)

/-- Two lists merged, the shorter one into the longer one. -/
def mergeShorter (less : α → α → Except ε Bool) (patience : Nat) (xs ys : List α) :
    Except ε (List α × Nat) :=
  if xs.length ≤ ys.length then mergeFrom .forward less patience xs ys
  else mergeFrom .backward (fun y x => less x y) patience ys xs

/-- Two lists in order, merged, and the patience in the end. -/
def merge (less : α → α → Except ε Bool) (patience : Nat) (xs ys : List α) :
    Except ε (List α × Nat) :=
  match ys with
  | [] => .ok (xs, patience)
  | y :: _ => do
    let early ← leading .forward (fun x => return !(← less y x)) xs
    match (xs.drop early).getLast? with
    | none => return (xs ++ ys, patience)
    | some x =>
      let late ← leading .backward (fun y => return !(← less y x)) ys.reverse
      let rest := ys.length - late
      let (merged, patience) ← mergeShorter less patience (xs.drop early) (ys.take rest)
      return (xs.take early ++ merged ++ ys.drop rest, patience)

variable {α ε : Type} {less overtakes : α → α → Except ε Bool} {d : Direction}

/-- What is merged, in whatever stage, are the elements of both runs. -/
theorem perm_of_mergeInto {stage : Stage} {patience patience' : Nat}
    {short long merged : List α}
    (h : mergeInto d overtakes stage patience short long = .ok (merged, patience')) :
    merged.Perm (long ++ short) := by
  fun_induction mergeInto d overtakes stage patience short long generalizing merged with
  -- one comparison decides which of the two heads goes first
  | case1 patience x x' short y long shortRow longRow ihy ihx =>
    simp only [bind, Except.bind, pure, Except.pure] at h
    split at h
    · cases h
    · split at h
      · split at h
        · cases h
        · next result hm => cases h; exact (ihy hm).cons y
      · split at h
        · cases h
        · next result hm => cases h; exact ((ihx hm).cons x).trans List.perm_middle.symm
  -- a whole stretch of the shorter run goes ahead at once: cut it where the stretch ends
  | case2 patience x x' short y long first? ih =>
    simp only [bind, Except.bind, pure, Except.pure] at h
    split at h
    · cases h
    · next count _ =>
      specialize ih count
      have whole : (x :: x' :: short).take count ++ (x :: x' :: short).drop count =
          x :: x' :: short := List.take_append_drop ..
      rw [← whole]
      generalize (x :: x' :: short).take count = taken at h
      generalize (x :: x' :: short).drop count = rest at h ih
      split at h
      · cases h
        exact List.perm_append_comm_assoc ..
      · split at h
        · cases h
        · next result hm =>
          cases h
          exact (((ih _ _ hm).cons y).append_left taken).trans
            (List.perm_append_comm_assoc taken (y :: long) rest)
  -- the same with a stretch of the longer run
  | case3 patience x x' short y long first? ih =>
    simp only [bind, Except.bind, pure, Except.pure] at h
    split at h
    · cases h
    · next count _ =>
      specialize ih count
      have whole : (y :: long).take count ++ (y :: long).drop count = y :: long :=
        List.take_append_drop ..
      rw [← whole, List.append_assoc]
      generalize (y :: long).take count = taken at h
      generalize (y :: long).drop count = rest at h ih
      split at h
      · cases h
        exact List.perm_middle.symm.append_left taken
      · split at h
        · cases h
        · next result hm =>
          cases h
          exact (((ih _ _ hm).cons x).trans List.perm_middle.symm).append_left taken
  | case4 => cases h; rfl

/-- A merge that starts in the first stage loses and adds nothing. -/
theorem perm_of_mergeFrom {patience patience' : Nat} {short long merged : List α}
    (h : mergeFrom d overtakes patience short long = .ok (merged, patience')) :
    merged.Perm (long ++ short) := by
  have turned := d.perm_turn long
  simp only [mergeFrom] at h
  split at h
  · next none_there =>
    cases h
    rw [none_there] at turned
    simp [← turned.nil_eq]
  · next y rest some_there =>
    simp only [bind, Except.bind, pure, Except.pure] at h
    split at h
    · cases h
    · next result hm =>
      cases h
      rw [some_there] at turned
      refine (d.perm_turn _).trans (((perm_of_mergeInto hm).cons y).trans ?_)
      exact turned.append (d.perm_turn short)

/-- Whichever of two runs is the shorter one, their merge loses and adds nothing. -/
theorem perm_of_mergeShorter {patience patience' : Nat} {xs ys merged : List α}
    (h : mergeShorter less patience xs ys = .ok (merged, patience')) :
    merged.Perm (xs ++ ys) := by
  unfold mergeShorter at h
  split at h
  · exact (perm_of_mergeFrom h).trans List.perm_append_comm
  · exact perm_of_mergeFrom h

/-- Merging loses nothing and adds nothing. -/
theorem perm_of_merge {patience patience' : Nat} {xs ys merged : List α}
    (h : merge less patience xs ys = .ok (merged, patience')) : merged.Perm (xs ++ ys) := by
  match ys with
  | [] => cases h; simp
  | y :: ys =>
    simp only [merge, bind, Except.bind, pure, Except.pure] at h
    split at h
    · cases h
    · next early _ =>
      split at h
      · cases h; rfl
      · split at h
        · cases h
        · next late _ =>
          -- only the part where the runs overlap is merged; the rest of both stays where it is
          have first : xs.take early ++ xs.drop early = xs := List.take_append_drop ..
          have second : (y :: ys).take ((y :: ys).length - late) ++
              (y :: ys).drop ((y :: ys).length - late) = y :: ys := List.take_append_drop ..
          rw [← first, ← second]
          generalize xs.take early = before at h
          generalize xs.drop early = among at h
          generalize (y :: ys).take ((y :: ys).length - late) = within at h
          generalize (y :: ys).drop ((y :: ys).length - late) = behind at h
          split at h
          · cases h
          · next result hm =>
            cases h
            simpa using ((perm_of_mergeShorter hm).append_left before).append_right behind

end Sorting

end MazeRobot
