import MazeRobot.Command.Record
import MazeRobot.Failure

/-! # Levels of commands

`Command.levels` counts the levels of commands, one inside the other: an action has one,
a loop one more than its body.  Three things are limited by levels.  A record is read down
to `maxLevels` levels (`Command.check`), a record of more levels is not written either
(`Command.written`), and two commands are compared down to `maxComparedLevels` levels
(`Command.agrees`).

The comparison goes from left to right and stops at the first difference, so commands that
differ early are told apart however deep they are.  `agree?_sound` says that an answer is
right whenever there is one, and `agree?_of_levels_le` that there is one unless the
commands are deep. -/

namespace MazeRobot

namespace Command

mutual

/-- How many levels of commands there are, the command itself included. -/
def levels : Command → Nat
  | basic _ => 1
  | loop _ body => levelsAll body + 1

/-- The most levels of a command in a list. -/
def levelsAll : List Command → Nat
  | [] => 0
  | c :: rest => max (levels c) (levelsAll rest)

end

/-- The record that `write` makes of a command, unless it has too many levels. -/
def writtenBy (write : Command → Json) (c : Command) : Except Failure Json :=
  if c.levels ≤ maxLevels then .ok (write c) else .error .writtenTooDeep

/-- The record of a command without absent counts and empty bodies. -/
def written (c : Command) : Except Failure Json := c.writtenBy wire

/-- The record of a command with all three fields. -/
def writtenFull (c : Command) : Except Failure Json := c.writtenBy full

/-- How many levels of commands are compared. -/
def maxComparedLevels : Nat := 248

mutual

/-- Whether two commands are the same tree.  There is no answer if no difference is found
before level `levels` has been passed. -/
def agree? (levels : Nat) : Command → Command → Option Bool
  | basic x, basic y => if levels = 0 then none else some (decide (x = y))
  | loop m xs, loop n ys =>
    if levels = 0 then none
    else if m = n then agreeAll? (levels - 1) xs ys
    else some false
  | _, _ => if levels = 0 then none else some false

/-- Whether two lists of commands are the same trees, element by element. -/
def agreeAll? (levels : Nat) : List Command → List Command → Option Bool
  | x :: xs, y :: ys =>
    match agree? levels x y with
    | some true => agreeAll? levels xs ys
    | answer => answer
  | [], [] => some true
  | _, _ => some false

end

/-- Whether two commands are the same tree, as far as commands are compared. -/
def agrees (a b : Command) : Except Failure Bool :=
  match agree? maxComparedLevels a b with
  | some answer => .ok answer
  | none => .error .comparedTooDeep

mutual

/-- An answer of the comparison is right. -/
theorem agree?_sound {n : Nat} {r : Bool} :
    (a b : Command) → agree? n a b = some r → r = decide (a = b)
  | basic x, basic y, h => by
    by_cases hn : n = 0 <;> simp_all [agree?]
  | basic x, loop _ _, h => by
    by_cases hn : n = 0 <;> simp_all [agree?]
  | loop _ _, basic y, h => by
    by_cases hn : n = 0 <;> simp_all [agree?]
  | loop k xs, loop l ys, h => by
    by_cases hn : n = 0
    · simp [agree?, hn] at h
    · by_cases hk : k = l
      · have inside := agreeAll?_sound xs ys (by simpa [agree?, hn, hk] using h)
        simpa [hk] using inside
      · simp_all [agree?]

/-- An answer for two lists is right. -/
theorem agreeAll?_sound {n : Nat} {r : Bool} :
    (xs ys : List Command) → agreeAll? n xs ys = some r → r = decide (xs = ys)
  | [], [], h => by simp_all [agreeAll?]
  | [], _ :: _, h => by simp_all [agreeAll?]
  | _ :: _, [], h => by simp_all [agreeAll?]
  | x :: xs, y :: ys, h => by
    rw [agreeAll?] at h
    split at h
    · next first =>
      have same : x = y := by simpa using agree?_sound x y first
      simpa [same] using agreeAll?_sound xs ys h
    · next other =>
      cases r with
      | true => exact absurd h other
      | false =>
        have differ : x ≠ y := by simpa using agree?_sound x y h
        simp [differ]

end

mutual

/-- Two commands are told apart, or found equal, within the levels of the first. -/
theorem agree?_of_levels_le {n : Nat} :
    (a b : Command) → a.levels ≤ n → agree? n a b = some (decide (a = b))
  | basic x, basic y, h => by
    have hn : n ≠ 0 := by simp only [levels] at h; omega
    simp [agree?, hn]
  | basic x, loop _ _, h => by
    have hn : n ≠ 0 := by simp only [levels] at h; omega
    simp [agree?, hn]
  | loop _ _, basic y, h => by
    have hn : n ≠ 0 := by simp only [levels] at h; omega
    simp [agree?, hn]
  | loop k xs, loop l ys, h => by
    simp only [levels] at h
    have hn : n ≠ 0 := by omega
    have inside : agreeAll? (n - 1) xs ys = some (decide (xs = ys)) :=
      agreeAll?_of_levels_le xs ys (by omega)
    by_cases hk : k = l <;> simp [agree?, hn, hk, inside]

/-- Two lists are told apart, or found equal, within the levels of the first. -/
theorem agreeAll?_of_levels_le {n : Nat} :
    (xs ys : List Command) → levelsAll xs ≤ n → agreeAll? n xs ys = some (decide (xs = ys))
  | [], [], _ => by simp [agreeAll?]
  | [], _ :: _, _ => by simp [agreeAll?]
  | _ :: _, [], _ => by simp [agreeAll?]
  | x :: xs, y :: ys, h => by
    simp only [levelsAll] at h
    have first : agree? n x y = some (decide (x = y)) := agree?_of_levels_le x y (by omega)
    have rest : agreeAll? n xs ys = some (decide (xs = ys)) :=
      agreeAll?_of_levels_le xs ys (by omega)
    rw [agreeAll?, first]
    by_cases hx : x = y <;> simp [rest, hx]

end

/-- A command is written exactly if it has no more levels than are read. -/
theorem written_eq_ok_iff {c : Command} {v : Json} :
    c.written = .ok v ↔ c.levels ≤ maxLevels ∧ v = c.wire := by
  by_cases h : c.levels ≤ maxLevels
  · simp [written, writtenBy, h, eq_comm]
  · simp [written, writtenBy, h]

end Command

end MazeRobot
