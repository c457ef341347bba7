import MazeRobot.Failure

/-! # Editing commands

Commands never change in place: an edit gives a new command.  Only loops can be edited.
A repetition count chosen by the user may come as any JSON value and is turned into a
whole number first (`Command.chosenCount`). -/

namespace MazeRobot

namespace Command

/-- The count that a text writes, in the digits of any script. -/
def countOfText (text : Text) : Except Failure Int :=
  match Numeral.grouped text.lossy with
  | .ok n => .ok n
  | .error .noNumber => .error (.notANumeral text)
  | .error (.tooManyDigits count) => .error (.tooManyDigits count)

/-- The whole number that a value chosen as a count stands for.  Doubles lose their
fraction, and strings are read with blanks, a sign and grouping. -/
def chosenCount : Json → Except Failure Int
  | .int n => .ok n
  | .bool b => .ok (if b then 1 else 0)
  | .real x =>
    match Binary.ofFloat x with
    | .finite negative m q => .ok (Binary.truncate negative m q).1
    | .infinite _ => .error .infiniteCount
    | .notANumber => .error .undefinedCount
  | .str text => countOfText text
  | v => .error (.notACount v.sortName)

/-- The loop with another body. -/
def withChildren (c : Command) (body : List Command) : Except Failure Command :=
  match c with
  | loop count _ => .ok (loop count body)
  | basic a => .error (.loopOnly a.kind .replaceChildren)

/-- The loop with another count, brought into range. -/
def withCount (c : Command) (n : Int) : Except Failure Command :=
  match c with
  | loop _ body => .ok (loop (some (clampCount n)) body)
  | basic a => .error (.loopOnly a.kind .setCount)

/-- The loop with a chosen count; whether there is a loop is settled first. -/
def withChosenCount (c : Command) (count : Json) : Except Failure Command :=
  match c with
  | loop _ _ => (chosenCount count).bind c.withCount
  | basic a => .error (.loopOnly a.kind .setCount)

end Command

end MazeRobot
