import MazeRobot.Text.Basic

/-! # JSON values

Whole numbers of any size are kept apart from numbers written with a fraction or an
exponent, which are doubles.  The fields of an object stay in the order in which they
were written; where a key occurs more than once the last occurrence counts
(`Json.field?`).  Strings and keys are texts: they may hold halves of surrogate pairs. -/

namespace MazeRobot

/-- A JSON value. -/
inductive Json where
  | null
  | bool (b : Bool)
  | int (n : Int)
  | real (x : Float)
  | str (t : Text)
  | arr (items : List Json)
  | obj (fields : List (Text × Json))
  deriving Inhabited

namespace Json

/-- The value of the last field with the given key. -/
def field? (key : Text) : List (Text × Json) → Option Json
  | [] => none
  | (k, v) :: rest =>
    match field? key rest with
    | some w => some w
    | none => if k == key then some v else none

/-- The field of an object; other values have none. -/
def get? (v : Json) (key : Text) : Option Json :=
  match v with
  | obj fields => field? key fields
  | _ => none

end Json

end MazeRobot
