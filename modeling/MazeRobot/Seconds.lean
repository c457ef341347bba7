import MazeRobot.Failure

/-! # Seconds

Points in time and stretches of it are doubles, counted in seconds.  A JSON number gives
the nearest double; a whole number beyond all doubles is refused, while a literal with a
fraction or an exponent never is (it stands for infinity). -/

namespace MazeRobot

namespace Seconds

/-- The seconds that a whole number stands for. -/
def ofInt (n : Int) : Except Failure Float :=
  let x := Nearest.ofSigned (decide (n < 0)) n.natAbs 0
  match Binary.ofFloat x with
  | .infinite _ => .error .endlessSeconds
  | _ => .ok x

/-- The seconds that a value stands for, if it is a number. -/
def ofJson : Json → Except Failure (Option Float)
  | .int n => (ofInt n).map some
  | .bool b => .ok (some (if b then 1 else 0))
  | .real x => .ok (some x)
  | _ => .ok none

end Seconds

end MazeRobot
