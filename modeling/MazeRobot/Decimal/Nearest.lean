/-! # The double nearest to a decimal

Reading `m · 10 ^ e`.  Exponents far outside the range of doubles are settled by the
number of digits alone, so that no huge power is ever computed. -/

namespace MazeRobot

namespace Nearest

/-- The positive infinite double. -/
def infinity : Float := Float.ofBits 0x7FF0000000000000

/-- The double that stands for no number. -/
def notANumber : Float := Float.ofBits 0x7FF8000000000000

/-- The double nearest to `m * 10 ^ e`. -/
def ofDecimal (m : Nat) (e : Int) : Float :=
  let size : Int := (toString m).length
  if m == 0 || size + e < -330 then 0
  else if 310 < size + e then infinity
  else Float.ofScientific m (e < 0) e.natAbs

/-- The double nearest to a decimal with a sign. -/
def ofSigned (negative : Bool) (m : Nat) (e : Int) : Float :=
  if negative then -ofDecimal m e else ofDecimal m e

end Nearest

end MazeRobot
