import MazeRobot.Decimal.Binary

/-! # A fixed number of decimal places

`Fixed.render` writes a double with a set number of places: the exact binary value is
rounded to the nearest decimal, an exact tie to the even neighbour. -/

namespace MazeRobot

namespace Fixed

/-- `num / den` rounded to the nearest natural, a tie to the even one. -/
def roundDiv (num den : Nat) : Nat :=
  let q := num / den
  match compare (2 * (num % den)) den with
  | .lt => q
  | .gt => q + 1
  | .eq => if q % 2 == 0 then q else q + 1

/-- `n` counted in units of `10 ^ -places`, with the decimal point set. -/
def withPoint (places n : Nat) : String :=
  let digits := toString n
  let padded := "".pushn '0' (places + 1 - digits.length) ++ digits
  let whole := padded.length - places
  s!"{padded.take whole}.{padded.drop whole}"

/-- The text of a double with `places` decimals; zero keeps its sign. -/
def render (places : Nat) (x : Float) : String :=
  match Binary.ofFloat x with
  | .notANumber => "nan"
  | .infinite negative => if negative then "-inf" else "inf"
  | .finite negative m q =>
    let (num, den) := Binary.quotient m q
    (if negative then "-" else "") ++ withPoint places (roundDiv (num * Nat.pow 10 places) den)

end Fixed

end MazeRobot
