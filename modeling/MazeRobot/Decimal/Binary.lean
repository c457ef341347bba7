/-! # Doubles as exact numbers

`Binary.ofFloat` decodes a double into the number it stands for, `m · 2 ^ q` with a
sign, or one of the values that are no number.  Everything that writes a double as
decimal text starts from here and then computes with naturals only. -/

namespace MazeRobot

/-- What a double stands for. -/
inductive Binary where
  | notANumber
  | infinite (negative : Bool)
  /-- The number `m * 2 ^ q`, negated if `negative`. -/
  | finite (negative : Bool) (m : Nat) (q : Int)
  deriving DecidableEq, Repr

namespace Binary

/-- Reads sign, exponent and fraction of the sixty-four bits. -/
def ofBits (bits : Nat) : Binary :=
  let negative := bits / Nat.pow 2 63 % 2 == 1
  let exponent : Nat := bits / Nat.pow 2 52 % Nat.pow 2 11
  let fraction : Nat := bits % Nat.pow 2 52
  if exponent == Nat.pow 2 11 - 1 then
    if fraction == 0 then .infinite negative else .notANumber
  else if exponent == 0 then .finite negative fraction (-1074)
  else .finite negative (Nat.pow 2 52 + fraction) ((exponent : Int) - 1075)

/-- What a double stands for. -/
def ofFloat (x : Float) : Binary := ofBits x.toBits.toNat

/-- The number `m * 2 ^ q` as a quotient of naturals; the denominator is positive. -/
def quotient (m : Nat) (q : Int) : Nat × Nat :=
  if 0 ≤ q then (m * Nat.pow 2 q.toNat, 1) else (m, Nat.pow 2 (-q).toNat)

/-- The integer part of a double, toward zero, with whether anything was cut off. -/
def truncate (negative : Bool) (m : Nat) (q : Int) : Int × Bool :=
  let (num, den) := quotient m q
  let whole : Int := ↑(num / den)
  (if negative then -whole else whole, num % den != 0)

end Binary

end MazeRobot
