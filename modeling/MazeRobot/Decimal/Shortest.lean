import MazeRobot.Decimal.Binary

/-! # The fewest digits that read back

`Shortest.digits` picks, for `m · 2 ^ q`, the decimal with the fewest digits among
those that round to it, and of these the nearest.  The reals that round to a double
form an interval around it; for one, two, … digits the two neighbours of the value on
that decimal grid are tested against the interval.

`Notation` holds the decisions of a written format, and `Shortest.render` lays the
chosen digits out accordingly. -/

namespace MazeRobot

namespace Shortest

/-- Whether the decimal `c * 10 ^ e` rounds to `m * 2 ^ q`.  The interval reaches half
a unit up and half a unit down, a quarter below a power of two; its ends belong to it
exactly when `m` is even. -/
def readsBack (m : Nat) (q : Int) (c : Nat) (e : Int) : Bool :=
  let narrow := m == Nat.pow 2 52 && q != -1074
  let (low, high) := if narrow then (4 * m - 1, 4 * m + 2) else (4 * m - 2, 4 * m + 2)
  let (scale, unit) := Binary.quotient 1 (q - 2)
  let (up, down) := if 0 ≤ e then (Nat.pow 10 e.toNat, 1) else (1, Nat.pow 10 (-e).toNat)
  let x := c * up * unit
  let lo := low * scale * down
  let hi := high * scale * down
  if m % 2 == 0 then lo ≤ x && x ≤ hi else lo < x && x < hi

/-- The least `k` with `num / den < 10 ^ k`, for a positive quotient. -/
def scale (num den : Nat) : Int :=
  if den ≤ num then (toString (num / den)).length
  else 1 - (toString ((den - 1) / num)).length

/-- The decimal `(c, e)`, standing for `c * 10 ^ e`, with the fewest digits that reads
back as the positive number `m * 2 ^ q`. -/
def digits (m : Nat) (q : Int) : Nat × Int :=
  let (num, den) := Binary.quotient m q
  let k := scale num den
  let candidate (n : Nat) : Option (Nat × Int) :=
    let e := k - n
    let (top, bottom) :=
      if 0 ≤ e then (num, den * Nat.pow 10 e.toNat) else (num * Nat.pow 10 (-e).toNat, den)
    let c := top / bottom
    match readsBack m q c e, readsBack m q (c + 1) e with
    | true, true =>
      match compare (2 * top) ((2 * c + 1) * bottom) with
      | .lt => some (c, e)
      | .gt => some (c + 1, e)
      | .eq => some (if c % 2 == 0 then c else c + 1, e)
    | true, false => some (c, e)
    | false, true => some (c + 1, e)
    | false, false => none
  match (List.range 17).findSome? fun i => candidate (i + 1) with
  | some found => found
  | none => if 0 ≤ q then (num, 0) else (m * Nat.pow 5 (-q).toNat, q)

/-- How a decimal is laid out. -/
structure Notation where
  /-- Least decimal exponent that is still written without an exponent part. -/
  leastPositional : Int
  /-- Least decimal exponent above that which needs an exponent part. -/
  leastScientific : Int
  /-- Least number of digits of a written exponent. -/
  exponentDigits : Nat
  /-- What follows a whole number written without an exponent part. -/
  wholeMark : String

/-- The text of the positive decimal `c * 10 ^ e`. -/
def layOut (format : Notation) (c : Nat) (e : Int) : String :=
  let all := toString c
  let kept := (all.toList.reverse.dropWhile (· == '0')).reverse
  let ds := String.ofList kept
  -- decimal exponent of the first digit
  let x : Int := e + all.length - 1
  if format.leastPositional ≤ x ∧ x < format.leastScientific then
    if x < 0 then "0." ++ "".pushn '0' (-x - 1).toNat ++ ds
    else
      let whole := x.toNat + 1
      if ds.length ≤ whole then ds ++ "".pushn '0' (whole - ds.length) ++ format.wholeMark
      else s!"{ds.take whole}.{ds.drop whole}"
  else
    let fraction := if ds.length ≤ 1 then "" else s!".{ds.drop 1}"
    let size := toString x.natAbs
    let sign := if x < 0 then "-" else "+"
    s!"{ds.take 1}{fraction}e{sign}" ++ "".pushn '0' (format.exponentDigits - size.length) ++ size

/-- The text of a double. -/
def render (format : Notation) (x : Float) : String :=
  match Binary.ofFloat x with
  | .notANumber => "nan"
  | .infinite negative => if negative then "-inf" else "inf"
  | .finite negative m q =>
    (if negative then "-" else "") ++
      if m == 0 then "0" ++ format.wholeMark
      else
        let (c, e) := digits m q
        layOut format c e

end Shortest

/-- Decimals are shown positionally from `0.0001` up to, but not including, `10 ^ 16`;
whole ones keep a zero after the point, and an exponent has at least two digits. -/
def shownDecimal : Shortest.Notation := ⟨-4, 16, 2, ".0"⟩

end MazeRobot
