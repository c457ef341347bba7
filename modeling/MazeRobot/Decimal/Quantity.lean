import MazeRobot.Decimal.Binary

/-! # The values of numbers

A `Quantity` is what a number stands for, exactly and in whatever way it is written: a
rational number, one of the two infinite values beyond all of them, or no value at all.
`Quantity.less` compares two of them; what has no value is neither less nor greater than
anything. -/

namespace MazeRobot

/-- The value of a number. -/
inductive Quantity where
  | finite (value : Rat)
  | infinite (negative : Bool)
  | undefined
  deriving DecidableEq

namespace Quantity

/-- A whole number as a quantity. -/
def ofInt (n : Int) : Quantity := finite n

/-- The value of a double. -/
def ofFloat (x : Float) : Quantity :=
  match Binary.ofFloat x with
  | .finite negative m q =>
    let (num, den) := Binary.quotient m q
    finite (mkRat (if negative then -(num : Int) else num) den)
  | .infinite negative => infinite negative
  | .notANumber => undefined

/-- Whether the first value is less than the second. -/
def less : Quantity → Quantity → Bool
  | finite a, finite b => decide (a < b)
  | finite _, infinite negative => !negative
  | infinite negative, finite _ => negative
  | infinite negative, infinite other => negative && !other
  | undefined, _ | _, undefined => false

/-- Nothing is less than itself. -/
theorem less_self (q : Quantity) : q.less q = false := by
  cases q with
  | finite a => exact decide_eq_false Rat.lt_irrefl
  | infinite negative => cases negative <;> rfl
  | undefined => rfl

/-- Of two values at most one is less than the other. -/
theorem less_asymm {p q : Quantity} (h : p.less q = true) : q.less p = false := by
  cases p with
  | finite a =>
    cases q with
    | finite b => exact decide_eq_false (Rat.not_lt.2 (Rat.le_of_lt (of_decide_eq_true h)))
    | infinite negative => simp_all [less]
    | undefined => rfl
  | infinite negative => cases q <;> simp_all [less]
  | undefined => exact absurd h (by simp [less])

end Quantity

end MazeRobot
