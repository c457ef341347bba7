/-! # Dialects of JSON

Texts are read in one of two dialects.  `Dialect.strict` is for records,
`Dialect.lenient` for values stored inside a record.  `Fault` is why a text is refused;
the reader stops at the first fault.

The dialects differ in three points.

* Half of a surrogate pair is refused in the strict dialect.  In the lenient one it may
  stand in a string, as it is or written as an escape.
* Arrays and objects may be nested up to a limit.  In the strict dialect those without
  any element do not count.
* A number may have a whole part of at most `Numeral.maxWholeDigits` digits.  In the
  strict dialect the minus counts as a digit; in the lenient one the rule is for whole
  numbers only. -/

namespace MazeRobot

namespace Json

/-- How exacting a reader is. -/
inductive Dialect where
  | strict
  | lenient
  deriving DecidableEq, Repr

/-- What can be nested. -/
inductive Container where
  | array
  | object
  deriving DecidableEq, Repr

/-- Why a text is refused. -/
inductive Fault where
  /-- The text does not follow the grammar. -/
  | malformed
  /-- One array or object too many is open. -/
  | tooDeep (container : Container)
  /-- The whole part of a number is too long. -/
  | tooManyDigits (count : Nat)
  deriving DecidableEq, Repr

end Json

end MazeRobot
