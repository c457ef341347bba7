import MazeRobot.Json.Basic
import MazeRobot.Json.Dialect
import MazeRobot.Text.Numeral

/-! # Number literals of JSON

A literal is an optional minus, digits without a leading zero, an optional fraction and
an optional exponent.  Without fraction and exponent it is a whole number; otherwise it
is the nearest double.  How long the digits before the fraction may be depends on the
dialect (`Dialect.isOverlong`). -/

namespace MazeRobot

namespace Json

/-- Characters that can occur in a number literal. -/
def isNumberChar (c : Char) : Bool :=
  c.isDigit || c == '-' || c == '+' || c == '.' || c == 'e' || c == 'E'

/-- The exponent of a literal, after its mark. -/
def literalExponent? (cs : List Char) : Option Int :=
  let (negative, cs) := Numeral.splitSign cs
  (Numeral.asciiDigits? cs).map fun ds => Numeral.withSign negative (Numeral.ofDigits ds)

/-- The double for digits `m` of which the last `places` stand after the point. -/
def scaled (negative : Bool) (m places : Nat) (e : Int) : Json :=
  .real (Nearest.ofSigned negative m (e - places))

/-- What a literal with the whole part `n` is worth, given what follows the whole part. -/
def literal? (negative : Bool) (n : Nat) (rest : List Char) : Option Json :=
  match rest with
  | [] => some (.int (Numeral.withSign negative n))
  | '.' :: rest =>
    (Numeral.asciiDigits? (rest.takeWhile Char.isDigit)).bind fun fs =>
      let m := n * Nat.pow 10 fs.length + Numeral.ofDigits fs
      match rest.dropWhile Char.isDigit with
      | [] => some (scaled negative m fs.length 0)
      | mark :: rest =>
        if mark == 'e' || mark == 'E' then
          (literalExponent? rest).map (scaled negative m fs.length)
        else none
  | mark :: rest =>
    if mark == 'e' || mark == 'E' then (literalExponent? rest).map (scaled negative n 0)
    else none

/-- Whether a fraction or an exponent begins. -/
def beginsRealPart : List Char → Bool
  | '.' :: d :: _ => d.isDigit
  | mark :: sign :: rest =>
    (mark == 'e' || mark == 'E')
      && (sign.isDigit || ((sign == '+' || sign == '-') && (rest.head?.any Char.isDigit)))
  | _ => false

/-- Whether a whole part of `digits` digits, followed by `rest`, is too long. -/
def Dialect.isOverlong (dialect : Dialect) (negative : Bool) (digits : Nat) (rest : List Char) :
    Bool :=
  match dialect with
  | strict => decide (Numeral.maxWholeDigits < digits + (if negative then 1 else 0))
  | lenient => decide (Numeral.maxWholeDigits < digits) && !beginsRealPart rest

/-- The value of a complete number literal.  A whole part that is too long is told
before anything that is wrong behind it. -/
def number (dialect : Dialect) (cs : List Char) : Except Fault Json :=
  let (negative, cs) := Numeral.splitMinus cs
  let whole := cs.takeWhile Char.isDigit
  let rest := cs.dropWhile Char.isDigit
  match Numeral.unsigned? whole with
  | none => .error .malformed
  | some n =>
    if dialect.isOverlong negative whole.length rest then .error (.tooManyDigits whole.length)
    else
      match literal? negative n rest with
      | none => .error .malformed
      | some v => .ok v

end Json

end MazeRobot
