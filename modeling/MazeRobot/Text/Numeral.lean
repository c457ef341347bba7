import MazeRobot.Decimal.Nearest
import MazeRobot.Text.Blank
import MazeRobot.Text.Digit

/-! # Numbers written as text

Three grammars for numbers, from strict to lenient:

* `plain?`: an optional minus and digits `0` to `9` without a leading zero;
* `tidied?`: as `plain?`, after removing blanks around the number, a plus, leading
  zeros, a fraction of zeros, and single underscores;
* `grouped` and `decimal?`: whole and decimal numbers in the digits of any script, with
  blanks around, a sign, and single underscores between digits.

Whole numbers may have at most `maxWholeDigits` digits. -/

namespace MazeRobot

namespace Numeral

open Text

/-- The number that a sequence of digits writes. -/
def ofDigits (ds : List Nat) : Nat := ds.foldl (fun n d => 10 * n + d) 0

/-- The number with a sign in front. -/
def withSign (negative : Bool) (n : Nat) : Int := if negative then -n else n

/-- The digits `0` to `9`, all of them, of a non-empty text. -/
def asciiDigits? (cs : List Char) : Option (List Nat) :=
  if cs.isEmpty then none else cs.mapM asciiDigit?

/-- A whole number without sign or superfluous zero. -/
def unsigned? (cs : List Char) : Option Nat :=
  match cs with
  | '0' :: _ :: _ => none
  | _ => (asciiDigits? cs).map ofDigits

/-- Most digits that are turned into a whole number. -/
def maxWholeDigits : Nat := 4300

/-- A minus, if there is one, and the rest. -/
def splitMinus : List Char → Bool × List Char
  | '-' :: rest => (true, rest)
  | cs => (false, cs)

/-- Whether a text begins with a number that is too long, whatever follows it.  A minus
counts as a digit; a number that begins with zero ends there. -/
def beginsOverlong (cs : List Char) : Bool :=
  match splitMinus cs with
  | (_, '0' :: _) => false
  | (negative, rest) =>
    decide (maxWholeDigits < (rest.takeWhile Char.isDigit).length + if negative then 1 else 0)

/-- An optional minus and digits without a leading zero, unless they are too many. -/
def plain? (cs : List Char) : Option Int :=
  if beginsOverlong cs then none
  else
    match splitMinus cs with
    | (negative, rest) => (unsigned? rest).map (withSign negative)

/-- Leading zeros removed, and underscores between them.  A minus ends the zeros like any
other digit does; what starts with anything else than a digit or a minus is no number. -/
def dropZeros : List Char → Option (List Char)
  | '0' :: rest => go '0' rest
  | c :: rest => if c == '-' || ('1' ≤ c && c ≤ '9') then some (c :: rest) else none
  | [] => none
where
  /-- `last` is the zero or underscore just passed; it stays if nothing follows it. -/
  go (last : Char) : List Char → Option (List Char)
    | [] => some [last]
    | c :: rest =>
      if c == '0' || c == '_' then go c rest
      else if c == '-' || ('1' ≤ c && c ≤ '9') then some (c :: rest)
      else if c == '.' then some (last :: c :: rest)
      else none

/-- A point followed by zeros, at least one, and nothing else is removed. -/
def dropZeroFraction (cs : List Char) : List Char :=
  let fraction := (cs.dropWhile (· != '.')).drop 1
  if !fraction.isEmpty && fraction.all (· == '0') then cs.takeWhile (· != '.') else cs

/-- Underscores are removed if each stands alone between other characters. -/
def dropUnderscores (cs : List Char) : List Char :=
  let paired := (cs.zip (cs.drop 1)).any fun (a, b) => a == '_' && b == '_'
  if cs.head? == some '_' || cs.getLast? == some '_' || paired then cs
  else cs.filter (· != '_')

/-- The text without a plus in front; a plus and a minus are no sign. -/
def dropPlus : List Char → Option (List Char)
  | '+' :: '-' :: _ => none
  | '+' :: rest => some rest
  | cs => some cs

/-- A whole number, once blanks, a plus, leading zeros, a zero fraction and single
underscores are out of the way. -/
def tidied? (s : String) : Option Int := do
  let (negative, rest) := splitMinus (← dropPlus (trim isBlank s.toList))
  let digits := dropUnderscores (dropZeroFraction (← dropZeros rest))
  plain? (if negative then '-' :: digits else digits)

/-- Digits of any script with single underscores between them. -/
def groupedDigits? : List Char → Option (List Nat)
  | [] => none
  | [c] => (digitValue? c).map fun d => [d]
  | c :: '_' :: rest => (digitValue? c).bind fun d => (groupedDigits? rest).map (d :: ·)
  | c :: rest => (digitValue? c).bind fun d => (groupedDigits? rest).map (d :: ·)

/-- The sign in front of a number, and the rest. -/
def splitSign : List Char → Bool × List Char
  | '-' :: rest => (true, rest)
  | '+' :: rest => (false, rest)
  | cs => (false, cs)

/-- What keeps a text from being a whole number. -/
inductive WholeFault where
  | noNumber
  | tooManyDigits (count : Nat)
  deriving DecidableEq, Repr

/-- A whole number in the digits of any script.  That there are too many digits is told
before anything that is wrong behind them. -/
def grouped (s : String) : Except WholeFault Int :=
  let (negative, cs) := splitSign (s.toList.dropWhile isBlank)
  let isPart (c : Char) := c == '_' || (digitValue? c).isSome
  match groupedDigits? (cs.takeWhile isPart) with
  | none => .error .noNumber
  | some ds =>
    if maxWholeDigits < ds.length then .error (.tooManyDigits ds.length)
    else if (cs.dropWhile isPart).all isBlank then .ok (withSign negative (ofDigits ds))
    else .error .noNumber

/-- Digits that may be missing altogether. -/
def someDigits? (cs : List Char) : Option (List Nat) :=
  if cs.isEmpty then some [] else groupedDigits? cs

/-- The exponent part after its mark. -/
def exponent? (cs : List Char) : Option Int :=
  let (negative, cs) := splitSign cs
  (groupedDigits? cs).map fun ds => withSign negative (ofDigits ds)

/-- Whole digits, fraction digits and exponent of an unsigned decimal number. -/
def unsignedDecimal? (cs : List Char) : Option (Nat × Int) :=
  let isMark (c : Char) := c == 'e' || c == 'E'
  let mantissa := cs.takeWhile (!isMark ·)
  let whole := mantissa.takeWhile (· != '.')
  let fraction := (mantissa.dropWhile (· != '.')).drop 1
  if whole.isEmpty && fraction.isEmpty then none
  else do
    let ws ← someDigits? whole
    let fs ← someDigits? fraction
    let e ←
      match cs.dropWhile (!isMark ·) with
      | [] => some 0
      | _ :: rest => exponent? rest
    some (ofDigits (ws ++ fs), e - fs.length)

/-- A decimal number in the digits of any script, or one of the words for infinity and
for no number, in any case. -/
def decimal? (s : String) : Option Float :=
  let (negative, cs) := splitSign (trim isBlank s.toList)
  let word := String.ofList (cs.map Char.toLower)
  if word == "inf" || word == "infinity" then
    some (if negative then -Nearest.infinity else Nearest.infinity)
  else if word == "nan" then some Nearest.notANumber
  else (unsignedDecimal? cs).map fun (m, e) => Nearest.ofSigned negative m e

end Numeral

end MazeRobot
