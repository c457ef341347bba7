import MazeRobot.Text.Basic
import MazeRobot.Text.Printable

/-! # Quoted text

`quoted` shows a text unambiguously inside a message.  Single quotes are used unless
the text holds single quotes and no double ones.  Inside, the quote in use and the
backslash are escaped, and so are every character that is not printable and every half
of a surrogate pair. -/

namespace MazeRobot

namespace Text

/-- Lower-case hexadecimal digits of `n`, at least `width` of them. -/
def hex (width n : Nat) : String :=
  let digits := String.ofList (Nat.toDigits 16 n)
  "".pushn '0' (width - digits.length) ++ digits

/-- One character as it stands between the quotes `q`. -/
def quotedChar (q c : Char) : String :=
  if c == q || c == '\\' then "\\" ++ c.toString
  else if c == '\n' then "\\n"
  else if c == '\r' then "\\r"
  else if c == '\t' then "\\t"
  else if isPrintable c then c.toString
  else if c.toNat < 0x100 then "\\x" ++ hex 2 c.toNat
  else if c.toNat < 0x10000 then "\\u" ++ hex 4 c.toNat
  else "\\U" ++ hex 8 c.toNat

/-- One code point as it stands between the quotes `q`. -/
def quotedPoint (q : Char) : CodePoint → String
  | .char c => quotedChar q c
  | .half offset => "\\u" ++ hex 4 (CodePoint.half offset).toNat

/-- The quote to use for a text. -/
def quoteFor (t : Text) : Char := if t.holds '\'' && !t.holds '"' then '"' else '\''

/-- A text between quotes. -/
def quoted (t : Text) : String :=
  let q := quoteFor t
  q.toString ++ String.join (t.points.map (quotedPoint q)) ++ q.toString

end Text

end MazeRobot
