import MazeRobot.Decimal.Shortest
import MazeRobot.Json.Basic
import MazeRobot.Text.Quoted

/-! # Writing JSON text

One writer, three `Layout`s: `compact` without any blanks, `spaced` on one line with a
blank after commas and colons, and `indented` with one element a line.  `spaced` keeps
to ASCII; the other two write every code point from the space on as it is, except the
quote and the backslash. -/

namespace MazeRobot

namespace Json

/-- How the parts of a text are set out. -/
inductive Layout where
  | compact
  | spaced
  | indented
  deriving DecidableEq, Repr

namespace Layout

/-- The start of a line `depth` levels in. -/
def newLine (depth : Nat) : Text := .ofChars ('\n' :: List.replicate (2 * depth) ' ')

/-- What follows the opening bracket of a non-empty array or object `depth` levels in,
and precedes its closing one. -/
def margin (layout : Layout) (depth : Nat) : Text :=
  match layout with
  | indented => newLine depth
  | _ => ""

/-- What stands between two elements. -/
def separator (layout : Layout) (depth : Nat) : Text :=
  match layout with
  | compact => ","
  | spaced => ", "
  | indented => "," ++ newLine depth

/-- What stands between a key and its value. -/
def colon : Layout → Text
  | compact => ":"
  | _ => ": "

/-- Whether characters beyond ASCII are escaped. -/
def asciiOnly : Layout → Bool
  | spaced => true
  | _ => false

end Layout

/-- A sixteen-bit unit as an escape. -/
def unitEscape (n : Nat) : List Char := '\\' :: 'u' :: (Text.hex 4 n).toList

/-- One character of a string. -/
def writeChar (asciiOnly : Bool) (c : Char) : List Char :=
  match c with
  | '"' => ['\\', '"']
  | '\\' => ['\\', '\\']
  | '\n' => ['\\', 'n']
  | '\r' => ['\\', 'r']
  | '\t' => ['\\', 't']
  | '\x08' => ['\\', 'b']
  | '\x0c' => ['\\', 'f']
  | _ =>
    let n := c.toNat
    if n < 0x20 then unitEscape n
    else if !asciiOnly || n < 0x7F then [c]
    else if n < 0x10000 then unitEscape n
    else
      let n := n - 0x10000
      unitEscape (0xD800 + n / 0x400) ++ unitEscape (0xDC00 + n % 0x400)

/-- One code point of a string. -/
def writePoint (asciiOnly : Bool) : CodePoint → List CodePoint
  | .char c => (writeChar asciiOnly c).map .char
  | .half offset =>
    if asciiOnly then (unitEscape (CodePoint.half offset).toNat).map .char else [.half offset]

/-- A string between quotes. -/
def writeText (asciiOnly : Bool) (t : Text) : Text :=
  ⟨.char '"' :: (t.points.flatMap (writePoint asciiOnly) ++ [.char '"'])⟩

mutual

/-- The text of a value that stands `depth` levels in. -/
def write (layout : Layout) (depth : Nat) : Json → Text
  | null => "null"
  | bool b => if b then "true" else "false"
  | int n => toString n
  | real x => Shortest.render shownDecimal x
  | str t => writeText layout.asciiOnly t
  | arr [] => "[]"
  | arr (v :: rest) =>
    "[" ++ (layout.margin (depth + 1) ++ (write layout (depth + 1) v
      ++ (writeItems layout (depth + 1) rest ++ (layout.margin depth ++ "]"))))
  | obj [] => "\x7b\x7d"
  | obj ((k, v) :: rest) =>
    "\x7b" ++ (layout.margin (depth + 1) ++ (writeText layout.asciiOnly k ++ (layout.colon
      ++ (write layout (depth + 1) v ++ (writeFields layout (depth + 1) rest
      ++ (layout.margin depth ++ "\x7d"))))))

/-- Further elements of an array, each after a separator. -/
def writeItems (layout : Layout) (depth : Nat) : List Json → Text
  | [] => ""
  | v :: rest => layout.separator depth ++ (write layout depth v ++ writeItems layout depth rest)

/-- Further fields of an object, each after a separator. -/
def writeFields (layout : Layout) (depth : Nat) : List (Text × Json) → Text
  | [] => ""
  | (k, v) :: rest =>
    layout.separator depth ++ (writeText layout.asciiOnly k ++ (layout.colon
      ++ (write layout depth v ++ writeFields layout depth rest)))

end

/-- The text of a value. -/
def render (layout : Layout) (v : Json) : Text := write layout 0 v

end Json

end MazeRobot
