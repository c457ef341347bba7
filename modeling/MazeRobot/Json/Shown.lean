import MazeRobot.Decimal.Shortest
import MazeRobot.Json.Basic
import MazeRobot.Text.Quoted

/-! # JSON values inside messages

`Json.shown` is how a value appears in an error message.  Truth values and the empty
value have words of their own there, and strings are quoted as in all messages.
`Json.sortName` names the sort of a value. -/

namespace MazeRobot

namespace Json

/-- The name of the sort of a value inside a message. -/
def sortName : Json → String
  | null => "NoneType"
  | bool _ => "bool"
  | int _ => "int"
  | real _ => "float"
  | str _ => "str"
  | arr _ => "list"
  | obj _ => "dict"

mutual

/-- The text of a value inside a message. -/
def shown : Json → String
  | null => "None"
  | bool b => if b then "True" else "False"
  | int n => toString n
  | real x => Shortest.render shownDecimal x
  | str t => t.quoted
  | arr items => "[" ++ ", ".intercalate (shownItems items) ++ "]"
  | obj fields => "\x7b" ++ ", ".intercalate (shownFields fields) ++ "\x7d"

/-- The texts of the elements of an array. -/
def shownItems : List Json → List String
  | [] => []
  | v :: rest => shown v :: shownItems rest

/-- The texts of the fields of an object. -/
def shownFields : List (Text × Json) → List String
  | [] => []
  | (k, v) :: rest => (k.quoted ++ ": " ++ shown v) :: shownFields rest

end

end Json

end MazeRobot
