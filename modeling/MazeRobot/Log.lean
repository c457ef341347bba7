/-! # Coloured log lines

Every log line belongs to a `LogKind`, which gives it a tag and a colour.  Colours are
terminal escapes; `paint` leaves the text alone when they are switched off. -/

namespace MazeRobot

/-- Terminal escapes used in output. -/
inductive Color where
  | blue
  | magenta
  | red
  | green
  | cyan
  | bold
  | reset
  deriving DecidableEq, Repr, Inhabited

namespace Color

/-- The escapes in the order in which they are listed. -/
def all : List Color := [blue, magenta, red, green, cyan, bold, reset]

/-- The name of an escape in listings. -/
def name : Color → String
  | blue => "BLUE"
  | magenta => "MAGENTA"
  | red => "RED"
  | green => "GREEN"
  | cyan => "CYAN"
  | bold => "BOLD"
  | reset => "RESET"

/-- The escape sequence. -/
def code : Color → String
  | blue => "\x1b[94m"
  | magenta => "\x1b[95m"
  | red => "\x1b[91m"
  | green => "\x1b[92m"
  | cyan => "\x1b[96m"
  | bold => "\x1b[1m"
  | reset => "\x1b[0m"

end Color

/-- The variable that switches colours off. -/
def noColorVariable : String := "PROGPATH_NO_COLOR"

/-- Whether colours are on, given the value of the variable that switches them off: any
value but the empty one does. -/
def colorsOn (noColor : Option String) : Bool :=
  match noColor with
  | none => true
  | some value => value.isEmpty

/-- A text in a colour. -/
def paint (colors : Bool) (color : Color) (text : String) (bold : Bool := false) : String :=
  if colors then (if bold then Color.bold.code else "") ++ color.code ++ text ++ Color.reset.code
  else text

/-- What a log line is about. -/
inductive LogKind where
  /-- A step of a run. -/
  | step
  | ingestion
  | error
  | success
  | info
  deriving DecidableEq, Repr, Inhabited

namespace LogKind

/-- The kinds of lines in the order in which they are listed. -/
def all : List LogKind := [step, ingestion, error, success, info]

/-- The name of a kind in listings. -/
def name : LogKind → String
  | step => "deterministic"
  | ingestion => "ingestion"
  | error => "error"
  | success => "success"
  | info => "info"

/-- The colour of the tag. -/
def color : LogKind → Color
  | step => .blue
  | ingestion => .magenta
  | error => .red
  | success => .green
  | info => .cyan

/-- The tag that keeps lines apart without colours. -/
def tag : LogKind → String
  | step => "[•]"
  | ingestion => "[+]"
  | error => "[!]"
  | success => "[✓]"
  | info => "[i]"

end LogKind

/-- A log line. -/
structure LogEntry where
  kind : LogKind
  text : String
  deriving DecidableEq, Repr, Inhabited

namespace LogEntry

/-- A line with the tag of its kind in front, indented by `indent` blanks. -/
def of (kind : LogKind) (text : String) (indent : Nat := 0) : LogEntry :=
  ⟨kind, "".pushn ' ' indent ++ kind.tag ++ " " ++ text⟩

/-- The line as it is printed. -/
def render (colors : Bool) (e : LogEntry) : String := paint colors e.kind.color e.text

end LogEntry

end MazeRobot
