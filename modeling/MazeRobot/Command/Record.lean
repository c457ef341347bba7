import MazeRobot.Command.Basic
import MazeRobot.Json.Reader
import MazeRobot.Validation

/-! # Commands as JSON records

A command is stored as an object with a `type`, a `loopCount` (also accepted under the
name `loop_count`) and a list of `children`.  `Command.check` reads such a record and
complains about everything that is wrong with it; only a record without any other fault
is held to the rule that none but loops have counts and children.  A record that stands
`maxLevels` levels inside others is not looked at.

Two written forms exist: `Command.wire` leaves out an absent count and an empty body,
`Command.full` writes all three fields for every node. -/

namespace MazeRobot

namespace Command

/-- The names under which a repetition count is accepted, the preferred one first. -/
def countNames : List String := ["loopCount", "loop_count"]

/-- A repetition count, or nothing. -/
def checkCount : Json → Checked (Option Nat)
  | .null => .ok none
  | v => (Checked.integer v).map fun n => some (capCount n)

/-- The repetition count of a record, under the first of its names that is present. -/
def checkCountField (fields : List (Text × Json)) : Checked (Option Nat) :=
  match countNames.find? fun (name : String) => (Json.field? name fields).isSome with
  | none => .ok none
  | some name => Checked.required fields name checkCount

/-- The kind of command a record names. -/
def checkKind (fields : List (Text × Json)) : Checked Kind :=
  Checked.required fields "type" (Checked.word (Kind.all.map Kind.word) Kind.ofWord?)

/-- Puts a command together; only loops have counts and bodies. -/
def assemble (kind : Kind) (count : Option Nat) (body : List Command) : Checked Command :=
  match kind.action? with
  | none => .ok (loop count body)
  | some a =>
    if !body.isEmpty then
      Checked.complain (.rule s!"'{kind.word}' commands cannot have children")
    else if count.isSome then
      Checked.complain (.rule s!"'{kind.word}' commands cannot have a loopCount")
    else .ok (basic a)

/-- How many levels of commands are read, one inside the other. -/
def maxLevels : Nat := 255

mutual

/-- Reads the record of a command, `levels` levels at most. -/
def check (source : Source) (levels : Nat) : Json → Checked Command
  | .obj fields =>
    if levels = 0 then Checked.complain .tooDeep
    else
      (Checked.both (checkKind fields)
        (Checked.both (checkCountField fields)
          (Checked.within (.field "children")
            ((checkBodyField source (levels - 1) fields).getD (.ok []))))).bind
        fun (kind, count, body) => assemble kind count body
  | _ => Checked.complain (if levels = 0 then .tooDeep else .notRecord .command source)

/-- Reads the last field called `children`, if there is one. -/
def checkBodyField (source : Source) (levels : Nat) :
    List (Text × Json) → Option (Checked (List Command))
  | [] => none
  | (k, v) :: rest =>
    match checkBodyField source levels rest with
    | some body => some body
    | none => if k == "children" then some (checkBody source levels v) else none

/-- Reads a list of commands. -/
def checkBody (source : Source) (levels : Nat) : Json → Checked (List Command)
  | .arr items => checkItems source levels 0 items
  | _ => Checked.complain (.notSequence source)

/-- Reads the commands of a list, from index `i` on. -/
def checkItems (source : Source) (levels i : Nat) : List Json → Checked (List Command)
  | [] => .ok []
  | v :: rest =>
    (Checked.both (Checked.within (.index i) (check source levels v))
      (checkItems source levels (i + 1) rest)).map fun (c, cs) => c :: cs

end

/-- How deep a text with a record may be nested. -/
def maxNesting : Nat := 200

/-- The command of a decoded record. -/
def ofJson (v : Json) : Except Report Command :=
  (check .value maxLevels v).mapError fun issues => ⟨.command, issues⟩

/-- The command of a record given as a text. -/
def ofText (t : Text) : Except Report Command :=
  ((Checked.string t).bind fun s =>
    match Json.read .strict maxNesting s with
    | .error _ => Checked.complain .malformed
    | .ok v => check .text maxLevels v).mapError fun issues => ⟨.command, issues⟩

/-- A loop around `body` with a count that has yet to be checked. -/
def repeated (count : Json) (body : List Command) : Except Report Command :=
  match Checked.within (.field "loop_count") (checkCount count) with
  | .ok count => .ok (loop count body)
  | .error issues => .error ⟨.command, issues⟩

/-- Commands never change, so assigning a count to one is refused. -/
def assignCount (_ : Command) (_ : Json) : Except Report Command :=
  .error ⟨.command, [⟨[.field "loop_count"], .frozen⟩]⟩

mutual

/-- The record of a command without absent counts and empty bodies. -/
def wire : Command → Json
  | basic a => .obj [("type", .str a.kind.word)]
  | loop count body =>
    .obj (("type", .str Kind.loop.word)
      :: ((match count with
          | none => []
          | some n => [("loopCount", .int n)])
        ++ (match wireAll body with
          | [] => []
          | items => [("children", .arr items)])))

/-- The records of a list of commands. -/
def wireAll : List Command → List Json
  | [] => []
  | c :: rest => wire c :: wireAll rest

end

mutual

/-- The record of a command with all three fields. -/
def full : Command → Json
  | basic a => .obj [("type", .str a.kind.word), ("loopCount", .null), ("children", .arr [])]
  | loop count body =>
    .obj [("type", .str Kind.loop.word),
      ("loopCount", match count with | none => .null | some n => .int n),
      ("children", .arr (fullAll body))]

/-- The full records of a list of commands. -/
def fullAll : List Command → List Json
  | [] => []
  | c :: rest => full c :: fullAll rest

end

end Command

end MazeRobot
