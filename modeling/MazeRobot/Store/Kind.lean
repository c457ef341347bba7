import MazeRobot.Failure

/-! # Kinds of maze store

The kinds that can be asked for by name.  A database needs a driver, and none is
present. -/

namespace MazeRobot

/-- Where mazes can be kept. -/
inductive StoreKind where
  | memory
  | files
  | database
  deriving DecidableEq, Repr, Inhabited

namespace StoreKind

/-- The kinds in the order in which they are listed. -/
def all : List StoreKind := [memory, files, database]

/-- The name that a kind is asked for by. -/
def word : StoreKind → String
  | memory => "memory"
  | files => "json"
  | database => "postgres"

/-- The names that a setting may have. -/
def words : List String := all.map word

/-- The kind of a name. -/
def ofWord? (s : String) : Option StoreKind := all.find? fun k => k.word == s

/-- The kind of store to build: the one asked for, or else the one configured.  Asking
for the empty word is asking for nothing. -/
def choose (asked : Option String) (configured : String) : Except Failure StoreKind :=
  let wanted :=
    match asked with
    | none | some "" => configured
    | some w => w
  match ofWord? wanted with
  | none => .error (.unknownStore wanted)
  | some database => .error .noDatabase
  | some kind => .ok kind

theorem ofWord?_word (k : StoreKind) : ofWord? k.word = some k := by
  cases k <;> decide

end StoreKind

end MazeRobot
