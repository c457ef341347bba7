import MazeRobot.Failure

/-! # Environment variables

An `Environment` holds the values of variables.  Names and values are kept as bytes, the
null character ends them, and an equals sign ends a name, so not every text can be one
(`Environment.set`).

`Environment.get?_of_set` says that a value comes back the way bytes do (`Text.settled`). -/

namespace MazeRobot

/-- Variables and their values, the latest first. -/
structure Environment where
  entries : List (Text × Text) := []
  deriving Inhabited

namespace Environment

/-- Refuses a text that cannot be kept as bytes. -/
def checkBytes (t : Text) : Except Failure Unit :=
  match t.nameRun? with
  | some run => .error (.notEncodable run)
  | none => .ok ()

/-- Refuses a text that would end too early. -/
def checkEnd (t : Text) : Except Failure Unit :=
  if t.holds '\x00' then .error .nullCharacter else .ok ()

/-- Refuses what cannot be the name of a variable. -/
def checkName (name : Text) : Except Failure Unit :=
  if name.holds '=' then .error .equalsInVariable
  else if name.isEmpty then .error .namelessVariable
  else .ok ()

/-- Refuses what cannot be a variable with a value; of several faults the first counts. -/
def check (name value : Text) : Except Failure Unit := do
  checkBytes name
  checkBytes value
  checkEnd name
  checkEnd value
  checkName name

/-- The environment with a value for a variable. -/
def set (e : Environment) (name value : Text) : Except Failure Environment :=
  (check name value).map fun _ => ⟨(name.settled, value.settled) :: e.entries⟩

/-- As `set`, for a value of any kind: the empty value leaves the variable alone, and all
others have to be texts. -/
def assign (e : Environment) (name : Text) (value : Json) : Except Failure Environment :=
  match value with
  | .null => .ok e
  | .str t => e.set name t
  | v => do
    checkBytes name
    throw (.notAString v.sortName)

/-- The value of a variable. -/
def get? (e : Environment) (name : Text) : Option Text := e.entries.lookup name.settled

/-- A variable that has just been set has its value, the surrogates in it settled. -/
theorem get?_of_set {e f : Environment} {name value : Text} (h : e.set name value = .ok f) :
    f.get? name = some value.settled := by
  cases checked : check name value with
  | error fault => simp [set, checked, Except.map] at h
  | ok =>
    simp only [set, checked, Except.map, Except.ok.injEq] at h
    subst h
    simp [get?]

end Environment

end MazeRobot
