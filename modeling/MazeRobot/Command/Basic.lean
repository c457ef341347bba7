/-! # Robot commands

A program is a list of `Command`s: basic actions, and loops around further commands.
A loop may carry a repetition count; one without a count runs its body once, and a
count of zero runs it not at all.

`Command.Normal` says that every count in the tree is at most `maxLoopCount`.  There
are two ways to bring a count into range: `capCount` for a count that comes with a
stored command (zero stays zero), and `clampCount` for one chosen by the user (at
least one). -/

namespace MazeRobot

/-- What the robot can do in a single step. -/
inductive Action where
  | forward
  | turnRight
  | turnLeft
  | ifHole
  deriving DecidableEq, Repr, Inhabited

/-- The five kinds of command: the four actions, and the loop. -/
inductive Kind where
  | forward
  | turnRight
  | turnLeft
  | ifHole
  | loop
  deriving DecidableEq, Repr, Inhabited

/-- The kind of a command that does `a`. -/
def Action.kind : Action → Kind
  | forward => .forward
  | turnRight => .turnRight
  | turnLeft => .turnLeft
  | ifHole => .ifHole

namespace Kind

/-- Every kind, in the order in which the kinds are listed to users. -/
def all : List Kind := [forward, turnRight, turnLeft, ifHole, loop]

/-- The word that names a kind, on marker cards and in stored commands. -/
def word : Kind → String
  | forward => "forward"
  | turnRight => "turnRight"
  | turnLeft => "turnLeft"
  | ifHole => "ifHole"
  | loop => "loop"

/-- The kind a word names; words are matched exactly. -/
def ofWord? (w : String) : Option Kind := all.find? fun k => k.word == w

/-- The action of a kind, unless it is the loop. -/
def action? : Kind → Option Action
  | forward => some .forward
  | turnRight => some .turnRight
  | turnLeft => some .turnLeft
  | ifHole => some .ifHole
  | loop => none

@[simp] theorem ofWord?_word (k : Kind) : ofWord? k.word = some k := by
  cases k <;> decide

/-- Only its own name is read as a kind. -/
theorem ofWord?_eq_some_iff {w : String} {k : Kind} : ofWord? w = some k ↔ w = k.word := by
  constructor
  · intro h
    have found := List.find?_some h
    exact (eq_of_beq found).symm
  · rintro rfl
    simp

@[simp] theorem action?_kind (a : Action) : a.kind.action? = some a := by
  cases a <;> rfl

/-- The kinds other than loop are the kinds of actions. -/
theorem action?_eq_some_iff {k : Kind} {a : Action} : k.action? = some a ↔ k = a.kind := by
  cases k <;> cases a <;> simp [action?, Action.kind]

end Kind

/-- Fewest repetitions a user can choose. -/
def minLoopCount : Nat := 1

/-- Most repetitions any loop can have. -/
def maxLoopCount : Nat := 10

/-- A count chosen by the user, brought into `minLoopCount … maxLoopCount`. -/
def clampCount (n : Int) : Nat := (max (minLoopCount : Int) (min (maxLoopCount : Int) n)).toNat

/-- A count that comes with a command, brought into `0 … maxLoopCount`. -/
def capCount (n : Int) : Nat := (max 0 (min (maxLoopCount : Int) n)).toNat

/-- A clamped count is at most the largest that is allowed. -/
theorem clampCount_le (n : Int) : clampCount n ≤ maxLoopCount := by
  simp only [clampCount, maxLoopCount, minLoopCount]
  omega

/-- A clamped count is at least the smallest that is allowed. -/
theorem le_clampCount (n : Int) : minLoopCount ≤ clampCount n := by
  simp only [clampCount, maxLoopCount, minLoopCount]
  omega

/-- A count in range stays as it is. -/
theorem clampCount_of_le {k : Nat} (hmin : minLoopCount ≤ k) (hmax : k ≤ maxLoopCount) :
    clampCount k = k := by
  simp only [clampCount, maxLoopCount, minLoopCount] at *
  omega

/-- A capped count is at most the largest that is allowed; it may be zero. -/
theorem capCount_le (n : Int) : capCount n ≤ maxLoopCount := by
  simp only [capCount, maxLoopCount]
  omega

/-- A node of a robot program. -/
inductive Command where
  | basic (action : Action)
  | loop (count : Option Nat) (body : List Command)
  deriving Repr, Inhabited

namespace Command

mutual

/-- Whether two commands are the same tree. -/
def decEq : (a b : Command) → Decidable (a = b)
  | basic x, basic y =>
    if h : x = y then isTrue (h ▸ rfl) else isFalse fun e => h (basic.inj e)
  | basic _, loop _ _ => isFalse nofun
  | loop _ _, basic _ => isFalse nofun
  | loop m xs, loop n ys =>
    if h : m = n then
      match decEqList xs ys with
      | isTrue e => isTrue (h ▸ e ▸ rfl)
      | isFalse ne => isFalse fun e => ne (loop.inj e).2
    else isFalse fun e => h (loop.inj e).1

/-- Whether two lists of commands are the same trees. -/
def decEqList : (xs ys : List Command) → Decidable (xs = ys)
  | [], [] => isTrue rfl
  | [], _ :: _ => isFalse nofun
  | _ :: _, [] => isFalse nofun
  | x :: xs, y :: ys =>
    match decEq x y with
    | isTrue h =>
      match decEqList xs ys with
      | isTrue e => isTrue (h ▸ e ▸ rfl)
      | isFalse ne => isFalse fun e => ne (List.cons.inj e).2
    | isFalse h => isFalse fun e => h (List.cons.inj e).1

end

instance : DecidableEq Command := decEq

/-- The kind of a command. -/
def kind : Command → Kind
  | basic a => a.kind
  | loop _ _ => .loop

/-- Whether a command is a loop. -/
def isLoop : Command → Bool
  | basic _ => false
  | loop _ _ => true

/-- The repetition count a command carries. -/
def count? : Command → Option Nat
  | basic _ => none
  | loop count _ => count

/-- The body of a loop; actions have none. -/
def children : Command → List Command
  | basic _ => []
  | loop _ body => body

/-- A command of the given kind with neither count nor body. -/
def ofKind (k : Kind) : Command :=
  match k.action? with
  | some a => basic a
  | none => loop none []

/-- Every count in the tree is at most `maxLoopCount`. -/
inductive Normal : Command → Prop where
  | basic (a : Action) : Normal (basic a)
  | loop {count : Option Nat} {body : List Command}
      (bounded : ∀ n ∈ count, n ≤ maxLoopCount) (inside : ∀ c ∈ body, Normal c) :
      Normal (loop count body)

@[simp] theorem kind_ofKind (k : Kind) : (ofKind k).kind = k := by
  cases k <;> rfl

/-- Whether a command is a loop is told by its kind. -/
theorem isLoop_iff_kind (c : Command) : c.isLoop = true ↔ c.kind = .loop := by
  cases c with
  | basic a => cases a <;> simp [isLoop, kind, Action.kind]
  | loop n b => simp [isLoop, kind]

end Command

/-- An edit that only a loop can take. -/
inductive LoopEdit where
  | replaceChildren
  | setCount
  | addChild
  | removeChild
  deriving DecidableEq, Repr

/-- What the edit does, in words. -/
def LoopEdit.phrase : LoopEdit → String
  | replaceChildren => "replace children"
  | setCount => "set a loop count"
  | addChild => "add a child"
  | removeChild => "remove a child"

end MazeRobot
