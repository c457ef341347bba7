import MazeRobot.Decimal.Quantity
import MazeRobot.Failure
import MazeRobot.Store.Sorting

/-! # Tables of rows

A `Table` keeps rows under their ids, in the order in which the ids were first used.  An
id is a text, a number or the empty value (`RowId`); numbers are the same id if they have
the same value, in whatever way they are written.  A table remembers how an id was written
when it was first used (`RowKey`).

Rows are handed out in the order of their ids (`Table.sorted`).  There is an order among
texts and among numbers only, so a table with ids of both sorts cannot be handed out as a
whole.

`Table.find?_put_self` and `Table.find?_put_of_ne` say what a table holds after a row was
put into it. -/

namespace MazeRobot

/-- A row of a table: its columns. -/
abbrev Row := List (Text × Json)

/-- A column that has to be there. -/
def Row.column (row : Row) (name : String) : Except Failure Json :=
  match Json.field? name row with
  | some v => .ok v
  | none => .error (.missingColumn name)

/-- What rows are told apart by. -/
inductive RowId where
  | text (t : Text)
  | number (value : Quantity)
  | empty
  deriving DecidableEq

/-- An id, and the name of the sort of the value that it was written as. -/
structure RowKey where
  id : RowId
  sort : String

namespace RowKey

/-- The key that a value stands for. -/
def ofJson (v : Json) : Except Failure RowKey :=
  match v with
  | .null => .ok ⟨.empty, v.sortName⟩
  | .bool b => .ok ⟨.number (.ofInt (if b then 1 else 0)), v.sortName⟩
  | .int n => .ok ⟨.number (.ofInt n), v.sortName⟩
  | .real x => .ok ⟨.number (.ofFloat x), v.sortName⟩
  | .str t => .ok ⟨.text t, v.sortName⟩
  | .arr _ | .obj _ => .error (.notAnId v.sortName)

/-- The key that is a text. -/
def ofText (t : Text) : RowKey := ⟨.text t, (Json.str t).sortName⟩

/-- Whether the first key comes before the second, if there is an order between them. -/
def less (a b : RowKey) : Except Failure Bool :=
  match a.id, b.id with
  | .text s, .text t => .ok (decide (¬t ≤ s))
  | .number p, .number q => .ok (p.less q)
  | _, _ => .error (.unorderedIds a.sort b.sort)

end RowKey

/-- Rows by their keys. -/
structure Table where
  entries : List (RowKey × Row) := []
  deriving Inhabited

namespace Table

/-- The row with the given id. -/
def find? (t : Table) (id : RowId) : Option Row :=
  (t.entries.find? fun e => e.1.id = id).map Prod.snd

/-- Entries with a row under its key, in place of the one that was there. -/
def putInto (key : RowKey) (row : Row) : List (RowKey × Row) → List (RowKey × Row)
  | [] => [(key, row)]
  | (k, r) :: rest =>
    if k.id = key.id then (k, row) :: rest else (k, r) :: putInto key row rest

/-- The table with a row under its key, in place of the one that was there. -/
def put (t : Table) (key : RowKey) (row : Row) : Table := ⟨putInto key row t.entries⟩

/-- The table without the given id. -/
def erase (t : Table) (id : RowId) : Table := ⟨t.entries.filter fun e => e.1.id ≠ id⟩

/-- The table that holds the given rows.  Every row needs an id; of two with one id the
later one counts. -/
def ofRows (rows : List Row) : Except Failure Table :=
  rows.foldlM (fun t row => do
    let key ← RowKey.ofJson (← row.column "id")
    return t.put key row) {}

/-- The rows in the order of their ids. -/
def sorted (t : Table) : Except Failure (List Row) :=
  (Sorting.sort (fun a b => RowKey.less a.1 b.1) t.entries).map fun es => es.map Prod.snd

/-- What is found after a row was put under its key. -/
theorem find?_putInto (key : RowKey) (id : RowId) (row : Row) (entries : List (RowKey × Row)) :
    ((putInto key row entries).find? fun e => e.1.id = id).map Prod.snd =
      if key.id = id then some row else (entries.find? fun e => e.1.id = id).map Prod.snd := by
  induction entries with
  | nil => by_cases h : key.id = id <;> simp [putInto, h]
  | cons e rest ih =>
    obtain ⟨k, r⟩ := e
    by_cases hk : k.id = key.id
    · by_cases h : key.id = id <;> simp [putInto, hk, h]
    -- another row stands first: it is kept, and the new one goes behind it
    · have kept : putInto key row ((k, r) :: rest) = (k, r) :: putInto key row rest := by
        simp [putInto, hk]
      rw [kept]
      by_cases h : k.id = id
      · have other : key.id ≠ id := fun same => hk (h.trans same.symm)
        simp [h, other]
      · simp [h, ih]

@[simp] theorem find?_put_self (t : Table) (key : RowKey) (row : Row) :
    (t.put key row).find? key.id = some row := by
  simp [find?, put, find?_putInto]

theorem find?_put_of_ne (t : Table) {key : RowKey} {id : RowId} (row : Row) (h : key.id ≠ id) :
    (t.put key row).find? id = t.find? id := by
  simp [find?, put, find?_putInto, h]

end Table

end MazeRobot
