import MazeRobot.Ingestion

/-!
# Edits of the program

Whatever is asked of the entry point, its program is left alone or its commands are put in
the place of others (`Program.Edited`), so nothing else about edits has to be known to see
that the trace stays the one of the commands (`Program.Edited.synced`).

Where no listener fails (`Program.Quiet`), everybody hears of an edit and the edit succeeds
(`Program.put_of_quiet`).

`Edit` lists the edits that come from a command stack or straight from the owner of the
program.  Detections are not among them: they go through `Ingestion.submit`.
-/

namespace MazeRobot

/-- With listeners that never fail, every one of them is told. -/
theorem Listener.tellAll_of_quiet (t : Trace) {ls : List Listener}
    (hquiet : ∀ l ∈ ls, ∀ heard, l.fails heard = false) :
    tellAll t ls = (ls.map fun l => { l with heard := t :: l.heard }, false) := by
  induction ls with
  | nil => rfl
  | cons l rest ih =>
    have hl : l.hear t = ({ l with heard := t :: l.heard }, false) := by
      simp only [hear, hquiet l List.mem_cons_self]
    have hrest := ih fun l' hl' => hquiet l' (List.mem_cons_of_mem l hl')
    simp only [tellAll, hl, hrest, List.map_cons]

namespace Program

/-- No listener ever fails. -/
def Quiet (p : Program) : Prop := ∀ l ∈ p.listeners, ∀ heard, l.fails heard = false

/-- The trace is that of the commands. -/
def Synced (p : Program) : Prop := p.trace = Command.unrollAll p.commands

/-- What can become of a program. -/
inductive Edited (p : Program) : Program → Prop where
  | kept : Edited p p
  | put (commands : List Command) : Edited p (p.put commands).1

variable {p q : Program}

/-- A new program has the trace of its commands. -/
theorem synced_ofCommands (commands : List Command) (listeners : List Listener) :
    (ofCommands commands listeners).Synced := rfl

/-- Other commands bring their trace with them, even if a listener fails. -/
theorem synced_put (p : Program) (commands : List Command) : (p.put commands).1.Synced := rfl

/-- Edits keep the trace that of the commands. -/
theorem Edited.synced (h : p.Edited q) (hp : p.Synced) : q.Synced := by
  cases h with
  | kept => exact hp
  | put commands => exact synced_put p commands

/-- A new program has no listeners. -/
theorem quiet_ofCommands (commands : List Command) : (ofCommands commands).Quiet := nofun

/-- Without listeners other commands are put, and that is all. -/
theorem put_of_quiet (hp : p.Quiet) (commands : List Command) :
    p.put commands =
      ({ commands
         trace := Command.unrollAll commands
         listeners :=
          p.listeners.map fun l => { l with heard := Command.unrollAll commands :: l.heard }
         heardByAll := p.heardByAll + 1 },
        .ok ()) := by
  simp only [put, Listener.tellAll_of_quiet _ hp]
  rfl

/-- A listener that has heard one more trace fails no more than before. -/
theorem Quiet.put (hp : p.Quiet) (commands : List Command) : (p.put commands).1.Quiet := by
  rw [put_of_quiet hp]
  intro l hl heard
  obtain ⟨l₀, hl₀, rfl⟩ := List.mem_map.mp hl
  exact hp l₀ hl₀ heard

/-- Edits bring no listeners. -/
theorem Edited.quiet (h : p.Edited q) (hp : p.Quiet) : q.Quiet := by
  cases h with
  | kept => exact hp
  | put commands => exact hp.put commands

/-- Either nothing was edited, or everybody heard of it. -/
theorem Edited.eq_or_heardByAll (h : p.Edited q) (hp : p.Quiet) :
    q = p ∨ q.heardByAll = p.heardByAll + 1 := by
  cases h with
  | kept => exact .inl rfl
  | put commands =>
    right
    rw [put_of_quiet hp]

/-- Appending is an edit. -/
theorem edited_append (p : Program) (c : Command) : p.Edited (p.append c).1 := .put _

/-- Clearing is an edit. -/
theorem edited_clear (p : Program) : p.Edited p.clear.1 := .put _

/-- Removing is an edit, or nothing happens. -/
theorem edited_remove (p : Program) (i : Int) : p.Edited (p.remove i).1 := by
  unfold remove
  split
  · exact .kept
  · split
    · exact .kept
    · exact .put _

/-- Replacing is an edit, or nothing happens. -/
theorem edited_replace (p : Program) (i : Int) (c : Command) : p.Edited (p.replace i c).1 := by
  unfold replace
  split
  · exact .kept
  · exact .put _

end Program

namespace Ingestion

variable (i : Ingestion)

/-- To replace a command edits the program. -/
theorem edited_updateCommand (index : Int) (c : Command) :
    i.program.Edited (i.updateCommand index c).1.program :=
  i.program.edited_replace index c

/-- To add a child edits the program, or nothing happens. -/
theorem edited_addChild (index : Int) (c : Command) :
    i.program.Edited (i.addChild index c).1.program := by
  unfold addChild
  split
  · exact .kept
  · exact i.edited_updateCommand _ _

/-- To remove a child edits the program, or nothing happens. -/
theorem edited_removeChild (index child : Int) :
    i.program.Edited (i.removeChild index child).1.program := by
  unfold removeChild
  split
  · exact .kept
  · split
    · split
      · exact .kept
      · exact i.edited_updateCommand _ _
    · exact .kept

/-- To set a count edits the program, or nothing happens. -/
theorem edited_updateCount (index n : Int) :
    i.program.Edited (i.updateCount index n).1.program := by
  unfold updateCount
  split
  · exact .kept
  · exact i.edited_updateCommand _ _

/-- To choose a count edits the program, or nothing happens. -/
theorem edited_chooseCount (index : Int) (count : Json) :
    i.program.Edited (i.chooseCount index count).1.program := by
  unfold chooseCount
  split
  · exact .kept
  · split
    · exact .kept
    · exact i.edited_updateCount _ _

/-- The count of the loop being built is not part of the program yet. -/
theorem program_setPendingCount (n : Int) : (i.setPendingCount n).1.program = i.program := by
  unfold setPendingCount
  split <;> rfl

/-- Choosing the count of the open loop leaves the program alone. -/
theorem program_choosePendingCount (count : Json) :
    (i.choosePendingCount count).1.program = i.program := by
  unfold choosePendingCount
  split
  · rfl
  · split
    · rfl
    · exact i.program_setPendingCount _

/-- Taking a command in edits the program, or it is left alone. -/
theorem edited_absorb (c : Command) : i.program.Edited (i.absorb c).1.program := by
  unfold absorb
  split
  · -- the loop goes into the program whether or not everybody hears of it
    dsimp only
    rw [apply_ite Ingestion.program, ite_self]
    exact i.program.edited_append _
  · exact .kept
  · exact .kept
  · exact i.program.edited_append _

/-- A submission edits the program, or it is left alone. -/
theorem edited_submit (running : Bool) (now : Float) (c : Command) :
    i.program.Edited (i.submit running now c).1.program := by
  unfold submit
  split
  · exact .kept
  · exact (i.announce now c).edited_absorb c

variable {i}

/-- Where no listener of the program fails, every detection is absorbed. -/
theorem absorb_of_quiet (hquiet : i.program.Quiet) (c : Command) : (i.absorb c).2 = .ok () := by
  have happend (c : Command) : (i.program.append c).2 = .ok () := by
    unfold Program.append
    rw [Program.put_of_quiet hquiet]
  unfold absorb
  split
  · -- the loop that was being built is complete
    exact happend _
  · rfl
  · rfl
  · exact happend _

/-- Detections are refused during a run, and accepted at any other time. -/
theorem submit_of_quiet (hquiet : i.program.Quiet) (now : Float) (c : Command) :
    (i.submit false now c).2 = .ok true := by
  have hannounced : (i.announce now c).program.Quiet := hquiet
  show ((i.announce now c).absorb c).2.map _ = _
  rw [absorb_of_quiet hannounced c]
  rfl

end Ingestion

/-- An edit of a program or of the loop being built. -/
inductive Edit where
  | append (c : Command)
  | remove (index : Int)
  | replace (index : Int) (c : Command)
  | clear
  | addChild (index : Int) (c : Command)
  | removeChild (index child : Int)
  | chooseCount (index : Int) (count : Json)
  | choosePendingCount (count : Json)
  | cancelLoop

namespace Edit

/-- Makes an edit; of the answer only the failure matters here. -/
def apply (i : Ingestion) : Edit → Ingestion × Except Failure Unit
  | append c => i.onProgram (i.program.append c)
  | remove index => (i.removeCommand index).map id (Except.map fun _ => ())
  | replace index c => i.updateCommand index c
  | clear => i.clearProgram
  | addChild index c => i.addChild index c
  | removeChild index child => (i.removeChild index child).map id (Except.map fun _ => ())
  | chooseCount index count => i.chooseCount index count
  | choosePendingCount count => (i.choosePendingCount count).map id (Except.map fun _ => ())
  | cancelLoop => i.cancelLoop.map id fun _ => .ok ()

/-- Every edit of the stack edits the program, or it is left alone. -/
theorem edited_apply (i : Ingestion) (e : Edit) : i.program.Edited (e.apply i).1.program := by
  cases e with
  | append c => exact i.program.edited_append c
  | remove index => exact i.program.edited_remove index
  | replace index c => exact i.edited_updateCommand index c
  | clear => exact i.program.edited_clear
  | addChild index c => exact i.edited_addChild index c
  | removeChild index child => exact i.edited_removeChild index child
  | chooseCount index count => exact i.edited_chooseCount index count
  | choosePendingCount count =>
    show i.program.Edited (i.choosePendingCount count).1.program
    rw [i.program_choosePendingCount]
    exact .kept
  | cancelLoop => exact .kept

end Edit

end MazeRobot
