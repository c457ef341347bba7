import MazeRobot.Proofs.Ingestion

/-!
# Loops over a history of detections

A listener of the program may fail while a detection is absorbed, and whoever handed the
detection in may carry on.  By then the edit is made, but the mode is still the one from
before (`take_adds`).  A loop that was to be closed is in the program and at the same time
still being built, so that the next loop detection adds it once more.

That is the only way to get more loops than were opened.  Over any history, a loop in the
program or under construction was there at the start, was opened since, or is left behind by
a detection that failed (`loops_takeAll`).

## Key results

- `absorb_of_ne`, `absorb_of_eq`: a detection goes into the loop being built or the program
- `take_adds`: what a detection leaves behind, also where it fails
- `loops_take`: the balance of loops over one detection
- `loops_takeAll`: the balance over a history, and where it stays even
-/

namespace MazeRobot

/-- A detection that is handed in, and whether a run is executing then. -/
structure Submission where
  running : Bool
  now : Float
  command : Command

namespace Ingestion

/-- Hands in a detection. -/
def take (i : Ingestion) (s : Submission) : Ingestion × Except Failure Bool :=
  i.submit s.running s.now s.command

/-- Hands in detections one after another, whatever became of those before. -/
def takeAll (i : Ingestion) : List Submission → Ingestion
  | [] => i
  | s :: rest => takeAll (i.take s).1 rest

/-- Loops among the commands of the program. -/
def loops (i : Ingestion) : Nat := i.program.commands.countP Command.isLoop

/-- Loops being built: one or none. -/
def openLoops (i : Ingestion) : Nat := i.mode.isBuilding.toNat

/-- What a detection adds to the program if it adds anything. -/
def addition (i : Ingestion) (c : Command) : Command := i.mode.pending?.getD c

/-- A detection opens a loop. -/
def opens (i : Ingestion) (s : Submission) : Bool :=
  !s.running && s.command.isLoop && !i.mode.isBuilding

/-- A detection fails while a loop is being built. -/
def sticks (i : Ingestion) (s : Submission) : Bool :=
  i.mode.isBuilding && !(i.take s).2.isOk

/-- How many detections of a history meet a condition when they are handed in. -/
def tally (meets : Ingestion → Submission → Bool) (i : Ingestion) : List Submission → Nat
  | [] => 0
  | s :: rest => (meets i s).toNat + tally meets (i.take s).1 rest

variable {i : Ingestion} {s : Submission} {c : Command}

/-! ## One detection -/

/-- What a submission adds is a loop if one is being built or the command is one. -/
theorem isLoop_addition (i : Ingestion) (c : Command) :
    (i.addition c).isLoop = (i.mode.isBuilding || c.isLoop) := by
  unfold addition
  cases i.mode <;> rfl

/-- A loop detection while no loop is being built, or another one while a loop is. -/
theorem absorb_of_ne (h : c.isLoop ≠ i.mode.isBuilding) :
    ∃ count body, i.absorb c = ({ i with mode := .building count body }, .ok ()) := by
  obtain ⟨program, mode, notice, defaultCount, display⟩ := i
  cases mode with
  | idle =>
    cases c with
    | basic a => exact absurd rfl h
    | loop carried children => exact ⟨_, _, rfl⟩
  | building count body =>
    cases c with
    | basic a => exact ⟨_, _, rfl⟩
    | loop carried children => exact absurd rfl h

/-- The end of a loop, or an action while no loop is being built.  The loop is done with only
if no listener fails. -/
theorem absorb_of_eq (h : c.isLoop = i.mode.isBuilding) :
    i.absorb c =
      let added := i.program.append (i.addition c)
      ({ i with program := added.1, mode := if added.2.isOk then .idle else i.mode }, added.2) := by
  obtain ⟨program, mode, notice, defaultCount, display⟩ := i
  cases mode with
  | idle =>
    cases c with
    | basic a =>
      dsimp only
      rw [ite_self]
      rfl
    | loop carried children => cases h
  | building count body =>
    cases c with
    | basic a => cases h
    | loop carried children =>
      -- here the listeners have the last word on the mode
      dsimp only [absorb, addition, onProgram, Mode.pending?, Option.getD_some]
      generalize program.append (.loop (some count) body) = added
      obtain ⟨program, told⟩ := added
      cases told <;> rfl

/-- During a run a submission is dropped, and nothing changes. -/
theorem take_of_running (h : s.running = true) : i.take s = (i, .ok false) := if_pos h

/-- Where detections count, they are announced and absorbed. -/
theorem take_of_not_running (h : s.running = false) :
    i.take s =
      ((i.announce s.now s.command).absorb s.command).map id (Except.map fun _ => true) := by
  unfold take submit
  rw [h]
  rfl

/-- A submission that opens a loop or goes into one leaves the program alone. -/
theorem take_of_ne (h : s.running = false) (hloop : s.command.isLoop ≠ i.mode.isBuilding) :
    ∃ count body notice,
      i.take s = ({ i with mode := .building count body, notice }, .ok true) := by
  obtain ⟨count, body, habsorb⟩ := absorb_of_ne (i := i.announce s.now s.command) hloop
  exact ⟨count, body, _, by rw [take_of_not_running h, habsorb]; rfl⟩

/-- A submission that neither opens a loop nor goes into one adds to the program. -/
theorem take_of_eq (h : s.running = false) (hloop : s.command.isLoop = i.mode.isBuilding) :
    let added := i.program.append (i.addition s.command)
    ∃ notice, i.take s =
      ({ i with
          program := added.1
          mode := if added.2.isOk then .idle else i.mode
          notice },
        added.2.map fun _ => true) := by
  have habsorb := absorb_of_eq (i := i.announce s.now s.command) hloop
  exact ⟨_, by rw [take_of_not_running h, habsorb]; rfl⟩

/-- What is to be added is added in any case; but the mode follows only if no listener fails. -/
theorem take_adds (h : s.running = false) (hloop : s.command.isLoop = i.mode.isBuilding) :
    (i.take s).1.program.commands = i.program.commands ++ [i.mode.pending?.getD s.command] ∧
      (i.take s).1.mode = if (i.take s).2.isOk then .idle else i.mode := by
  obtain ⟨notice, htake⟩ := take_of_eq h hloop
  rw [htake]
  refine ⟨rfl, ?_⟩
  cases (i.program.append (i.addition s.command)).2 <;> rfl

/-- Only a detection that adds something can fail. -/
theorem adds_of_error {e : Failure} (h : (i.take s).2 = .error e) :
    s.running = false ∧ s.command.isLoop = i.mode.isBuilding := by
  cases hrunning : s.running with
  | true =>
    rw [take_of_running hrunning] at h
    cases h
  | false =>
    by_cases hloop : s.command.isLoop = i.mode.isBuilding
    · exact ⟨rfl, hloop⟩
    · obtain ⟨count, body, notice, htake⟩ := take_of_ne hrunning hloop
      rw [htake] at h
      cases h

/-- A loop that is opened is built until it is in the program, unless a detection fails: then
it is both. -/
theorem loops_take (i : Ingestion) (s : Submission) :
    (i.take s).1.loops + (i.take s).1.openLoops =
      i.loops + i.openLoops + (i.opens s).toNat + (i.sticks s).toNat := by
  cases hrunning : s.running with
  | true => simp [opens, sticks, take_of_running hrunning, hrunning, Except.isOk, Except.toBool]
  | false =>
    by_cases hloop : s.command.isLoop = i.mode.isBuilding
    · obtain ⟨notice, htake⟩ := take_of_eq hrunning hloop
      have hloops : (i.take s).1.loops = i.loops + i.openLoops := by
        rw [htake]
        show (i.program.commands ++ [i.addition s.command]).countP _ =
          i.loops + i.mode.isBuilding.toNat
        rw [List.countP_append, List.countP_singleton, isLoop_addition, hloop, Bool.or_self]
        cases i.mode.isBuilding <;> rfl
      have hopens : i.opens s = false := by
        unfold opens
        rw [hrunning, hloop]
        cases i.mode.isBuilding <;> rfl
      -- what is still being built is what sticks
      have hopen : (i.take s).1.openLoops = (i.sticks s).toNat := by
        unfold sticks openLoops
        rw [htake]
        cases (i.program.append (i.addition s.command)).2 with
        | ok => exact congrArg Bool.toNat (Bool.and_false _).symm
        | error e => exact congrArg Bool.toNat (Bool.and_true _).symm
      rw [hloops, hopens, hopen]
      rfl
    · obtain ⟨count, body, notice, htake⟩ := take_of_ne hrunning hloop
      have hsticks : i.sticks s = false := by
        unfold sticks
        rw [htake]
        exact Bool.and_false _
      -- the loop that is being built now has just been opened if there was none
      have hopens : 1 = i.openLoops + (i.opens s).toNat := by
        unfold openLoops opens
        rw [hrunning, Bool.eq_not.mpr hloop]
        cases i.mode.isBuilding <;> rfl
      rw [hsticks, htake]
      show i.loops + 1 = i.loops + i.openLoops + (i.opens s).toNat + 0
      omega

/-- No detection fails where no listener does. -/
theorem sticks_of_quiet (hquiet : i.program.Quiet) (s : Submission) : i.sticks s = false := by
  have htold : (i.take s).2.isOk = true := by
    cases hrunning : s.running with
    | true => rw [take_of_running hrunning]; rfl
    | false =>
      unfold take
      rw [hrunning, submit_of_quiet hquiet]
      rfl
  unfold sticks
  rw [htold]
  exact Bool.and_false _

/-- A submission brings no listeners. -/
theorem quiet_take (hquiet : i.program.Quiet) (s : Submission) : (i.take s).1.program.Quiet :=
  (i.edited_submit s.running s.now s.command).quiet hquiet

/-! ## A history of detections -/

/-- Without listeners no loop sticks. -/
theorem tally_sticks_of_quiet (hquiet : i.program.Quiet) (ss : List Submission) :
    i.tally sticks ss = 0 := by
  induction ss generalizing i with
  | nil => rfl
  | cons s rest ih =>
    rw [tally, sticks_of_quiet hquiet, ih (quiet_take hquiet s)]
    rfl

/-- Over any history the loops of the program and the open one balance with what was opened and
what stuck. -/
theorem balance_takeAll (i : Ingestion) (ss : List Submission) :
    (i.takeAll ss).loops + (i.takeAll ss).openLoops =
      i.loops + i.openLoops + i.tally opens ss + i.tally sticks ss := by
  induction ss generalizing i with
  | nil => rfl
  | cons s rest ih =>
    have hfirst := loops_take i s
    have hrest := ih (i.take s).1
    rw [takeAll, tally, tally]
    omega

/-- Over any history of detections, whatever listeners fail at, the loops in the program and
under construction are those from the start, those opened since, and one for each detection
that failed while a loop was being built.  Such a detection is the end of the loop: it leaves
the loop in the program and the mode as it was, where it otherwise leaves no loop open.  Where
no listener fails there is none. -/
theorem loops_takeAll (i : Ingestion) (ss : List Submission) :
    let last := i.takeAll ss
    last.loops + last.openLoops =
        i.loops + i.openLoops + i.tally opens ss + i.tally sticks ss ∧
      (∀ s, s.running = false → s.command.isLoop = last.mode.isBuilding →
        (last.take s).1.program.commands =
            last.program.commands ++ [last.mode.pending?.getD s.command] ∧
          (last.take s).1.mode = if (last.take s).2.isOk then .idle else last.mode) ∧
      (∀ s e, (last.take s).2 = .error e →
        s.running = false ∧ s.command.isLoop = last.mode.isBuilding) ∧
      (i.program.Quiet → i.tally sticks ss = 0) :=
  ⟨balance_takeAll i ss, fun _ => take_adds, fun _ _ => adds_of_error,
    fun hquiet => tally_sticks_of_quiet hquiet ss⟩

/-- A listener that fails once, at the first trace that it hears. -/
def startled : Listener := { fails := fun heard => heard.length == 1 }

/-- A loop is opened, filled and closed; the end fails and is handed in again. -/
def secondTry : List Submission :=
  [⟨false, 0, .loop none []⟩, ⟨false, 1, .basic .forward⟩, ⟨false, 2, .loop none []⟩,
    ⟨false, 3, .loop none []⟩]

/-- With a listener that is startled the loop is in the program twice, with a quiet one once. -/
theorem loops_takeAll_secondTry :
    let i : Ingestion := { program := .ofCommands [] [startled] }
    let j : Ingestion := { program := .ofCommands [] [.quiet] }
    (i.takeAll secondTry).loops + (i.takeAll secondTry).openLoops = 0 + 0 + 1 + 1 ∧
      (j.takeAll secondTry).loops + (j.takeAll secondTry).openLoops = 0 + 0 + 2 + 0 := by
  intro i j
  have hquiet : j.program.Quiet := by
    intro l hl heard
    rw [List.mem_singleton.mp hl]
    rfl
  obtain ⟨hi, -⟩ := loops_takeAll i secondTry
  obtain ⟨hj, -, -, hnone⟩ := loops_takeAll j secondTry
  rw [hnone hquiet] at hj
  exact ⟨hi, hj⟩

/-- A single loop is opened.  Its end fails, and then it is in the program while it is still
being built; the next loop detection adds it again. -/
theorem loop_added_twice :
    let i : Ingestion := { program := .ofCommands [] [startled] }
    let failed := i.takeAll (secondTry.take 3)
    let last := i.takeAll secondTry
    let loop := Command.loop (some 2) [.basic .forward]
    i.tally opens secondTry = 1 ∧
      failed.program.commands = [loop] ∧ failed.mode.pending? = some loop ∧
      last.program.commands = [loop, loop] :=
  ⟨rfl, rfl, rfl, rfl⟩

end Ingestion

end MazeRobot
