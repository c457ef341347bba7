import MazeRobot.Proofs.Submissions

/-!
# What was detected last

The entry point keeps the notice of one detection, the last one that it did not ignore.
Detections that arrive during a run leave everything alone (`take_of_running`), and an edit
touches the program and the loop being built, but neither the notice nor the time for which
notices are shown (`sameButCommands_apply`).  So over a history of detections, edits and
queries the notice is settled by the last detection that counts, and afterwards only time
passes (`activeNotice_meetAll`).

The label is chosen before the detection is absorbed, from the mode of that moment.  It fits
what the detection does then, even if it fails: the end of a loop is announced exactly where a
loop is added to the program, and that is the loop that was being built (`appends_iff`).

## Key results

- `sameButCommands_apply`: what an edit may change
- `notice_take`: the notice that a detection puts up
- `announces_take`: that notice against what becomes of the program
- `activeNotice_meetAll`: what is shown after a history of uses
-/

namespace MazeRobot

namespace Ingestion

/-- An entry point with another program or another loop being built at most. -/
def SameButCommands (i j : Ingestion) : Prop :=
  ∃ program mode, j = { i with program, mode }

/-- What the entry point is asked to do; queries change nothing. -/
inductive Use where
  | detect (s : Submission)
  | edit (e : Edit)
  | query (now : Float)

/-- A detection that is not ignored. -/
def Use.counts : Use → Bool
  | detect s => !s.running
  | edit _ => false
  | query _ => false

/-- What the entry point is afterwards, also if it fails. -/
def meet (i : Ingestion) : Use → Ingestion
  | .detect s => (i.take s).1
  | .edit e => (e.apply i).1
  | .query _ => i

/-- The ingestion goes through a history. -/
def meetAll (i : Ingestion) (history : List Use) : Ingestion := history.foldl meet i

/-- A detection adds a loop at the end of the program. -/
def Appends (i : Ingestion) (s : Submission) (loop : Command) : Prop :=
  loop.isLoop = true ∧ (i.take s).1.program.commands = i.program.commands ++ [loop]

end Ingestion

/-- What a notice says about the detection that puts it up. -/
structure Notice.Announces (n : Notice) (i : Ingestion) (s : Submission) : Prop where
  expires : n.expires = s.now + i.display
  endLoop : n.label = endLoopLabel ↔ ∃ loop, i.Appends s loop
  finished : ∀ loop, i.Appends s loop → i.mode.pending? = some loop
  word : (¬∃ loop, i.Appends s loop) → n.label = s.command.kind.word

/-- There is a pending loop while one is being built. -/
theorem Mode.isSome_pending? (mode : Mode) : mode.pending?.isSome = mode.isBuilding := by
  cases mode <;> rfl

namespace Ingestion

variable {i j : Ingestion} {s : Submission} {c : Command} {mode : Mode} {u : Use}

/-! ## Edits -/

theorem SameButCommands.refl (i : Ingestion) : i.SameButCommands i := ⟨_, _, rfl⟩

/-- Ingestions that differ in commands only have one notice. -/
theorem SameButCommands.notice (h : i.SameButCommands j) : j.notice = i.notice := by
  obtain ⟨program, mode, rfl⟩ := h
  rfl

/-- Ingestions that differ in commands only show notices equally long. -/
theorem SameButCommands.display (h : i.SameButCommands j) : j.display = i.display := by
  obtain ⟨program, mode, rfl⟩ := h
  rfl

/-- An edit of the program concerns the commands only. -/
theorem sameButCommands_onProgram {α : Type} (i : Ingestion) (edited : Program × α) :
    i.SameButCommands (i.onProgram edited).1 := ⟨_, _, rfl⟩

/-- Another child concerns the commands only. -/
theorem sameButCommands_addChild (i : Ingestion) (index : Int) (c : Command) :
    i.SameButCommands (i.addChild index c).1 := by
  unfold addChild
  split
  · exact .refl i
  · exact i.sameButCommands_onProgram _

/-- Removing a child concerns the commands only. -/
theorem sameButCommands_removeChild (i : Ingestion) (index child : Int) :
    i.SameButCommands (i.removeChild index child).1 := by
  unfold removeChild
  split
  · exact .refl i
  · split
    · split
      · exact .refl i
      · exact i.sameButCommands_onProgram _
    · exact .refl i

/-- The choice of a count concerns the commands only. -/
theorem sameButCommands_chooseCount (i : Ingestion) (index : Int) (count : Json) :
    i.SameButCommands (i.chooseCount index count).1 := by
  unfold chooseCount
  split
  · exact .refl i
  · split
    · exact .refl i
    · unfold updateCount
      split
      · exact .refl i
      · exact i.sameButCommands_onProgram _

/-- Setting the count of the open loop concerns the commands only. -/
theorem sameButCommands_setPendingCount (i : Ingestion) (n : Int) :
    i.SameButCommands (i.setPendingCount n).1 := by
  unfold setPendingCount
  split
  · exact .refl i
  · exact ⟨_, _, rfl⟩

/-- Choosing the count of the open loop concerns the commands only. -/
theorem sameButCommands_choosePendingCount (i : Ingestion) (count : Json) :
    i.SameButCommands (i.choosePendingCount count).1 := by
  unfold choosePendingCount
  split
  · exact .refl i
  · split
    · exact .refl i
    · exact i.sameButCommands_setPendingCount _

/-- Whether or not an edit succeeds, it touches at most the program and the loop being
built. -/
theorem sameButCommands_apply (i : Ingestion) (e : Edit) : i.SameButCommands (e.apply i).1 := by
  cases e with
  | append c => exact i.sameButCommands_onProgram _
  | remove index => exact i.sameButCommands_onProgram _
  | replace index c => exact i.sameButCommands_onProgram _
  | clear => exact i.sameButCommands_onProgram _
  | addChild index c => exact i.sameButCommands_addChild index c
  | removeChild index child => exact i.sameButCommands_removeChild index child
  | chooseCount index count => exact i.sameButCommands_chooseCount index count
  | choosePendingCount count => exact i.sameButCommands_choosePendingCount count
  | cancelLoop => exact ⟨_, _, rfl⟩

/-! ## Detections -/

/-- Taking a command in concerns the commands only. -/
theorem sameButCommands_absorb (i : Ingestion) (c : Command) :
    i.SameButCommands (i.absorb c).1 := by
  by_cases hloop : c.isLoop = i.mode.isBuilding
  · rw [absorb_of_eq hloop]
    exact ⟨_, _, rfl⟩
  · obtain ⟨count, body, habsorb⟩ := absorb_of_ne hloop
    rw [habsorb]
    exact ⟨_, _, rfl⟩

/-- The notice is put up before the detection is absorbed, and it stays up if that fails. -/
theorem sameButCommands_take (h : s.running = false) :
    (i.announce s.now s.command).SameButCommands (i.take s).1 := by
  rw [take_of_not_running h]
  exact sameButCommands_absorb _ s.command

/-- A submission that counts brings its notice, whatever else becomes of it. -/
theorem notice_take (h : s.running = false) :
    (i.take s).1.notice = some ⟨labelFor i.mode s.command, s.now + i.display⟩ :=
  (sameButCommands_take h).notice

/-- No submission changes how long notices are shown. -/
theorem display_take (i : Ingestion) (s : Submission) : (i.take s).1.display = i.display := by
  cases hrunning : s.running with
  | true => rw [take_of_running hrunning]
  | false => exact (sameButCommands_take hrunning).display

/-! ## Labels -/

/-- No kind of command is called like the end of a loop. -/
theorem word_ne_endLoopLabel (k : Kind) : k.word ≠ endLoopLabel := by
  cases k <;> decide

/-- The end of a loop is announced for a loop marker while a loop is open, and for nothing
else. -/
theorem labelFor_eq_endLoopLabel_iff :
    labelFor mode c = endLoopLabel ↔ c.isLoop = true ∧ mode.isBuilding = true := by
  unfold labelFor
  rw [← Bool.and_eq_true]
  split
  · next h => exact iff_of_true rfl h
  · next h => exact iff_of_false (word_ne_endLoopLabel c.kind) h

/-- A label other than that of an end is the name of the command. -/
theorem labelFor_of_ne (h : labelFor mode c ≠ endLoopLabel) : labelFor mode c = c.kind.word :=
  if_neg fun hends => h (if_pos hends)

/-- Loops come into the program at the end of a loop and nowhere else, and then it is the one
that was being built. -/
theorem appends_iff (h : s.running = false) {loop : Command} :
    i.Appends s loop ↔ s.command.isLoop = true ∧ i.mode.pending? = some loop := by
  unfold Appends
  by_cases heq : s.command.isLoop = i.mode.isBuilding
  · rw [(take_adds h heq).1, List.append_cancel_left_eq, List.singleton_inj, heq]
    cases hmode : i.mode with
    | idle =>
      -- an action is added, and no loop was being built
      rw [hmode] at heq
      refine iff_of_false (fun ⟨hloop, hadded⟩ => ?_) fun ⟨hends, _⟩ => ?_
      · rw [← hadded] at hloop
        cases heq.symm.trans hloop
      · cases hends
    | building count body =>
      refine ⟨fun ⟨_, hadded⟩ => ⟨rfl, congrArg some hadded⟩, fun ⟨_, hpending⟩ => ?_⟩
      cases hpending
      exact ⟨rfl, rfl⟩
  · -- a loop is opened or filled, and the program stays as it is
    obtain ⟨count, body, notice, htake⟩ := take_of_ne h heq
    rw [htake]
    refine iff_of_false (fun ⟨_, hadded⟩ => ?_) fun ⟨hends, hpending⟩ => ?_
    · exact List.cons_ne_nil loop [] (List.self_eq_append_right.mp hadded)
    · rw [hends, ← Mode.isSome_pending?, hpending] at heq
      exact heq rfl

/-- The label is chosen before the detection is absorbed, and fits what comes of it. -/
theorem labelFor_eq_endLoopLabel_iff_appends (h : s.running = false) :
    labelFor i.mode s.command = endLoopLabel ↔ ∃ loop, i.Appends s loop := by
  simp only [appends_iff h, exists_and_left, ← Option.isSome_iff_exists, Mode.isSome_pending?]
  exact labelFor_eq_endLoopLabel_iff

/-- The notice of a submission announces it. -/
theorem announces_take (h : s.running = false) :
    ∃ n, (i.take s).1.notice = some n ∧ n.Announces i s := by
  refine ⟨_, notice_take h, rfl, labelFor_eq_endLoopLabel_iff_appends h,
    fun loop happends => ((appends_iff h).mp happends).2, fun hnone => ?_⟩
  exact labelFor_of_ne fun hends => hnone ((labelFor_eq_endLoopLabel_iff_appends h).mp hends)

/-! ## A history of uses -/

/-- No use changes how long notices are shown. -/
theorem display_meet (i : Ingestion) (u : Use) : (i.meet u).display = i.display := by
  cases u with
  | detect s => exact i.display_take s
  | edit e => exact (i.sameButCommands_apply e).display
  | query now => rfl

/-- A notice stays until a detection counts. -/
theorem notice_meet (h : u.counts = false) : (i.meet u).notice = i.notice := by
  cases u with
  | detect s => rw [meet, take_of_running (by simpa [Use.counts] using h)]
  | edit e => exact (i.sameButCommands_apply e).notice
  | query now => rfl

/-- No history changes how long notices are shown. -/
theorem display_meetAll (i : Ingestion) (history : List Use) :
    (i.meetAll history).display = i.display := by
  induction history generalizing i with
  | nil => rfl
  | cons u rest ih => exact (ih (i.meet u)).trans (i.display_meet u)

/-- Uses that do not count leave the notice as it is. -/
theorem notice_meetAll {history : List Use} (h : ∀ u ∈ history, u.counts = false) :
    (i.meetAll history).notice = i.notice := by
  induction history generalizing i with
  | nil => rfl
  | cons u rest ih =>
    have hrest := ih (i := i.meet u) fun v hv => h v (List.mem_cons_of_mem u hv)
    exact hrest.trans (notice_meet (h u List.mem_cons_self))

/-- A history in two portions is gone through one after the other. -/
theorem meetAll_append (i : Ingestion) (before after : List Use) :
    i.meetAll (before ++ after) = (i.meetAll before).meetAll after :=
  List.foldl_append

/-- A notice is shown until it expires. -/
theorem activeNotice_of_some {n : Notice} (h : i.notice = some n) (now : Float) :
    i.activeNotice now = if now < n.expires then some n else none := by
  unfold activeNotice
  rw [h]
  unfold Option.filter Notice.isActive
  simp only [decide_eq_true_eq]

/-- Over any history of an entry point that has not shown anything yet, nothing is shown until
a detection counts.  Afterwards it is the notice of the last one that did, for as long as
notices are shown, and then nothing again.  Its label is that of the end of a loop where the
detection appends the loop that was being built, and the word for the command where it appends
no loop.  A detection during a run leaves the entry point as it is. -/
theorem activeNotice_meetAll (i : Ingestion) (hnew : i.notice = none) (history : List Use) :
    let last := i.meetAll history
    ((∀ u ∈ history, u.counts = false) → ∀ now, last.activeNotice now = none) ∧
      (∀ before s after, history = before ++ .detect s :: after →
        s.running = false → (∀ u ∈ after, u.counts = false) →
        ∃ n, ((i.meetAll before).take s).1.notice = some n ∧
          n.Announces (i.meetAll before) s ∧
          ∀ now, last.activeNotice now = if now < s.now + i.display then some n else none) ∧
      ∀ s, s.running = true → last.take s = (last, .ok false) := by
  refine ⟨fun hnone now => ?_, fun before s after hhistory hcounts hafter => ?_,
    fun s => take_of_running⟩
  · unfold activeNotice
    rw [notice_meetAll hnone, hnew]
    rfl
  · obtain ⟨n, hnotice, hannounces⟩ := announces_take (i := i.meetAll before) hcounts
    refine ⟨n, hnotice, hannounces, fun now => ?_⟩
    have hlast : (i.meetAll history).notice = some n := by
      rw [hhistory, meetAll_append]
      exact (notice_meetAll hafter).trans hnotice
    rw [activeNotice_of_some hlast, hannounces.expires, display_meetAll]

/-- A loop is opened and cancelled, then another is opened and filled.  A loop detection during
a run does not end it. -/
def reopened : List Use :=
  [.detect ⟨false, 0, .loop none []⟩, .edit (.choosePendingCount (.int 5)), .edit .cancelLoop,
    .detect ⟨false, 1, .loop (some 3) []⟩, .detect ⟨false, 2, .basic .forward⟩,
    .detect ⟨true, 2.5, .loop none []⟩]

/-- The loop is ended at 3 and stays announced up to 4.5, although the program is cleared and
something is detected during a run meanwhile. -/
theorem activeNotice_meetAll_reopened :
    let i : Ingestion := { program := .ofCommands [] }
    let ends : Submission := ⟨false, 3, .loop none []⟩
    let after : List Use := [.query 3, .edit .clear, .detect ⟨true, 4, .basic .turnLeft⟩]
    let last := i.meetAll (reopened ++ .detect ends :: after)
    (i.meetAll after).activeNotice 4 = none ∧
      ∃ n, n.label = endLoopLabel ∧ last.activeNotice 4 = some n ∧ last.activeNotice 5 = none := by
  intro i ends after last
  -- what comes after the loop was ended counts for no notice: the card came during a run
  have hafter : ∀ u ∈ after, u.counts = false := by
    have hall : after.all (fun u => !u.counts) = true := rfl
    simpa using hall
  obtain ⟨hnothing, -⟩ := activeNotice_meetAll i rfl after
  obtain ⟨-, hlast, -⟩ := activeNotice_meetAll i rfl (reopened ++ .detect ends :: after)
  obtain ⟨n, -, hannounces, hshown⟩ := hlast reopened ends after rfl rfl hafter
  refine ⟨hnothing hafter 4, n, hannounces.endLoop.mpr ?_, ?_, ?_⟩
  · exact ⟨.loop (some 3) [.basic .forward], rfl, rfl⟩
  · rw [hshown]
    exact if_pos (by decide +kernel)
  · rw [hshown]
    exact if_neg (by decide +kernel)

end Ingestion

end MazeRobot
