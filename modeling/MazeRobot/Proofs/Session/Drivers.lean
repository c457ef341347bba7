import Mathlib.Data.List.Perm.Basic
import MazeRobot.Proofs.Session.Journal
import MazeRobot.Proofs.Session.Moves

/-!
# Background runs that go on

A task of a background run that is not cancelled goes on ticking (`Session.drivers`).  There
is a handle on one of them only, `Session.background`, and whoever wants to be rid of that one
cancels it.  But a task that is having its turn is not in the queue and cannot be cancelled.  It
is relied upon to end by itself, since the run has been stopped.  If the listener starts the run
again before the turn is over the task goes on, and nobody has a handle on it any more: it has
gone astray (`Session.strays`).

For a task to go astray the listener has to give up the handle, and it has to start a run.  Either
deed is a price that can be asked (`Toll`).  What is left of the listener's script is a credit:
however the listener reacts, what makes tasks go astray is taken from it (`Session.Pays`).  So
there is no more than one driver for every deed that was paid, and another one
(`drivers_performAll`).
-/

namespace MazeRobot

/-- What it takes for a task to go astray. -/
inductive Toll where
  /-- The handle on it is given up, or another one takes its place. -/
  | dropping
  /-- A run is started. -/
  | starting

/-- The deeds with which a toll can be paid. -/
def Toll.charges : Toll → Deed → Bool
  | dropping, .start => false
  | dropping, _ => true
  | starting, .pause | starting, .reset => false
  | starting, _ => true

namespace Task

/-- It ticks for as long as the run is executing. -/
def Drives (t : Task) : Prop := t.job = .run ∧ t.cancelled = false

instance (t : Task) : Decidable t.Drives := inferInstanceAs (Decidable (_ ∧ _))

/-- It drives, and `background` is a handle on another task or on none. -/
def Strays (background : Option Nat) (t : Task) : Prop := t.Drives ∧ background ≠ some t.id

instance (background : Option Nat) (t : Task) : Decidable (t.Strays background) :=
  inferInstanceAs (Decidable (_ ∧ _))

/-- One if the task strays. -/
def stray (background : Option Nat) (t : Task) : Nat := if t.Strays background then 1 else 0

end Task

namespace Session

/-- The tasks in the queue that drive. -/
def drivers (s : Session) : List Task := s.queue.filter fun t => t.Drives

/-- How many of them there is no handle on. -/
def strays (s : Session) : Nat := s.queue.countP fun t => t.Strays s.background

/-- How many deeds of the listener that can pay a toll are still to come. -/
def left (s : Session) (toll : Toll) : Nat :=
  (s.script.flatMap Reaction.deeds).countP toll.charges

/-- What there is to pay with, including what has been paid. -/
def credit (s : Session) (toll : Toll) : Nat := s.strays + s.left toll

/-- Tasks have different numbers, those having their turn (`spare`) included, and the next one
has another. -/
structure Numbered (spare : List Nat) (s : Session) : Prop where
  nodup : (spare ++ s.queue.map Task.id).Nodup
  fresh : ∀ id ∈ spare ++ s.queue.map Task.id, id < s.nextTask

/-- Tasks and script are as before. -/
structure SameTasks (s s' : Session) : Prop where
  queue : s'.queue = s.queue
  background : s'.background = s.background
  nextTask : s'.nextTask = s.nextTask
  script : s'.script = s.script

end Session

/-- Something has happened that may make the task astray which is having its turn. -/
def Toll.Due (s s' : Session) : Toll → Prop
  | dropping => s'.background ≠ s.background
  | starting =>
    (s'.background ≠ s.background ∧ s'.background ≠ none) ∨
      (s'.isExecuting = true ∧ (s'.background ≠ s.background ∨ s.isExecuting = false))

namespace Session

/-- Tasks that have gone astray were paid for with deeds of the listener. -/
structure Steady (spare : List Nat) (s s' : Session) : Prop where
  numbered : s'.Numbered spare
  credit_le (toll : Toll) : s'.credit toll ≤ s.credit toll

/-- In addition, all tolls that are due were paid, but for what a deed costs that is not in the
script any more. -/
structure Pays (spare : List Nat) (cost : Toll → Nat) (s s' : Session) : Prop
    extends Steady spare s s' where
  credit_lt (toll : Toll) (due : toll.Due s s') : s'.credit toll < s.credit toll + cost toll

/-- The turn of `t`, which is taken off the queue before and may be put back. -/
structure Turned (t : Task) (s s' : Session) : Prop where
  numbered : s'.Numbered []
  credit_le (toll : Toll) : s'.credit toll ≤ s.credit toll + t.stray s.background

variable {s s' s'' : Session} {spare : List Nat} {cost cost' : Toll → Nat} {toll : Toll}
  {t : Task} {e e' : Executor}

/-! ## Tolls -/

/-- What is due in the end was due on one part of the way. -/
theorem due_trans (h : toll.Due s s'') : toll.Due s s' ∨ toll.Due s' s'' := by
  cases toll <;> unfold Toll.Due at h ⊢ <;> grind

/-- Another handle will be in the way of the next one. -/
theorem due_of_handle (hmoved : s'.background ≠ s.background) (hsome : s'.background ≠ none) :
    toll.Due s s' := by
  cases toll with
  | dropping => exact hmoved
  | starting => exact .inl ⟨hmoved, hsome⟩

/-- The task that is having its turn goes on, and there is no handle on it. -/
theorem due_of_isExecuting (hmoved : s'.background ≠ s.background)
    (hexec : s'.isExecuting = true) : toll.Due s s' := by
  cases toll with
  | dropping => exact hmoved
  | starting => exact .inr ⟨hexec, .inl hmoved⟩

/-! ## Counting -/

/-- Only the numbers count. -/
theorem Numbered.of_ids (h : s.Numbered spare)
    (hids : s'.queue.map Task.id = s.queue.map Task.id) (hnext : s'.nextTask = s.nextTask) :
    s'.Numbered spare := by
  constructor
  · rw [hids]
    exact h.nodup
  · rw [hids, hnext]
    exact h.fresh

/-- There is at most one task that the handle is on. -/
theorem Numbered.countP_background_le (h : s.Numbered spare) :
    s.queue.countP (fun t => decide (s.background = some t.id)) ≤ 1 := by
  cases hbackground : s.background with
  | none => simp
  | some id =>
    have hnodup : (s.queue.map Task.id).Nodup := (List.nodup_append.mp h.nodup).2.1
    have hcount := List.nodup_iff_count.mp hnodup id
    rw [List.count_eq_countP, List.countP_map] at hcount
    refine Nat.le_trans (List.countP_mono_left fun t _ ht => ?_) hcount
    have hid : id = t.id := Option.some.inj (of_decide_eq_true ht)
    exact beq_iff_eq.mpr hid.symm

/-- All drivers but one are astray. -/
theorem Numbered.length_drivers_le (h : s.Numbered spare) : s.drivers.length ≤ s.strays + 1 := by
  have hhandle := h.countP_background_le
  have hsplit := List.countP_eq_countP_filter_add s.queue (fun t => decide t.Drives)
    fun t => decide (s.background = some t.id)
  rw [List.countP_filter, List.countP_filter] at hsplit
  have hone : s.queue.countP (fun t => decide t.Drives && decide (s.background = some t.id)) ≤
      s.queue.countP (fun t => decide (s.background = some t.id)) := by
    refine List.countP_mono_left fun t _ ht => ?_
    exact (Bool.and_eq_true_iff.mp ht).2
  have hrest : s.queue.countP (fun t => decide t.Drives && !decide (s.background = some t.id)) =
      s.strays := by
    refine List.countP_congr fun t _ => ?_
    simp only [Bool.and_eq_true, decide_eq_true_eq, Bool.not_eq_true', decide_eq_false_iff_not]
    rfl
  have hlength : s.drivers.length = s.queue.countP fun t => decide t.Drives :=
    List.countP_eq_length_filter.symm
  omega

/-- Without a handle all drivers are astray. -/
theorem length_drivers_of_none (hnone : s.background = none) : s.drivers.length = s.strays := by
  rw [drivers, ← List.countP_eq_length_filter, strays]
  refine List.countP_congr fun t _ => ?_
  rw [decide_eq_true_iff, decide_eq_true_iff, hnone]
  exact ⟨fun hdrives => ⟨hdrives, nofun⟩, And.left⟩

/-- Where the tasks are the same, as many have gone astray. -/
theorem SameTasks.strays_eq (h : s.SameTasks s') : s'.strays = s.strays := by
  unfold strays
  rw [h.queue, h.background]

/-- Where the tasks are the same there is as much to pay with. -/
theorem SameTasks.credit_eq (h : s.SameTasks s') (toll : Toll) :
    s'.credit toll = s.credit toll := by
  unfold credit left
  rw [h.strays_eq, h.script]

theorem SameTasks.refl (s : Session) : s.SameTasks s := ⟨rfl, rfl, rfl, rfl⟩

/-- Tasks that are the same are numbered as well. -/
theorem SameTasks.numbered (h : s.SameTasks s') (hs : s.Numbered spare) : s'.Numbered spare :=
  hs.of_ids (by rw [h.queue]) h.nextTask

/-- Writing leaves the tasks alone. -/
theorem sameTasks_of_wrote {vs : List View} (h : s.Wrote vs s') : s.SameTasks s' := by
  obtain ⟨events, -, rfl⟩ := h
  exact ⟨rfl, rfl, rfl, rfl⟩

/-! ## Composition -/

/-- Where the tasks are the same, nothing went astray unpaid. -/
theorem Steady.of_sameTasks (h : s.Numbered spare) (hs : s.SameTasks s') :
    Steady spare s s' where
  numbered := hs.numbered h
  credit_le toll := Nat.le_of_eq (hs.credit_eq toll)

theorem Steady.trans (h : Steady spare s s') (h' : Steady spare s' s'') :
    Steady spare s s'' where
  numbered := h'.numbered
  credit_le toll := Nat.le_trans (h'.credit_le toll) (h.credit_le toll)

/-- A deed that gives up the handle and starts a run pays for all that it may do. -/
theorem Steady.pays (h : Steady spare s s') (hcost : ∀ toll, 0 < cost toll) :
    Pays spare cost s s' where
  toSteady := h
  credit_lt toll _ := Nat.lt_of_le_of_lt (h.credit_le toll) (Nat.lt_add_of_pos_right (hcost toll))

/-- A run that begins has to be paid for. -/
theorem Pays.of_sameTasks (h : s.Numbered spare) (hs : s.SameTasks s')
    (hexec : s'.isExecuting = true → s.isExecuting = true ∨ 0 < cost .starting) :
    Pays spare cost s s' where
  toSteady := .of_sameTasks h hs
  credit_lt toll due := by
    rw [hs.credit_eq toll]
    refine Nat.lt_add_of_pos_right ?_
    cases toll with
    | dropping => exact absurd hs.background due
    | starting =>
      obtain ⟨hmoved, -⟩ | ⟨hexec', hmoved | hidle⟩ := due
      · exact absurd hs.background hmoved
      · exact absurd hs.background hmoved
      · refine (hexec hexec').resolve_left ?_
        rw [hidle]
        exact Bool.false_ne_true

theorem Pays.refl (h : s.Numbered spare) : Pays spare cost s s :=
  .of_sameTasks h (.refl s) .inl

/-- Where something is written only no toll is due. -/
theorem Pays.of_wrote {vs : List View} (h : s.Numbered spare) (hs : s.Wrote vs s') :
    Pays spare cost s s' := by
  have hsame := sameTasks_of_wrote hs
  obtain ⟨events, -, rfl⟩ := hs
  exact .of_sameTasks h hsame .inl

theorem Pays.trans (h : Pays spare cost s s') (h' : Pays spare cost' s' s'') :
    Pays spare (fun toll => cost' toll + cost toll) s s'' where
  toSteady := h.toSteady.trans h'.toSteady
  credit_lt toll due := by
    have hle := h.credit_le toll
    have hle' := h'.credit_le toll
    obtain hfirst | hsecond := due_trans due
    · have hlt := h.credit_lt toll hfirst
      omega
    · have hlt := h'.credit_lt toll hsecond
      omega

/-- The listener pays for its reactions itself. -/
theorem Pays.after (h : Pays spare cost s s') (h' : Pays spare (fun _ => 0) s' s'') :
    Pays spare cost s s'' := by
  have hall := h.trans h'
  simp only [Nat.zero_add] at hall
  exact hall

/-! ## Tasks -/

/-- Cancelling the background run leaves the numbers of the tasks. -/
theorem map_id_cancelBackground (s : Session) :
    s.cancelBackground.queue.map Task.id = s.queue.map Task.id := by
  unfold cancelBackground
  split
  · rfl
  · rw [List.map_map]
    refine List.map_congr_left fun t _ => ?_
    show Task.id (if _ then _ else _) = t.id
    split <;> rfl

/-- Cancelling the background run gives the handle up. -/
theorem background_cancelBackground (s : Session) : s.cancelBackground.background = none := by
  unfold cancelBackground
  split
  · assumption
  · rfl

/-- The task that is cancelled does not drive any more, and no other has a handle on it. -/
theorem strays_cancelBackground (s : Session) : s.cancelBackground.strays = s.strays := by
  unfold cancelBackground
  cases hbackground : s.background with
  | none => rfl
  | some id =>
    unfold strays
    rw [List.countP_map, hbackground]
    refine List.countP_congr fun t _ => ?_
    rw [Function.comp_apply, decide_eq_true_iff, decide_eq_true_iff]
    -- the task in the handle is no stray before, being in the handle, nor after, being cancelled
    by_cases hid : t.id = id
    · rw [if_pos hid]
      constructor
      · rintro ⟨⟨-, hlive⟩, -⟩
        exact nomatch hlive
      · rintro ⟨-, hother⟩
        exact absurd (congrArg some hid.symm) hother
    · rw [if_neg hid]
      have hother : some id ≠ some t.id := fun h => hid (Option.some.inj h).symm
      exact ⟨fun h => ⟨h.1, hother⟩, fun h => ⟨h.1, nofun⟩⟩

/-- Cancelling the background run makes no task. -/
theorem nextTask_cancelBackground (s : Session) : s.cancelBackground.nextTask = s.nextTask := by
  unfold cancelBackground
  split <;> rfl

/-- Cancelling the background run costs nothing: a task that is cancelled does not go astray.
-/
theorem steady_cancelBackground (h : s.Numbered spare) : Steady spare s s.cancelBackground where
  numbered := h.of_ids s.map_id_cancelBackground s.nextTask_cancelBackground
  credit_le toll := by
    unfold credit left
    refine Nat.le_of_eq ?_
    rw [strays_cancelBackground, script_cancelBackground]

/-- If nothing is executing, a task that nobody has a handle on is going to end. -/
theorem pays_cancelBackground (h : s.Numbered spare) (hidle : s.isExecuting = false)
    (hcost : 0 < cost .dropping) : Pays spare cost s s.cancelBackground where
  toSteady := steady_cancelBackground h
  credit_lt toll due := by
    refine Nat.lt_of_le_of_lt ((steady_cancelBackground h).credit_le toll) ?_
    refine Nat.lt_add_of_pos_right ?_
    cases toll with
    | dropping => exact hcost
    -- to give up the handle starts no run, so no start is due
    | starting =>
      have hexec : s.cancelBackground.isExecuting = s.isExecuting := by
        unfold isExecuting
        rw [executor_cancelBackground]
      obtain ⟨-, hsome⟩ | ⟨hexec', -⟩ := due
      · exact absurd s.background_cancelBackground hsome
      · rw [hexec, hidle] at hexec'
        exact nomatch hexec'

/-- A new task has a number of its own. -/
theorem numbered_spawn (h : s.Numbered spare) (job : Job) : (s.spawn job).1.Numbered spare := by
  -- the new task takes the number that no other can have
  have hids : (s.spawn job).1.queue.map Task.id = s.queue.map Task.id ++ [s.nextTask] :=
    List.map_append
  constructor
  · rw [hids, ← List.append_assoc, List.nodup_append]
    refine ⟨h.nodup, by simp, fun id hid next hnext => ?_⟩
    obtain rfl := List.mem_singleton.mp hnext
    exact Nat.ne_of_lt (h.fresh id hid)
  · intro id hid
    rw [hids, ← List.append_assoc, List.mem_append, List.mem_singleton] at hid
    obtain hid | rfl := hid
    · exact Nat.lt_succ_of_lt (h.fresh id hid)
    · exact Nat.lt_succ_self _

/-- A tick does not drive. -/
theorem steady_spawn_tick (h : s.Numbered spare) : Steady spare s (s.spawn .tick).1 := by
  have hstrays : (s.spawn .tick).1.strays = s.strays := by
    unfold strays
    show (s.queue ++ [_]).countP _ = _
    rw [List.countP_append]
    rfl
  refine ⟨numbered_spawn h _, fun toll => Nat.le_of_eq ?_⟩
  show (s.spawn .tick).1.strays + s.left toll = _
  rw [hstrays]
  rfl

/-- The task of a new background run takes the place of one that the listener has paid for. -/
theorem steady_spawn_run (hnone : s.background = none) (h : Pays spare (fun _ => 0) s s') :
    Steady spare s { (s'.spawn .run).1 with background := some s'.nextTask } := by
  -- the listener may have left a handle on a driver, which is astray from now on
  have hstrays : Session.strays { (s'.spawn .run).1 with background := some s'.nextTask } ≤
      s'.drivers.length := by
    unfold strays drivers
    show (s'.queue ++ [_]).countP _ ≤ _
    rw [List.countP_append, ← List.countP_eq_length_filter]
    have hnew : [({ id := s'.nextTask, job := .run } : Task)].countP
        (fun t => t.Strays (some s'.nextTask)) = 0 := by
      rw [List.countP_eq_zero]
      intro t ht
      obtain rfl := List.mem_singleton.mp ht
      rw [decide_eq_true_iff]
      exact fun hstray => hstray.2 rfl
    rw [hnew]
    refine List.countP_mono_left fun t _ ht => ?_
    rw [decide_eq_true_iff] at ht ⊢
    exact ht.1
  refine ⟨(numbered_spawn h.numbered .run).of_ids rfl rfl, fun toll => ?_⟩
  show _ + s'.left toll ≤ _
  by_cases hsame : s'.background = none
  · rw [length_drivers_of_none hsame] at hstrays
    have hle : s'.strays + s'.left toll ≤ s.credit toll := h.credit_le toll
    omega
  · have hlt : s'.strays + s'.left toll < s.credit toll :=
      h.credit_lt toll (due_of_handle (by rwa [hnone]) hsame)
    have hlength := h.numbered.length_drivers_le
    omega

/-! ## Deeds -/

section Deeds

-- how the listener is told, and that it pays for what it does then
variable {notify : Session → Session × Except Failure Unit}
  (hnotify : ∀ s : Session, s.Numbered spare → Pays spare (fun _ => 0) s (notify s).1)

include hnotify

/-- To write and then to tell the listener pays all tolls that are due. -/
theorem pays_told {vs : List View} (h : s.Numbered spare) (hwrote : s.Wrote vs s') :
    Pays spare (fun _ => 0) s (notify s').1 :=
  have hpays : Pays spare (fun _ => 0) s s' := .of_wrote h hwrote
  hpays.after (hnotify s' hpays.numbered)

/-- A start leaves the tasks alone until the listener is told. -/
theorem exists_pays_startThen (h : s.Numbered spare) (e : Executor) :
    ∃ s₁, s.SameTasks s₁ ∧ Pays spare (fun _ => 0) s₁ (s.startThen notify e).1 := by
  unfold startThen
  by_cases hexec : e.isExecuting = true
  · rw [Executor.start_of_executing hexec]
    exact ⟨s, .refl s, .refl h⟩
  · rw [Executor.start_of_not_executing hexec]
    let begun : Session := { s with executor := some (e.rewind (.running 0 false)) }
    have hsame : s.SameTasks begun := ⟨rfl, rfl, rfl, rfl⟩
    exact ⟨begun, hsame, pays_told hnotify (hsame.numbered h) (wrote_log begun _ _ _)⟩

/-- A start pays all tolls that are due, if its own deed pays for starting. -/
theorem pays_startThen (h : s.Numbered spare) (hcost : 0 < cost .starting) (e : Executor) :
    Pays spare cost s (s.startThen notify e).1 := by
  obtain ⟨s₁, hsame, hpays⟩ := exists_pays_startThen hnotify h e
  have hbegun : Pays spare cost s s₁ := .of_sameTasks h hsame fun _ => .inr hcost
  exact hbegun.after hpays

/-- What goes astray by a start is paid for with deeds of the listener. -/
theorem steady_startThen (h : s.Numbered spare) (e : Executor) :
    Steady spare s (s.startThen notify e).1 := by
  obtain ⟨s₁, hsame, hpays⟩ := exists_pays_startThen hnotify h e
  exact (Steady.of_sameTasks h hsame).trans hpays.toSteady

/-- The run is stopped before the handle is given up. -/
theorem pays_stopped (h : s.Numbered spare) (hcost : 0 < cost .dropping)
    (hidle : e'.isExecuting = false) (kind : LogKind) (text : String) :
    Pays spare cost s
      (notify (Session.log (cancelBackground { s with executor := some e' }) kind text)).1 := by
  let stopped : Session := { s with executor := some e' }
  have hidle' : stopped.isExecuting = false := hidle
  have hstopped : Pays spare (fun _ => 0) s stopped := by
    refine .of_sameTasks h ⟨rfl, rfl, rfl, rfl⟩ fun hexec => ?_
    rw [hidle'] at hexec
    exact nomatch hexec
  have hdropped := hstopped.trans (pays_cancelBackground hstopped.numbered hidle' hcost)
  exact hdropped.after (pays_told hnotify hdropped.numbered (wrote_log _ _ _ _))

/-- A pause pays all tolls that are due, if its own deed pays for dropping. -/
theorem pays_pauseThen (h : s.Numbered spare) (hcost : 0 < cost .dropping)
    (hs : s.executor = some e) : Pays spare cost s (s.pauseThen notify e).1 := by
  unfold pauseThen
  by_cases hexec : e.isExecuting = true
  · obtain ⟨cursor, due⟩ := Executor.isExecuting_iff.mp hexec
    rw [Executor.pause_of_running due]
    exact pays_stopped hnotify h hcost rfl _ _
  · rw [Executor.pause_of_not_executing hexec]
    refine pays_cancelBackground h ?_ hcost
    unfold isExecuting
    rw [hs]
    exact eq_false_of_ne_true hexec

/-- What goes astray by a toggle is paid for, whichever of the two it is. -/
theorem steady_toggleThen (h : s.Numbered spare) (hs : s.executor = some e) :
    Steady spare s (s.toggleThen notify e).1 := by
  unfold toggleThen
  split
  · have hpause : Pays spare (fun _ => 1) s (s.pauseThen notify e).1 :=
      pays_pauseThen hnotify h Nat.one_pos hs
    exact hpause.toSteady
  · exact steady_startThen hnotify h e

/-- What goes astray by a background run is paid for. -/
theorem steady_playThen (h : s.Numbered spare) (e : Executor) :
    Steady spare s (s.playThen notify e).1 := by
  have hcancel := steady_cancelBackground h
  obtain ⟨s₁, hsame, hpays⟩ := exists_pays_startThen hnotify hcancel.numbered e
  have hnone : s₁.background = none := hsame.background.trans s.background_cancelBackground
  have hbegun := hcancel.trans (.of_sameTasks hcancel.numbered hsame)
  unfold playThen
  generalize s.cancelBackground.startThen notify e = answer at hpays ⊢
  obtain ⟨s', f | started⟩ := answer
  · -- the start has failed, and there is no new task
    exact hbegun.trans hpays.toSteady
  · exact hbegun.trans (steady_spawn_run hnone hpays)

/-- Each deed pays its own price. -/
theorem pays_doThen (h : s.Numbered spare) (d : Deed) :
    Pays spare (fun toll => if toll.charges d then 1 else 0) s (s.doThen notify d).1 := by
  have hboth : d = .toggle ∨ d = .play → ∀ toll : Toll, 0 < if toll.charges d then 1 else 0 := by
    rintro (rfl | rfl) (_ | _) <;> exact Nat.one_pos
  unfold doThen
  cases hs : s.executor with
  | none => exact .refl h
  | some e =>
    cases d with
    | start => exact pays_startThen hnotify h Nat.one_pos e
    | pause => exact pays_pauseThen hnotify h Nat.one_pos hs
    | toggle => exact (steady_toggleThen hnotify h hs).pays (hboth (.inl rfl))
    | reset => exact pays_stopped hnotify h Nat.one_pos rfl _ _
    | play => exact (steady_playThen hnotify h e).pays (hboth (.inr rfl))

/-- Deeds that are not done any more, since one before them has failed, are paid for even so. -/
theorem pays_doAllThen (ds : List Deed) (h : s.Numbered spare) :
    Pays spare (fun toll => ds.countP toll.charges) s (s.doAllThen notify ds).1 := by
  induction ds generalizing s with
  | nil => exact .refl h
  | cons d ds ih =>
    have hfirst := pays_doThen hnotify h d
    simp only [List.countP_cons]
    unfold doAllThen
    generalize s.doThen notify d = answer at hfirst ⊢
    obtain ⟨s', f | done⟩ := answer
    · exact hfirst.trans (.refl hfirst.numbered)
    · exact hfirst.trans (ih hfirst.numbered)

/-- The end of a tick pays all tolls that are due. -/
theorem pays_resolveThen (h : s.Numbered spare) (ticket : Ticket) :
    Pays spare (fun _ => 0) s (s.resolveThen notify ticket).1 := by
  obtain heq | ⟨e, e', r, hs, hsteps, heq⟩ := resolveThen_cases notify s ticket
  · rw [heq]
    exact .refl h
  · rw [heq]
    -- the run was executing before the step, so the step does not start it
    have hexec : s.isExecuting = true := by
      unfold isExecuting
      rw [hs]
      exact hsteps.isExecuting
    have hstepped : Pays spare (fun _ => 0) s { s with executor := some e' } :=
      .of_sameTasks h ⟨rfl, rfl, rfl, rfl⟩ fun _ => .inl hexec
    exact hstepped.after (pays_told hnotify hstepped.numbered (wrote_logStep _ _ _))

/-- What goes astray by the installation of a maze is paid for. -/
theorem steady_installThen (h : s.Numbered spare) (m : Maze) :
    Steady spare s (s.installThen notify m).1 := by
  have hcancel := steady_cancelBackground h
  let loaded : Session := { s.cancelBackground with
    maze? := some m
    executor := some (Executor.create m s.cancelBackground.ingestion.program.trace
      (some m.startPose))
    loads := s.cancelBackground.loads + 1 }
  have hloaded := hcancel.trans (.of_sameTasks hcancel.numbered
    (⟨rfl, rfl, rfl, rfl⟩ : s.cancelBackground.SameTasks loaded))
  exact hloaded.trans (pays_told hnotify hloaded.numbered (wrote_log loaded _ _ _)).toSteady

/-- What goes astray by a detection is paid for. -/
theorem steady_detectThen (h : s.Numbered spare) (c : Command) :
    Steady spare s (s.detectThen notify c).1 := by
  have hedited : s.SameTasks (s.onIngestion (s.ingestion.submit s.isExecuting s.now c)).1 :=
    ⟨rfl, rfl, rfl, rfl⟩
  unfold detectThen
  generalize s.onIngestion (s.ingestion.submit s.isExecuting s.now c) = answer at hedited ⊢
  obtain ⟨s', told⟩ := answer
  have hsteady := Steady.of_sameTasks h hedited
  match told with
  | .error f => exact hsteady
  | .ok false => exact hsteady
  | .ok true =>
    exact hsteady.trans (pays_told hnotify hsteady.numbered (wrote_log _ _ _ _)).toSteady

end Deeds

/-- The deeds of a reaction are paid for by crossing it off. -/
theorem Pays.of_crossedOff {r : Reaction} {rest : List Reaction} (hfirst : s.script = r :: rest)
    (v : View)
    (h : Pays spare (fun toll => r.deeds.countP toll.charges)
      { s.record (.viewed v) with script := rest } s') : Pays spare (fun _ => 0) s s' := by
  -- what a reaction will do was on the credit before it was crossed off
  have hcredit (toll : Toll) : s.credit toll =
      Session.credit { s.record (.viewed v) with script := rest } toll +
        r.deeds.countP toll.charges := by
    unfold credit left
    rw [hfirst, List.flatMap_cons, List.countP_append, Nat.add_comm (r.deeds.countP _),
      ← Nat.add_assoc]
    rfl
  refine ⟨⟨h.numbered, fun toll => ?_⟩, fun toll due => ?_⟩
  · rw [hcredit toll]
    exact Nat.le_add_right_of_le (h.credit_le toll)
  · rw [hcredit toll]
    refine h.credit_lt toll ?_
    cases toll <;> exact due

/-- However the listener reacts, also to what its reactions show. -/
theorem pays_notifyUpTo (limit : Nat) (s : Session) (h : s.Numbered spare) :
    Pays spare (fun _ => 0) s (notifyUpTo limit s).1 := by
  -- the deeds of a reaction are shown with fewer reactions left
  induction limit using Nat.strongRecOn generalizing s with
  | ind limit ih =>
    have hshown := shown_notifyUpTo limit s
    generalize reactionsUpTo limit s = ts, (notifyUpTo limit s).1 = s' at hshown ⊢
    cases hshown with
    | unseen nobody => exact .refl h
    | seen run somebody => exact .of_wrote h (wrote_record s _)
    | @reacts e left r rest run somebody left_lt first due =>
      have hless : ∀ s : Session, s.Numbered spare →
          Pays spare (fun _ => 0) s (notifyUpTo left s).1 := ih left (by omega)
      exact .of_crossedOff first (s.viewOf e) (pays_doAllThen hless r.deeds (h.of_ids rfl rfl))

/-- To tell the listener pays all tolls that are due, with the deeds that it does. -/
theorem pays_notify (s : Session) (h : s.Numbered spare) : Pays spare (fun _ => 0) s s.notify.1 :=
  pays_notifyUpTo s.script.length s h

/-! ## Turns -/

/-- A turn that ends the task. -/
theorem Turned.of_steady (h : Steady [t.id] s s') {ending : Ending} :
    Turned t s (s'.finish t ending) where
  numbered := by
    obtain ⟨hnodup, hfresh⟩ := h.numbered
    exact ⟨(List.nodup_cons.mp hnodup).2, fun id hid => hfresh id (List.mem_cons_of_mem _ hid)⟩
  credit_le toll := Nat.le_add_right_of_le (h.credit_le toll)

/-- A task that goes back into the queue keeps its number. -/
theorem numbered_requeue (h : s.Numbered [t.id]) (ticket : Ticket) :
    (s.requeue t ticket).Numbered [] := by
  have hids : (s.requeue t ticket).queue.map Task.id = s.queue.map Task.id ++ [t.id] :=
    List.map_append
  have hperm := List.perm_append_singleton t.id (s.queue.map Task.id)
  rw [← hids] at hperm
  exact ⟨hperm.nodup_iff.mpr h.nodup, fun id hid => h.fresh id (hperm.mem_iff.mp hid)⟩

/-- A task that is put back strays unless there is a handle on it. -/
theorem credit_requeue (s : Session) (t : Task) (ticket : Ticket) (toll : Toll) :
    (s.requeue t ticket).credit toll = s.credit toll + t.stray s.background := by
  have hstrays : (s.requeue t ticket).strays = s.strays + t.stray s.background := by
    unfold strays
    show (s.queue ++ [_]).countP _ = _
    rw [List.countP_append, List.countP_singleton]
    simp only [decide_eq_true_eq]
    rfl
  show (s.requeue t ticket).strays + s.left toll = s.strays + s.left toll + _
  omega

/-- A turn that puts the task back. -/
theorem Turned.of_requeue (h : s.Numbered [t.id]) (ticket : Ticket) :
    Turned t s (s.requeue t ticket) where
  numbered := numbered_requeue h ticket
  credit_le toll := Nat.le_of_eq (credit_requeue s t ticket toll)

/-- The task goes on if a run is executing.  If it has gone astray meanwhile, that was paid
for. -/
theorem Turned.of_pays (h : Pays [t.id] (fun _ => 0) s s') : Turned t s (s'.goOn t) := by
  unfold goOn
  cases hs' : s'.executor with
  | none => exact .of_steady h.toSteady
  | some e =>
    by_cases hexec : e.isExecuting = true
    · simp only [if_pos hexec]
      refine ⟨numbered_requeue h.numbered _, fun toll => ?_⟩
      rw [credit_requeue]
      -- if the background changed hands the task may have gone astray, and one toll pays for that
      by_cases hsame : s'.background = s.background
      · rw [hsame]
        exact Nat.add_le_add_right (h.credit_le toll) _
      · have hexec' : s'.isExecuting = true := by
          unfold isExecuting
          rw [hs']
          exact hexec
        have hlt := h.credit_lt toll (due_of_isExecuting hsame hexec')
        have hone : t.stray s'.background ≤ 1 := by
          unfold Task.stray
          split <;> omega
        omega
    · simp only [if_neg hexec]
      exact .of_steady h.toSteady

/-- A turn may begin with something that leaves the tasks alone. -/
theorem SameTasks.turned (hs : s.SameTasks s') (h : Turned t s' s'') : Turned t s s'' where
  numbered := h.numbered
  credit_le toll := by
    have hle := h.credit_le toll
    rwa [hs.credit_eq, hs.background] at hle

/-- A run may have to be started first, which is not the doing of the listener. -/
theorem exists_pays_ensureStarted (h : s.Numbered spare) :
    ∃ s₁, s.SameTasks s₁ ∧ Pays spare (fun _ => 0) s₁ s.ensureStarted := by
  unfold ensureStarted beginRun
  split
  · exact ⟨s, .refl s, .refl h⟩
  · rw [reply_fst]
    unfold start withExecutor
    cases s.executor with
    | none => exact ⟨s, .refl s, .refl h⟩
    | some e => exact exists_pays_startThen pays_notify h e

/-- Whatever its job, a task keeps in its turn to what a turn may do. -/
theorem turned_turn (h : s.Numbered [t.id]) : Turned t s (s.turn t) := by
  have hturns := turns_turn s t
  generalize s.turn t = s' at hturns ⊢
  cases hturns with
  | ends ending => exact .of_steady (.of_sameTasks h (.refl s))
  | waits ticket => exact .of_requeue h ticket
  | begins =>
    obtain ⟨s₁, hsame, hpays⟩ := exists_pays_ensureStarted h
    -- the task goes on only after it has begun a run, and that has paid
    exact hsame.turned (.of_pays hpays)
  | stumbles ending =>
    obtain ⟨s₁, hsame, hpays⟩ := exists_pays_ensureStarted h
    exact hsame.turned (.of_steady hpays.toSteady)
  | resolves ticket ending => exact .of_steady (pays_resolveThen pays_notify h ticket).toSteady
  | goesOn ticket => exact .of_pays (pays_resolveThen pays_notify h ticket)

/-- While a task has its turn the others are numbered apart from it. -/
theorem steady_wake (h : s.Numbered []) (k : Nat) : Steady [] s (s.wake k) := by
  unfold wake
  cases hget : s.queue[k]? with
  | none => exact .of_sameTasks h (.refl s)
  | some t =>
    let taken : Session := { s with queue := s.queue.eraseIdx k }
    have hperm : (t :: taken.queue).Perm s.queue := by
      obtain ⟨hk, rfl⟩ := List.getElem?_eq_some_iff.mp hget
      exact List.getElem_cons_eraseIdx_perm hk
    have hids : (t.id :: taken.queue.map Task.id).Perm (s.queue.map Task.id) := hperm.map Task.id
    have htaken : taken.Numbered [t.id] :=
      ⟨hids.nodup_iff.mpr h.nodup, fun id hid => h.fresh id (hids.mem_iff.mp hid)⟩
    have hstrays : s.strays = taken.strays + t.stray taken.background := by
      unfold strays
      rw [← hperm.countP_eq, List.countP_cons]
      simp only [decide_eq_true_eq]
      rfl
    obtain ⟨hnumbered, hcredit⟩ := turned_turn htaken
    refine ⟨hnumbered, fun toll => Nat.le_trans (hcredit toll) ?_⟩
    show taken.strays + s.left toll + _ ≤ s.strays + s.left toll
    omega

/-! ## Everything that happens -/

/-- What goes astray by a move is paid for. -/
theorem steady_of_moves (h : s.Numbered []) (hmove : s.Moves s') : Steady [] s s' := by
  cases hmove with
  | deed d => exact (pays_doThen pays_notify h d).toSteady
  | detect c => exact steady_detectThen pays_notify h c
  | install m => exact steady_installThen pays_notify h m
  | note line => exact .of_sameTasks h ⟨rfl, rfl, rfl, rfl⟩
  | resolve ticket => exact (pays_resolveThen pays_notify h ticket).toSteady
  | wake k => exact steady_wake h k
  | beginTick => exact steady_spawn_tick h
  | clock now => exact .of_sameTasks h ⟨rfl, rfl, rfl, rfl⟩

/-- What goes astray by an operation is paid for. -/
theorem steady_perform (h : s.Numbered []) (op : Operation) : Steady [] s (s.perform op) := by
  obtain ⟨e, rfl⟩ | hop := op.edit_or_not
  · exact .of_sameTasks h ⟨rfl, rfl, rfl, rfl⟩
  · have hmoves := moves_perform s hop
    generalize s.perform op = s' at hmoves ⊢
    induction hmoves with
    | refl => exact .of_sameTasks h (.refl s)
    | tail _ hmove ih => exact ih.trans (steady_of_moves ih.numbered hmove)

/-- What goes astray by operations in order is paid for. -/
theorem steady_performAll (h : s.Numbered []) (ops : List Operation) :
    Steady [] s (s.performAll ops) := by
  induction ops generalizing s with
  | nil => exact .of_sameTasks h (.refl s)
  | cons op rest ih =>
    have hfirst := steady_perform h op
    exact hfirst.trans (ih hfirst.numbered)

/-- Whatever is asked of a session that has no tasks yet, in whichever order the tasks are
woken, and however the listener reacts from within: at most one background run goes on, but for
further ones that the listener has paid for.  Each of them takes a deed by which it gave up the
handle and one by which it started a run.  So there is only one if the listener never starts a
run, which it may pause and reset, and only one if it never gives up the handle. -/
theorem drivers_performAll (s : Session) (htasks : s.queue = []) (ops : List Operation)
    (toll : Toll) :
    (s.performAll ops).drivers.length + (s.performAll ops).left toll ≤ 1 + s.left toll := by
  -- with nothing queued at first there is no number to be shared and no stray
  have hnumbered : s.Numbered [] := by
    constructor
    · rw [htasks]
      exact List.nodup_nil
    · rw [htasks]
      exact nofun
  have hnone : s.strays = 0 := by
    unfold strays
    rw [htasks]
    rfl
  have hsteady := steady_performAll hnumbered ops
  have hlength := hsteady.numbered.length_drivers_le
  have hcredit := hsteady.credit_le toll
  unfold credit at hcredit
  omega

/-- The listener pauses the run from within.  The task that was having its turn ends, and
playing again from outside gives one driver. -/
theorem drivers_performAll_trench :
    let s : Session :=
      { ingestion := { program := .ofCommands [.loop (some 6) [.basic .turnRight]] }
        script := [{ due := fun v => v.execution.cursor == 1, deeds := [.pause] }] }
    let now := s.performAll
      [.load ⟨.ok .trench, 1, []⟩, .deed .play, .wake 0, .wake 0, .deed .play, .wake 0]
    s.queue = [] ∧ s.left .starting = 0 ∧ now.left .dropping = 0 ∧ now.drivers.length = 1 := by
  intro s now
  have hleft : s.left .starting = 0 := rfl
  have hmost : now.drivers.length + now.left .starting ≤ 1 + s.left .starting :=
    drivers_performAll s rfl [.load ⟨.ok .trench, 1, []⟩, .deed .play, .wake 0, .wake 0,
      .deed .play, .wake 0] .starting
  have hdone : now.left .dropping = 0 := by decide +kernel
  have hsome : 1 ≤ now.drivers.length := by decide +kernel
  refine ⟨rfl, hleft, hdone, ?_⟩
  omega

/-- The listener plays from within the turn of a task, once.  That task goes on, and with the
one that was played each round of turns takes two steps of the same run. -/
theorem two_drivers_trench :
    let s : Session :=
      { ingestion := { program := .ofCommands [.loop (some 6) [.basic .turnRight]] }
        script := [{ due := fun v => v.execution.cursor == 1, deeds := [.play] }] }
    let now := s.performAll [.load ⟨.ok .trench, 1, []⟩, .deed .play, .wake 0, .wake 0]
    let cursor (s : Session) := s.executor.map fun e => e.phase.cursor
    s.queue = [] ∧ now.drivers.length = 2 ∧ cursor now = some 1 ∧ cursor now.pass = some 2 ∧
      cursor now.pass.pass = some 4 := by
  decide +kernel

end Session

end MazeRobot
