import MazeRobot.Proofs.Session.Journal
import MazeRobot.Proofs.Session.Moves

/-!
# The past of a session

The journal of a session is written and never read.  So whatever happens to a session happens
in the same way if more had been written before (`Session.after`): one equation for each
action, each kind of turn and each operation (`perform_after`).
-/

namespace MazeRobot

namespace Session

/-- A session before which more was written into the journal. -/
def after (s : Session) (past : List Event) : Session := { s with journal := past ++ s.journal }

variable {past : List Event}

/-! ## Actions -/

/-- An event is recorded behind the past. -/
theorem record_after (s : Session) (event : Event) :
    (s.after past).record event = (s.record event).after past := by
  unfold record after
  rw [List.append_assoc]

/-- A log line is recorded behind the past. -/
theorem log_after (s : Session) (kind : LogKind) (text : String) (indent : Nat) :
    (s.after past).log kind text indent = (s.log kind text indent).after past := by
  show (if s.verbose then _ else _) = after (if s.verbose then _ else _) past
  split
  · exact record_after s _
  · rfl

/-- The line of a step is recorded behind the past. -/
theorem logStep_after (s : Session) (e : Executor) (r : StepResult) :
    (s.after past).logStep e r = (s.logStep e r).after past := by
  unfold logStep
  dsimp only
  split <;> simp only [log_after]

/-- The background run is cancelled whatever the past. -/
theorem cancelBackground_after (s : Session) :
    (s.after past).cancelBackground = s.cancelBackground.after past := by
  unfold cancelBackground after
  cases hbackground : s.background <;> simp only [hbackground]

section Told

variable {notify : Session → Session × Except Failure Unit}
  (hnotify : ∀ s : Session, notify (s.after past) = (notify s).map (after · past) id)

include hnotify

/-- What is logged and then shown. -/
theorem told_after (s : Session) (kind : LogKind) (text : String) (indent : Nat) :
    notify ((s.after past).log kind text indent) =
      (notify (s.log kind text indent)).map (after · past) id := by
  rw [log_after, hnotify]

/-- The background run is cancelled before. -/
theorem stopped_after (s : Session) (kind : LogKind) (text : String) (indent : Nat) :
    notify ((s.after past).cancelBackground.log kind text indent) =
      (notify (s.cancelBackground.log kind text indent)).map (after · past) id := by
  rw [cancelBackground_after, told_after hnotify]

/-- A start does not depend on the past if telling the listener does not. -/
theorem startThen_after (s : Session) (e : Executor) :
    (s.after past).startThen notify e = (s.startThen notify e).map (after · past) id := by
  unfold startThen
  obtain ⟨e', _ | _⟩ := e.start
  · rfl
  · exact congrArg (reply fun _ => true) (told_after hnotify { s with executor := some e' } _ _ _)

/-- A pause does not depend on the past if telling the listener does not. -/
theorem pauseThen_after (s : Session) (e : Executor) :
    (s.after past).pauseThen notify e = (s.pauseThen notify e).map (after · past) id := by
  unfold pauseThen
  obtain ⟨e', _ | _⟩ := e.pause
  · exact congrArg (·, Except.ok false) (cancelBackground_after s)
  · exact congrArg (reply fun _ => true)
      (stopped_after hnotify { s with executor := some e' } _ _ _)

/-- A toggle does not depend on the past if telling the listener does not. -/
theorem toggleThen_after (s : Session) (e : Executor) :
    (s.after past).toggleThen notify e = (s.toggleThen notify e).map (after · past) id := by
  unfold toggleThen
  split
  · rw [pauseThen_after hnotify]
    rfl
  · exact startThen_after hnotify s e

/-- A reset does not depend on the past if telling the listener does not. -/
theorem resetThen_after (s : Session) (e : Executor) :
    (s.after past).resetThen notify e = (s.resetThen notify e).map (after · past) id :=
  stopped_after hnotify { s with executor := some e.reset } _ _ _

/-- A background run does not depend on the past if telling the listener does not. -/
theorem playThen_after (s : Session) (e : Executor) :
    (s.after past).playThen notify e = (s.playThen notify e).map (after · past) id := by
  unfold playThen
  rw [cancelBackground_after, startThen_after hnotify]
  obtain ⟨s', f | started⟩ := s.cancelBackground.startThen notify e <;> rfl

/-- Installing a maze does not depend on the past if telling the listener does not. -/
theorem installThen_after (s : Session) (m : Maze) :
    (s.after past).installThen notify m = (s.installThen notify m).map (after · past) id := by
  unfold installThen
  rw [cancelBackground_after]
  exact told_after hnotify { s.cancelBackground with
    maze? := some m
    executor := some (Executor.create m s.cancelBackground.ingestion.program.trace
      (some m.startPose))
    loads := s.cancelBackground.loads + 1 } _ _ _

/-- A detection does not depend on the past if telling the listener does not. -/
theorem detectThen_after (s : Session) (c : Command) :
    (s.after past).detectThen notify c = (s.detectThen notify c).map (after · past) id := by
  have hedited : (s.after past).onIngestion ((s.after past).ingestion.submit
      (s.after past).isExecuting (s.after past).now c) =
      (s.onIngestion (s.ingestion.submit s.isExecuting s.now c)).map (after · past) id := rfl
  unfold detectThen
  rw [hedited]
  obtain ⟨s', f | _ | _⟩ := s.onIngestion (s.ingestion.submit s.isExecuting s.now c)
  · rfl
  · rfl
  · exact congrArg (reply fun _ => true) (told_after hnotify s' _ _ _)

/-- The end of a tick does not depend on the past if telling the listener does not. -/
theorem resolveThen_after (s : Session) (ticket : Ticket) :
    (s.after past).resolveThen notify ticket =
      (s.resolveThen notify ticket).map (after · past) id := by
  have hexecutor : (s.after past).executor = s.executor := rfl
  have hloads : (s.after past).loads = s.loads := rfl
  unfold resolveThen
  rw [hexecutor]
  cases s.executor with
  | none => rfl
  | some e =>
    dsimp only
    rw [hloads]
    split
    · obtain f | ⟨e', _ | r⟩ := e.step (some (ticket.generation : Int))
      · rfl
      · rfl
      · let stepped : Session := { s with executor := some e' }
        have hstepped : (stepped.after past).logStep e' r = (stepped.logStep e' r).after past :=
          logStep_after stepped e' r
        exact congrArg (reply fun _ => some r) ((congrArg notify hstepped).trans (hnotify _))
    · rfl

/-- A deed does not depend on the past if telling the listener does not. -/
theorem doThen_after (s : Session) (d : Deed) :
    (s.after past).doThen notify d = (s.doThen notify d).map (after · past) id := by
  have hexecutor : (s.after past).executor = s.executor := rfl
  unfold doThen
  rw [hexecutor]
  cases s.executor with
  | none => rfl
  | some e =>
    cases d with
    | start => exact congrArg (reply fun _ => ()) (startThen_after hnotify s e)
    | pause => exact congrArg (reply fun _ => ()) (pauseThen_after hnotify s e)
    | toggle => exact congrArg (reply fun _ => ()) (toggleThen_after hnotify s e)
    | reset => exact resetThen_after hnotify s e
    | play => exact congrArg (reply fun _ => ()) (playThen_after hnotify s e)

/-- Deeds in order fail at the same deed, or not at all, whatever the past. -/
theorem doAllThen_after (s : Session) (ds : List Deed) :
    (s.after past).doAllThen notify ds = (s.doAllThen notify ds).map (after · past) id := by
  induction ds generalizing s with
  | nil => rfl
  | cons d rest ih =>
    unfold doAllThen
    rw [doThen_after hnotify]
    obtain ⟨s', f | done⟩ := s.doThen notify d
    · rfl
    · exact ih s'

end Told

/-- What the listener is shown does not tell of the journal, so it reacts in the same way. -/
theorem notifyUpTo_after (limit : Nat) (s : Session) :
    notifyUpTo limit (s.after past) = (notifyUpTo limit s).map (after · past) id := by
  induction limit using Nat.strongRecOn generalizing s with
  | ind limit ih =>
    have hexecutor : (s.after past).executor = s.executor := rfl
    have hlistening : (s.after past).listening = s.listening := rfl
    unfold notifyUpTo
    rw [hexecutor, hlistening]
    cases s.executor with
    | none => rfl
    | some e =>
      dsimp only
      split
      · have hview : (s.after past).viewOf e = s.viewOf e := rfl
        rw [hview, record_after]
        generalize s.record (.viewed (s.viewOf e)) = shown
        have hscript : (shown.after past).script = shown.script := rfl
        rw [hscript]
        -- the script is asked only while reactions are left
        cases limit with
        | zero => rfl
        | succ limit =>
          cases shown.script with
          | nil => rfl
          | cons r rest =>
            by_cases hdue : r.due (s.viewOf e) = true
            · simp only [if_pos hdue]
              -- what a reaction does may notify in turn, with one reaction less to spend
              have hless := ih limit (Nat.lt_succ_self limit)
              let crossed : Session := { shown with script := rest }
              have hcrossed : { shown.after past with script := rest } = crossed.after past := rfl
              rw [hcrossed, doAllThen_after hless crossed r.deeds]
              obtain ⟨s', f | done⟩ := crossed.doAllThen (notifyUpTo limit) r.deeds <;> rfl
            · simp only [if_neg hdue]
              rfl
      · rfl

/-- To tell the listener does not depend on the past: its script is all it goes by. -/
theorem notify_after (s : Session) : (s.after past).notify = s.notify.map (after · past) id :=
  notifyUpTo_after s.script.length s

/-! ## Turns -/

/-- No action depends on the past. -/
theorem act_after (s : Session) (d : Deed) : (s.after past).act d = (s.act d).after past := by
  rw [act_eq_doThen, act_eq_doThen]
  exact congrArg Prod.fst (doThen_after notify_after s d)

/-- The end of a tick does not depend on the past. -/
theorem resolve_after (s : Session) (ticket : Ticket) :
    (s.after past).resolve ticket = (s.resolve ticket).map (after · past) id :=
  resolveThen_after notify_after s ticket

/-- To start a run where none executes does not depend on the past. -/
theorem beginRun_after (s : Session) :
    (s.after past).beginRun = s.beginRun.map (after · past) id := by
  have hexec : (s.after past).isExecuting = s.isExecuting := rfl
  have hexecutor : (s.after past).executor = s.executor := rfl
  unfold beginRun start withExecutor
  rw [hexec, hexecutor]
  split
  · rfl
  · cases s.executor with
    | none => rfl
    | some e => exact congrArg (reply fun _ => ()) (startThen_after notify_after s e)

/-- A task goes back into the queue whatever the past. -/
theorem goOn_after (s : Session) (t : Task) : (s.after past).goOn t = (s.goOn t).after past := by
  have hexecutor : (s.after past).executor = s.executor := rfl
  unfold goOn
  rw [hexecutor]
  cases s.executor with
  | none => rfl
  | some e =>
    dsimp only
    split <;> rfl

/-- The turn of a task does not depend on the past. -/
theorem turn_after (s : Session) (t : Task) : (s.after past).turn t = (s.turn t).after past := by
  have hcapture : (s.after past).capture = s.capture := rfl
  unfold turn
  split
  · rfl
  · cases t.stage with
    | fresh =>
      dsimp only
      rw [hcapture]
      cases s.capture with
      | error f => rfl
      | ok ticket =>
        cases t.job with
        | run =>
          dsimp only
          rw [beginRun_after]
          obtain ⟨s', f | begun⟩ := s.beginRun
          · rfl
          · exact goOn_after s' t
        | tick => rfl
    -- a waiting task meets its own ticket first, whatever the past
    | waiting ticket =>
      dsimp only
      rw [resolve_after]
      obtain ⟨s', f | r⟩ := s.resolve ticket
      · rfl
      · cases t.job with
        | run => exact goOn_after s' t
        | tick => rfl

/-- The task at the front of the queue has its turn whatever the past. -/
theorem runNext_after (s : Session) : (s.after past).runNext = s.runNext.after past := by
  have hqueue : (s.after past).queue = s.queue := rfl
  unfold runNext
  rw [hqueue]
  cases s.queue with
  | nil => rfl
  | cons t rest => exact turn_after { s with queue := rest } t

/-- Any number of turns does not depend on the past. -/
theorem runTurns_after (n : Nat) (s : Session) :
    (s.after past).runTurns n = (s.runTurns n).after past := by
  induction n generalizing s with
  | zero => rfl
  | succ n ih => rw [runTurns, runTurns, runNext_after, ih]

/-- A round in which each task has its turn does not depend on the past. -/
theorem pass_after (s : Session) : (s.after past).pass = s.pass.after past :=
  runTurns_after s.queue.length s

/-- Turns until something is the case that does not depend on the journal. -/
theorem runUntil_after {stop : Session → Bool} (hstop : ∀ s : Session, stop (s.after past) = stop s)
    (limit : Nat) (s : Session) :
    runUntil stop limit (s.after past) = (runUntil stop limit s).after past := by
  induction limit generalizing s with
  | zero => rfl
  | succ limit ih =>
    unfold runUntil
    rw [hstop]
    split
    · rfl
    · rw [runNext_after, ih]

/-- Turns until nothing is left to be done do not depend on the past. -/
theorem settle_after (s : Session) : (s.after past).settle = s.settle.after past :=
  runUntil_after (fun _ => rfl) s.budget s

/-- A tick from beginning to end does not depend on the past. -/
theorem tick_after (s : Session) : (s.after past).tick = s.tick.map (after · past) id := by
  have hcapture : (s.after past).capture = s.capture := rfl
  unfold tick
  rw [hcapture]
  cases s.capture with
  | error f => rfl
  | ok ticket =>
    dsimp only
    rw [pass_after, resolve_after]

/-- Ticks as long as something executes do not depend on the past. -/
theorem tickWhileExecuting_after (limit : Nat) (s : Session) :
    (s.after past).tickWhileExecuting limit =
      (s.tickWhileExecuting limit).map (after · past) id := by
  induction limit generalizing s with
  | zero => rfl
  | succ limit ih =>
    have hexec : (s.after past).isExecuting = s.isExecuting := rfl
    unfold tickWhileExecuting
    rw [hexec]
    split
    · rw [tick_after]
      obtain ⟨s', f | _⟩ := s.tick
      · rfl
      · exact ih s'
    · rfl

/-- A run does not depend on the past. -/
theorem run_after (s : Session) (maxTicks : Option Nat) :
    (s.after past).run maxTicks = (s.run maxTicks).map (after · past) id := by
  have hrequire : (s.after past).requireExecutor = s.requireExecutor := rfl
  unfold run
  rw [hrequire]
  cases s.requireExecutor with
  | error f => rfl
  | ok e =>
    dsimp only
    rw [beginRun_after]
    obtain ⟨s₁, f | begun⟩ := s.beginRun
    · rfl
    -- the budget is read off the script, the queue and the traces, not off the journal
    · have hticks : (s₁.after past).tickWhileExecuting (maxTicks.getD (s₁.after past).budget) =
          (s₁.tickWhileExecuting (maxTicks.getD s₁.budget)).map (after · past) id :=
        tickWhileExecuting_after _ s₁
      simp only [Prod.map_apply, id_eq, hticks]
      obtain ⟨s', f | done⟩ := s₁.tickWhileExecuting (maxTicks.getD s₁.budget) <;> rfl

/-- The end of a load does not depend on the past. -/
theorem finishLoad_after (s : Session) (result : Except Failure Maze) :
    (s.after past).finishLoad result = (s.finishLoad result).map (after · past) id := by
  cases result with
  | error f => rfl
  | ok m => exact congrArg (reply fun _ => m) (installThen_after notify_after s m)

/-- A load with all its announcements does not depend on the past. -/
theorem load_after (s : Session) (loading : Loading) :
    (s.after past).load loading = (s.load loading).map (after · past) id := by
  have hwait (lines : List LogEntry) (s : Session) :
      lines.foldl (fun s line => s.settle.record (.logged line)) (s.after past) =
        (lines.foldl (fun s line => s.settle.record (.logged line)) s).after past := by
    induction lines generalizing s with
    | nil => rfl
    | cons line rest ih =>
      rw [List.foldl_cons, List.foldl_cons, settle_after, record_after, ih]
  unfold load
  rw [hwait]
  exact finishLoad_after _ loading.result

/-! ## Operations -/

/-- The waking of a task does not depend on the past. -/
theorem wake_after (s : Session) (k : Nat) : (s.after past).wake k = (s.wake k).after past := by
  have hqueue : (s.after past).queue = s.queue := rfl
  unfold wake
  rw [hqueue]
  cases s.queue[k]? with
  | none => rfl
  | some t => exact turn_after { s with queue := s.queue.eraseIdx k } t

/-- No operation depends on the past. -/
theorem perform_after (s : Session) (op : Operation) :
    (s.after past).perform op = (s.perform op).after past := by
  cases op with
  | load loading => exact congrArg Prod.fst (load_after s loading)
  | deed d => exact act_after s d
  | detect c => exact congrArg Prod.fst (detectThen_after notify_after s c)
  | edit e => rfl
  | tick => exact congrArg Prod.fst (tick_after s)
  | run maxTicks => exact congrArg Prod.fst (run_after s maxTicks)
  | beginTick => rfl
  | wake k => exact wake_after s k
  | clock now => rfl

end Session

end MazeRobot
