import MazeRobot.Proofs.Executor.Walk
import MazeRobot.Proofs.Session.Interleaving
import MazeRobot.Proofs.Session.Journal

/-!
# Runs in the foreground

`Session.run` starts a run if need be and then ticks for as long as it executes.  With nobody
else acting on the session (`Session.Alone`) every tick takes the step that is due
(`tick_of_steps`), so the ticks follow the walk of the executor to its end
(`tickWhileExecuting_of_walks`).  A limit cuts the walk short, and what is left of it is left
to a later call (`tickWhileExecuting_add`).
-/

namespace MazeRobot

namespace Session

/-- Nobody else acts on the session: every task is cancelled, and the listener only listens. -/
structure Alone (s : Session) : Prop where
  queue : ∀ t ∈ s.queue, t.cancelled = true
  script : s.script = []

/-- Ticks in a row, and what each of them answers. -/
def tickTimes : (n : Nat) → Session → Session × List (Except Failure (Option StepResult))
  | 0, s => (s, [])
  | n + 1, s => ((tickTimes n s.tick.1).1, s.tick.2 :: (tickTimes n s.tick.1).2)

variable {s s' : Session} {e e' : Executor} {r : StepResult} {rs : List StepResult}

/-! ## One tick -/

/-- A session that only writes stays alone. -/
theorem Alone.of_wrote {vs : List View} (h : s.Alone) (hs : s.Wrote vs s') : s'.Alone := by
  obtain ⟨events, -, rfl⟩ := hs
  exact ⟨h.queue, h.script⟩

/-- A turn is all that a cancelled task needs to end. -/
theorem runNext_of_cancelled {t : Task} {rest : List Task} (hqueue : s.queue = t :: rest)
    (ht : t.cancelled = true) : s.runNext = { s with queue := rest }.finish t .cancelled := by
  unfold runNext
  rw [hqueue]
  exact if_pos ht

/-- Cancelled tasks end in one pass, and nothing else happens. -/
theorem runTurns_of_cancelled {queue : List Task} (hqueue : s.queue = queue)
    (hcancelled : ∀ t ∈ queue, t.cancelled = true) :
    ∃ ended, s.runTurns queue.length = { s with queue := [], ended } := by
  induction queue generalizing s with
  | nil =>
    refine ⟨s.ended, ?_⟩
    show s = _
    rw [← hqueue]
  | cons t rest ih =>
    obtain ⟨ht, hrest⟩ := List.forall_mem_cons.mp hcancelled
    show ∃ ended, s.runNext.runTurns rest.length = _
    rw [runNext_of_cancelled hqueue ht]
    exact ih rfl hrest

/-- A tick with nobody else around takes the step that is due. -/
theorem tick_of_steps (halone : s.Alone) (hs : s.executor = some e) (hstep : e.Steps e' r) :
    s.tick.2 = .ok (some r) ∧ s.tick.1.executor = some e' ∧ s.tick.1.Alone := by
  have hcapture : s.capture = .ok ⟨s.loads, e.generation⟩ := by
    unfold capture requireExecutor
    rw [hs]
    rfl
  obtain ⟨ended, hpass⟩ := runTurns_of_cancelled rfl halone.queue
  have hpass : s.pass = { s with queue := [], ended } := hpass
  have hcurrent : e.step (some (e.generation : Int)) = .ok (e', some r) :=
    Executor.step_eq_some_iff.mpr ⟨fun g hg => (Option.mem_some_iff.mp hg).symm, hstep⟩
  -- the session behind the wait, with the step taken and nobody told yet
  let waited : Session := { s with queue := [], ended, executor := some e' }
  have htick : s.tick = reply (fun _ => some r) (waited.logStep e' r).notify := by
    unfold tick
    simp only [hcapture, hpass]
    unfold resolve resolveThen
    simp only [hs, if_true, hcurrent]
    rfl
  have hlogged := wrote_logStep waited e' r
  have hwaited : waited.Alone := ⟨nofun, halone.script⟩
  obtain ⟨⟨shown, hshown⟩, hdone⟩ := wrote_notify (hwaited.of_wrote hlogged).script
  have hwrote := hlogged.trans hshown
  rw [htick]
  refine ⟨?_, ?_, hwaited.of_wrote hwrote⟩
  · show Except.map _ (waited.logStep e' r).notify.2 = _
    rw [hdone]
    rfl
  · obtain ⟨events, -, hevents⟩ := hwrote
    show (waited.logStep e' r).notify.1.executor = some e'
    rw [hevents]

/-! ## Ticks in a row -/

/-- The session executes if its run does. -/
theorem isExecuting_of_executor (hs : s.executor = some e) : s.isExecuting = e.isExecuting := by
  unfold isExecuting
  rw [hs]
  rfl

/-- Ticks follow the walk of the executor. -/
theorem tickTimes_of_walks (halone : s.Alone) (hs : s.executor = some e)
    (hwalk : e.Walks rs e') :
    ∃ s', s.tickTimes rs.length = (s', rs.map fun r => .ok (some r)) ∧
      s'.executor = some e' ∧ s'.Alone := by
  induction hwalk generalizing s with
  | stays e => exact ⟨s, rfl, hs, halone⟩
  | goes first rest ih =>
    obtain ⟨hanswer, hexec, hrest⟩ := tick_of_steps halone hs first
    obtain ⟨s', hticks, hlast⟩ := ih hrest hexec
    refine ⟨s', ?_, hlast⟩
    rw [List.length_cons, tickTimes, hticks, hanswer]
    rfl

/-- Where nothing executes there is nothing to tick for. -/
theorem tickWhileExecuting_of_not_executing (hs : ¬ s.isExecuting = true) (n : Nat) :
    s.tickWhileExecuting n = (s, .ok ()) := by
  cases n with
  | zero => rfl
  | succ n =>
    unfold tickWhileExecuting
    rw [if_neg hs]

/-- The loop ticks until the walk is over or the limit is reached. -/
theorem tickWhileExecuting_of_walks (halone : s.Alone) (hs : s.executor = some e)
    (hwalk : e.Walks rs e') (hended : e'.Ended) (n : Nat) :
    s.tickWhileExecuting n = ((s.tickTimes (min n rs.length)).1, .ok ()) := by
  induction hwalk generalizing s n with
  | stays e =>
    have hidle : ¬ s.isExecuting = true := by
      rw [isExecuting_of_executor hs, hended.idle]
      exact Bool.false_ne_true
    rw [tickWhileExecuting_of_not_executing hidle, List.length_nil, Nat.min_zero]
    rfl
  | goes first rest ih =>
    cases n with
    | zero =>
      rw [Nat.zero_min]
      rfl
    | succ n =>
      obtain ⟨hanswer, hexec, hrest⟩ := tick_of_steps halone hs first
      have hexecuting : s.isExecuting = true := by
        rw [isExecuting_of_executor hs, first.isExecuting]
      have htick : s.tick = (s.tick.1, .ok (some _)) := Prod.ext rfl hanswer
      rw [tickWhileExecuting, if_pos hexecuting, htick, List.length_cons, Nat.succ_min_succ,
        tickTimes]
      exact ih hrest hexec hended n

/-- What is left by one limit is taken up under the next. -/
theorem tickWhileExecuting_add {n m : Nat} (h : s.tickWhileExecuting n = (s', .ok ())) :
    s.tickWhileExecuting (n + m) = s'.tickWhileExecuting m := by
  induction n generalizing s with
  | zero =>
    obtain rfl := (Prod.mk.inj h).1
    rw [Nat.zero_add]
  | succ n ih =>
    by_cases hexec : s.isExecuting = true
    · rw [Nat.succ_add, tickWhileExecuting, if_pos hexec]
      rw [tickWhileExecuting, if_pos hexec] at h
      split at h
      · exact nomatch (Prod.mk.inj h).2
      · exact ih h
    · rw [tickWhileExecuting_of_not_executing hexec] at h ⊢
      obtain rfl := (Prod.mk.inj h).1
      rw [tickWhileExecuting_of_not_executing hexec]

/-! ## A complete run -/

/-- A start that nobody reacts to. -/
theorem start_of_alone (halone : s.Alone) (hs : s.executor = some e)
    (hidle : e.isExecuting = false) :
    s.start.2 = .ok true ∧ s.start.1.executor = some (e.rewind (.running 0 false)) ∧
      s.start.1.Alone := by
  have hnot : ¬ e.isExecuting = true := by
    rw [hidle]
    exact Bool.false_ne_true
  let begun : Session := { s with executor := some (e.rewind (.running 0 false)) }
  have hbegun : begun.Alone := ⟨halone.queue, halone.script⟩
  have hlogged := wrote_log begun .info s!"Run started: {e.trace.length} steps" 0
  obtain ⟨⟨shown, hshown⟩, hdone⟩ := wrote_notify (hbegun.of_wrote hlogged).script
  have hwrote := hlogged.trans hshown
  have hstart : s.start = reply (fun _ => true)
      (begun.log .info s!"Run started: {e.trace.length} steps").notify := by
    unfold start withExecutor startThen
    simp only [hs, Executor.start_of_not_executing hnot]
    rfl
  rw [hstart]
  refine ⟨?_, ?_, hbegun.of_wrote hwrote⟩
  · show Except.map _ (begun.log .info s!"Run started: {e.trace.length} steps").notify.2 = _
    rw [hdone]
    rfl
  · obtain ⟨events, -, hevents⟩ := hwrote
    rw [reply_fst, hevents]

/-- A run that begins with nobody else acting on the session does begin. -/
theorem beginRun_of_alone (halone : s.Alone) (hs : s.executor = some e)
    (hidle : e.isExecuting = false) :
    s.beginRun = (s.ensureStarted, .ok ()) ∧
      s.ensureStarted.executor = some (e.rewind (.running 0 false)) ∧ s.ensureStarted.Alone := by
  have hbegin : s.beginRun = reply (fun _ => ()) s.start := by
    unfold beginRun
    rw [isExecuting_of_executor hs, hidle]
    rfl
  obtain ⟨hanswer, hstarted⟩ := start_of_alone halone hs hidle
  have hbegun : s.ensureStarted = s.start.1 := congrArg Prod.fst hbegin
  rw [hbegun]
  refine ⟨?_, hstarted⟩
  rw [hbegin]
  show (s.start.1, Except.map _ s.start.2) = _
  rw [hanswer]
  rfl

/-- A run that is executing goes on as it is. -/
theorem beginRun_of_executing (hs : s.isExecuting = true) : s.beginRun = (s, .ok ()) :=
  if_pos hs

/-- A run that is executing is not started anew. -/
theorem ensureStarted_of_executing (hs : s.isExecuting = true) : s.ensureStarted = s :=
  congrArg Prod.fst (beginRun_of_executing hs)

/-- A run that executes goes on, any other is begun anew; then there are ticks. -/
theorem run_of_loop (hs : s.executor = some e) (maxTicks : Option Nat)
    (hbegun : s.beginRun = (s.ensureStarted, .ok ()))
    (hloop : s.ensureStarted.tickWhileExecuting (maxTicks.getD s.ensureStarted.budget) =
      (s', .ok ())) : s.run maxTicks = (s', s'.snapshot) := by
  unfold run requireExecutor
  simp only [hs, hbegun, hloop]

/-- What is seen of a session with a run is that run. -/
theorem snapshot_of_executor (hs : s.executor = some e) : s.snapshot = .ok e.snapshot := by
  unfold snapshot requireExecutor
  rw [hs]
  rfl

/-- There are always more turns in the budget than entries in the trace. -/
theorem length_lt_budget (hs : s.executor = some e) : e.trace.length < s.budget := by
  have hentries : e.trace.length ≤
      max s.ingestion.program.trace.length (s.executor.elim 0 fun e => e.trace.length) := by
    rw [hs]
    exact Nat.le_max_right _ _
  unfold budget
  dsimp only
  generalize max s.ingestion.program.trace.length _ = entries at hentries ⊢
  generalize (s.script.flatMap Reaction.deeds).length = deeds
  -- one task and one start would do
  have hstart : entries + 2 ≤ (s.queue.length + 2 * deeds + 1) * (entries + 2) :=
    Nat.le_mul_of_pos_left _ (Nat.succ_pos _)
  generalize (s.queue.length + 2 * deeds + 1) * (entries + 2) = starts at hstart ⊢
  have htask : starts + 2 ≤ (s.queue.length + deeds + 1) * (starts + 2) :=
    Nat.le_mul_of_pos_left _ (Nat.succ_pos _)
  omega

/-- A limit leaves the front of the walk, and another call takes up the rest. -/
theorem run_some_of_walks {e₀ : Executor} (hs : s.executor = some e)
    (hbegins : s.beginRun = (s.ensureStarted, .ok ())) (halone : s.ensureStarted.Alone)
    (hbegun : s.ensureStarted.executor = some e₀)
    (hwalk : e₀.Walks rs e') (hended : e'.Ended) (n : Nat) :
    ∃ (part : Session) (e₁ : Executor),
      s.run (some n) = (part, .ok e₁.snapshot) ∧ part.executor = some e₁ ∧
      s.ensureStarted.tickTimes (min n rs.length) =
        (part, (rs.take n).map fun r => .ok (some r)) ∧
      e₁.generation = e₀.generation ∧ (e₁.isExecuting = true ↔ n < rs.length) ∧
      (e₁.isExecuting = true → ∀ m, part.run (some m) = s.run (some (n + m))) := by
  rw [← List.take_append_drop n rs] at hwalk
  obtain ⟨e₁, hfront, hback⟩ := hwalk.split
  obtain ⟨part, hpart, hexec, hrest⟩ := tickTimes_of_walks halone hbegun hfront
  rw [List.length_take] at hpart
  have hloop : s.ensureStarted.tickWhileExecuting n = (part, .ok ()) := by
    rw [List.take_append_drop] at hwalk
    rw [tickWhileExecuting_of_walks halone hbegun hwalk hended, hpart]
  refine ⟨part, e₁, ?_, hexec, hpart, hfront.generation_eq, ⟨fun h => ?_, fun h => ?_⟩,
    fun h m => ?_⟩
  · rw [run_of_loop hs (some n) hbegins hloop, ← snapshot_of_executor hexec]
  · refine Nat.lt_of_not_le fun hge => ?_
    -- the whole walk fits into the limit
    rw [List.drop_eq_nil_of_le hge] at hback
    cases hback
    rw [hended.idle] at h
    exact nomatch h
  · refine hback.isExecuting fun hnil => ?_
    have hle := List.drop_eq_nil_iff.mp hnil
    omega
  · -- the second call finds the run executing and does not start it
    have hexecuting := (isExecuting_of_executor hexec).trans h
    have hgoes : part.ensureStarted = part := ensureStarted_of_executing hexecuting
    have hpartBegun : part.beginRun = (part.ensureStarted, .ok ()) := by
      rw [hgoes, beginRun_of_executing hexecuting]
    have hfurther := tickWhileExecuting_of_walks hrest hexec hback hended m
    rw [run_of_loop hs (some (n + m)) hbegins ((tickWhileExecuting_add hloop).trans hfurther)]
    refine run_of_loop hexec (some m) hpartBegun ?_
    rw [hgoes]
    exact hfurther

/-- A run in the foreground, begun while nothing is executing and with nobody else acting on
the session, ends by itself: after at least one tick and at most as many as the trace has
entries (one for an empty trace) it is a success without a reason or a failure with one.  Each
tick takes a step, and the steps report the entries of the trace in order.  A limit of `n`
leaves just the first `n` of these ticks, without a second start; if the run is executing
then, another call goes on to where a single call with both limits together would have got. -/
theorem run_completes (s : Session) (hsound : s.Sound) (halone : s.Alone) (e : Executor)
    (hs : s.executor = some e) (hidle : e.isExecuting = false) :
    ∃ (results : List StepResult) (last : Session) (e' : Executor),
      (1 ≤ results.length ∧ results.length ≤ max 1 e.trace.length) ∧
      s.run = (last, .ok e'.snapshot) ∧ last.executor = some e' ∧ e'.isExecuting = false ∧
      ((e'.snapshot.status = .success ∧ e'.snapshot.reason = none) ∨
        (e'.snapshot.status = .failed ∧ e'.snapshot.reason.isSome = true)) ∧
      s.ensureStarted.tickTimes results.length =
        (last, results.map fun r => .ok (some r)) ∧
      (∀ i (h : i < results.length),
        results[i].index = i ∧ results[i].command = e.trace[i]?) ∧
      ∀ n, ∃ (part : Session) (e₁ : Executor),
        s.run (some n) = (part, .ok e₁.snapshot) ∧ part.executor = some e₁ ∧
        s.ensureStarted.tickTimes (min n results.length) =
          (part, (results.take n).map fun r => .ok (some r)) ∧
        e₁.generation = e.generation + 1 ∧ (e₁.isExecuting = true ↔ n < results.length) ∧
        (e₁.isExecuting = true → ∀ m, part.run (some m) = s.run (some (n + m))) := by
  obtain ⟨hbegins, hbegun, hrest⟩ := beginRun_of_alone halone hs hidle
  have hfirst := (hsound.executor e hs).rewind (.running 0 false)
  obtain ⟨rs, e', hwalk, hended, hreports, hpos, hlength⟩ :=
    Executor.exists_walks (e := e.rewind (.running 0 false)) rfl hfirst.linear hfirst.square
  rw [Nat.zero_add, Nat.zero_add] at hlength
  obtain ⟨last, hticks, hlast, -⟩ := tickTimes_of_walks hrest hbegun hwalk
  refine ⟨rs, last, e', ⟨hpos, hlength⟩, ?_, hlast, hended.idle, hended.told, hticks,
    fun i hi => ?_, run_some_of_walks hs hbegins hrest hbegun hwalk hended⟩
  · -- the budget does not run out before the walk does
    have hbudget := length_lt_budget hbegun
    change e.trace.length < _ at hbudget
    change rs.length ≤ max 1 e.trace.length at hlength
    have hmin : min s.ensureStarted.budget rs.length = rs.length :=
      Nat.min_eq_right (by omega)
    have hloop := tickWhileExecuting_of_walks hrest hbegun hwalk hended s.ensureStarted.budget
    rw [hmin, hticks] at hloop
    rw [run_of_loop hs none hbegins hloop, snapshot_of_executor hlast]
  · have hreport := hreports i hi
    rwa [Nat.zero_add] at hreport

/-- A run in the background was paused, and its task is still in the queue: the run in the
foreground begins anew and reaches the goal with the fourth of five entries.  Stopped after
two ticks it goes on under a limit of three. -/
theorem run_completes_trench :
    let program : Program :=
      .ofCommands [.loop (some 2) [.basic .ifHole, .basic .forward], .basic .turnLeft]
    let made : Session := { ingestion := { program } }
    let s := (({ session := made } : Scene).playAll
      [.load (.ok ⟨.trench, Maze.trench_wellFormed⟩), .deed .play, .deed .pause]).session
    let e := (Executor.create .trench program.trace (some Maze.trench.startPose)).start.1.pause.1
    s.Sound ∧ s.Alone ∧ s.queue ≠ [] ∧ s.executor = some e ∧ e.isExecuting = false ∧
      e.snapshot.paused = true ∧
      ∃ (results : List StepResult) (last : Session) (e' : Executor),
        (1 ≤ results.length ∧ results.length ≤ 5) ∧ s.run = (last, .ok e'.snapshot) ∧
        e'.snapshot.status = .success ∧ e'.snapshot.reason = none ∧
        s.ensureStarted.tickTimes results.length =
          (last, results.map fun r => .ok (some r)) ∧
        (∀ i (h : i < results.length),
          results[i].index = i ∧ results[i].command = e.trace[i]?) ∧
        ∃ (part : Session) (e₁ : Executor), s.run (some 2) = (part, .ok e₁.snapshot) ∧
          part.run (some 3) = s.run (some 5) := by
  intro program made s e
  have hfresh : made.Fresh := ⟨rfl, Program.synced_ofCommands _ _⟩
  have hsound : s.Sound := (Scene.leads_playAll _ { session := made }).sound hfresh.sound
  have halone : s.Alone := ⟨by decide +kernel, rfl⟩
  have hs : s.executor = some e := by decide +kernel
  obtain ⟨results, last, e', hcount, hrun, hlast, -, htold, hticks, hreports, hparts⟩ :=
    run_completes s hsound halone e hs rfl
  -- the run is computed once; the theorem says the rest of it
  have hsuccess : s.run.1.executor.map Executor.status = some .success := by decide +kernel
  have hhalf : (s.run (some 2)).1.isExecuting = true := by decide +kernel
  rw [hrun, hlast] at hsuccess
  have hstatus : e'.snapshot.status = .success := Option.some.inj hsuccess
  rw [hstatus] at htold
  obtain ⟨part, e₁, hpart, hexec, -, -, -, hgoes⟩ := hparts 2
  rw [hpart, isExecuting_of_executor hexec] at hhalf
  refine ⟨hsound, halone, by decide +kernel, hs, rfl, rfl, results, last, e', hcount, hrun,
    hstatus, ?_, hticks, hreports, part, e₁, hpart, hgoes hhalf 3⟩
  exact htold.elim And.right fun h => nomatch h.1

end Session

end MazeRobot
