import MazeRobot.Proofs.Executor.Calls
import MazeRobot.Proofs.Ingestion
import MazeRobot.Session.Basic

/-!
# What takes effect on a run

A `Transition` is whatever makes the ticks under way obsolete: a start, a pause or a reset
that took effect, or a maze that was loaded.  The functions below tell, for each action of a
session, which transitions it brings about.  They go by what `Executor.start` and
`Executor.pause` answer, and they count what a listener does in reaction, at any depth.

`Session.Leads s ts s'` says what a session keeps track of while the transitions `ts` take
effect: loads are counted, and between loads the generation rises by one with every
transition.  It composes, so each action needs one lemma; reactions of the listener are by
induction on how many of them are left (`leads_notifyUpTo`).  A listener that fails makes no
difference to what has taken effect before.
-/

namespace MazeRobot

/-- What takes effect on the run of a session. -/
inductive Transition where
  | started
  | paused
  | reset
  | loaded
  deriving DecidableEq, Repr

/-- In these executors no step is refused. -/
structure Executor.Sound (e : Executor) : Prop where
  maze : e.maze.WellFormed
  square : e.world.overlay.Square
  linear : Command.Linear e.trace

namespace Executor

variable {e e' : Executor}

/-- A new run on a well-formed maze is sound. -/
theorem sound_create {m : Maze} (hm : m.WellFormed) {trace : Trace}
    (ht : Command.Linear trace) (initial : Option Pose) : (create m trace initial).Sound :=
  ⟨hm, hm.square, ht⟩

/-- A sound run is sound when it goes back to its beginning. -/
theorem Sound.rewind (h : e.Sound) (phase : Phase) : (e.rewind phase).Sound :=
  ⟨h.maze, h.maze.square, h.linear⟩

/-- A sound run is sound on another trace without loops. -/
theorem Sound.setTrace (h : e.Sound) {trace : Trace} (ht : Command.Linear trace) :
    (e.setTrace trace).Sound :=
  ⟨h.maze, h.square, ht⟩

/-- A sound run is sound after a step. -/
theorem Sound.step {r : StepResult} (h : e.Sound) (hs : e.Steps e' r) : e'.Sound := by
  cases hs with
  | exhausted due past => exact ⟨h.maze, h.square, h.linear⟩
  | acts due entry effect =>
    have hdoes := World.does_of_perform h.square effect
    exact ⟨h.maze, hdoes.square h.square, h.linear⟩

end Executor

namespace Session

/-! ## Telling the transitions -/

/-- Nobody is told. -/
def untold (s : Session) : Session × Except Failure Unit := (s, .ok ())

section Told

-- the transitions of the reactions to what is shown
variable (reactions : Session → List Transition)

/-- A start that is refused is no transition. -/
def startTransitions (s : Session) (e : Executor) : List Transition :=
  if e.start.2 then .started :: reactions (s.startThen untold e).1 else []

/-- A pause that is refused is no transition. -/
def pauseTransitions (s : Session) (e : Executor) : List Transition :=
  if e.pause.2 then .paused :: reactions (s.pauseThen untold e).1 else []

/-- A reset always is a transition. -/
def resetTransitions (s : Session) (e : Executor) : List Transition :=
  .reset :: reactions (s.resetThen untold e).1

/-- So is the installation of a maze. -/
def installTransitions (s : Session) (m : Maze) : List Transition :=
  .loaded :: reactions (s.installThen untold m).1

/-- A detection is no transition itself. -/
def detectTransitions (s : Session) (c : Command) : List Transition :=
  match s.detectThen untold c with
  | (shown, .ok true) => reactions shown
  | _ => []

/-- A step is no transition itself. -/
def resolveTransitions (s : Session) (ticket : Ticket) : List Transition :=
  match s.resolveThen untold ticket with
  | (shown, .ok (some _)) => reactions shown
  | _ => []

/-- The transitions of a deed.  To play is to start, if nothing is executing. -/
def deedTransitions (s : Session) (deed : Deed) : List Transition :=
  match s.executor with
  | none => []
  | some e =>
    match deed with
    | .start => startTransitions reactions s e
    | .pause => pauseTransitions reactions s e
    | .toggle =>
      if e.isExecuting then pauseTransitions reactions s e else startTransitions reactions s e
    | .reset => resetTransitions reactions s e
    | .play => startTransitions reactions s.cancelBackground e

/-- The transitions of deeds in order, up to the first one that fails. -/
def deedsTransitions (notify : Session → Session × Except Failure Unit) :
    (deeds : List Deed) → Session → List Transition
  | [], _ => []
  | d :: rest, s =>
    deedTransitions reactions s d ++
      match s.doThen notify d with
      | (_, .error _) => []
      | (s, .ok _) => deedsTransitions notify rest s

end Told

/-- The transitions that the listener brings about when it is shown the present state. -/
def reactionsUpTo (limit : Nat) (s : Session) : List Transition :=
  match s.executor with
  | none => []
  | some e =>
    if s.listening then
      let v := s.viewOf e
      let s := s.record (.viewed v)
      match limit, s.script with
      | limit + 1, r :: rest =>
        if r.due v then
          deedsTransitions (reactionsUpTo limit) (notifyUpTo limit) r.deeds
            { s with script := rest }
        else []
      | _, _ => []
    else []

/-- The transitions that telling the listener brings about. -/
def reactions (s : Session) : List Transition := reactionsUpTo s.script.length s

/-! ## What transitions lead to -/

/-- In these sessions no tick is refused. -/
structure Sound (s : Session) : Prop where
  synced : s.ingestion.program.Synced
  executor : ∀ e ∈ s.executor, e.Sound

/-- The run goes by the program and by the maze that was loaded, and everybody hears of
edits. -/
structure InStep (s : Session) : Prop where
  quiet : s.ingestion.program.Quiet
  synced : s.ingestion.program.Synced
  trace : ∀ e ∈ s.executor, e.trace = s.ingestion.program.trace
  maze : s.maze? = s.executor.map Executor.maze

/-- What is known of a session once the given transitions have taken effect. -/
structure Leads (s : Session) (ts : List Transition) (s' : Session) : Prop where
  loads : s'.loads = s.loads + ts.count .loaded
  generation : .loaded ∉ ts →
    s'.executor.map Executor.generation = s.executor.map fun e => e.generation + ts.length
  present : s.executor.isSome = true ∨ .loaded ∈ ts → s'.executor.isSome = true
  sound : s.Sound → s'.Sound
  inStep : s.InStep → s'.InStep
  journal : s.journal.length ≤ s'.journal.length

variable {s s' s'' : Session} {ts us : List Transition} {e e' : Executor}

theorem Leads.trans (h : s.Leads ts s') (h' : s'.Leads us s'') : s.Leads (ts ++ us) s'' where
  loads := by
    rw [h'.loads, h.loads, List.count_append, Nat.add_assoc]
  generation hload := by
    rw [List.mem_append, not_or] at hload
    -- no load on either way, so the generations add up
    have hfirst := h.generation hload.1
    have hsecond := h'.generation hload.2
    cases hs : s.executor with
    | none =>
      rw [hs, Option.map_none, Option.map_eq_none_iff] at hfirst
      rw [hsecond, hfirst]
      rfl
    | some e =>
      rw [hs, Option.map_some, Option.map_eq_some_iff] at hfirst
      obtain ⟨e', he', hgen⟩ := hfirst
      rw [hsecond, he', Option.map_some, Option.map_some, hgen, List.length_append, Nat.add_assoc]
  present hs := by
    rw [List.mem_append, ← or_assoc] at hs
    exact h'.present (hs.imp_left h.present)
  sound hs := h'.sound (h.sound hs)
  inStep hs := h'.inStep (h.inStep hs)
  journal := Nat.le_trans h.journal h'.journal

/-- Nothing but loads, maze, executor, program and journal matters. -/
theorem leads_of_eq (loads : s'.loads = s.loads) (executor : s'.executor = s.executor)
    (ingestion : s'.ingestion = s.ingestion) (journal : s.journal.length ≤ s'.journal.length)
    (maze : s'.maze? = s.maze? := by rfl) : s.Leads [] s' where
  loads := by rw [loads]; rfl
  generation _ := by rw [executor]; rfl
  present hs := by
    rw [executor]
    exact hs.resolve_right List.not_mem_nil
  sound hs := ⟨ingestion ▸ hs.synced, executor ▸ hs.executor⟩
  inStep hs := by
    obtain ⟨hquiet, hsynced, htrace, hmaze⟩ := hs
    rw [← ingestion] at hquiet hsynced htrace
    rw [← executor] at htrace hmaze
    exact ⟨hquiet, hsynced, htrace, maze.trans hmaze⟩
  journal := journal

theorem Leads.refl (s : Session) : s.Leads [] s := leads_of_eq rfl rfl rfl (Nat.le_refl _)

/-- What happens to a session around a transition is silent. -/
theorem Leads.before (h : s.Leads [] s') (h' : s'.Leads ts s'') : s.Leads ts s'' := h.trans h'

/-- What makes no transition may follow. -/
theorem Leads.after (h : s.Leads ts s') (h' : s'.Leads [] s'') : s.Leads ts s'' := by
  have := h.trans h'
  rwa [List.append_nil] at this

/-- An event that is recorded makes no transition. -/
theorem leads_record (s : Session) (event : Event) : s.Leads [] (s.record event) := by
  refine leads_of_eq rfl rfl rfl ?_
  show s.journal.length ≤ (s.journal ++ [event]).length
  rw [List.length_append]
  omega

/-- A log line makes no transition. -/
theorem leads_log (s : Session) (kind : LogKind) (text : String) (indent : Nat) :
    s.Leads [] (s.log kind text indent) := by
  unfold log
  split
  · exact leads_record s _
  · exact .refl s

/-- Cancelling the background run leaves the run itself as it is. -/
theorem executor_cancelBackground (s : Session) : s.cancelBackground.executor = s.executor := by
  unfold cancelBackground
  split <;> rfl

/-- Cancelling the background run leaves the script of the listener. -/
theorem script_cancelBackground (s : Session) : s.cancelBackground.script = s.script := by
  unfold cancelBackground
  split <;> rfl

/-- Cancelling the background run makes no transition. -/
theorem leads_cancelBackground (s : Session) : s.Leads [] s.cancelBackground := by
  unfold cancelBackground
  split
  · exact .refl s
  · exact leads_of_eq rfl rfl rfl (Nat.le_refl _)

/-- The run is taken over by an executor that is as many generations further, on the same
trace and the same maze. -/
theorem leads_executor (hs : s.executor = some e) (hload : .loaded ∉ ts)
    (hgen : e'.generation = e.generation + ts.length) (htrace : e'.trace = e.trace)
    (hmaze : e'.maze = e.maze) (hsound : e.Sound → e'.Sound) :
    s.Leads ts { s with executor := some e' } where
  loads := by rw [List.count_eq_zero.mpr hload]; rfl
  generation _ := by rw [hs, Option.map_some, Option.map_some, hgen]
  present _ := rfl
  sound h := by
    refine ⟨h.synced, fun e₁ he₁ => ?_⟩
    obtain rfl := Option.mem_some_iff.mp he₁
    exact hsound (h.executor e hs)
  inStep h := by
    refine ⟨h.quiet, h.synced, fun e₁ he₁ => ?_, ?_⟩
    · obtain rfl := Option.mem_some_iff.mp he₁
      exact htrace.trans (h.trace e hs)
    · rw [Option.map_some, hmaze, h.maze, hs, Option.map_some]
  journal := Nat.le_refl _

/-! ## Actions -/

@[simp] theorem reply_fst {α β : Type} (f : α → β) (acted : Session × Except Failure α) :
    (reply f acted).1 = acted.1 := rfl

/-- These are the transitions of what happens when the listener is told, whether it fails or
not. -/
def Told (notify : Session → Session × Except Failure Unit)
    (reactions : Session → List Transition) : Prop :=
  ∀ s : Session, s.Leads (reactions s) (notify s).1

section Actions

-- how the listener is told, and the transitions of its reactions
variable {notify : Session → Session × Except Failure Unit}
  {reactions : Session → List Transition}

/-- What a start leads to, with what the listener does about it. -/
theorem leads_startThen (htold : Told notify reactions) (hs : s.executor = some e) :
    s.Leads (startTransitions reactions s e) (s.startThen notify e).1 := by
  unfold startTransitions startThen
  by_cases hexec : e.isExecuting = true
  · -- the start is refused, and nobody is told
    rw [Executor.start_of_executing hexec]
    exact .refl s
  · rw [Executor.start_of_not_executing hexec]
    have hstart : s.Leads [.started] { s with executor := some (e.rewind (.running 0 false)) } :=
      leads_executor hs (by decide) rfl rfl rfl fun h => h.rewind _
    exact (hstart.after (leads_log _ _ _ _)).trans (htold _)

/-- What a pause leads to. -/
theorem leads_pauseThen (htold : Told notify reactions) (hs : s.executor = some e) :
    s.Leads (pauseTransitions reactions s e) (s.pauseThen notify e).1 := by
  unfold pauseTransitions pauseThen
  by_cases hexec : e.isExecuting = true
  · obtain ⟨cursor, due⟩ := Executor.isExecuting_iff.mp hexec
    rw [Executor.pause_of_running due]
    let paused : Executor :=
      { e with phase := .running cursor true, generation := e.generation + 1 }
    have hpause : s.Leads [.paused] { s with executor := some paused } :=
      leads_executor hs (by decide) rfl rfl rfl fun h => ⟨h.maze, h.square, h.linear⟩
    exact ((hpause.after (leads_cancelBackground _)).after (leads_log _ _ _ _)).trans (htold _)
  · -- the background run is cancelled even so
    rw [Executor.pause_of_not_executing hexec]
    exact leads_cancelBackground s

/-- What a reset leads to. -/
theorem leads_resetThen (htold : Told notify reactions) (hs : s.executor = some e) :
    s.Leads (resetTransitions reactions s e) (s.resetThen notify e).1 := by
  have hreset : s.Leads [.reset] { s with executor := some e.reset } :=
    leads_executor hs (by decide) rfl rfl rfl fun h => h.rewind _
  exact ((hreset.after (leads_cancelBackground _)).after (leads_log _ _ _ _)).trans (htold _)

/-- A background run begins as a start does. -/
theorem leads_playThen (htold : Told notify reactions) (hs : s.executor = some e) :
    s.Leads (startTransitions reactions s.cancelBackground e) (s.playThen notify e).1 := by
  have hcancel := s.executor_cancelBackground.trans hs
  have hstart := (leads_cancelBackground s).before (leads_startThen htold hcancel)
  unfold playThen
  generalize s.cancelBackground.startThen notify e = answer at hstart ⊢
  obtain ⟨s', f | started⟩ := answer
  · exact hstart
  · -- the task of the background run is silent until it has its turn
    exact hstart.after (leads_of_eq rfl rfl rfl (Nat.le_refl _))

/-- What a deed leads to. -/
theorem leads_doThen (htold : Told notify reactions) (s : Session) (d : Deed) :
    s.Leads (deedTransitions reactions s d) (s.doThen notify d).1 := by
  unfold deedTransitions doThen
  cases hs : s.executor with
  | none => exact .refl s
  | some e =>
    cases d with
    | start => exact leads_startThen htold hs
    | pause => exact leads_pauseThen htold hs
    | toggle =>
      -- one branch of `toggleThen` for each branch of `deedTransitions`
      simp only [toggleThen]
      split
      · exact leads_pauseThen htold hs
      · exact leads_startThen htold hs
    | reset => exact leads_resetThen htold hs
    | play => exact leads_playThen htold hs

/-- The deeds up to the first one that fails. -/
theorem leads_doAllThen (htold : Told notify reactions) (ds : List Deed) (s : Session) :
    s.Leads (deedsTransitions reactions notify ds s) (s.doAllThen notify ds).1 := by
  induction ds generalizing s with
  | nil => exact .refl s
  | cons d ds ih =>
    have hfirst := leads_doThen htold s d
    unfold deedsTransitions doAllThen
    generalize s.doThen notify d = answer at hfirst ⊢
    obtain ⟨s', f | done⟩ := answer
    · exact hfirst.trans (.refl s')
    · exact hfirst.trans (ih s')

/-- A new executor on the present trace. -/
theorem leads_create (s : Session) {m : Maze} (hm : m.WellFormed) :
    s.Leads [.loaded]
      { s with
        maze? := some m
        executor := some (Executor.create m s.ingestion.program.trace (some m.startPose))
        loads := s.loads + 1 } where
  loads := rfl
  generation hload := absurd (List.mem_singleton_self _) hload
  present _ := rfl
  sound h := by
    refine ⟨h.synced, fun e he => ?_⟩
    obtain rfl := Option.mem_some_iff.mp he
    have hlin := Command.linear_unrollAll s.ingestion.program.commands
    rw [← h.synced] at hlin
    exact Executor.sound_create hm hlin _
  inStep h := by
    refine ⟨h.quiet, h.synced, fun e he => ?_, rfl⟩
    obtain rfl := Option.mem_some_iff.mp he
    rfl
  journal := Nat.le_refl _

/-- What the installation of a maze leads to. -/
theorem leads_installThen (htold : Told notify reactions) (s : Session) {m : Maze}
    (hm : m.WellFormed) :
    s.Leads (installTransitions reactions s m) (s.installThen notify m).1 := by
  have hload := (leads_cancelBackground s).before (leads_create s.cancelBackground hm)
  exact (hload.after (leads_log _ _ _ _)).trans (htold _)

/-- The executor hears of every edit, so it runs the trace of the edited program. -/
theorem InStep.onIngestion {α : Type} (h : s.InStep) {edited : Ingestion × Except Failure α}
    (hedited : s.ingestion.program.Edited edited.1.program) : (s.onIngestion edited).1.InStep := by
  obtain ⟨ingestion, told⟩ := edited
  have hquiet := hedited.quiet h.quiet
  have hsynced := hedited.synced h.synced
  unfold Session.onIngestion
  rcases hedited.eq_or_heardByAll h.quiet with heq | hheard
  · -- nothing was edited
    have hsame : ingestion.program = s.ingestion.program := heq
    simp only [hsame, if_true]
    exact ⟨hquiet, hsynced, fun e he => (h.trace e he).trans (congrArg _ hsame).symm, h.maze⟩
  · have hnew : ¬ ingestion.program.heardByAll = s.ingestion.program.heardByAll := by
      change _ = _ at hheard
      dsimp only at hheard
      omega
    simp only [if_neg hnew]
    refine ⟨hquiet, hsynced, fun e he => ?_, ?_⟩
    · obtain ⟨e₀, -, rfl⟩ := Option.map_eq_some_iff.mp he
      rfl
    · rw [Option.map_map, h.maze]
      rfl

/-- The executor takes over a trace, or it does not hear of the edit. -/
theorem leads_onIngestion {α : Type} (s : Session) {edited : Ingestion × Except Failure α}
    (hedited : s.ingestion.program.Edited edited.1.program) :
    s.Leads [] (s.onIngestion edited).1 := by
  have hsynced : s.Sound → edited.1.program.Synced := fun h => hedited.synced h.synced
  unfold onIngestion
  constructor
  case loads => rfl
  case generation =>
    -- another trace keeps the generation
    intro _
    dsimp only
    split
    · rfl
    · rw [Option.map_map]
      rfl
  case present =>
    intro h
    dsimp only
    split
    · exact h.resolve_right List.not_mem_nil
    · rw [Option.isSome_map]
      exact h.resolve_right List.not_mem_nil
  case sound =>
    refine fun h => ⟨hsynced h, fun e he => ?_⟩
    dsimp only at he
    split at he
    · exact h.executor e he
    · -- the trace comes from the program, so it holds no loop
      obtain ⟨e₀, he₀, rfl⟩ := Option.map_eq_some_iff.mp he
      have hlin := Command.linear_unrollAll edited.1.program.commands
      rw [← hsynced h] at hlin
      exact (h.executor e₀ he₀).setTrace hlin
  case inStep => exact fun h => h.onIngestion hedited
  case journal => exact Nat.le_refl _

/-- What a detection leads to. -/
theorem leads_detectThen (htold : Told notify reactions) (s : Session) (c : Command) :
    s.Leads (detectTransitions reactions s c) (s.detectThen notify c).1 := by
  have hsubmit := leads_onIngestion s (s.ingestion.edited_submit s.isExecuting s.now c)
  unfold detectTransitions detectThen
  generalize s.onIngestion (s.ingestion.submit s.isExecuting s.now c) = answer at hsubmit ⊢
  obtain ⟨s', told⟩ := answer
  match told with
  | .error f => exact hsubmit
  | .ok false => exact hsubmit
  | .ok true => exact (hsubmit.after (leads_log _ _ _ _)).before (htold _)

/-- The line of a step makes no transition. -/
theorem leads_logStep (s : Session) (e : Executor) (r : StepResult) :
    s.Leads [] (s.logStep e r) := by
  unfold logStep
  dsimp only
  -- a finished run has a second line
  split
  · exact (leads_log _ _ _ _).after (leads_log _ _ _ _)
  · exact (leads_log _ _ _ _).after (leads_log _ _ _ _)
  · exact leads_log _ _ _ _

/-- What the end of a tick leads to. -/
theorem leads_resolveThen (htold : Told notify reactions) (s : Session) (t : Ticket) :
    s.Leads (resolveTransitions reactions s t) (s.resolveThen notify t).1 := by
  unfold resolveTransitions resolveThen
  cases hs : s.executor with
  | none => exact .refl s
  | some e =>
    -- only a step that is applied gets to the listener
    by_cases hload : t.load = s.loads
    · simp only [if_pos hload]
      match hstep : e.step (some t.generation) with
      | .error f => exact .refl s
      | .ok (_, none) => exact .refl s
      | .ok (e', some r) =>
        obtain ⟨-, hsteps⟩ := Executor.step_eq_some_iff.mp hstep
        have hnext : s.Leads [] { s with executor := some e' } :=
          leads_executor hs (by decide) hsteps.generation_eq hsteps.trace_eq hsteps.maze_eq
            fun h => h.step hsteps
        exact (hnext.after (leads_logStep _ _ _)).before (htold _)
    · simp only [if_neg hload]
      exact .refl s

end Actions

/-! ## Reactions -/

/-- What can happen when the listener is shown a session: the transitions it brings about,
and the session afterwards, whether the listener fails or not. -/
inductive Shown (limit : Nat) (s : Session) : List Transition → Session → Prop where
  /-- There is nothing to show, or nobody to show it to. -/
  | unseen (nobody : s.executor = none ∨ s.listening = false) : Shown limit s [] s
  | seen {e : Executor} (run : s.executor = some e) (somebody : s.listening = true) :
      Shown limit s [] (s.record (.viewed (s.viewOf e)))
  | reacts {e : Executor} {left : Nat} {r : Reaction} {rest : List Reaction}
      (run : s.executor = some e) (somebody : s.listening = true) (left_lt : limit = left + 1)
      (first : s.script = r :: rest) (due : r.due (s.viewOf e) = true) :
      Shown limit s
        (deedsTransitions (reactionsUpTo left) (notifyUpTo left) r.deeds
          { s.record (.viewed (s.viewOf e)) with script := rest })
        (doAllThen (notifyUpTo left) r.deeds
          { s.record (.viewed (s.viewOf e)) with script := rest }).1

/-- What showing the present state to the listener leads to. -/
theorem shown_notifyUpTo (limit : Nat) (s : Session) :
    Shown limit s (reactionsUpTo limit s) (notifyUpTo limit s).1 := by
  unfold reactionsUpTo notifyUpTo
  cases hs : s.executor with
  | none => exact .unseen (.inl hs)
  | some e =>
    by_cases hlisten : s.listening = true
    · simp only [if_pos hlisten]
      match limit, hscript : (s.record (.viewed (s.viewOf e))).script with
      | 0, _ => exact .seen hs hlisten
      | left + 1, [] => exact .seen hs hlisten
      | left + 1, r :: rest =>
        by_cases hdue : r.due (s.viewOf e) = true
        · simp only [if_pos hdue]
          have hreacts := Shown.reacts hs hlisten (rfl : left + 1 = left + 1) hscript hdue
          -- how the deeds end does not matter for the session
          generalize hended : doAllThen (notifyUpTo left) r.deeds
            { s.record (.viewed (s.viewOf e)) with script := rest } = ended at hreacts ⊢
          obtain ⟨s', f | done⟩ := ended <;> exact hreacts
        · simp only [if_neg hdue]
          exact .seen hs hlisten
    · simp only [if_neg hlisten]
      exact .unseen (.inr (eq_false_of_ne_true hlisten))

/-- To cross a reaction off makes no transition. -/
theorem leads_crossedOff (s : Session) (v : View) (rest : List Reaction) :
    s.Leads [] { s.record (.viewed v) with script := rest } :=
  (leads_record s (.viewed v)).before (leads_of_eq rfl rfl rfl (Nat.le_refl _))

/-- What is shown leads to the transitions of the reaction to it. -/
theorem Shown.leads {limit : Nat} (h : Shown limit s ts s')
    (hless : ∀ left < limit, Told (notifyUpTo left) (reactionsUpTo left)) : s.Leads ts s' := by
  cases h with
  | unseen nobody => exact .refl s
  | seen run somebody => exact leads_record s _
  | @reacts e left r rest run somebody left_lt first due =>
    have hdeeds := leads_doAllThen (hless left (by omega)) r.deeds
    exact (leads_crossedOff s _ _).before (hdeeds _)

/-- However the listener reacts, also to what its reactions show. -/
theorem leads_notifyUpTo (limit : Nat) : Told (notifyUpTo limit) (reactionsUpTo limit) := by
  -- the deeds of a reaction are shown with fewer reactions left
  induction limit using Nat.strongRecOn with
  | ind limit ih => exact fun s => (shown_notifyUpTo limit s).leads ih

/-- Telling the listener leads to the transitions of its reactions. -/
theorem leads_notify : Told notify reactions :=
  fun s => leads_notifyUpTo s.script.length s

/-- A listener that is shown something leaves a mark in the journal, whatever it does. -/
theorem Shown.journal_lt {limit : Nat} (h : Shown limit s ts s') (hs : s.executor = some e)
    (hlisten : s.listening = true) : s.journal.length < s'.journal.length := by
  have hmark (v : View) : (s.record (.viewed v)).journal.length = s.journal.length + 1 :=
    List.length_append
  cases h with
  | unseen nobody =>
    rw [hs, hlisten] at nobody
    exact nobody.elim nofun nofun
  | seen run somebody =>
    rw [hmark]
    omega
  | @reacts e' left r rest run somebody left_lt first due =>
    -- the view is in the journal before the first deed is done
    have hdeeds := leads_doAllThen (leads_notifyUpTo left) r.deeds
      { s.record (.viewed (s.viewOf e')) with script := rest }
    calc s.journal.length
        < (s.record (.viewed (s.viewOf e'))).journal.length := by rw [hmark]; omega
      _ ≤ _ := hdeeds.journal

end Session

end MazeRobot
