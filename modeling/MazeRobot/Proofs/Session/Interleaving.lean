import MazeRobot.Proofs.Session.Ticket

/-!
# Ticks under way

A `Scene` is a session together with the tickets of all ticks that are waiting.  What happens
to it from outside comes in any order (`Happening`, `Scene.playAll`): actions of the user,
loads, edits and detections, ticks that begin and ticks that end.

`Scene.transitionsOf` collects what took effect on the way, the reactions of the listener
included.  From its two ends it is seen of every tick whether it steps.
-/

namespace MazeRobot

/-- What can happen to a session from outside. -/
inductive Happening where
  /-- The tick `k` begins. -/
  | capture (k : Nat)
  /-- The tick `k` ends. -/
  | resolve (k : Nat)
  | deed (d : Deed)
  /-- A load comes to its end. -/
  | load (result : Except Failure { m : Maze // m.WellFormed })
  | edit (e : Edit)
  | detect (c : Command)
  /-- Time passes. -/
  | clock (now : Float)

/-- It is the beginning or the end of a given tick. -/
def Happening.Concerns (h : Happening) (k : Nat) : Prop := h = capture k ∨ h = resolve k

/-- What a user does, whatever its answer. -/
def Session.act (s : Session) : Deed → Session
  | .start => s.start.1
  | .pause => s.pause.1
  | .toggle => s.toggle.1
  | .reset => s.reset.1
  | .play => s.play.1

/-- Users and listeners do the same things. -/
theorem Session.act_eq_doThen (s : Session) (d : Deed) : s.act d = (s.doThen notify d).1 := by
  unfold doThen
  cases d <;> simp only [act, start, pause, toggle, reset, play, withExecutor]
  all_goals cases s.executor <;> rfl

/-- A session, and the tickets of the ticks that are waiting. -/
structure Scene where
  session : Session
  tickets : Nat → Option Ticket := fun _ => none

/-- No maze has been loaded yet, and the trace is that of the commands. -/
structure Session.Fresh (s : Session) : Prop where
  executor : s.executor = none
  synced : s.ingestion.program.Synced

/-- A session that has just been opened has no run, so nothing can be wrong with it. -/
theorem Session.Fresh.sound {s : Session} (h : s.Fresh) : s.Sound where
  synced := h.synced
  executor e he := by
    rw [h.executor] at he
    exact nomatch he

namespace Scene

/-- Another ticket for the tick `k`, or none. -/
def hold (sc : Scene) (k : Nat) (ticket : Option Ticket) : Scene :=
  { sc with tickets := fun j => if j = k then ticket else sc.tickets j }

/-- The end of the tick `k`. -/
def resolve (sc : Scene) (k : Nat) : Session × Except Failure (Option StepResult) :=
  match sc.tickets k with
  | none => (sc.session, .ok none)
  | some t => sc.session.resolve t

/-- What a happening makes of a scene. -/
def play (sc : Scene) : Happening → Scene
  | .capture k => sc.hold k sc.session.capture.toOption
  | .resolve k => { sc with session := (sc.resolve k).1 }.hold k none
  | .deed d => { sc with session := sc.session.act d }
  | .load result => { sc with session := (sc.session.finishLoad (result.map Subtype.val)).1 }
  | .edit e => { sc with session := (sc.session.onIngestion (e.apply sc.session.ingestion)).1 }
  | .detect c => { sc with session := (sc.session.detect c).1 }
  | .clock now => { sc with session := { sc.session with now } }

/-- What happenings in order make of it. -/
def playAll (sc : Scene) (hs : List Happening) : Scene := hs.foldl play sc

/-- The transitions that one happening brings about. -/
def transitionsAt (sc : Scene) : Happening → List Transition
  | .capture _ | .edit _ | .clock _ | .load (.error _) => []
  | .resolve k =>
    match sc.tickets k with
    | none => []
    | some t => Session.resolveTransitions Session.reactions sc.session t
  | .deed d => Session.deedTransitions Session.reactions sc.session d
  | .load (.ok m) => Session.installTransitions Session.reactions sc.session m
  | .detect c => Session.detectTransitions Session.reactions sc.session c

/-- The transitions of happenings in order. -/
def transitionsOf (sc : Scene) : List Happening → List Transition
  | [] => []
  | h :: rest => sc.transitionsAt h ++ (sc.play h).transitionsOf rest

/-- The end of the tick `k` is exactly one step, and the listener is told.  The answer is what
the step reports, unless the listener fails. -/
def Applies (sc : Scene) (k : Nat) : Prop :=
  ∃ e e' r, sc.session.executor = some e ∧ e.step = .ok (e', some r) ∧
    sc.resolve k =
      Session.reply (fun _ => some r)
        ({ sc.session with executor := some e' }.logStep e' r).notify ∧
    (sc.resolve k).1 ≠ sc.session

/-- The end of the tick `k` changes nothing, and nobody is told. -/
def Ignores (sc : Scene) (k : Nat) : Prop := sc.resolve k = (sc.session, .ok none)

variable {sc : Scene} {k : Nat}

/-! ## What happens meanwhile -/

/-- A happening brings about the transitions that are listed for it. -/
theorem leads_play (sc : Scene) (h : Happening) :
    sc.session.Leads (sc.transitionsAt h) (sc.play h).session := by
  cases h with
  | capture k => exact .refl _
  | resolve k =>
    show sc.session.Leads (sc.transitionsAt (.resolve k)) (sc.resolve k).1
    simp only [transitionsAt, resolve]
    cases sc.tickets k with
    | none => exact .refl _
    | some t => exact Session.leads_resolveThen Session.leads_notify _ t
  | deed d =>
    show sc.session.Leads (sc.transitionsAt (.deed d)) (sc.session.act d)
    rw [Session.act_eq_doThen]
    exact Session.leads_doThen Session.leads_notify _ d
  | load result =>
    cases result with
    | error f => exact .refl _
    | ok m => exact Session.leads_installThen Session.leads_notify _ m.property
  | edit e => exact Session.leads_onIngestion _ (e.edited_apply _)
  | detect c => exact Session.leads_detectThen Session.leads_notify _ c
  | clock now => exact Session.leads_of_eq rfl rfl rfl (Nat.le_refl _)

/-- Whatever happens, and in whichever order. -/
theorem leads_playAll (hs : List Happening) (sc : Scene) :
    sc.session.Leads (sc.transitionsOf hs) (sc.playAll hs).session := by
  induction hs generalizing sc with
  | nil => exact .refl _
  | cons h hs ih => exact (leads_play sc h).trans (ih (sc.play h))

/-- Other ticks keep their tickets. -/
theorem tickets_play {h : Happening} (hother : ¬ h.Concerns k) :
    (sc.play h).tickets k = sc.tickets k := by
  cases h with
  | capture j =>
    have hne : k ≠ j := fun heq => hother (.inl (congrArg Happening.capture heq.symm))
    exact if_neg hne
  | resolve j =>
    have hne : k ≠ j := fun heq => hother (.inr (congrArg Happening.resolve heq.symm))
    exact if_neg hne
  | deed | load | edit | detect | clock => rfl

/-- A tick keeps its ticket through whatever does not concern it. -/
theorem tickets_playAll {hs : List Happening} (hother : ∀ h ∈ hs, ¬ h.Concerns k) (sc : Scene) :
    (sc.playAll hs).tickets k = sc.tickets k := by
  induction hs generalizing sc with
  | nil => rfl
  | cons h hs ih =>
    have hrest := ih (fun h' hmem => hother h' (List.mem_cons_of_mem h hmem)) (sc.play h)
    exact hrest.trans (tickets_play (hother h List.mem_cons_self))

/-! ## The end of a tick -/

/-- A tick cannot both apply and be ignored. -/
theorem not_applies_of_ignores (h : sc.Ignores k) : ¬ sc.Applies k := by
  rintro ⟨e, e', r, -, -, -, hne⟩
  exact hne (congrArg Prod.fst h)

/-- A tick whose ticket is due applies a step. -/
theorem applies_of_due {t : Ticket} (hsound : sc.session.Sound) (ht : sc.tickets k = some t)
    (hdue : t.Due sc.session) : sc.Applies k := by
  obtain ⟨e, e', r, he, hsteps, hresolve⟩ := Session.resolve_of_due hsound hdue
  have hend : sc.resolve k = sc.session.resolve t := by
    unfold resolve
    rw [ht]
  refine ⟨e, e', r, he, Executor.step_eq_some_iff.mpr ⟨nofun, hsteps⟩, hend.trans hresolve, ?_⟩
  rw [hend, hresolve]
  exact Session.notify_logStep_ne he hsteps.ne

/-- A tick without a due ticket is ignored. -/
theorem ignores_of_not_due (hdue : ∀ t, sc.tickets k = some t → ¬ t.Due sc.session) :
    sc.Ignores k := by
  unfold Ignores resolve
  cases ht : sc.tickets k with
  | none => rfl
  | some t => exact Session.resolve_of_not_due (hdue t ht)

/-- The ticket that a tick holds from its beginning on. -/
theorem tickets_capture (sc : Scene) (k : Nat) :
    (sc.play (.capture k)).tickets k =
      sc.session.executor.map fun e => ⟨sc.session.loads, e.generation⟩ := by
  show (if k = k then sc.session.capture.toOption else _) = _
  unfold Session.capture Session.requireExecutor
  rw [if_pos rfl]
  cases sc.session.executor <;> rfl

/-- A tick that begins and has something else happen before it ends has its ticket due at
the end exactly if nothing has taken effect and the run is executing. -/
theorem due_playAll_iff {hs : List Happening} (hother : ∀ h ∈ hs, ¬ h.Concerns k) (sc : Scene) :
    let began := sc.play (.capture k)
    let ends := began.playAll hs
    (∃ t, ends.tickets k = some t ∧ t.Due ends.session) ↔
      began.transitionsOf hs = [] ∧ ends.session.isExecuting = true := by
  intro began ends
  have hleads : sc.session.Leads (began.transitionsOf hs) ends.session := leads_playAll hs began
  -- the ticket is still the one noted at the beginning
  rw [tickets_playAll hother began, tickets_capture sc k]
  cases he : sc.session.executor with
  | none =>
    -- without a load there is still no run
    have hnone : began.transitionsOf hs = [] → ends.session.executor = none := by
      intro hnil
      rw [hnil] at hleads
      have hgen := hleads.generation List.not_mem_nil
      rwa [he, Option.map_none, Option.map_eq_none_iff] at hgen
    constructor
    · rintro ⟨t, ht, -⟩
      exact nomatch ht
    · rintro ⟨hnil, hexec⟩
      unfold Session.isExecuting at hexec
      rw [hnone hnil] at hexec
      exact nomatch hexec
  | some e =>
    rw [Option.map_some, ← Session.due_iff_of_leads hleads he]
    constructor
    · rintro ⟨t, ht, hdue⟩
      obtain rfl := Option.some.inj ht
      exact hdue
    · exact fun hdue => ⟨_, rfl, hdue⟩

/-- Whatever has happened to a session before a tick begins, and whatever happens until it
ends, other ticks included: it takes its step, and only one, if no start, pause, reset or
load has taken effect meanwhile and the run is executing.  Else it changes nothing, and
nobody is told. -/
theorem tick_applies_iff_undisturbed {s : Session} (hfresh : s.Fresh)
    (before between : List Happening) (k : Nat) (hother : ∀ h ∈ between, ¬ h.Concerns k) :
    let began := ({ session := s } : Scene).playAll (before ++ [.capture k])
    let ends := began.playAll between
    let undisturbed := began.transitionsOf between = [] ∧ ends.session.isExecuting = true
    (ends.Applies k ↔ undisturbed) ∧ (ends.Ignores k ↔ ¬ undisturbed) := by
  intro began ends undisturbed
  have hbegan : began = (({ session := s } : Scene).playAll before).play (.capture k) :=
    List.foldl_append ..
  have hsound : ends.session.Sound :=
    (leads_playAll between began).sound ((leads_playAll _ { session := s }).sound hfresh.sound)
  have hdue : (∃ t, ends.tickets k = some t ∧ t.Due ends.session) ↔ undisturbed := by
    have := due_playAll_iff hother (({ session := s } : Scene).playAll before)
    rwa [← hbegan] at this
  have happlies : undisturbed → ends.Applies k := by
    intro h
    obtain ⟨t, ht, ht'⟩ := hdue.mpr h
    exact applies_of_due hsound ht ht'
  have hignores : ¬ undisturbed → ends.Ignores k := by
    intro h
    exact ignores_of_not_due fun t ht ht' => h (hdue.mp ⟨t, ht, ht'⟩)
  -- a tick does not both step and change nothing
  refine ⟨⟨fun h => ?_, happlies⟩, ⟨fun h hu => ?_, hignores⟩⟩
  · by_cases hu : undisturbed
    · exact hu
    · exact absurd h (not_applies_of_ignores (hignores hu))
  · exact not_applies_of_ignores h (happlies hu)

/-- A refused start, an edit, a failed load and another tick do not disturb a tick; a pause
with a start after it does, although the run stands as before. -/
theorem tick_applies_iff_undisturbed_trench :
    let s : Session := { ingestion := { program := .ofCommands [.loop (some 3) [.basic .ifHole]] } }
    let before : List Happening :=
      [.load (.ok ⟨.trench, Maze.trench_wellFormed⟩), .deed .start]
    let quiet : List Happening := [.capture 1, .deed .start, .edit (.append (.basic .forward)),
      .load (.error .noMaze), .resolve 1]
    let restart : List Happening := [.deed .pause, .deed .toggle]
    let began := ({ session := s } : Scene).playAll (before ++ [.capture 0])
    s.Fresh ∧ (began.playAll quiet).Applies 0 ∧ (began.playAll restart).Ignores 0 := by
  intro s before quiet restart began
  have hfresh : s.Fresh := ⟨rfl, Program.synced_ofCommands _ _⟩
  have hquiet : ∀ h ∈ quiet, ¬ h.Concerns 0 := by simp [quiet, Happening.Concerns]
  have hrestart : ∀ h ∈ restart, ¬ h.Concerns 0 := by simp [restart, Happening.Concerns]
  -- starting a run that goes on and failing to load are no transitions; a pause undone is two
  have hcalm : began.transitionsOf quiet = [] ∧ (began.playAll quiet).session.isExecuting := by
    decide +kernel
  have hnoise : began.transitionsOf restart ≠ [] := by
    decide +kernel
  refine ⟨hfresh, ?_, ?_⟩
  · exact (tick_applies_iff_undisturbed hfresh before quiet 0 hquiet).1.mpr hcalm
  · exact (tick_applies_iff_undisturbed hfresh before restart 0 hrestart).2.mpr
      fun h => hnoise h.1

end Scene

end MazeRobot
