import Mathlib.Logic.Relation
import MazeRobot.Proofs.Session.Interleaving
import MazeRobot.Session.Tasks

/-!
# One thing at a time

An `Operation` is what somebody can ask of a session, including to wait: a tick or a run in the
foreground lets the tasks have their turns meanwhile, and so does a load that is tried again.
Tasks may also be woken in any order (`Session.wake`).

But for edits of the program, every operation is a row of `Session.Moves`, each of which happens
at once (`moves_perform`).  So a relation that is kept by moves is kept by operations.  Of the
moves, the end of a tick and the turn of a task have the most cases; they are told apart once
(`resolveThen_cases`, `turns_turn`).
-/

namespace MazeRobot

/-- What can be asked of a session. -/
inductive Operation where
  /-- A load, and how it went. -/
  | load (loading : Loading)
  | deed (d : Deed)
  | detect (c : Command)
  /-- An edit that does not go through the session. -/
  | edit (e : Edit)
  /-- A tick, waited for. -/
  | tick
  /-- A run in the foreground. -/
  | run (maxTicks : Option Nat)
  /-- A tick begins that nobody waits for. -/
  | beginTick
  /-- The turn of the task at position `k` of the queue. -/
  | wake (k : Nat)
  /-- Time passes. -/
  | clock (now : Float)

/-- An operation edits the program or it does not. -/
theorem Operation.edit_or_not (op : Operation) : (∃ e, op = edit e) ∨ ∀ e, op ≠ edit e := by
  cases op
  case edit e => exact .inl ⟨e, rfl⟩
  all_goals
    right
    intro e he
    exact nomatch he

namespace Session

/-- The turn of the task at position `k` of the queue. -/
def wake (s : Session) (k : Nat) : Session :=
  match s.queue[k]? with
  | none => s
  | some t => { s with queue := s.queue.eraseIdx k }.turn t

/-- What an operation makes of a session, whatever it answers. -/
def perform (s : Session) : Operation → Session
  | .load loading => (s.load loading).1
  | .deed d => s.act d
  | .detect c => (s.detect c).1
  | .edit e => (s.onIngestion (e.apply s.ingestion)).1
  | .tick => s.tick.1
  | .run maxTicks => (s.run maxTicks).1
  | .beginTick => (s.spawn .tick).1
  | .wake k => s.wake k
  | .clock now => { s with now }

/-- Operations in order. -/
def performAll (s : Session) (ops : List Operation) : Session := ops.foldl perform s

/-- What happens at once, and is no edit. -/
inductive Moves (s : Session) : Session → Prop where
  | deed (d : Deed) : Moves s (s.doThen notify d).1
  | detect (c : Command) : Moves s (s.detect c).1
  | install (m : Maze) : Moves s (s.install m).1
  | note (line : LogEntry) : Moves s (s.record (.logged line))
  | resolve (ticket : Ticket) : Moves s (s.resolve ticket).1
  | wake (k : Nat) : Moves s (s.wake k)
  | beginTick : Moves s (s.spawn .tick).1
  | clock (now : Float) : Moves s { s with now }

/-! ## What a move comes to -/

/-- The end of a tick is nothing at all, or a step that is shown. -/
theorem resolveThen_cases (notify : Session → Session × Except Failure Unit) (s : Session)
    (t : Ticket) :
    (s.resolveThen notify t).1 = s ∨
      ∃ e e' r, s.executor = some e ∧ e.Steps e' r ∧
        (s.resolveThen notify t).1 = (notify ({ s with executor := some e' }.logStep e' r)).1 := by
  unfold resolveThen
  cases hs : s.executor with
  | none => exact .inl rfl
  | some e =>
    dsimp only
    by_cases hload : t.load = s.loads
    · rw [if_pos hload]
      -- only a step that was applied changes the session
      match hstep : e.step (some t.generation) with
      | .error f => exact .inl rfl
      | .ok (_, none) => exact .inl rfl
      | .ok (e', some r) =>
        exact .inr ⟨e, e', r, rfl, (Executor.step_eq_some_iff.mp hstep).2, rfl⟩
    · rw [if_neg hload]
      exact .inl rfl

/-- What the turn of a task can come to. -/
inductive Turns (s : Session) (t : Task) : Session → Prop where
  /-- The task is cancelled, or there is nothing to tick. -/
  | ends (ending : Ending) : Turns s t (s.finish t ending)
  /-- A single tick begins. -/
  | waits (ticket : Ticket) : Turns s t (s.requeue t ticket)
  /-- A run begins. -/
  | begins : Turns s t (s.ensureStarted.goOn t)
  /-- The listener fails when a run begins, and the task ends with it. -/
  | stumbles (ending : Ending) : Turns s t (s.ensureStarted.finish t ending)
  /-- A tick ends, and the task with it. -/
  | resolves (ticket : Ticket) (ending : Ending) : Turns s t ((s.resolve ticket).1.finish t ending)
  /-- A tick of a run ends. -/
  | goesOn (ticket : Ticket) : Turns s t ((s.resolve ticket).1.goOn t)

/-- What a task does in its turn is listed. -/
theorem turns_turn (s : Session) (t : Task) : s.Turns t (s.turn t) := by
  unfold turn
  split
  · exact .ends _
  · cases t.stage with
    | fresh =>
      dsimp only
      cases s.capture with
      | error f => exact .ends _
      | ok ticket =>
        cases t.job with
        | run =>
          have hbegins := Turns.begins (s := s) (t := t)
          have hstumbles := Turns.stumbles (s := s) (t := t)
          unfold ensureStarted at hbegins hstumbles
          generalize s.beginRun = answer at hbegins hstumbles ⊢
          -- what a run begins with may fail, and then the task ends there
          obtain ⟨s', f | begun⟩ := answer
          · exact hstumbles _
          · exact hbegins
        | tick => exact .waits ticket
    | waiting ticket =>
      dsimp only
      have hends := Turns.resolves (s := s) (t := t) ticket
      have hgoes := Turns.goesOn (s := s) (t := t) ticket
      generalize s.resolve ticket = answer at hends hgoes ⊢
      obtain ⟨s', _ | r⟩ := answer
      · exact hends _
      · cases t.job with
        | run => exact hgoes
        | tick => exact hends _

/-! ## What is made of moves -/

variable {s s' : Session}

/-- A task that is woken is taken off the queue and has its turn. -/
theorem wake_of_getElem? {k : Nat} {t : Task} (h : s.queue[k]? = some t) :
    s.wake k = Session.turn { s with queue := s.queue.eraseIdx k } t := by
  unfold wake
  rw [h]

/-- The task at the front of the queue is the first that is woken. -/
theorem runNext_eq_wake (s : Session) : s.runNext = s.wake 0 := by
  unfold runNext wake
  cases s.queue <;> rfl

/-- The turn of the task at the front of the queue is made of moves. -/
theorem moves_runNext (s : Session) : Relation.ReflTransGen Moves s s.runNext := by
  rw [runNext_eq_wake]
  exact .single (.wake 0)

/-- Any number of turns is made of moves. -/
theorem moves_runTurns (n : Nat) (s : Session) :
    Relation.ReflTransGen Moves s (s.runTurns n) := by
  induction n generalizing s with
  | zero => exact .refl
  | succ n ih => exact (moves_runNext s).trans (ih s.runNext)

/-- Turns until something is the case are made of moves. -/
theorem moves_runUntil (stop : Session → Bool) (limit : Nat) (s : Session) :
    Relation.ReflTransGen Moves s (runUntil stop limit s) := by
  induction limit generalizing s with
  | zero => exact .refl
  | succ limit ih =>
    unfold runUntil
    split
    · exact .refl
    · exact (moves_runNext s).trans (ih s.runNext)

/-- A tick from beginning to end is made of moves. -/
theorem moves_tick (s : Session) : Relation.ReflTransGen Moves s s.tick.1 := by
  unfold tick
  split
  · exact .refl
  · exact (moves_runTurns _ s).tail (.resolve _)

/-- An action is made of moves. -/
theorem moves_act (s : Session) (d : Deed) : Relation.ReflTransGen Moves s (s.act d) := by
  rw [act_eq_doThen]
  exact .single (.deed d)

/-- To start a run where none executes is made of moves. -/
theorem moves_ensureStarted (s : Session) : Relation.ReflTransGen Moves s s.ensureStarted := by
  unfold ensureStarted beginRun
  split
  · exact .refl
  · exact moves_act s .start

/-- Ticks as long as something executes are made of moves. -/
theorem moves_tickWhileExecuting (limit : Nat) (s : Session) :
    Relation.ReflTransGen Moves s (s.tickWhileExecuting limit).1 := by
  induction limit generalizing s with
  | zero => exact .refl
  | succ limit ih =>
    unfold tickWhileExecuting
    split
    · have htick := moves_tick s
      -- a tick that fails is the last one
      generalize s.tick = answer at htick ⊢
      obtain ⟨s', _ | _⟩ := answer
      · exact htick
      · exact htick.trans (ih s')
    · exact .refl

/-- A run is made of moves. -/
theorem moves_run (s : Session) (maxTicks : Option Nat) :
    Relation.ReflTransGen Moves s (s.run maxTicks).1 := by
  unfold run
  split
  · exact .refl
  · have hbegun := moves_ensureStarted s
    unfold ensureStarted at hbegun
    generalize s.beginRun = begun at hbegun ⊢
    obtain ⟨s₁, _ | _⟩ := begun
    · exact hbegun
    -- the ticks follow the beginning, and each is a move
    · have hticks := hbegun.trans (moves_tickWhileExecuting (maxTicks.getD s₁.budget) s₁)
      dsimp only
      generalize s₁.tickWhileExecuting _ = answer at hticks ⊢
      obtain ⟨s', _ | _⟩ := answer <;> exact hticks

/-- The tasks go on between the attempts of a load. -/
theorem moves_load (s : Session) (loading : Loading) :
    Relation.ReflTransGen Moves s (s.load loading).1 := by
  have hwait (lines : List LogEntry) (s : Session) : Relation.ReflTransGen Moves s
      (lines.foldl (fun s line => s.settle.record (.logged line)) s) := by
    induction lines generalizing s with
    | nil => exact .refl
    | cons line rest ih => exact ((moves_runUntil _ _ s).tail (.note line)).trans (ih _)
  refine (hwait loading.log s).trans ?_
  unfold load finishLoad
  cases loading.result with
  | error f => exact .refl
  | ok m => exact .single (.install m)

/-- Operations other than edits are made of moves. -/
theorem moves_perform (s : Session) {op : Operation} (hop : ∀ e, op ≠ .edit e) :
    Relation.ReflTransGen Moves s (s.perform op) := by
  cases op with
  | load loading => exact moves_load s loading
  | deed d => exact moves_act s d
  | detect c => exact .single (.detect c)
  | edit e => exact absurd rfl (hop e)
  | tick => exact moves_tick s
  | run maxTicks => exact moves_run s maxTicks
  | beginTick => exact .single .beginTick
  | wake k => exact .single (.wake k)
  | clock now => exact .single (.clock now)

end Session

end MazeRobot
