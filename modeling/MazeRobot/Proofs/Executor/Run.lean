import MazeRobot.Proofs.Executor.Calls

/-!
# Complete runs

A run that is stepped for as long as it executes comes to an end, and its outcome is that
of the direct interpreter of `MazeRobot.Proofs.Interpreter`: the remaining trace is the
program still to be interpreted (`stepWhileExecuting_outcome`).  The end of the trace is
noticed inside the step that uses up the last entry, so a trace that is not empty takes
no more steps than it has entries.

`serve_of_stepWhileExecuting` ties the loop to single steps: it makes the calls that
whoever steps an executor by hand would make.  `Completes` says of an executor that these
calls, a start first, bring its run to an end.  There is exactly one such end
(`Completes.unique`), and for a program it is that of the interpreter (`exists_completes`,
`Completes.outcome_eq`).
-/

namespace MazeRobot

namespace Executor

/-- What can be told of a run as it stands. -/
def outcome (e : Executor) : Outcome where
  status := e.phase.status
  reason := e.phase.reason?
  robot := e.world.robot
  grid := e.world.overlay
  moves := e.world.moves

variable {e e' : Executor}

/-! ## The loop and single steps -/

/-- Where nothing executes no step is taken. -/
theorem stepWhileExecuting_of_not_executing (h : ¬ e.isExecuting = true) (limit : Nat) :
    e.stepWhileExecuting limit = (e, [], none) := by
  cases limit with
  | zero => rfl
  | succ limit =>
    unfold stepWhileExecuting
    split
    · rename_i cursor due
      exact absurd (isExecuting_iff.mpr ⟨cursor, due⟩) h
    · rfl

/-- A step that can be taken comes first, and the others follow from where it leads. -/
theorem stepWhileExecuting_of_steps {r : StepResult} (h : e.Steps e' r) (limit : Nat) :
    e.stepWhileExecuting (limit + 1) =
      ((e'.stepWhileExecuting limit).1, r :: (e'.stepWhileExecuting limit).2.1,
        (e'.stepWhileExecuting limit).2.2) := by
  obtain ⟨cursor, due⟩ := isExecuting_iff.mp h.isExecuting
  rw [stepWhileExecuting, due]
  simp only [(stepAt_eq_ok_iff due).mpr h]

/-- The loop makes one call after the other, and each of its steps is applied. -/
theorem serve_of_stepWhileExecuting {rs : List StepResult} {limit : Nat}
    (h : e.stepWhileExecuting limit = (e', rs, none)) :
    e.serve (List.replicate rs.length (.step none)) =
      (e', rs.map fun r => .stepped (some r)) := by
  induction limit generalizing e rs with
  | zero =>
    rw [stepWhileExecuting, Prod.mk.injEq, Prod.mk.injEq] at h
    obtain ⟨rfl, rfl, -⟩ := h
    rfl
  | succ limit ih =>
    by_cases hexec : e.isExecuting = true
    · obtain ⟨cursor, due⟩ := isExecuting_iff.mp hexec
      cases hstep : e.stepAt cursor with
      | error f =>
        rw [stepWhileExecuting, due] at h
        simp [hstep] at h
      | ok p =>
        obtain ⟨e₁, r⟩ := p
        have hs := (stepAt_eq_ok_iff due).mp hstep
        -- peel the first step off the loop and off the calls
        rw [stepWhileExecuting_of_steps hs] at h
        simp only [Prod.mk.injEq] at h
        obtain ⟨he', hrs, hfail⟩ := h
        subst hrs
        have hrun : e₁.stepWhileExecuting limit =
            (e', (e₁.stepWhileExecuting limit).2.1, none) := by
          rw [← he', ← hfail]
        have hrest := ih hrun
        have hcall : e.call (.step none) = (e₁, .stepped (some r)) := by
          rw [call_step, step_none_of_steps hs]
        rw [List.length_cons, List.replicate_succ, serve_cons, hcall, hrest]
        rfl
    · rw [stepWhileExecuting_of_not_executing hexec, Prod.mk.injEq, Prod.mk.injEq] at h
      obtain ⟨rfl, rfl, -⟩ := h
      rfl

/-! ## The end of a run -/

/-- From any cursor the run ends as the interpreter does on the rest of the trace. -/
theorem stepWhileExecuting_outcome {cursor limit : Nat}
    (due : e.phase = .running cursor false) (hlin : Command.Linear e.trace)
    (hsq : e.world.overlay.Square) (hlt : cursor < e.trace.length)
    (hlimit : e.trace.length ≤ cursor + limit) :
    ∃ e' rs, e.stepWhileExecuting limit = (e', rs, none) ∧ e'.isExecuting = false ∧
      e'.outcome = (Command.interpretAll (e.trace.drop cursor) e.world).outcome := by
  -- on the limit; what is left of the trace shrinks along with it
  induction limit generalizing e cursor with
  | zero => omega
  | succ limit ih =>
    obtain ⟨a, ha⟩ := hlin e.trace[cursor] (List.getElem_mem hlt)
    have entry : e.trace[cursor]? = some (.basic a) := by
      rw [List.getElem?_eq_getElem hlt, ha]
    obtain ⟨w, v, effect, hdoes⟩ := World.exists_perform hsq a
    rw [List.drop_eq_getElem_cons hlt, ha, Command.interpretAll, Command.interpret, hdoes.act_eq,
      stepWhileExecuting_of_steps (.acts due entry effect)]
    cases v with
    | continues filled =>
      by_cases hmore : cursor + 1 < e.trace.length
      · -- the run goes on at the next entry
        have hnext : phaseAfter e.trace cursor (.continues filled) = .running (cursor + 1) false :=
          if_pos hmore
        rw [hnext]
        obtain ⟨e', rs, hrun, hdone, hout⟩ :=
          ih (e := { e with world := w, phase := .running (cursor + 1) false }) rfl hlin
            (hdoes.square hsq) hmore (by show e.trace.length ≤ cursor + 1 + limit; omega)
        exact ⟨e', _ :: rs, by rw [hrun], hdone, hout⟩
      · -- that was the last entry, and the same step notices it
        have hnext : phaseAfter e.trace cursor (.continues filled) = .failed .goalNotReached :=
          if_neg hmore
        rw [hnext, stepWhileExecuting_of_not_executing, List.drop_eq_nil_of_le (by omega)]
        · exact ⟨_, _, rfl, rfl, rfl⟩
        · exact Bool.false_ne_true
    | reachesGoal =>
      rw [stepWhileExecuting_of_not_executing]
      · exact ⟨_, _, rfl, rfl, rfl⟩
      · exact Bool.false_ne_true
    | fails reason =>
      rw [stepWhileExecuting_of_not_executing]
      · exact ⟨_, _, rfl, rfl, rfl⟩
      · exact Bool.false_ne_true

/-- A run of a whole trace without loops, begun afresh. -/
theorem stepWhileExecuting_start_outcome {m : Maze} {trace : Trace} {limit : Nat}
    (hm : m.WellFormed) (hlin : Command.Linear trace) (initial : Option Pose)
    (hlimit : max 1 trace.length ≤ limit) :
    ∃ e' rs, (create m trace initial).start.1.stepWhileExecuting limit = (e', rs, none) ∧
      e'.isExecuting = false ∧
      e'.outcome =
        (Command.interpretAll trace (freshWorld m (initial.getD m.startPose))).outcome := by
  have hstart : (create m trace initial).start.1 =
      (create m trace initial).rewind (.running 0 false) := rfl
  rw [hstart]
  by_cases hempty : trace.length = 0
  · -- the first step finds no entry
    obtain rfl := List.length_eq_zero_iff.mp hempty
    obtain ⟨limit, rfl⟩ : ∃ k, limit = k + 1 := ⟨limit - 1, by omega⟩
    rw [stepWhileExecuting_of_steps (.exhausted rfl rfl), stepWhileExecuting_of_not_executing]
    · exact ⟨_, _, rfl, rfl, rfl⟩
    · exact Bool.false_ne_true
  · have hlt : 0 < trace.length := by omega
    have hle : trace.length ≤ 0 + limit := by omega
    exact stepWhileExecuting_outcome (e := (create m trace initial).rewind (.running 0 false))
      rfl hlin hm.square hlt hle

/-! ## Completion -/

/-- Started and then stepped for as long as it executes, `e` ends as `e'`: the start begins
a run, and every step is applied. -/
structure Completes (e : Executor) (results : List StepResult) (e' : Executor) : Prop where
  served : e.serve (.start :: List.replicate results.length (.step none)) =
    (e', .started true :: results.map fun r => .stepped (some r))
  ended : e'.isExecuting = false

/-- A step without a token answers whether the run executes. -/
theorem isExecuting_of_call_step {r : StepResult}
    (h : (e.call (.step none)).2 = .stepped (some r)) : e.isExecuting = true := by
  rw [call_step] at h
  cases hstep : e.step none with
  | error failure =>
    rw [hstep] at h
    exact nomatch h
  | ok p =>
    obtain ⟨e₁, result⟩ := p
    rw [hstep] at h
    obtain rfl := Answer.stepped.inj h
    exact (step_eq_some_iff.mp hstep).2.isExecuting

/-- Stepping stops at one place only. -/
theorem serve_steps_unique {e₁ e₂ : Executor} {rs₁ rs₂ : List StepResult}
    (h₁ : e.serve (List.replicate rs₁.length (.step none)) =
      (e₁, rs₁.map fun r => .stepped (some r)))
    (ended₁ : e₁.isExecuting = false)
    (h₂ : e.serve (List.replicate rs₂.length (.step none)) =
      (e₂, rs₂.map fun r => .stepped (some r)))
    (ended₂ : e₂.isExecuting = false) : rs₁ = rs₂ ∧ e₁ = e₂ := by
  -- on the first list; a step that is applied in one is applied in the other
  induction rs₁ generalizing e rs₂ with
  | nil =>
    obtain ⟨rfl, -⟩ := Prod.mk.inj h₁
    cases rs₂ with
    | nil => exact ⟨rfl, (Prod.mk.inj h₂).1⟩
    | cons r rest =>
      -- the run is over, so the second list has no first step
      rw [List.length_cons, List.replicate_succ, serve_cons, Prod.mk.injEq] at h₂
      have hexec := isExecuting_of_call_step (List.cons.inj h₂.2).1
      rw [ended₁] at hexec
      exact nomatch hexec
  | cons r rest ih =>
    rw [List.length_cons, List.replicate_succ, serve_cons, Prod.mk.injEq] at h₁
    obtain ⟨hlast₁, hanswers₁⟩ := h₁
    obtain ⟨hfirst₁, hrest₁⟩ := List.cons.inj hanswers₁
    cases rs₂ with
    | nil =>
      obtain ⟨rfl, -⟩ := Prod.mk.inj h₂
      have hexec := isExecuting_of_call_step hfirst₁
      rw [ended₂] at hexec
      exact nomatch hexec
    | cons r' rest' =>
      rw [List.length_cons, List.replicate_succ, serve_cons, Prod.mk.injEq] at h₂
      obtain ⟨hlast₂, hanswers₂⟩ := h₂
      obtain ⟨hfirst₂, hrest₂⟩ := List.cons.inj hanswers₂
      -- both take the same first step
      have hr : r = r' :=
        Option.some.inj (Answer.stepped.inj (hfirst₁.symm.trans hfirst₂))
      obtain ⟨hrs, hlast⟩ := ih (Prod.ext hlast₁ hrest₁) (Prod.ext hlast₂ hrest₂)
      exact ⟨by rw [hr, hrs], hlast⟩

/-- An executor completes its run in one way only. -/
theorem Completes.unique {e₁ e₂ : Executor} {rs₁ rs₂ : List StepResult}
    (h₁ : e.Completes rs₁ e₁) (h₂ : e.Completes rs₂ e₂) : rs₁ = rs₂ ∧ e₁ = e₂ := by
  have served₁ := h₁.served
  have served₂ := h₂.served
  rw [serve_cons, Prod.mk.injEq] at served₁ served₂
  exact serve_steps_unique (Prod.ext served₁.1 (List.cons.inj served₁.2).2) h₁.ended
    (Prod.ext served₂.1 (List.cons.inj served₂.2).2) h₂.ended

/-- A program is run to completion, and ends as it does on its tree. -/
theorem exists_completes {m : Maze} (hm : m.WellFormed) (program : List Command)
    (initial : Option Pose) :
    ∃ rs e', (create m (Command.unrollAll program) initial).Completes rs e' ∧
      e'.outcome =
        (Command.interpretAll program (freshWorld m (initial.getD m.startPose))).outcome := by
  obtain ⟨e', rs, hrun, hdone, hout⟩ :=
    stepWhileExecuting_start_outcome hm (Command.linear_unrollAll program) initial (Nat.le_refl _)
  refine ⟨rs, e', ⟨?_, hdone⟩, ?_⟩
  · have hstart : (create m (Command.unrollAll program) initial).call .start =
        ((create m (Command.unrollAll program) initial).start.1, .started true) := rfl
    rw [serve_cons, hstart, serve_of_stepWhileExecuting hrun]
  · rw [hout, Command.interpretAll_unrollAll]

/-- However a program is run to completion, it ends as it does on its tree. -/
theorem Completes.outcome_eq {m : Maze} (hm : m.WellFormed) {program : List Command}
    {initial : Option Pose} {rs : List StepResult}
    (h : (create m (Command.unrollAll program) initial).Completes rs e') :
    e'.outcome =
      (Command.interpretAll program (freshWorld m (initial.getD m.startPose))).outcome := by
  obtain ⟨rs₁, e₁, hrun, hout⟩ := exists_completes hm program initial
  obtain ⟨-, rfl⟩ := h.unique hrun
  exact hout

/-- A complete run of a program ends as the program does on its tree: stepping needs at
most as many steps as the trace has entries (one for an empty trace), no step is refused,
and status, reason, robot, grid and moves are those of the interpreter. -/
theorem run_ends_as_interpreted (m : Maze) (hm : m.WellFormed) (program : List Command)
    (initial : Option Pose) (limit : Nat)
    (hlimit : max 1 (Command.unrollAll program).length ≤ limit) :
    ∃ e' rs,
      (create m (Command.unrollAll program) initial).start.1.stepWhileExecuting limit =
        (e', rs, none) ∧
      (create m (Command.unrollAll program) initial).serve
          (.start :: List.replicate rs.length (.step none)) =
        (e', .started true :: rs.map fun r => .stepped (some r)) ∧
      e'.isExecuting = false ∧
      e'.outcome =
        (Command.interpretAll program ⟨initial.getD m.startPose, m.grid, 0⟩).outcome := by
  obtain ⟨e', rs, hrun, hdone, hout⟩ :=
    stepWhileExecuting_start_outcome hm (Command.linear_unrollAll program) initial hlimit
  refine ⟨e', rs, hrun, ?_, hdone, ?_⟩
  · have hstart : (create m (Command.unrollAll program) initial).call .start =
        ((create m (Command.unrollAll program) initial).start.1, .started true) := rfl
    rw [serve_cons, hstart, serve_of_stepWhileExecuting hrun]
  · rw [hout, Command.interpretAll_unrollAll]
    rfl

/-- Two rounds of a loop around a loop without a count and one that never runs: the goal
is reached in the middle of the second round. -/
theorem run_ends_as_interpreted_trench :
    let program : List Command :=
      [.loop (some 2) [.loop none [.basic .ifHole, .basic .forward, .loop (some 0)
        [.basic .turnLeft]], .basic .ifHole], .basic .turnRight]
    Maze.trench.WellFormed ∧ max 1 (Command.unrollAll program).length ≤ 7 ∧
      ∃ e' rs,
        (create .trench (Command.unrollAll program)).start.1.stepWhileExecuting 7 =
          (e', rs, none) ∧
        e'.isExecuting = false ∧
        e'.outcome =
          ⟨.success, none, ⟨2, 0, .east⟩,
            ⟨[[.start, .floor, .goal], [.floor, .wall, .floor], [.floor, .floor, .floor]]⟩, 2⟩ := by
  intro program
  -- seven entries: the loop that is taken no times gives none
  have hlimit : max 1 (Command.unrollAll program).length ≤ 7 := by decide
  obtain ⟨e', rs, hrun, -, hdone, hout⟩ :=
    run_ends_as_interpreted .trench Maze.trench_wellFormed program none 7 hlimit
  exact ⟨Maze.trench_wellFormed, hlimit, e', rs, hrun, hdone, hout.trans (by decide)⟩

end Executor

end MazeRobot
