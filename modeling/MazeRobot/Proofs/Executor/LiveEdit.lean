import MazeRobot.Proofs.Executor.Run
import MazeRobot.Proofs.Executor.Walk

/-!
# Editing the trace of a run in progress

A trace can be replaced while its run executes.  If the new trace has the same entries up to
the cursor, then the run ends as if the new trace had been there from the start.

The two runs do not end in step: where the new trace is over at the cursor, the run from the
start fails inside its last step, while the edited run takes one step more, which finds no
entry.  So they are not followed side by side.  `Executor.Ends` says where stepping comes to
an end, however many steps it takes, and the proof goes back from the edited run to the
beginning one step at a time (`Ends.before_step`).

## Key results

- `Ends.unique`: stepping has one end only
- `ends_stepWhileExecuting`: a limit as long as the trace is enough to get there
- `outcome_setTrace`: an edit at or behind the cursor acts as if made before the start
-/

namespace MazeRobot

namespace Executor

/-- Stepping for as long as the run executes: how the run stands where stepping stops, and
the failure if it stops because a step is refused. -/
inductive Ends : Executor → Outcome → Option Failure → Prop where
  | done {e : Executor} (idle : ¬ e.isExecuting = true) : Ends e e.outcome none
  | refused {e : Executor} {f : Failure} (step : e.step none = .error f) :
      Ends e e.outcome (some f)
  | goes {e e₁ : Executor} {r : StepResult} {o : Outcome} {f : Option Failure}
      (first : e.Steps e₁ r) (rest : Ends e₁ o f) : Ends e o f

variable {e e₁ : Executor} {r : StepResult} {o o' : Outcome} {f f' : Option Failure}

/-! ## Where stepping ends -/

/-- Stepping has one end only. -/
theorem Ends.unique (h : e.Ends o f) (h' : e.Ends o' f') : o = o' ∧ f = f' := by
  induction h with
  | done idle =>
    cases h' with
    | done => exact ⟨rfl, rfl⟩
    | refused step => exact absurd (due_of_refused step).2 idle
    | goes first _ => exact absurd first.isExecuting idle
  | refused step =>
    cases h' with
    | done idle => exact absurd (due_of_refused step).2 idle
    | refused step' =>
      obtain rfl := Except.error.inj (step.symm.trans step')
      exact ⟨rfl, rfl⟩
    | goes first _ => exact nomatch step.symm.trans (step_none_of_steps first)
  | goes first _ ih =>
    cases h' with
    | done idle => exact absurd first.isExecuting idle
    | refused step => exact nomatch step.symm.trans (step_none_of_steps first)
    | goes first' rest' =>
      obtain ⟨rfl, -⟩ := first.unique first'
      exact ih rest'

/-- A step goes on to the next entry, or the run is over. -/
theorem Steps.due_or_over {cursor : Nat} (h : e.Steps e₁ r)
    (due : e.phase = .running cursor false) :
    (e₁.phase = .running (cursor + 1) false ∧ cursor + 1 < e.trace.length) ∨
      ¬ e₁.isExecuting = true := by
  cases h with
  | exhausted due' past => exact .inr Bool.false_ne_true
  | @acts cursor' a w v due' entry effect =>
    obtain ⟨rfl, -⟩ := Phase.running.inj (due.symm.trans due')
    obtain hgoes | hover := phaseAfter_due_or_ended e.trace cursor v
    · exact .inl hgoes
    · -- a success and a failure both are ends
      right
      rw [(ended_of_phase (e := { e with world := w, phase := phaseAfter e.trace cursor v })
        hover).idle]
      exact Bool.false_ne_true

/-- The loop gets to the end within as many steps as there are entries left, and one. -/
theorem ends_stepWhileExecuting {cursor limit : Nat} (due : e.phase = .running cursor false)
    (hlimit : max (cursor + 1) e.trace.length ≤ cursor + limit) :
    e.Ends (e.stepWhileExecuting limit).1.outcome (e.stepWhileExecuting limit).2.2 ∧
      ((e.stepWhileExecuting limit).2.2 = none →
        (e.stepWhileExecuting limit).1.isExecuting = false) := by
  -- on the limit; what is left of the trace shrinks along with it
  induction limit generalizing e cursor with
  | zero => omega
  | succ limit ih =>
    cases hstep : e.stepAt cursor with
    | error failure =>
      have hloop : e.stepWhileExecuting (limit + 1) = (e, [], some failure) := by
        simp only [stepWhileExecuting, due, hstep]
      have hrefused : e.step none = .error failure := by
        rw [step_of_due current_none due, hstep]
        rfl
      rw [hloop]
      exact ⟨.refused hrefused, fun hnone => absurd hnone (Option.some_ne_none failure)⟩
    | ok p =>
      obtain ⟨e₁, r⟩ := p
      have hs := (stepAt_eq_ok_iff due).mp hstep
      rw [stepWhileExecuting_of_steps hs]
      obtain ⟨hnext, hmore⟩ | hover := hs.due_or_over due
      · have htrace := hs.trace_eq
        obtain ⟨hends, hidle⟩ := ih hnext (by rw [htrace]; omega)
        exact ⟨.goes hs hends, hidle⟩
      · rw [stepWhileExecuting_of_not_executing hover]
        exact ⟨.goes hs (.done hover), fun _ => Bool.eq_false_iff.mpr hover⟩

/-! ## Back from the edit to the beginning -/

/-- A step that keeps the run going is taken under another trace as well, if that has the same
entry under the cursor.  Whether the run goes on is up to the other trace. -/
theorem Steps.setTrace {cursor : Nat} {trace' : Trace} (hs : e.Steps e₁ r)
    (due : e.phase = .running cursor false) (hnext : e₁.phase = .running (cursor + 1) false)
    (hentry : trace'[cursor]? = e.trace[cursor]?) :
    ∃ r', (e.setTrace trace').Steps
      { e₁ with
        trace := trace'
        phase := if cursor + 1 < trace'.length then .running (cursor + 1) false
          else .failed .goalNotReached } r' := by
  cases hs with
  | exhausted due' past => exact nomatch hnext
  | @acts cursor' a w v due' entry effect =>
    obtain ⟨rfl, -⟩ := Phase.running.inj (due.symm.trans due')
    obtain ⟨-, -, filled, rfl⟩ := eq_of_phaseAfter hnext
    exact ⟨_, .acts (e := e.setTrace trace') due (hentry.trans entry) effect⟩

/-- Whoever steps first and replaces the trace afterwards ends as whoever does so before. -/
theorem Ends.before_step {cursor : Nat} {trace' : Trace} (hs : e.Steps e₁ r)
    (due : e.phase = .running cursor false) (hnext : e₁.phase = .running (cursor + 1) false)
    (hentry : trace'[cursor]? = e.trace[cursor]?) (h : (e₁.setTrace trace').Ends o f) :
    (e.setTrace trace').Ends o f := by
  obtain ⟨r', hs'⟩ := hs.setTrace due hnext hentry
  by_cases hmore : cursor + 1 < trace'.length
  · -- both are due at the next entry
    rw [if_pos hmore, ← hnext] at hs'
    exact .goes hs' h
  · -- the new trace is over: this step fails, and the one behind the edit finds no entry
    rw [if_neg hmore] at hs'
    have hpast : trace'[cursor + 1]? = none := List.getElem?_eq_none (by omega)
    have hlate : (e₁.setTrace trace').Ends _ none :=
      .goes (.exhausted hnext hpast) (.done Bool.false_ne_true)
    obtain ⟨rfl, rfl⟩ := h.unique hlate
    exact .goes hs' (.done Bool.false_ne_true)

/-- A run that is over stays over. -/
theorem serve_steps_of_not_executing (h : ¬ e.isExecuting = true) (k : Nat) :
    (e.serve (List.replicate k (.step none))).1 = e := by
  induction k with
  | zero => rfl
  | succ k ih =>
    have hcall : (e.call (.step none)).1 = e := by
      rw [call_step, step_of_not_due fun hdue => h hdue.2]
    rw [List.replicate_succ, serve_cons, hcall, ih]

/-- However many steps were taken before the edit, the run ends as if it had been made before
the first of them. -/
theorem Ends.before_steps {cursor k : Nat} {trace' : Trace}
    (due : e.phase = .running cursor false)
    (hexec : (e.serve (List.replicate k (.step none))).1.isExecuting = true)
    (hentries : ∀ i < cursor + k, trace'[i]? = e.trace[i]?)
    (h : ((e.serve (List.replicate k (.step none))).1.setTrace trace').Ends o f) :
    (e.setTrace trace').Ends o f := by
  induction k generalizing e cursor with
  | zero => exact h
  | succ k ih =>
    rw [List.replicate_succ, serve_cons] at hexec h
    cases hstep : e.stepAt cursor with
    | error failure =>
      -- a refused step changes nothing
      have hcall : (e.call (.step none)).1 = e := by
        rw [call_step, step_of_due current_none due, hstep]
        rfl
      rw [hcall] at hexec h
      exact ih due hexec (fun i hi => hentries i (by omega)) h
    | ok p =>
      obtain ⟨e₁, r⟩ := p
      have hs := (stepAt_eq_ok_iff due).mp hstep
      have hcall : (e.call (.step none)).1 = e₁ := by
        rw [call_step, step_none_of_steps hs]
      rw [hcall] at hexec h
      obtain ⟨hnext, -⟩ | hover := hs.due_or_over due
      · have hrest : ∀ i < cursor + 1 + k, trace'[i]? = e₁.trace[i]? := by
          intro i hi
          rw [hs.trace_eq]
          exact hentries i (by omega)
        apply Ends.before_step hs due hnext (hentries cursor (by omega))
        exact ih hnext hexec hrest h
      · rw [serve_steps_of_not_executing hover] at hexec
        exact absurd hexec hover

/-! ## The edit -/

/-- The trace of a run is replaced after `k` steps, while it executes, by one that has the same
first `k` entries (and may be over there).  Stepped for as long as it executes, the run then
ends as a run does that has the new trace from the start: with the same status, reason, robot,
grid and moves, or refused at the same loop if the new trace holds one; one without loops is
never refused.  A limit as long as the new trace is enough for both. -/
theorem outcome_setTrace (m : Maze) (hm : m.WellFormed) (trace trace' : Trace)
    (initial : Option Pose) (k : Nat)
    (hrun : ((create m trace initial).serve
      (.start :: List.replicate k (.step none))).1.isExecuting = true)
    (hagree : trace'.take k = trace.take k) (limit : Nat) (hlimit : max 1 trace'.length ≤ limit) :
    let e := ((create m trace initial).serve (.start :: List.replicate k (.step none))).1
    let edited := (e.call (.setTrace trace')).1.stepWhileExecuting limit
    let fresh := (create m trace' initial).start.1.stepWhileExecuting limit
    edited.1.outcome = fresh.1.outcome ∧ edited.2.2 = fresh.2.2 ∧
      (fresh.2.2 = none → edited.1.isExecuting = false ∧ fresh.1.isExecuting = false) ∧
      (Command.Linear trace' → fresh.2.2 = none) := by
  intro e edited fresh
  let begun := (create m trace initial).start.1
  have he : e = (begun.serve (List.replicate k (.step none))).1 := rfl
  have hentries : ∀ i < 0 + k, trace'[i]? = begun.trace[i]? := by
    intro i hi
    have htake := congrArg (fun entries : Trace => entries[i]?) hagree
    simp only [List.getElem?_take_of_lt (show i < k by omega)] at htake
    exact htake
  -- the edited run, from wherever it is
  obtain ⟨cursor, due⟩ := isExecuting_iff.mp hrun
  have hedited : (e.setTrace trace').Ends edited.1.outcome edited.2.2 ∧
      (edited.2.2 = none → edited.1.isExecuting = false) := by
    have hedit : (e.setTrace trace').phase = .running cursor false := due
    apply ends_stepWhileExecuting hedit
    show max (cursor + 1) trace'.length ≤ cursor + limit
    omega
  -- the run from the start
  have hfresh : (begun.setTrace trace').Ends fresh.1.outcome fresh.2.2 ∧
      (fresh.2.2 = none → fresh.1.isExecuting = false) := by
    have hstart : (begun.setTrace trace').phase = .running 0 false := rfl
    apply ends_stepWhileExecuting hstart
    show max (0 + 1) trace'.length ≤ 0 + limit
    omega
  have hback : (begun.setTrace trace').Ends edited.1.outcome edited.2.2 := by
    have hstart : begun.phase = .running 0 false := rfl
    exact Ends.before_steps hstart hrun hentries hedited.1
  obtain ⟨houtcome, hfailure⟩ := hback.unique hfresh.1
  refine ⟨houtcome, hfailure, fun hnone => ?_, fun hlin => ?_⟩
  · exact ⟨hedited.2 (hfailure.trans hnone), hfresh.2 hnone⟩
  · obtain ⟨e', rs, hloop, -⟩ := stepWhileExecuting_start_outcome hm hlin initial hlimit
    show ((create m trace' initial).start.1.stepWhileExecuting limit).2.2 = none
    rw [hloop]

/-- The hole is filled and stepped onto, and then nothing is left of the trace: the edited run
takes one more step and finds no entry, the run from the start fails with its last one. -/
theorem outcome_setTrace_trench :
    let trace : Trace := [.basic .ifHole, .basic .forward, .basic .forward]
    let trace' : Trace := [.basic .ifHole, .basic .forward]
    let e := ((create .trench trace).serve (.start :: List.replicate 2 (.step none))).1
    let edited := (e.call (.setTrace trace')).1.stepWhileExecuting 2
    let fresh := (create .trench trace').start.1.stepWhileExecuting 2
    Maze.trench.WellFormed ∧ e.isExecuting = true ∧ trace'.take 2 = trace.take 2 ∧
      max 1 trace'.length ≤ 2 ∧ Command.Linear trace' ∧
      edited.2.1.map StepResult.command = [none] ∧
      fresh.2.1.map StepResult.command = [some (.basic .ifHole), some (.basic .forward)] ∧
      edited.1.outcome = fresh.1.outcome ∧ edited.1.isExecuting = false := by
  intro trace trace' e edited fresh
  have hrun : e.isExecuting = true := by decide
  have hlin : Command.Linear trace' := by
    simp [Command.Linear, trace']
  obtain ⟨houtcome, -, hidle, hnone⟩ :=
    outcome_setTrace .trench Maze.trench_wellFormed trace trace' none 2 hrun rfl 2 (by decide)
  exact ⟨Maze.trench_wellFormed, hrun, rfl, by decide, hlin, by decide, by decide, houtcome,
    (hidle (hnone hlin)).1⟩

end Executor

end MazeRobot
