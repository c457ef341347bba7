import MazeRobot.Proofs.Interpreter

/-!
# What a step does

`Executor.Steps` lists the two ways in which a step changes an executor: the trace is
over, or the entry under the cursor is an action and takes effect.  `step_eq_some_iff` and
`step_eq_none_iff` say when a step does one of them and when it does nothing, so that no
later proof unfolds `step`.  A step that is refused leaves no executor behind at all.

On a square overlay only a loop is refused (`step_eq_error_iff`), so on a trace without loops
no step is (`exists_steps`).
-/

namespace MazeRobot

namespace Executor

/-- A step belongs to the present generation if its token says so or if it has none. -/
def Current (e : Executor) (token : Option Int) : Prop := ∀ g ∈ token, g = (e.generation : Int)

/-- The change that a step makes, and what it reports. -/
inductive Steps (e : Executor) : Executor → StepResult → Prop where
  /-- There is no entry under the cursor. -/
  | exhausted {cursor : Nat} (due : e.phase = .running cursor false)
      (past : e.trace[cursor]? = none) :
      Steps e { e with phase := .failed .goalNotReached }
        ⟨cursor, none, e.world.robot, .failed, some .goalNotReached, none⟩
  /-- The entry under the cursor is an action. -/
  | acts {cursor : Nat} {a : Action} {w : World} {v : Verdict}
      (due : e.phase = .running cursor false)
      (entry : e.trace[cursor]? = some (.basic a)) (effect : e.world.perform a = some (w, v)) :
      Steps e { e with world := w, phase := phaseAfter e.trace cursor v }
        ⟨cursor, some (.basic a), w.robot, (phaseAfter e.trace cursor v).status,
          (phaseAfter e.trace cursor v).reason?, filledBy v⟩

variable {e e' : Executor} {r : StepResult} {token : Option Int}

/-- An executing run has an entry due. -/
theorem isExecuting_iff : e.isExecuting = true ↔ ∃ cursor, e.phase = .running cursor false := by
  unfold isExecuting Phase.isExecuting
  cases e.phase with
  | running cursor paused => cases paused <;> simp
  | _ => simp

/-- Only an executing run is changed by a step. -/
theorem Steps.isExecuting (h : e.Steps e' r) : e.isExecuting = true := by
  cases h with
  | exhausted due _ | acts due _ _ => exact isExecuting_iff.mpr ⟨_, due⟩

/-- A step at the cursor is one of the two changes, and every change is such a step. -/
theorem stepAt_eq_ok_iff {cursor : Nat} (due : e.phase = .running cursor false) :
    e.stepAt cursor = .ok (e', r) ↔ e.Steps e' r := by
  constructor
  · intro h
    -- two look-ups decide, that of the entry and that of the tile ahead
    unfold stepAt at h
    cases hentry : e.trace[cursor]? with
    | none =>
      simp only [hentry, Except.ok.injEq, Prod.mk.injEq] at h
      obtain ⟨rfl, rfl⟩ := h
      exact .exhausted due hentry
    | some c =>
      cases c with
      | loop count body => simp only [hentry, reduceCtorEq] at h
      | basic a =>
        simp only [hentry] at h
        cases heffect : e.world.perform a with
        | none => simp only [heffect, reduceCtorEq] at h
        | some p =>
          simp only [heffect, Except.ok.injEq, Prod.mk.injEq] at h
          obtain ⟨rfl, rfl⟩ := h
          exact .acts due hentry heffect
  · intro h
    unfold stepAt
    cases h with
    | exhausted due' past =>
      -- there is only one cursor
      obtain ⟨rfl, -⟩ := Phase.running.inj (due.symm.trans due')
      rw [past]
      rfl
    | acts due' entry effect =>
      obtain ⟨rfl, -⟩ := Phase.running.inj (due.symm.trans due')
      simp only [entry, effect]
      rfl

/-- Whether a token fits can be computed. -/
theorem current_iff : e.Current token ↔ token.all (· == (e.generation : Int)) = true := by
  cases token with
  | none => simp [Current]
  | some g => simp [Current]

/-- A step that is not due does nothing. -/
theorem step_of_not_due (h : ¬ (e.Current token ∧ e.isExecuting = true)) :
    e.step token = .ok (e, none) := by
  unfold step
  rw [current_iff] at h
  split
  · rename_i hcurrent
    -- the token fits, so it is the run that does not execute
    have hidle : ¬ e.isExecuting = true := fun hexec => h ⟨hcurrent, hexec⟩
    rw [isExecuting_iff] at hidle
    split
    · rename_i cursor due
      exact absurd ⟨cursor, due⟩ hidle
    · rfl
  · rfl

/-- A step that is due is taken at the cursor. -/
theorem step_of_due {cursor : Nat} (hcurrent : e.Current token)
    (due : e.phase = .running cursor false) :
    e.step token = (e.stepAt cursor).map fun (e', r) => (e', some r) := by
  unfold step
  rw [if_pos (current_iff.mp hcurrent), due]

/-- When a step applies, and what it does then. -/
theorem step_eq_some_iff :
    e.step token = .ok (e', some r) ↔ e.Current token ∧ e.Steps e' r := by
  by_cases h : e.Current token ∧ e.isExecuting = true
  · obtain ⟨hcurrent, hexec⟩ := h
    obtain ⟨cursor, due⟩ := isExecuting_iff.mp hexec
    rw [step_of_due hcurrent due, ← stepAt_eq_ok_iff due]
    cases e.stepAt cursor with
    | error f => simp [Except.map]
    | ok p => simp [Except.map, Prod.ext_iff, hcurrent]
  · rw [step_of_not_due h]
    constructor
    · exact nofun
    · exact fun hs => absurd ⟨hs.1, hs.2.isExecuting⟩ h

/-- When a step does nothing.  It then leaves the executor as it was. -/
theorem step_eq_none_iff :
    e.step token = .ok (e', none) ↔ e' = e ∧ ¬ (e.Current token ∧ e.isExecuting = true) := by
  by_cases h : e.Current token ∧ e.isExecuting = true
  · obtain ⟨hcurrent, hexec⟩ := h
    obtain ⟨cursor, due⟩ := isExecuting_iff.mp hexec
    rw [step_of_due hcurrent due]
    cases e.stepAt cursor with
    | error f => simp [Except.map, hcurrent, hexec]
    | ok p => simp [Except.map, hcurrent, hexec]
  · rw [step_of_not_due h]
    simp only [h, Except.ok.injEq, Prod.mk.injEq, and_true, not_false_eq_true]
    exact eq_comm

theorem current_none : e.Current none := fun _ hg => nomatch hg

/-- Without a token a step that can be taken is taken. -/
theorem step_none_of_steps (h : e.Steps e' r) : e.step none = .ok (e', some r) :=
  step_eq_some_iff.mpr ⟨current_none, h⟩

/-- Only a step that is due can be refused. -/
theorem due_of_refused {failure : Failure} (h : e.step token = .error failure) :
    e.Current token ∧ e.isExecuting = true := by
  by_cases hdue : e.Current token ∧ e.isExecuting = true
  · exact hdue
  · rw [step_of_not_due hdue] at h
    exact nomatch h

/-- What a refused step has found under the cursor: a loop, or an action that looks for a tile
where its row has none. -/
theorem exists_of_step_error {failure : Failure} (h : e.step token = .error failure) :
    e.Current token ∧ ∃ cursor, e.phase = .running cursor false ∧
      ((∃ count body, e.trace[cursor]? = some (.loop count body) ∧
          failure = .loopInTrace cursor) ∨
        ∃ a, e.trace[cursor]? = some (.basic a) ∧ e.world.perform a = none ∧
          failure = .cell .reading) := by
  obtain ⟨hcurrent, hexec⟩ := due_of_refused h
  obtain ⟨cursor, due⟩ := isExecuting_iff.mp hexec
  refine ⟨hcurrent, cursor, due, ?_⟩
  rw [step_of_due hcurrent due] at h
  unfold stepAt at h
  -- at the end of the trace there is nothing to refuse; a loop is refused as such
  cases hentry : e.trace[cursor]? with
  | none => simp [hentry, Except.map] at h
  | some c =>
    cases c with
    | loop count body =>
      simp only [hentry, Except.map, Except.error.injEq] at h
      exact .inl ⟨count, body, rfl, h.symm⟩
    | basic a =>
      cases heffect : e.world.perform a with
      | none =>
        simp only [hentry, heffect, Except.map, Except.error.injEq] at h
        exact .inr ⟨a, rfl, heffect, h.symm⟩
      | some p => simp [hentry, heffect, Except.map] at h

/-- On a square overlay only a loop under the cursor is refused. -/
theorem step_eq_error_iff {failure : Failure} (hsq : e.world.overlay.Square) :
    e.step token = .error failure ↔ e.Current token ∧ ∃ cursor count body,
      e.phase = .running cursor false ∧ e.trace[cursor]? = some (.loop count body) ∧
        failure = .loopInTrace cursor := by
  constructor
  · intro h
    obtain ⟨hcurrent, cursor, due, ⟨count, body, hfound⟩ | ⟨a, -, hnone, -⟩⟩ :=
      exists_of_step_error h
    · exact ⟨hcurrent, cursor, count, body, due, hfound⟩
    · -- on a square overlay every action takes effect
      obtain ⟨w, v, heffect, -⟩ := World.exists_perform hsq a
      rw [hnone] at heffect
      exact nomatch heffect
  · rintro ⟨hcurrent, cursor, count, body, due, entry, rfl⟩
    rw [step_of_due hcurrent due, stepAt, entry]
    rfl

/-- A run goes on only at the next entry. -/
theorem eq_of_phaseAfter {trace : Trace} {cursor next : Nat} {v : Verdict} {paused : Bool}
    (h : phaseAfter trace cursor v = .running next paused) :
    next = cursor + 1 ∧ paused = false ∧ ∃ filled, v = .continues filled := by
  unfold phaseAfter at h
  split at h
  · rename_i filled
    split at h
    · obtain ⟨rfl, rfl⟩ := Phase.running.inj h
      exact ⟨rfl, rfl, filled, rfl⟩
    · exact nomatch h
  · exact nomatch h
  · exact nomatch h

/-- No action takes a run back to idle. -/
theorem phaseAfter_ne_idle (trace : Trace) (cursor : Nat) (v : Verdict) :
    phaseAfter trace cursor v ≠ .idle := by
  unfold phaseAfter
  split
  · split <;> exact nofun
  · exact nofun
  · exact nofun

/-- A step stays within its generation. -/
theorem Steps.generation_eq (hs : e.Steps e' r) : e'.generation = e.generation := by
  cases hs with
  | exhausted due past => rfl
  | acts due entry effect => rfl

/-- A step never changes the trace. -/
theorem Steps.trace_eq (hs : e.Steps e' r) : e'.trace = e.trace := by
  cases hs with
  | exhausted due past => rfl
  | acts due entry effect => rfl

/-- A step never changes the authoritative maze. -/
theorem Steps.maze_eq (hs : e.Steps e' r) : e'.maze = e.maze := by
  cases hs with
  | exhausted due past => rfl
  | acts due entry effect => rfl

/-- No step leaves the executor as it was: the run ends or its cursor moves. -/
theorem Steps.ne (hs : e.Steps e' r) : e' ≠ e := by
  intro heq
  have hphase := congrArg Executor.phase heq
  cases hs with
  | exhausted due past =>
    rw [due] at hphase
    exact nomatch hphase
  | acts due entry effect =>
    rw [due] at hphase
    obtain ⟨hnext, -⟩ := eq_of_phaseAfter hphase
    omega

/-- On a square overlay and a trace without loops an executing run can take its step. -/
theorem exists_steps (hsq : e.world.overlay.Square) (hlin : Command.Linear e.trace)
    (hexec : e.isExecuting = true) : ∃ e' r, e.Steps e' r := by
  obtain ⟨cursor, due⟩ := isExecuting_iff.mp hexec
  cases hentry : e.trace[cursor]? with
  | none => exact ⟨_, _, .exhausted due hentry⟩
  | some c =>
    obtain ⟨a, rfl⟩ := hlin c (List.mem_of_getElem? hentry)
    obtain ⟨w, v, heffect, -⟩ := World.exists_perform hsq a
    exact ⟨_, _, .acts due hentry heffect⟩

end Executor

end MazeRobot
