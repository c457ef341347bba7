import MazeRobot.Proofs.Executor.Step

/-!
# From the first step to the last

`Executor.Walks` follows a run from step to step and keeps what each step reports.  An
executing run on a square overlay and a trace without loops can be followed to an end, which is
a success or a failure with its reason (`exists_walks`): what is left of the trace shrinks with
every step that keeps the run going.  The steps report the entries of the trace one after the
other, and they are no more than there are entries, unless the very first finds none.
-/

namespace MazeRobot

namespace Executor

/-- Steps in a row, and what each of them reports. -/
inductive Walks : Executor → List StepResult → Executor → Prop where
  | stays (e : Executor) : Walks e [] e
  | goes {e e₁ e' : Executor} {r : StepResult} {rs : List StepResult} (first : e.Steps e₁ r)
      (rest : Walks e₁ rs e') : Walks e (r :: rs) e'

/-- The run is over, and the reports say how: a success has no reason, a failure has one. -/
structure Ended (e : Executor) : Prop where
  idle : e.isExecuting = false
  told : (e.snapshot.status = .success ∧ e.snapshot.reason = none) ∨
    (e.snapshot.status = .failed ∧ e.snapshot.reason.isSome = true)

variable {e e' e₁ e₂ : Executor} {r r₁ r₂ : StepResult} {rs rs' : List StepResult}

/-- An executor has one step to take at most. -/
theorem Steps.unique (h₁ : e.Steps e₁ r₁) (h₂ : e.Steps e₂ r₂) : e₁ = e₂ ∧ r₁ = r₂ := by
  obtain ⟨cursor, due⟩ := isExecuting_iff.mp h₁.isExecuting
  have hsame := ((stepAt_eq_ok_iff due).mpr h₁).symm.trans ((stepAt_eq_ok_iff due).mpr h₂)
  exact Prod.mk.inj (Except.ok.inj hsame)

/-- Steps stay within their generation. -/
theorem Walks.generation_eq (h : e.Walks rs e') : e'.generation = e.generation := by
  induction h with
  | stays e => rfl
  | goes first rest ih => exact ih.trans first.generation_eq

/-- A walk can be cut in two anywhere. -/
theorem Walks.split (h : e.Walks (rs ++ rs') e') : ∃ e₁, e.Walks rs e₁ ∧ e₁.Walks rs' e' := by
  induction rs generalizing e with
  | nil => exact ⟨e, .stays e, h⟩
  | cons r rs ih =>
    cases h with
    | goes first rest =>
      obtain ⟨e₁, hfront, hback⟩ := ih rest
      exact ⟨e₁, .goes first hfront, hback⟩

/-- A walk that goes on begins with a run that executes. -/
theorem Walks.isExecuting (h : e.Walks rs e') (hrs : rs ≠ []) : e.isExecuting = true := by
  cases h with
  | stays => exact absurd rfl hrs
  | goes first rest => exact first.isExecuting

/-- After an action the next entry is due, or the run is over. -/
theorem phaseAfter_due_or_ended (trace : Trace) (cursor : Nat) (v : Verdict) :
    (phaseAfter trace cursor v = .running (cursor + 1) false ∧ cursor + 1 < trace.length) ∨
      phaseAfter trace cursor v = .success ∨
      ∃ reason, phaseAfter trace cursor v = .failed reason := by
  unfold phaseAfter
  split
  · split
    · exact .inl ⟨rfl, ‹_›⟩
    · exact .inr (.inr ⟨_, rfl⟩)
  · exact .inr (.inl rfl)
  · exact .inr (.inr ⟨_, rfl⟩)

/-- A run that has succeeded or failed is over. -/
theorem ended_of_phase (h : e.phase = .success ∨ ∃ reason, e.phase = .failed reason) :
    e.Ended := by
  obtain h | ⟨reason, h⟩ := h
  · exact ⟨congrArg Phase.isExecuting h, .inl ⟨congrArg Phase.status h, congrArg Phase.reason? h⟩⟩
  · refine ⟨congrArg Phase.isExecuting h, .inr ⟨congrArg Phase.status h, ?_⟩⟩
    show e.phase.reason?.isSome = true
    rw [h]
    rfl

/-- The reports are about the entries of the trace from `cursor` on, none of them left out. -/
def Reports (entries : Trace) (cursor : Nat) (rs : List StepResult) : Prop :=
  ∀ i (h : i < rs.length), rs[i].index = cursor + i ∧ rs[i].command = entries[cursor + i]?

theorem reports_cons {entries : Trace} {cursor : Nat} (hindex : r.index = cursor)
    (hcommand : r.command = entries[cursor]?) (hrest : Reports entries (cursor + 1) rs) :
    Reports entries cursor (r :: rs) := by
  intro i h
  cases i with
  | zero => exact ⟨hindex, hcommand⟩
  | succ i =>
    have hnext := hrest i (Nat.lt_of_succ_lt_succ h)
    rwa [Nat.add_assoc, Nat.add_comm 1 i] at hnext

theorem reports_singleton {entries : Trace} {cursor : Nat} (hindex : r.index = cursor)
    (hcommand : r.command = entries[cursor]?) : Reports entries cursor [r] :=
  reports_cons hindex hcommand fun _ h => absurd h (Nat.not_lt_zero _)

/-- From any entry on, a run comes to an end. -/
theorem exists_walks {cursor : Nat} (due : e.phase = .running cursor false)
    (hlin : Command.Linear e.trace) (hsq : e.world.overlay.Square) :
    ∃ rs e', e.Walks rs e' ∧ e'.Ended ∧ Reports e.trace cursor rs ∧ 1 ≤ rs.length ∧
      cursor + rs.length ≤ max (cursor + 1) e.trace.length := by
  -- on what is left of the trace, which a step that keeps the run going makes shorter
  obtain ⟨left, hleft⟩ : ∃ left, e.trace.length ≤ cursor + left := ⟨e.trace.length, by omega⟩
  induction left generalizing e cursor with
  | zero =>
    have past : e.trace[cursor]? = none := List.getElem?_eq_none hleft
    have hend : e.Steps _ _ := .exhausted due past
    refine ⟨_, _, .goes hend (.stays _), ended_of_phase (.inr ⟨_, rfl⟩), ?_, Nat.le_refl 1, ?_⟩
    · exact reports_singleton rfl past.symm
    · exact Nat.le_max_left _ _
  | succ left ih =>
    cases hentry : e.trace[cursor]? with
    | none =>
      have hpast : e.trace.length ≤ cursor := List.getElem?_eq_none_iff.mp hentry
      exact ih due hlin hsq (by omega)
    | some c =>
      obtain ⟨a, rfl⟩ := hlin c (List.mem_of_getElem? hentry)
      obtain ⟨w, v, effect, hdoes⟩ := World.exists_perform hsq a
      have hstep := Steps.acts due hentry effect
      obtain ⟨hgoes, hmore⟩ | hover := phaseAfter_due_or_ended e.trace cursor v
      · -- the rest of the run begins one entry further on
        obtain ⟨rs, e', hwalk, hended, hreports, -, hlength⟩ :=
          ih (e := { e with world := w, phase := phaseAfter e.trace cursor v }) hgoes hlin
            (hdoes.square hsq) (by show e.trace.length ≤ cursor + 1 + left; omega)
        change cursor + 1 + rs.length ≤ max (cursor + 1 + 1) e.trace.length at hlength
        refine ⟨_, e', .goes hstep hwalk, hended, ?_, Nat.le_add_left 1 _, ?_⟩
        · exact reports_cons rfl hentry.symm hreports
        · rw [List.length_cons]
          omega
      · refine ⟨_, _, .goes hstep (.stays _), ended_of_phase hover, ?_, Nat.le_refl 1, ?_⟩
        · exact reports_singleton rfl hentry.symm
        · exact Nat.le_max_left _ _

end Executor

end MazeRobot
