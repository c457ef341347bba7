import MazeRobot.Proofs.Session.Transition

/-!
# The end of a tick

A tick notes a ticket, waits, and only then steps.  Its ticket is due in a session if it
names the present load and the present generation and the run is executing (`Ticket.Due`).
A tick that is due takes one step, and the listener is told (`resolve_of_due`); if the
listener fails so does the tick, but the step has been taken.  Any other tick does nothing at
all (`resolve_of_not_due`).

What happens while the tick waits can spoil the ticket only by a transition
(`due_iff_of_leads`).
-/

namespace MazeRobot

/-- The ticket belongs to the run of a session, and the run is executing. -/
def Ticket.Due (t : Ticket) (s : Session) : Prop :=
  ∃ e, s.executor = some e ∧ t = ⟨s.loads, e.generation⟩ ∧ e.isExecuting = true

namespace Session

variable {s s' : Session} {e e' : Executor} {t : Ticket}

@[simp] theorem executor_log (s : Session) (kind : LogKind) (text : String) (indent : Nat) :
    (s.log kind text indent).executor = s.executor := by
  unfold log
  split <;> rfl

@[simp] theorem script_log (s : Session) (kind : LogKind) (text : String) (indent : Nat) :
    (s.log kind text indent).script = s.script := by
  unfold log
  split <;> rfl

@[simp] theorem listening_log (s : Session) (kind : LogKind) (text : String) (indent : Nat) :
    (s.log kind text indent).listening = s.listening := by
  unfold log
  split <;> rfl

@[simp] theorem executor_logStep (s : Session) (e : Executor) (r : StepResult) :
    (s.logStep e r).executor = s.executor := by
  unfold logStep
  dsimp only
  split <;> simp only [executor_log]

@[simp] theorem listening_logStep (s : Session) (e : Executor) (r : StepResult) :
    (s.logStep e r).listening = s.listening := by
  unfold logStep
  dsimp only
  split <;> simp only [listening_log]

/-! ## Telling the listener -/

/-- To tell a listener of a run writes something into the journal. -/
theorem journal_lt_notify (hs : s.executor = some e) (hlisten : s.listening = true) :
    s.journal.length < s.notify.1.journal.length :=
  (shown_notifyUpTo s.script.length s).journal_lt hs hlisten

/-- Where nobody listens nothing is told. -/
theorem notify_of_not_listening (hlisten : ¬ s.listening = true) : s.notify = (s, .ok ()) := by
  unfold notify notifyUpTo
  cases s.executor with
  | none => rfl
  | some e => exact if_neg hlisten

/-- A step that the listener is told about has changed the session. -/
theorem notify_logStep_ne {r : StepResult} (hs : s.executor = some e) (hne : e' ≠ e) :
    ({ s with executor := some e' }.logStep e' r).notify.1 ≠ s := by
  intro heq
  have hexec : ({ s with executor := some e' }.logStep e' r).executor = some e' :=
    executor_logStep _ _ _
  have hlistening : ({ s with executor := some e' }.logStep e' r).listening = s.listening :=
    listening_logStep _ _ _
  by_cases hlisten : s.listening = true
  · -- deeds may take the run back, but the journal only grows
    have hlt := journal_lt_notify hexec (hlistening.trans hlisten)
    have hle := (leads_logStep { s with executor := some e' } e' r).journal
    rw [heq] at hlt
    exact absurd hlt (Nat.not_lt.mpr hle)
  · -- nobody acts on the session after the step
    rw [← hlistening] at hlisten
    rw [notify_of_not_listening hlisten] at heq
    dsimp only at heq
    rw [heq, hs] at hexec
    exact hne (Option.some.inj hexec).symm

/-! ## The end of a tick -/

/-- A tick that is not due does nothing at all. -/
theorem resolve_of_not_due (hdue : ¬ t.Due s) : s.resolve t = (s, .ok none) := by
  unfold resolve resolveThen
  cases hs : s.executor with
  | none => rfl
  | some e =>
    by_cases hload : t.load = s.loads
    -- of the load but not due: the generation has moved on or the run has ended
    · have hskip : ¬ (e.Current (some (t.generation : Int)) ∧ e.isExecuting = true) := by
        rintro ⟨hcurrent, hexec⟩
        have hgen : (t.generation : Int) = e.generation := hcurrent _ rfl
        refine hdue ⟨e, hs, ?_, hexec⟩
        rw [← hload, ← Int.ofNat_inj.mp hgen]
      simp only [if_pos hload, Executor.step_of_not_due hskip]
    · simp only [if_neg hload]

/-- A tick that is due takes the step that is due now. -/
theorem resolve_of_due (hsound : s.Sound) (hdue : t.Due s) :
    ∃ e e' r, s.executor = some e ∧ e.Steps e' r ∧
      s.resolve t =
        reply (fun _ => some r) ({ s with executor := some e' }.logStep e' r).notify := by
  obtain ⟨e, hs, rfl, hexec⟩ := hdue
  have he := hsound.executor e hs
  obtain ⟨e', r, hsteps⟩ := Executor.exists_steps he.square he.linear hexec
  have hstep : e.step (some (e.generation : Int)) = .ok (e', some r) :=
    Executor.step_eq_some_iff.mpr ⟨fun g hg => (Option.mem_some_iff.mp hg).symm, hsteps⟩
  refine ⟨e, e', r, hs, hsteps, ?_⟩
  unfold resolve resolveThen
  simp only [hs, if_true, hstep]

/-- A ticket is spoilt by transitions and by nothing else. -/
theorem due_iff_of_leads {ts : List Transition} (hleads : s.Leads ts s')
    (hs : s.executor = some e) :
    Ticket.Due ⟨s.loads, e.generation⟩ s' ↔ ts = [] ∧ s'.isExecuting = true := by
  constructor
  · rintro ⟨e', hs', heq, hexec⟩
    obtain ⟨hload, hgen⟩ := Ticket.mk.inj heq
    -- as many loads as before, so none in between
    have hcount := hleads.loads
    have hnoload : .loaded ∉ ts := List.count_eq_zero.mp (by omega)
    -- and the generation rises with every other transition
    have hlength := hleads.generation hnoload
    rw [hs, hs', Option.map_some, Option.map_some, Option.some.injEq] at hlength
    have hnil : ts = [] := List.length_eq_zero_iff.mp (by omega)
    refine ⟨hnil, ?_⟩
    unfold isExecuting
    rw [hs']
    exact hexec
  · rintro ⟨rfl, hexec⟩
    have hgen := hleads.generation List.not_mem_nil
    rw [hs, Option.map_some, Option.map_eq_some_iff] at hgen
    obtain ⟨e', hs', hgen⟩ := hgen
    unfold isExecuting at hexec
    rw [hs'] at hexec
    refine ⟨e', hs', ?_, hexec⟩
    rw [hleads.loads, hgen]
    rfl

end Session

end MazeRobot
