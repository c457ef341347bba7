import MazeRobot.Proofs.Executor.Piecework

/-!
# The books of an executor

What an executor reports about itself (status, pause, cursor, reason, moves, generation)
always fits together, and fits what the caller has been told so far: the cursor counts the
steps applied since the last effective start, and the generation counts the starts and
pauses that took effect and the resets (`Coherent`).

This is said of an executor whose fields are separate and are assigned one by one (`Fields`), so
that it depends on every call assigning all the fields it has to, refused calls included.  The
proof has two halves.  Taken piece by piece, the calls come to what they come to on an
`Executor`, whose phase keeps status, pause, cursor and reason in step (`serve_fields`); what a
phase cannot say by itself is an invariant of the calls (`Tallied`).

Nothing is assumed of the maze, of the trace or of the calls: rows may be uneven, traces may
hold loops and be replaced under a running cursor, steps may carry any token, and calls may be
refused.
-/

namespace MazeRobot

namespace Answer

/-- The steps applied since the last start that began a run. -/
def appliedSinceStart (answers : List Answer) : Nat :=
  (answers.reverse.takeWhile fun a => !a.isStart).countP isApplied

/-- The starts and pauses that took effect, and the resets. -/
def transitions (answers : List Answer) : Nat := answers.countP isTransition

variable {answers : List Answer} {a : Answer}

/-- A start that begins a run makes the count of applied steps begin anew. -/
theorem appliedSinceStart_concat_start (ha : a.isStart = true) :
    appliedSinceStart (answers ++ [a]) = 0 := by
  simp [appliedSinceStart, ha]

/-- An answer that begins no run counts as one more applied step if it is that of one. -/
theorem appliedSinceStart_concat (ha : a.isStart = false) :
    appliedSinceStart (answers ++ [a]) =
      appliedSinceStart answers + if a.isApplied = true then 1 else 0 := by
  simp [appliedSinceStart, ha, List.countP_cons]

/-- An answer adds one to the transitions if it is that of a transition. -/
theorem transitions_concat :
    transitions (answers ++ [a]) =
      transitions answers + if a.isTransition = true then 1 else 0 := by
  simp [transitions, List.countP_append, List.countP_singleton]

end Answer

/-- The fields fit together and fit the answers given so far; `initial` is the pose that the
executor was made with. -/
structure Fields.Coherent (initial : Pose) (f : Fields) (answers : List Answer) : Prop where
  initial_eq : f.initial = initial
  paused_running : f.paused = true → f.status = .running
  cursor_eq_neg_one_iff : f.cursor = -1 ↔ f.status ≠ .running
  cursor_nonneg : f.status = .running → 0 ≤ f.cursor
  reason_isSome_iff : f.reason.isSome = true ↔ f.status = .failed
  idle_at_start : f.status = .idle → f.robot = initial ∧ f.moves = 0
  cursor_counts : f.status = .running → f.cursor = (Answer.appliedSinceStart answers : Int)
  moves_le_cursor : f.status = .running → (f.moves : Int) ≤ f.cursor
  generation_counts : f.generation = Answer.transitions answers

/-! ## Phases -/

namespace Phase

/-- Only a phase with a cursor is reported as running. -/
theorem status_eq_running_iff {p : Phase} :
    p.status = .running ↔ ∃ cursor paused, p = .running cursor paused := by
  cases p <;> simp [status]

/-- Only a run can be paused. -/
theorem isPaused_status {p : Phase} (h : p.isPaused = true) : p.status = .running := by
  cases p with
  | running cursor paused => rfl
  | _ => exact nomatch h

/-- Minus one is reported unless there is a cursor, which is never negative. -/
theorem cursor_eq_neg_one_iff {p : Phase} : p.cursor = -1 ↔ p.status ≠ .running := by
  cases p with
  | running cursor paused => simp only [Phase.cursor, status, ne_eq, not_true, iff_false]; omega
  | _ => simp [Phase.cursor, status]

/-- The cursor of a run is not negative. -/
theorem cursor_nonneg {p : Phase} (h : p.status = .running) : 0 ≤ p.cursor := by
  obtain ⟨cursor, paused, rfl⟩ := status_eq_running_iff.mp h
  exact Int.natCast_nonneg cursor

/-- Failed phases have a reason, and no other has. -/
theorem reason?_isSome_iff {p : Phase} : p.reason?.isSome = true ↔ p.status = .failed := by
  cases p <;> simp [reason?, status]

end Phase

namespace Executor

/-- What a phase cannot say by itself: where an idle robot stands, and what the cursor and
the generation count. -/
structure Tallied (e : Executor) (answers : List Answer) : Prop where
  idle_at_start : e.phase = .idle → e.world.robot = e.initial ∧ e.world.moves = 0
  cursor_counts : ∀ {cursor paused}, e.phase = .running cursor paused →
    cursor = Answer.appliedSinceStart answers
  moves_le_cursor : ∀ {cursor paused}, e.phase = .running cursor paused → e.world.moves ≤ cursor
  generation_counts : e.generation = Answer.transitions answers

variable {e e' : Executor} {answers : List Answer}

/-- The fields that come from a phase always fit together. -/
theorem Tallied.coherent (h : e.Tallied answers) : e.fields.Coherent e.initial answers where
  initial_eq := rfl
  paused_running := Phase.isPaused_status
  cursor_eq_neg_one_iff := Phase.cursor_eq_neg_one_iff
  cursor_nonneg := Phase.cursor_nonneg
  reason_isSome_iff := Phase.reason?_isSome_iff
  idle_at_start hidle := by
    refine h.idle_at_start ?_
    change e.phase.status = .idle at hidle
    cases hp : e.phase <;> simp_all [Phase.status]
  cursor_counts hrun := by
    obtain ⟨cursor, paused, hp⟩ := Phase.status_eq_running_iff.mp hrun
    show e.phase.cursor = _
    rw [hp, ← h.cursor_counts hp]
    rfl
  moves_le_cursor hrun := by
    obtain ⟨cursor, paused, hp⟩ := Phase.status_eq_running_iff.mp hrun
    show (e.world.moves : Int) ≤ e.phase.cursor
    rw [hp]
    exact Int.ofNat_le.mpr (h.moves_le_cursor hp)
  generation_counts := h.generation_counts

/-! ## What each call does to the books -/

/-- A call that leaves run and generation alone and answers accordingly. -/
theorem Tallied.kept {a : Answer} (h : e.Tallied answers) (hphase : e'.phase = e.phase)
    (hworld : e'.world = e.world) (hinitial : e'.initial = e.initial)
    (hgen : e'.generation = e.generation) (hstart : a.isStart = false)
    (happlied : a.isApplied = false) (htrans : a.isTransition = false) :
    e'.Tallied (answers ++ [a]) := by
  -- an answer of none of the three kinds leaves every count as it was
  have hcount : Answer.appliedSinceStart (answers ++ [a]) = Answer.appliedSinceStart answers := by
    rw [Answer.appliedSinceStart_concat hstart, happlied]
    rfl
  refine ⟨?_, ?_, ?_, ?_⟩
  · rw [hphase, hworld, hinitial]
    exact h.idle_at_start
  · intro cursor paused hp
    rw [hcount]
    exact h.cursor_counts (hphase.symm.trans hp)
  · intro cursor paused hp
    rw [hworld]
    exact h.moves_le_cursor (hphase.symm.trans hp)
  · rw [hgen, h.generation_counts, Answer.transitions_concat, htrans]
    rfl

/-- Going back to the beginning, to idle or to the first entry. -/
theorem Tallied.rewind {a : Answer} {phase : Phase} (h : e.Tallied answers)
    (hphase : phase = .idle ∨ phase = .running 0 false ∧ a.isStart = true)
    (htrans : a.isTransition = true) : (e.rewind phase).Tallied (answers ++ [a]) := by
  refine ⟨fun _ => ⟨rfl, rfl⟩, ?_, fun _ => Nat.zero_le _, ?_⟩
  · intro cursor paused hp
    change phase = .running cursor paused at hp
    rcases hphase with rfl | ⟨rfl, hstart⟩
    · exact nomatch hp
    · obtain ⟨rfl, -⟩ := Phase.running.inj hp
      rw [Answer.appliedSinceStart_concat_start hstart]
  · show e.generation + 1 = _
    rw [h.generation_counts, Answer.transitions_concat, htrans]
    rfl

/-- A pause holds the run where it is. -/
theorem Tallied.pause {cursor : Nat} (h : e.Tallied answers)
    (due : e.phase = .running cursor false) :
    Tallied { e with phase := .running cursor true, generation := e.generation + 1 }
      (answers ++ [.paused true]) := by
  refine ⟨nofun, ?_, ?_, ?_⟩
  · intro cursor' paused hp
    obtain ⟨rfl, -⟩ := Phase.running.inj hp
    rw [Answer.appliedSinceStart_concat rfl]
    exact h.cursor_counts due
  · intro cursor' paused hp
    obtain ⟨rfl, -⟩ := Phase.running.inj hp
    exact h.moves_le_cursor due
  · show e.generation + 1 = _
    rw [h.generation_counts, Answer.transitions_concat]
    rfl

/-- A step that is applied ends the run or moves the cursor on by one. -/
theorem Tallied.step {r : StepResult} (h : e.Tallied answers) (hs : e.Steps e' r) :
    e'.Tallied (answers ++ [.stepped (some r)]) := by
  have hgen : e.generation = Answer.transitions (answers ++ [.stepped (some r)]) := by
    rw [h.generation_counts, Answer.transitions_concat]
    rfl
  cases hs with
  | exhausted due past => exact ⟨nofun, nofun, nofun, hgen⟩
  | @acts cursor a w v due entry effect =>
    -- if the run goes on at all, it is at the next entry
    refine ⟨fun hidle => absurd hidle (phaseAfter_ne_idle _ _ _), ?_, ?_, hgen⟩
    · intro next paused hp
      obtain ⟨rfl, -⟩ := eq_of_phaseAfter hp
      rw [Answer.appliedSinceStart_concat rfl, h.cursor_counts due]
      rfl
    · intro next paused hp
      obtain ⟨rfl, -⟩ := eq_of_phaseAfter hp
      have hmoves := World.moves_le_of_perform effect
      have hle := h.moves_le_cursor due
      show w.moves ≤ cursor + 1
      omega

/-- Every call keeps the books. -/
theorem Tallied.called {c : Call} {a : Answer} (h : e.Tallied answers) (hc : e.Called c e' a) :
    e'.Tallied (answers ++ [a]) := by
  cases hc with
  | starts _ => exact h.rewind (.inr ⟨rfl, rfl⟩) rfl
  | pauses due => exact h.pause due
  | resets => exact h.rewind (.inl rfl) rfl
  | steps _ step => exact h.step step
  | goesOn _ | rests _ | retraces | skips _ | edits _ | raises _ | misses _ =>
    exact h.kept rfl rfl rfl rfl rfl rfl rfl

/-- A new executor has its books in order. -/
theorem tallied_create (maze : Maze) (trace : Trace) (initial : Option Pose) :
    (create maze trace initial).Tallied [] :=
  ⟨fun _ => ⟨rfl, rfl⟩, nofun, nofun, rfl⟩

/-- After any calls the books are right, and so is what is read off them: made piece by piece,
the calls leave the fields of the executor that they lead to, which show what it shows, and get
the same answers. -/
theorem coherent_serve (maze : Maze) (trace : Trace) (initial : Option Pose) (calls : List Call) :
    let e := ((create maze trace initial).serve calls).1
    let f := ((Fields.create maze trace initial).serve calls).1
    let answers := ((Fields.create maze trace initial).serve calls).2
    f.Coherent (initial.getD maze.startPose) answers ∧
      f = e.fields ∧ f.snapshot = e.snapshot ∧
      answers = ((create maze trace initial).serve calls).2 := by
  intro e f answers
  have hserve := serve_fields (create maze trace initial) calls
  rw [fields_create] at hserve
  have hf : f = e.fields := congrArg Prod.fst hserve
  have hanswers : answers = ((create maze trace initial).serve calls).2 :=
    congrArg Prod.snd hserve
  -- the initial pose is fixed along with the books
  have hinv := serve_induction
    (P := fun e answers => e.Tallied answers ∧ e.initial = initial.getD maze.startPose)
    (fun h hc => ⟨h.1.called hc, hc.initial_eq.trans h.2⟩)
    ⟨tallied_create maze trace initial, rfl⟩ calls
  rw [List.nil_append] at hinv
  refine ⟨?_, hf, by rw [hf, snapshot_fields], hanswers⟩
  rw [hf, hanswers, ← hinv.2]
  exact hinv.1.coherent

end Executor

end MazeRobot
