import MazeRobot.Proofs.Executor.Fields
import MazeRobot.Proofs.Executor.Footing

/-!
# Calls, one assignment at a time

The pieces that calls are made of (`Piecework`) come to what the calls come to: whatever the
fields of an executor go through in the meantime, afterwards they are the fields of the executor
that the call gives, and the answers are the same (`call_fields`, `serve_fields`).  So no piece
forgets an assignment, and a refused call has assigned nothing.

Taking a step by pieces also says what its result alone does not tell: on a square overlay every
access lies inside of what is accessed, and none is counted from the end (`exists_run_step`).

## Key results

- `Yields`, `Refuses`: what a piece of work does, and which accesses it makes
- `yields_step`, `refuses_step`: a step that is due, piece by piece
- `call_fields`, `serve_fields`: calls on the fields are calls on the executor
- `step_stays_inside`: every access of a step after any calls
-/

namespace MazeRobot

namespace Piecework

/-! ## What pieces do -/

/-- Begun with the fields `f`, a piece of work comes to the answer `a` and leaves `f'`, and it
only accesses what is there, at positions counted from the front. -/
def Yields (x : Piecework α) (f : Fields) (a : α) (f' : Fields) : Prop :=
  ∀ log, ∃ seen, (∀ c ∈ seen, Access.Inside c) ∧ x.run ⟨f, log⟩ = .ok a ⟨f', log ++ seen⟩

/-- Begun with the fields `f`, a piece of work is refused and leaves `f`; if the world is `tidy`
it only accesses what is there. -/
def Refuses (tidy : Prop) (x : Piecework α) (f : Fields) (failure : Failure) : Prop :=
  ∀ log, ∃ seen, (tidy → ∀ c ∈ seen, Access.Inside c) ∧
    x.run ⟨f, log⟩ = .error failure ⟨f, log ++ seen⟩

variable {f f' f₁ : Fields} {tidy : Prop} {failure : Failure}

theorem yields_pure (a : α) (f : Fields) : (pure a : Piecework α).Yields f a f :=
  fun log => ⟨[], fun _ hc => absurd hc List.not_mem_nil, by rw [List.append_nil]; rfl⟩

/-- What is left to run once the first piece is done. -/
theorem run_bind_of_ok {x : Piecework α} {g : α → Piecework β} {a : α} {b b' : Bench}
    (h : x.run b = .ok a b') : (x >>= g).run b = (g a).run b' := by
  show EStateM.bind x g b = _
  unfold EStateM.bind
  change x b = _ at h
  rw [h]
  rfl

/-- Nothing is run behind a refusal. -/
theorem run_bind_of_error {x : Piecework α} {b b' : Bench} (h : x.run b = .error failure b')
    (g : α → Piecework β) : (x >>= g).run b = .error failure b' := by
  show EStateM.bind x g b = _
  unfold EStateM.bind
  change x b = _ at h
  rw [h]

/-- Pieces in sequence. -/
theorem Yields.bind {x : Piecework α} {g : α → Piecework β} {a : α} {b : β}
    (hx : x.Yields f a f₁) (hg : (g a).Yields f₁ b f') : (x >>= g).Yields f b f' := by
  intro log
  obtain ⟨seen₁, hseen₁, hrun₁⟩ := hx log
  obtain ⟨seen₂, hseen₂, hrun₂⟩ := hg (log ++ seen₁)
  refine ⟨seen₁ ++ seen₂, List.forall_mem_append.mpr ⟨hseen₁, hseen₂⟩, ?_⟩
  rw [run_bind_of_ok hrun₁, hrun₂, List.append_assoc]

/-- An answer that is read off the answer of a piece. -/
theorem Yields.bind_pure {x : Piecework α} {a : α} (hx : x.Yields f a f') (g : α → β) :
    (x >>= fun a => pure (g a)).Yields f (g a) f' :=
  hx.bind (yields_pure (g a) f')

/-- A refusal after pieces that leave the fields alone. -/
theorem Yields.bind_refuses {x : Piecework α} {g : α → Piecework β} {a : α}
    (hx : x.Yields f a f) (hg : (g a).Refuses tidy f failure) :
    (x >>= g).Refuses tidy f failure := by
  intro log
  obtain ⟨seen₁, hseen₁, hrun₁⟩ := hx log
  obtain ⟨seen₂, hseen₂, hrun₂⟩ := hg (log ++ seen₁)
  refine ⟨seen₁ ++ seen₂, fun h => List.forall_mem_append.mpr ⟨hseen₁, hseen₂ h⟩, ?_⟩
  rw [run_bind_of_ok hrun₁, hrun₂, List.append_assoc]

/-- What is refused first is refused. -/
theorem Refuses.bind {x : Piecework α} (hx : x.Refuses tidy f failure) (g : α → Piecework β) :
    (x >>= g).Refuses tidy f failure := by
  intro log
  obtain ⟨seen, hseen, hrun⟩ := hx log
  exact ⟨seen, hseen, run_bind_of_error hrun g⟩

/-- To refuse takes no access to a tile. -/
theorem refuses_throw (tidy : Prop) (failure : Failure) (f : Fields) :
    (throw failure : Piecework α).Refuses tidy f failure :=
  fun log => ⟨[], fun _ _ hc => absurd hc List.not_mem_nil, by rw [List.append_nil]; rfl⟩

/-- An assignment does what it says, and looks nothing up. -/
theorem yields_assign (g : Fields → Fields) (f : Fields) : (assign g).Yields f () (g f) :=
  fun log => ⟨[], fun _ hc => absurd hc List.not_mem_nil, by rw [List.append_nil]; rfl⟩

theorem yields_fields (f : Fields) : fields.Yields f f f :=
  fun log => ⟨[], fun _ hc => absurd hc List.not_mem_nil, by rw [List.append_nil]; rfl⟩

theorem run_note (position : Int) (length : Nat) (b : Bench) :
    (note position length).run b =
      .ok () { b with accesses := b.accesses ++ [⟨position, length⟩] } := rfl

/-- An access inside of a list may be noted. -/
theorem yields_note {position : Int} {length : Nat} (h0 : 0 ≤ position) (h : position < length)
    (f : Fields) : (note position length).Yields f () f :=
  fun _ => ⟨[⟨position, length⟩], List.forall_mem_singleton.mpr ⟨h0, h⟩, rfl⟩

/-- An element that is there is read. -/
theorem yields_fetch {xs : List α} {i : Int} {a : α} (h0 : 0 ≤ i) (h : xs[i.toNat]? = some a)
    (f : Fields) : (fetch xs i).Yields f a f := by
  obtain ⟨hlt, -⟩ := List.getElem?_eq_some_iff.mp h
  apply (yields_note h0 (by omega) f).bind
  rw [Position.get_of_getElem? h0 h]
  exact yields_pure a f

/-- An element that is missing is refused, and the access lay outside. -/
theorem refuses_fetch {xs : List α} {i : Int} {fault : Position.Fault}
    (h : Position.get xs i = .error fault) (hnot : ¬ tidy) (f : Fields) :
    (fetch xs i).Refuses tidy f (.cell .reading) := by
  intro log
  refine ⟨[⟨i, xs.length⟩], fun htidy => absurd htidy hnot, ?_⟩
  rw [fetch, run_bind_of_ok (run_note i xs.length ⟨f, log⟩), h]
  rfl

/-- An element that is there is replaced. -/
theorem yields_store {xs : List α} {i : Int} (a : α) (h0 : 0 ≤ i) (h : i < xs.length)
    (f : Fields) : (store xs i a).Yields f (xs.set i.toNat a) f := by
  apply (yields_note h0 h f).bind
  rw [Position.set_of_lt a h0 h]
  exact yields_pure _ f

/-! ## Reading and writing cells -/

/-- A cell with a tile is read, the row first and the column in the row. -/
theorem yields_tileAt {c : Cell} {t : Tile} (h : f.overlay.look? c = some t) :
    (tileAt c).Yields f t f := by
  obtain ⟨h0, row, hrow, hcell⟩ := Grid.exists_row_of_look? h
  apply (yields_fields f).bind
  apply (yields_fetch h0.2 hrow f).bind
  exact yields_fetch h0.1 hcell f

/-- A cell in bounds can only be missing from its row, and then the grid is not square. -/
theorem refuses_tileAt {c : Cell} (hin : f.overlay.inBounds c = true)
    (h : f.overlay.tileAt? c = none) :
    (tileAt c).Refuses f.overlay.Square f (.cell .reading) := by
  have hnot : ¬ f.overlay.Square := by
    intro hsq
    obtain ⟨t, ht⟩ := hsq.exists_look? hin
    rw [Grid.tileAt?_of_look? ht] at h
    cases h
  obtain ⟨h0, row, hrow⟩ := Grid.exists_row_of_inBounds hin
  apply (yields_fields f).bind_refuses
  apply (yields_fetch h0.2 hrow f).bind_refuses
  cases hcell : Position.get row c.x with
  | error fault => exact refuses_fetch hcell hnot f
  | ok t =>
    -- the tile would have been read
    rw [Grid.tileAt?, Grid.tileAt_of_get (Position.get_of_getElem? h0.2 hrow), hcell] at h
    cases h

/-- A cell with a tile is written. -/
theorem yields_setTile {c : Cell} {u : Tile} (t : Tile) (h : f.overlay.look? c = some u) :
    (setTile c t).Yields f () { f with overlay := f.overlay.put c t } := by
  obtain ⟨h0, row, hrow, hcell⟩ := Grid.exists_row_of_look? h
  obtain ⟨hy, -⟩ := List.getElem?_eq_some_iff.mp hrow
  obtain ⟨hx, -⟩ := List.getElem?_eq_some_iff.mp hcell
  have hput : f.overlay.put c t =
      ⟨f.overlay.rows.set c.y.toNat (row.set c.x.toNat t)⟩ := by
    rw [Grid.put, List.modify_eq_set, hrow]
    rfl
  rw [hput]
  -- the row is read, changed, and put back where it was read
  apply (yields_fields f).bind
  apply (yields_fetch h0.2 hrow f).bind
  apply (yields_store t h0.1 (by omega) f).bind
  apply (yields_store _ h0.2 (by omega) f).bind
  exact yields_assign _ f

/-! ## Resolving an entry -/

/-- The phase once an entry is resolved, before the end of the trace is noticed. -/
def onward (cursor : Nat) : Verdict → Phase
  | .continues _ => .running (cursor + 1) false
  | .reachesGoal => .success
  | .fails reason => .failed reason

variable {e e' : Executor} {cursor : Nat} {w : World} {v : Verdict}

/-- The three assignments of a failure lead from a run to a failed one. -/
theorem yields_fail (reason : FailureReason) (due : e.phase = .running cursor false) (w : World) :
    (fail reason).Yields { e with world := w }.fields ()
      { e with world := w, phase := .failed reason }.fields := by
  obtain ⟨maze, trace, initial, phase, world, generation⟩ := e
  obtain rfl : phase = .running cursor false := due
  exact (yields_assign _ _).bind ((yields_assign _ _).bind (yields_assign _ _))

/-- So do the two of an arrival, to a successful one. -/
theorem yields_arrive (due : e.phase = .running cursor false) (w : World) :
    arrive.Yields { e with world := w }.fields ()
      { e with world := w, phase := .success }.fields := by
  obtain ⟨maze, trace, initial, phase, world, generation⟩ := e
  obtain rfl : phase = .running cursor false := due
  exact (yields_assign _ _).bind (yields_assign _ _)

/-- The cursor goes on, whatever has become of the world. -/
theorem yields_proceed (due : e.phase = .running cursor false) (w : World) :
    proceed.Yields { e with world := w }.fields ()
      { e with world := w, phase := .running (cursor + 1) false }.fields := by
  obtain ⟨maze, trace, initial, phase, world, generation⟩ := e
  obtain rfl : phase = .running cursor false := due
  exact yields_assign _ _

/-- Two assignments make a move. -/
theorem yields_advance (e : Executor) :
    (advance e.world.robot.ahead).Yields e.fields () { e with world := e.world.advance }.fields :=
  (yields_assign _ _).bind (yields_assign _ _)

/-- The tile ahead is only looked at if it is in bounds. -/
theorem yields_forward (due : e.phase = .running cursor false)
    (h : e.world.forward = some (w, v)) :
    forward.Yields e.fields () { e with world := w, phase := onward cursor v }.fields := by
  apply (yields_fields _).bind
  unfold World.forward at h
  by_cases hin : e.world.overlay.inBounds e.world.robot.ahead = true
  · rw [if_pos hin] at h
    obtain ⟨t, ht, heffect⟩ := Option.map_eq_some_iff.mp h
    have hlook : e.fields.overlay.look? e.world.robot.ahead = some t :=
      Grid.look?_of_tileAt? hin ht
    rw [if_pos (show e.fields.overlay.inBounds e.fields.robot.ahead = true from hin)]
    apply (yields_tileAt hlook).bind
    -- one branch for each tile that can be ahead
    cases t with
    | wall =>
      obtain ⟨rfl, rfl⟩ := Prod.mk.inj heffect
      exact yields_fail .wallCollision due _
    | hole =>
      obtain ⟨rfl, rfl⟩ := Prod.mk.inj heffect
      exact (yields_advance e).bind (yields_fail .fellInHole due _)
    | goal =>
      obtain ⟨rfl, rfl⟩ := Prod.mk.inj heffect
      exact (yields_advance e).bind (yields_arrive due _)
    | floor | start =>
      obtain ⟨rfl, rfl⟩ := Prod.mk.inj heffect
      exact (yields_advance e).bind (yields_proceed due _)
  · rw [if_neg hin] at h
    obtain ⟨rfl, rfl⟩ := Prod.mk.inj (Option.some.inj h)
    rw [if_neg (show ¬ e.fields.overlay.inBounds e.fields.robot.ahead = true from hin)]
    exact yields_fail .outOfBounds due _

/-- A move is refused when the tile ahead is looked at, before anything is assigned. -/
theorem refuses_forward (h : e.world.forward = none) :
    forward.Refuses e.world.overlay.Square e.fields (.cell .reading) := by
  apply (yields_fields _).bind_refuses
  unfold World.forward at h
  by_cases hin : e.world.overlay.inBounds e.world.robot.ahead = true
  · rw [if_pos hin] at h
    rw [if_pos (show e.fields.overlay.inBounds e.fields.robot.ahead = true from hin)]
    exact (refuses_tileAt (f := e.fields) hin (Option.map_eq_none_iff.mp h)).bind _
  · rw [if_neg hin] at h
    cases h

/-- A hole ahead is filled, and anything else is left alone. -/
theorem yields_fillHole (h : e.world.fillHole = some (w, v)) :
    fillHole.Yields e.fields (Executor.filledBy v) { e with world := w }.fields := by
  apply (yields_fields _).bind
  unfold World.fillHole at h
  by_cases hin : e.world.overlay.inBounds e.world.robot.ahead = true
  · rw [if_pos hin] at h
    rw [if_pos (show e.fields.overlay.inBounds e.fields.robot.ahead = true from hin)]
    cases ht : e.world.overlay.tileAt? e.world.robot.ahead with
    | none => simp [ht] at h
    | some t =>
      -- in bounds and found: the same cell is read, and written if it is a hole
      have hlook := Grid.look?_of_tileAt? hin ht
      apply (yields_tileAt hlook).bind
      cases t with
      | hole =>
        simp only [ht, Grid.setTile_of_look? hlook, Option.some.injEq, Prod.mk.injEq] at h
        obtain ⟨rfl, rfl⟩ := h
        exact (yields_setTile .floor hlook).bind_pure _
      | _ =>
        simp only [ht, Option.some.injEq, Prod.mk.injEq] at h
        obtain ⟨rfl, rfl⟩ := h
        exact yields_pure none _
  · rw [if_neg hin] at h
    rw [if_neg (show ¬ e.fields.overlay.inBounds e.fields.robot.ahead = true from hin)]
    obtain ⟨rfl, rfl⟩ := Prod.mk.inj (Option.some.inj h)
    exact yields_pure none _

/-- So is the filling of a hole: a tile that has been read can also be written. -/
theorem refuses_fillHole (h : e.world.fillHole = none) :
    fillHole.Refuses e.world.overlay.Square e.fields (.cell .reading) := by
  apply (yields_fields _).bind_refuses
  unfold World.fillHole at h
  -- the only refusal is of the read: a cell in bounds that has no tile
  by_cases hin : e.world.overlay.inBounds e.world.robot.ahead = true
  · rw [if_pos hin] at h
    rw [if_pos (show e.fields.overlay.inBounds e.fields.robot.ahead = true from hin)]
    cases ht : e.world.overlay.tileAt? e.world.robot.ahead with
    | none => exact (refuses_tileAt (f := e.fields) hin ht).bind _
    | some t =>
      cases t with
      | hole => simp [ht, Grid.setTile_of_look? (Grid.look?_of_tileAt? hin ht)] at h
      | _ => simp [ht] at h
  · rw [if_neg hin] at h
    cases h

/-- No move fills a hole. -/
theorem filledBy_of_forward (h : e.world.forward = some (w, v)) : Executor.filledBy v = none := by
  unfold World.forward at h
  by_cases hin : e.world.overlay.inBounds e.world.robot.ahead = true
  · rw [if_pos hin] at h
    obtain ⟨t, -, ht⟩ := Option.map_eq_some_iff.mp h
    cases t <;> obtain ⟨-, rfl⟩ := Prod.mk.inj ht <;> rfl
  · rw [if_neg hin] at h
    obtain ⟨-, rfl⟩ := Prod.mk.inj (Option.some.inj h)
    rfl

/-- Filling a hole, or finding none, never ends a run. -/
theorem exists_continues_of_fillHole (h : e.world.fillHole = some (w, v)) :
    ∃ filled, v = .continues filled := by
  simp only [World.fillHole] at h
  split at h
  · split at h
    · cases h
    · split at h
      · exact ⟨_, (Prod.mk.inj (Option.some.inj h)).2.symm⟩
      · cases h
    · exact ⟨_, (Prod.mk.inj (Option.some.inj h)).2.symm⟩
  · exact ⟨_, (Prod.mk.inj (Option.some.inj h)).2.symm⟩

/-- An action that takes effect does so piece by piece, and the cursor is where the verdict
takes it. -/
theorem yields_resolve {a : Action} (index : Nat) (due : e.phase = .running cursor false)
    (h : e.world.perform a = some (w, v)) :
    (resolve index (.basic a)).Yields e.fields (Executor.filledBy v)
      { e with world := w, phase := onward cursor v }.fields := by
  cases a with
  | forward =>
    rw [filledBy_of_forward h]
    exact (yields_forward due h).bind_pure _
  | turnRight =>
    obtain ⟨rfl, rfl⟩ := Prod.mk.inj (Option.some.inj h)
    apply (yields_assign _ _).bind
    exact (yields_proceed due { e.world with robot := e.world.robot.turnedRight }).bind_pure _
  | turnLeft =>
    obtain ⟨rfl, rfl⟩ := Prod.mk.inj (Option.some.inj h)
    apply (yields_assign _ _).bind
    exact (yields_proceed due { e.world with robot := e.world.robot.turnedLeft }).bind_pure _
  | ifHole =>
    -- the hole is looked for first; the cursor moves on whether one was there or not
    obtain ⟨filled, rfl⟩ := exists_continues_of_fillHole h
    apply (yields_fillHole h).bind
    exact (yields_proceed due w).bind_pure _

/-- An action without effect is refused. -/
theorem refuses_resolve {a : Action} (index : Nat) (h : e.world.perform a = none) :
    (resolve index (.basic a)).Refuses e.world.overlay.Square e.fields (.cell .reading) := by
  cases a with
  | forward => exact (refuses_forward h).bind _
  | turnRight | turnLeft => cases h
  | ifHole => exact (refuses_fillHole h).bind _

/-- A run that would go on behind the last entry fails. -/
theorem yields_finish (e : Executor) (cursor : Nat) (v : Verdict) :
    finish.Yields { e with phase := onward cursor v }.fields ()
      { e with phase := Executor.phaseAfter e.trace cursor v }.fields := by
  apply (yields_fields _).bind
  cases v with
  | continues filled =>
    unfold Executor.phaseAfter
    -- the fields hold the cursor as a signed number, so the comparison is a signed one too
    by_cases hmore : cursor + 1 < e.trace.length
    · have hin : ¬ ((e.trace.length : Int) ≤ ((cursor + 1 : Nat) : Int)) := by omega
      rw [if_neg (fun h => hin h.2), if_pos hmore]
      exact yields_pure () _
    · have hpast : (e.trace.length : Int) ≤ ((cursor + 1 : Nat) : Int) := by omega
      rw [if_pos ⟨rfl, hpast⟩, if_neg hmore]
      exact yields_fail .goalNotReached (e := { e with phase := .running (cursor + 1) false })
        rfl e.world
  | reachesGoal => exact yields_pure () _
  | fails reason => exact yields_pure () _

/-! ## A whole step -/

variable {token : Option Int} {r : StepResult}

/-- The fields tell whether a step is due. -/
theorem due_iff : (token.all (· == (e.fields.generation : Int)) && e.fields.isExecuting) = true ↔
    e.Current token ∧ e.isExecuting = true := by
  rw [Executor.isExecuting_fields, Bool.and_eq_true, Executor.current_iff]
  rfl

/-- A step that is not due does nothing and looks nothing up. -/
theorem yields_step_of_not_due (h : ¬ (e.Current token ∧ e.isExecuting = true)) :
    (step token).Yields e.fields none e.fields := by
  apply (yields_fields _).bind
  rw [if_neg (mt due_iff.mp h)]
  exact yields_pure none _

/-- What is reported is read off the fields at the end. -/
theorem yields_result (index : Nat) (command : Option Command) (filled : Option Cell)
    (e : Executor) :
    (result index command filled).Yields e.fields (e.report index command filled) e.fields :=
  (yields_fields _).bind_pure _

theorem not_length_le {c : Command} (entry : e.trace[cursor]? = some c) :
    ¬ (e.fields.trace.length : Int) ≤ cursor := by
  obtain ⟨hlt, -⟩ := List.getElem?_eq_some_iff.mp entry
  show ¬ (e.trace.length : Int) ≤ cursor
  omega

/-- The entry at the cursor is read, resolved, and the end of the trace noticed. -/
theorem yields_stepAt (due : e.phase = .running cursor false) (h : e.Steps e' r) :
    (stepAt cursor).Yields e.fields r e'.fields := by
  apply (yields_fields _).bind
  cases h with
  | exhausted due' past =>
    -- there is only one cursor
    obtain ⟨rfl, -⟩ := Phase.running.inj (due.symm.trans due')
    have hpast : (e.fields.trace.length : Int) ≤ cursor :=
      Int.ofNat_le.mpr (List.getElem?_eq_none_iff.mp past)
    rw [if_pos hpast]
    apply (yields_fail .goalNotReached due e.world).bind
    exact yields_result cursor none none { e with phase := .failed .goalNotReached }
  | @acts cursor' a w v due' entry effect =>
    obtain ⟨rfl, -⟩ := Phase.running.inj (due.symm.trans due')
    rw [if_neg (not_length_le entry)]
    apply (yields_fetch (Int.natCast_nonneg cursor) entry _).bind
    apply (yields_resolve cursor due effect).bind
    apply (yields_finish { e with world := w } cursor v).bind
    exact yields_result cursor (some (.basic a)) (Executor.filledBy v)
      { e with world := w, phase := Executor.phaseAfter e.trace cursor v }

/-- An entry is refused when it has been read, and nothing has been assigned before. -/
theorem refuses_stepAt {c : Command} (entry : e.trace[cursor]? = some c)
    (h : (resolve cursor c).Refuses tidy e.fields failure) :
    (stepAt cursor).Refuses tidy e.fields failure := by
  apply (yields_fields _).bind_refuses
  rw [if_neg (not_length_le entry)]
  apply (yields_fetch (Int.natCast_nonneg cursor) entry _).bind_refuses
  exact h.bind _

/-- A step that applies does so piece by piece. -/
theorem yields_step (hcurrent : e.Current token) (h : e.Steps e' r) :
    (step token).Yields e.fields (some r) e'.fields := by
  obtain ⟨cursor, due⟩ := Executor.isExecuting_iff.mp h.isExecuting
  apply (yields_fields _).bind
  rw [if_pos (due_iff.mpr ⟨hcurrent, h.isExecuting⟩),
    show e.fields.cursor = cursor from congrArg Phase.cursor due]
  exact (yields_stepAt due h).bind_pure _

/-- A step that is refused has assigned nothing, and on a square overlay it has not looked for
anything that is missing. -/
theorem refuses_step (h : e.step token = .error failure) :
    (step token).Refuses e.world.overlay.Square e.fields failure := by
  obtain ⟨hcurrent, cursor, due, hfound⟩ := Executor.exists_of_step_error h
  apply (yields_fields _).bind_refuses
  rw [if_pos (due_iff.mpr ⟨hcurrent, Executor.isExecuting_iff.mpr ⟨cursor, due⟩⟩),
    show e.fields.cursor = cursor from congrArg Phase.cursor due]
  apply Refuses.bind
  obtain ⟨count, body, entry, rfl⟩ | ⟨a, entry, hnone, rfl⟩ := hfound
  · exact refuses_stepAt entry (refuses_throw _ _ _)
  · exact refuses_stepAt entry (refuses_resolve cursor hnone)

/-! ## Transitions -/

/-- Six assignments go back to the beginning; status and cursor are left for later. -/
theorem yields_rewind (f : Fields) :
    rewind.Yields f ()
      { f with generation := f.generation + 1, paused := false, robot := f.initial,
               overlay := f.maze.grid, moves := 0, reason := none } := by
  apply (yields_assign _ _).bind
  apply (yields_assign _ _).bind
  apply (yields_assign _ _).bind
  apply (yields_assign _ _).bind
  exact (yields_assign _ _).bind (yields_assign _ _)

/-- A start that begins a run assigns every field that a run can have changed. -/
theorem yields_start (idle : ¬ e.isExecuting = true) :
    start.Yields e.fields true (e.rewind (.running 0 false)).fields := by
  apply (yields_fields _).bind
  rw [Executor.isExecuting_fields, if_neg idle]
  apply (yields_rewind _).bind
  apply (yields_assign _ _).bind
  exact (yields_assign _ _).bind_pure _

/-- A run that is executing is not started anew. -/
theorem yields_start_of_executing (busy : e.isExecuting = true) :
    start.Yields e.fields false e.fields := by
  apply (yields_fields _).bind
  rw [Executor.isExecuting_fields, if_pos busy]
  exact yields_pure false _

/-- Two assignments hold a run at its cursor. -/
theorem yields_pause (due : e.phase = .running cursor false) :
    pause.Yields e.fields true
      { e with phase := .running cursor true, generation := e.generation + 1 }.fields := by
  apply (yields_fields _).bind
  rw [Executor.isExecuting_fields, if_pos (Executor.isExecuting_iff.mpr ⟨cursor, due⟩)]
  obtain ⟨maze, trace, initial, phase, world, generation⟩ := e
  obtain rfl : phase = .running cursor false := due
  apply (yields_assign _ _).bind
  exact (yields_assign _ _).bind_pure _

/-- Where nothing executes, nothing is held. -/
theorem yields_pause_of_not_executing (idle : ¬ e.isExecuting = true) :
    pause.Yields e.fields false e.fields := by
  apply (yields_fields _).bind
  rw [Executor.isExecuting_fields, if_neg idle]
  exact yields_pure false _

/-- A reset assigns every field that a run can have changed. -/
theorem yields_reset (e : Executor) : reset.Yields e.fields () (e.rewind .idle).fields := by
  apply (yields_rewind _).bind
  exact (yields_assign _ _).bind (yields_assign _ _)

/-- An edit of a tile assigns the maze and nothing else. -/
theorem yields_editTile {c : Cell} {t : Tile} {maze : Maze}
    (edit : e.maze.setTile c t = .ok maze) :
    (editTile c t).Yields e.fields () { e with maze }.fields := by
  apply (yields_fields _).bind
  rw [show e.fields.maze.setTile c t = .ok maze from edit]
  exact yields_assign _ _

/-- A tile that is not there is not edited. -/
theorem refuses_editTile {c : Cell} {t : Tile} {fault : CellFault}
    (edit : e.maze.setTile c t = .error fault) :
    (editTile c t).Refuses True e.fields (.cell fault) := by
  apply (yields_fields _).bind_refuses
  rw [show e.fields.maze.setTile c t = .error fault from edit]
  exact refuses_throw True _ _

end Piecework

/-! ## Calls -/

namespace Fields

variable {f f' : Fields} {c : Call} {a : Answer}

/-- What a call comes to when its pieces come to an answer. -/
theorem call_of_yields (h : (Piecework.call c).Yields f a f') : f.call c = (f', a) := by
  obtain ⟨seen, -, hrun⟩ := h []
  unfold call
  rw [hrun]

/-- A call whose pieces are refused leaves the fields as they were. -/
theorem call_of_refuses {tidy : Prop} {failure : Failure}
    (h : (Piecework.call c).Refuses tidy f failure) : f.call c = (f, .refused failure) := by
  obtain ⟨seen, -, hrun⟩ := h []
  unfold call
  rw [hrun]

end Fields

namespace Executor

open Piecework

variable {e e' : Executor} {token : Option Int} {f : Failure}

/-- Whatever a call does to an executor, piece by piece it does that to its fields. -/
theorem Called.call_fields {c : Call} {a : Answer} (h : e.Called c e' a) :
    e.fields.call c = (e'.fields, a) := by
  cases h with
  | starts idle => exact Fields.call_of_yields ((yields_start idle).bind_pure _)
  | goesOn busy =>
    exact Fields.call_of_yields ((yields_start_of_executing busy).bind_pure _)
  | pauses due => exact Fields.call_of_yields ((yields_pause due).bind_pure _)
  | rests idle =>
    exact Fields.call_of_yields ((yields_pause_of_not_executing idle).bind_pure _)
  | resets => exact Fields.call_of_yields ((yields_reset e).bind_pure _)
  | retraces => exact Fields.call_of_yields ((yields_assign _ _).bind_pure _)
  | steps current hstep =>
    exact Fields.call_of_yields ((yields_step current hstep).bind_pure _)
  | skips notDue =>
    exact Fields.call_of_yields ((yields_step_of_not_due notDue).bind_pure _)
  | raises hstep => exact Fields.call_of_refuses ((refuses_step hstep).bind _)
  | edits edit => exact Fields.call_of_yields ((yields_editTile edit).bind_pure _)
  | misses edit => exact Fields.call_of_refuses ((refuses_editTile edit).bind _)

/-- A call on the fields is the call on the executor. -/
theorem call_fields (e : Executor) (c : Call) :
    e.fields.call c = ((e.call c).1.fields, (e.call c).2) :=
  (called e c).call_fields

/-- So are all calls in order. -/
theorem serve_fields (e : Executor) (calls : List Call) :
    e.fields.serve calls = ((e.serve calls).1.fields, (e.serve calls).2) := by
  induction calls generalizing e with
  | nil => rfl
  | cons c calls ih => rw [Fields.serve_cons, call_fields, ih, serve_cons]

/-! ## A step stays inside -/

/-- The trace holds no loops if none was ever set. -/
theorem linear_trace_serve {calls : List Call} (htrace : Command.Linear e.trace)
    (hcalls : ∀ trace', .setTrace trace' ∈ calls → Command.Linear trace') :
    Command.Linear (e.serve calls).1.trace := by
  induction calls generalizing e with
  | nil => exact htrace
  | cons c calls ih =>
    -- the first call keeps the trace, or it is one of those that set a trace
    rw [serve_cons]
    apply ih
    · obtain hkept | hset := (called e c).trace_eq
      · rwa [hkept]
      · apply hcalls
        rw [← hset]
        exact List.mem_cons_self
    · intro trace' hmem
      exact hcalls trace' (List.mem_cons_of_mem c hmem)

/-- What a step leaves on the bench: its result, if it has one, and otherwise the fields that
it began with. -/
def benched (e : Executor) (accesses : List Access) :
    Except Failure (Executor × Option StepResult) →
      EStateM.Result Failure Bench (Option StepResult)
  | .ok (e', r) => .ok r ⟨e'.fields, accesses⟩
  | .error f => .error f ⟨e.fields, accesses⟩

/-- Taken piece by piece, a step comes to the same, and on a square overlay it stays inside of
what it looks up. -/
theorem exists_run_step (e : Executor) (token : Option Int) :
    ∃ accesses, (e.world.overlay.Square → ∀ a ∈ accesses, Access.Inside a) ∧
      (Piecework.step token).run ⟨e.fields, []⟩ = e.benched accesses (e.step token) := by
  -- one case for each way in which a step can turn out
  cases hstep : e.step token with
  | error f => exact refuses_step hstep []
  | ok p =>
    obtain ⟨e', result⟩ := p
    cases result with
    | none =>
      obtain ⟨rfl, hnot⟩ := step_eq_none_iff.mp hstep
      obtain ⟨seen, hinside, hrun⟩ := yields_step_of_not_due hnot []
      exact ⟨seen, fun _ => hinside, hrun⟩
    | some r =>
      obtain ⟨hcurrent, hs⟩ := step_eq_some_iff.mp hstep
      obtain ⟨seen, hinside, hrun⟩ := yields_step hcurrent hs []
      exact ⟨seen, fun _ => hinside, hrun⟩

/-- Filling a hole reads the entry, then the row and the tile ahead, and then looks the row up
once more to write the tile and put the row back. -/
example : ∃ r f, (Piecework.step none).run
    ⟨(create .trench [.basic .ifHole]).start.1.fields, []⟩ =
      .ok r ⟨f, [⟨0, 1⟩, ⟨0, 3⟩, ⟨1, 3⟩, ⟨0, 3⟩, ⟨1, 3⟩, ⟨0, 3⟩]⟩ :=
  ⟨_, _, rfl⟩

/-- After any calls to an executor on a square maze, edits of its tiles included, whatever its
trace and the pose it began from: taken piece by piece, the next step only reads and writes what
is there, at positions that are not negative, and comes to the same result.  It is refused only
if it is due and finds a loop under the cursor, and then nothing at all has been assigned.  If
all traces were unrolled from programs it is not refused. -/
theorem step_stays_inside (m : Maze) (hm : m.WellFormed) (trace : Trace) (initial : Option Pose)
    (calls : List Call) (token : Option Int) :
    let e := ((create m trace initial).serve calls).1
    (∃ accesses, (∀ a ∈ accesses, Access.Inside a) ∧
      (Piecework.step token).run ⟨e.fields, []⟩ = e.benched accesses (e.step token)) ∧
    (∀ f, e.step token = .error f ↔ e.Current token ∧ ∃ cursor count body,
      e.phase = .running cursor false ∧ e.trace[cursor]? = some (.loop count body) ∧
        f = .loopInTrace cursor) ∧
    ((∃ program, trace = Command.unrollAll program) →
      (∀ trace', .setTrace trace' ∈ calls → ∃ program, trace' = Command.unrollAll program) →
      ∃ e' r, e.step token = .ok (e', r)) := by
  intro e
  have hsq : e.world.overlay.Square := (grounded_serve hm trace initial calls).square
  obtain ⟨accesses, hinside, hrun⟩ := exists_run_step e token
  refine ⟨⟨accesses, hinside hsq, hrun⟩, fun f => step_eq_error_iff hsq, ?_⟩
  rintro ⟨program, rfl⟩ hcalls
  have hlin : Command.Linear e.trace := by
    apply linear_trace_serve (Command.linear_unrollAll program)
    intro trace' hmem
    obtain ⟨program', rfl⟩ := hcalls trace' hmem
    exact Command.linear_unrollAll program'
  cases hstep : e.step token with
  | ok p => exact ⟨p.1, p.2, rfl⟩
  | error f =>
    -- a refusal would have found a loop
    obtain ⟨-, cursor, count, body, -, entry, -⟩ := (step_eq_error_iff hsq).mp hstep
    obtain ⟨a, ha⟩ := hlin _ (List.mem_of_getElem? entry)
    cases ha

/-- A robot that begins outside of the grid, a tile that is edited during the run, and a trace
that is cut short under the cursor. -/
theorem step_stays_inside_trench :
    let trace := Command.unrollAll [.loop (some 2) [.basic .forward, .basic .ifHole]]
    let calls : List Call := [.start, .step none, .step none, .editTile ⟨-1, 0⟩ .hole,
      .setTrace (Command.unrollAll [.basic .forward])]
    let e := ((create .trench trace (some ⟨-1, 0, .east⟩)).serve calls).1
    Maze.trench.WellFormed ∧ e.phase = .running 2 false ∧
      (∃ accesses, (∀ a ∈ accesses, Access.Inside a) ∧
        (Piecework.step none).run ⟨e.fields, []⟩ = e.benched accesses (e.step none)) ∧
      ∃ e' r, e.step none = .ok (e', r) := by
  intro trace calls e
  obtain ⟨hinside, -, hgoes⟩ := step_stays_inside .trench Maze.trench_wellFormed trace
    (some ⟨-1, 0, .east⟩) calls none
  refine ⟨Maze.trench_wellFormed, by decide, hinside, hgoes ⟨_, rfl⟩ ?_⟩
  intro trace' hmem
  simp only [calls, List.mem_cons, reduceCtorEq, false_or, List.not_mem_nil, or_false,
    Call.setTrace.injEq] at hmem
  exact ⟨_, hmem⟩

end Executor

end MazeRobot
