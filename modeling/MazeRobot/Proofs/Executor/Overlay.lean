import MazeRobot.Proofs.Executor.Footing

/-!
# The working copy of a run

A run fills holes in a working copy of the maze.  The copy is taken whenever the run goes back
to its beginning, so what it holds can be told from the grid of the maze at that moment
(`groundOf`) and from what the steps since then have reported to have filled
(`Answer.fillsSinceRewind`): those cells are floor, and every other one is as it was
(`Patched`).  The maze may be edited in place meanwhile; the copy does not notice.

A cell is reported at most once, because it holds no hole after that.  For the same reason a
robot that has just looked for a hole ahead does not fall with its next step.
-/

namespace MazeRobot

namespace Grid

/-- The grid with some cells turned into floor. -/
def floored (g : Grid) (cells : List Cell) : Grid := cells.foldr (fun c g => g.put c .floor) g

variable {g : Grid} {c d : Cell} {cells : List Cell}

theorem floored_cons (g : Grid) (c : Cell) (cells : List Cell) :
    g.floored (c :: cells) = (g.floored cells).put c .floor := rfl

/-- Turning cells into floor keeps a grid square. -/
theorem Square.floored (hg : g.Square) (cells : List Cell) : (g.floored cells).Square := by
  induction cells with
  | nil => exact hg
  | cons c cells ih => exact ih.put c .floor

/-- Where holes are turned into floor, every other cell is left alone. -/
theorem look?_floored (holes : ∀ c ∈ cells, g.look? c = some .hole) (d : Cell) :
    (g.floored cells).look? d = if d ∈ cells then some .floor else g.look? d := by
  induction cells with
  | nil => rfl
  | cons c cells ih =>
    obtain ⟨hole, holes⟩ := List.forall_mem_cons.mp holes
    have ih := ih holes
    rw [floored_cons]
    by_cases hd : d = c
    · subst hd
      -- whatever it holds by now, there is such a cell
      have htile : ∃ t, (g.floored cells).look? d = some t := by
        by_cases hmem : d ∈ cells
        · exact ⟨.floor, by rw [ih, if_pos hmem]⟩
        · exact ⟨.hole, by rw [ih, if_neg hmem, hole]⟩
      obtain ⟨t, ht⟩ := htile
      rw [look?_put_self ht, if_pos List.mem_cons_self]
    · rw [look?_put_of_ne hd (nonneg_of_look? hole), ih]
      simp only [List.mem_cons, hd, false_or]

end Grid

namespace Answer

/-- The answer of a start that began a run, or of a reset. -/
def isRewind : Answer → Bool
  | started did => did
  | rewound => true
  | _ => false

/-- The cell that was filled, if a step reports one. -/
def filled? : Answer → Option Cell
  | stepped (some r) => r.filled
  | _ => none

/-- The cells reported as filled since the run last went back to its beginning, the latest
first. -/
def fillsSinceRewind (answers : List Answer) : List Cell :=
  (answers.reverse.takeWhile fun a => !a.isRewind).filterMap filled?

variable {answers : List Answer} {a : Answer}

/-- A rewinding answer forgets the fills, and any other adds its own. -/
theorem fillsSinceRewind_concat :
    fillsSinceRewind (answers ++ [a]) =
      if a.isRewind = true then [] else a.filled?.toList ++ fillsSinceRewind answers := by
  unfold fillsSinceRewind
  rw [List.reverse_append, List.reverse_singleton, List.singleton_append, List.takeWhile_cons]
  cases a.isRewind with
  | true => rfl
  | false => cases hf : a.filled? <;> simp [hf]

end Answer

namespace World

variable {w w' : World} {a : Action} {v : Verdict}

/-- An action fills the hole ahead and says so, or it leaves the overlay alone. -/
theorem Does.fills_or_keeps (h : w.Does a w' v) :
    (Executor.filledBy v = some w.robot.ahead ∧ w.overlay.look? w.robot.ahead = some .hole ∧
      w'.overlay = w.overlay.put w.robot.ahead .floor) ∨
    (Executor.filledBy v = none ∧ w'.overlay = w.overlay) := by
  cases h with
  | fills ahead => exact .inl ⟨rfl, ahead, rfl⟩
  | _ => exact .inr ⟨rfl, rfl⟩

/-- Looking for a hole ahead leaves none there. -/
theorem Does.ahead_ne_hole (h : w.Does .ifHole w' v) :
    w'.overlay.look? w'.robot.ahead ≠ some .hole := by
  cases h with
  | fills ahead =>
    show (w.overlay.put w.robot.ahead .floor).look? w.robot.ahead ≠ some .hole
    rw [Grid.look?_put_self ahead]
    exact nofun
  | passes ahead => exact ahead

/-- A robot that falls had a hole ahead. -/
theorem Does.hole_of_falls (h : w.Does a w' (.fails .fellInHole)) :
    w.overlay.look? w.robot.ahead = some .hole := by
  cases h with
  | falls ahead => exact ahead

end World

namespace Executor

/-- The grid of the maze at the moment when the run last went back to its beginning;
`ground` if none of the calls takes it there. -/
def groundOf (e : Executor) (ground : Grid) : List Call → Grid
  | [] => ground
  | c :: rest =>
    groundOf (e.call c).1 (if (e.call c).2.isRewind then (e.call c).1.maze.grid else ground) rest

/-- The overlay is the ground with the filled cells turned into floor.  They were different
holes. -/
structure Patched (e : Executor) (ground : Grid) (fills : List Cell) : Prop where
  maze : e.maze.WellFormed
  ground_square : ground.Square
  overlay_eq : e.world.overlay = ground.floored fills
  holes : ∀ c ∈ fills, ground.look? c = some .hole
  nodup : fills.Nodup

variable {e e' : Executor} {ground : Grid} {fills : List Cell} {r : StepResult}

/-- A square ground that is patched is square. -/
theorem Patched.square (h : e.Patched ground fills) : e.world.overlay.Square := by
  rw [h.overlay_eq]
  exact h.ground_square.floored fills

/-- A new overlay is the grid of the maze, and nothing is filled. -/
theorem patched_create {m : Maze} (hm : m.WellFormed) (trace : Trace) (initial : Option Pose) :
    (create m trace initial).Patched m.grid [] :=
  ⟨hm, hm.square, rfl, nofun, List.nodup_nil⟩

/-! ## What each call does to the overlay -/

/-- Going back takes a new copy. -/
theorem Patched.rewind (h : e.Patched ground fills) (phase : Phase) :
    (e.rewind phase).Patched (e.rewind phase).maze.grid [] :=
  ⟨h.maze, h.maze.square, rfl, nofun, List.nodup_nil⟩

/-- A copy is not disturbed by what happens to the rest of the executor. -/
theorem Patched.kept (h : e.Patched ground fills) (hmaze : e'.maze.WellFormed)
    (hoverlay : e'.world.overlay = e.world.overlay) : e'.Patched ground fills :=
  ⟨hmaze, h.ground_square, hoverlay.trans h.overlay_eq, h.holes, h.nodup⟩

/-- What still is a hole in the copy has not been filled before. -/
theorem Patched.fill {c : Cell} (h : e.Patched ground fills)
    (hole : e.world.overlay.look? c = some .hole) (hmaze : e'.maze = e.maze)
    (hoverlay : e'.world.overlay = e.world.overlay.put c .floor) :
    e'.Patched ground (c :: fills) := by
  rw [h.overlay_eq, Grid.look?_floored h.holes] at hole
  have hnew : c ∉ fills := by
    intro hmem
    rw [if_pos hmem] at hole
    exact nomatch hole
  rw [if_neg hnew] at hole
  refine ⟨hmaze ▸ h.maze, h.ground_square, ?_, ?_, List.nodup_cons.mpr ⟨hnew, h.nodup⟩⟩
  · rw [hoverlay, h.overlay_eq, Grid.floored_cons]
  · exact List.forall_mem_cons.mpr ⟨hole, h.holes⟩

/-- A step adds the cell that it reports as filled to the patches. -/
theorem Patched.step (h : e.Patched ground fills) (hs : e.Steps e' r) :
    e'.Patched ground (r.filled.toList ++ fills) := by
  cases hs with
  | exhausted due past => exact h.kept h.maze rfl
  | acts due entry effect =>
    rcases (World.does_of_perform h.square effect).fills_or_keeps with
      ⟨hfilled, hole, hoverlay⟩ | ⟨hfilled, hoverlay⟩
    · rw [hfilled]
      exact h.fill hole rfl hoverlay
    · rw [hfilled]
      exact h.kept h.maze hoverlay

/-- Every call keeps track of the copy. -/
theorem Patched.called {c : Call} {a : Answer} (h : e.Patched ground fills)
    (hc : e.Called c e' a) :
    e'.Patched (if a.isRewind = true then e'.maze.grid else ground)
      (if a.isRewind = true then [] else a.filled?.toList ++ fills) := by
  cases hc with
  | starts _ => exact h.rewind _
  | resets => exact h.rewind _
  | steps _ step => exact h.step step
  | edits edit => exact h.kept (h.maze.setTile edit) rfl
  | pauses _ | retraces => exact h.kept h.maze rfl
  | goesOn _ | rests _ | skips _ | raises _ | misses _ => exact h

/-- After any calls the patches are the cells reported as filled since the last rewind. -/
theorem Patched.serve {answers : List Answer}
    (h : e.Patched ground (Answer.fillsSinceRewind answers)) (calls : List Call) :
    (e.serve calls).1.Patched (e.groundOf ground calls)
      (Answer.fillsSinceRewind (answers ++ (e.serve calls).2)) := by
  induction calls generalizing e ground answers with
  | nil => rwa [serve_nil, List.append_nil]
  | cons c rest ih =>
    have hcall := h.called (e.called c)
    rw [← Answer.fillsSinceRewind_concat] at hcall
    -- the answer of the first call joins those given before
    rw [serve_cons, ← List.singleton_append, ← List.append_assoc]
    exact ih hcall

/-- Only a rewind and a reported filling change the overlay. -/
theorem Patched.overlay_of_called {c : Call} {a : Answer} (h : e.Patched ground fills)
    (hc : e.Called c e' a) :
    e'.world.overlay = e.world.overlay ∨ a.isRewind = true ∨ a.filled?.isSome = true := by
  cases hc with
  | starts _ | resets => exact .inr (.inl rfl)
  | steps _ step =>
    have hstep := h.step step
    -- a step changes the overlay where it reports a filled cell, and nowhere else
    cases hfilled : Answer.filled? (.stepped (some _)) with
    | some c => exact .inr (.inr rfl)
    | none =>
      left
      change StepResult.filled _ = none at hfilled
      rw [hstep.overlay_eq, hfilled, h.overlay_eq]
      rfl
  | _ => exact .inl rfl

/-! ## A step after looking for a hole -/

/-- A call that neither applies a step nor rewinds leaves the world alone. -/
theorem Called.world_eq {c : Call} {a : Answer} (hc : e.Called c e' a)
    (hrewind : a.isRewind = false) (happlied : a.isApplied = false) : e'.world = e.world := by
  cases hc with
  | starts _ | resets => exact nomatch hrewind
  | steps _ _ => exact nomatch happlied
  | _ => rfl

/-- Calls that neither rewind nor apply a step leave the world alone. -/
theorem world_serve_eq {calls : List Call}
    (hidle : ∀ a ∈ (e.serve calls).2, a.isRewind = false ∧ a.isApplied = false) :
    (e.serve calls).1.world = e.world := by
  induction calls generalizing e with
  | nil => rfl
  | cons c rest ih =>
    rw [serve_cons] at hidle ⊢
    obtain ⟨⟨hrewind, happlied⟩, hrest⟩ := List.forall_mem_cons.mp hidle
    exact (ih hrest).trans ((called e c).world_eq hrewind happlied)

/-- Answers that are cut in two belong to calls that are cut in two. -/
theorem exists_serve_of_append {calls : List Call} {before after : List Answer}
    (h : (e.serve calls).2 = before ++ after) :
    ∃ cs ds, calls = cs ++ ds ∧ (e.serve cs).2 = before ∧
      ((e.serve cs).1.serve ds).2 = after := by
  induction before generalizing e calls with
  | nil => exact ⟨[], calls, rfl, rfl, h⟩
  | cons a before ih =>
    cases calls with
    | nil => exact nomatch h
    | cons c rest =>
      rw [serve_cons] at h
      obtain ⟨hfirst, hrest⟩ := List.cons.inj h
      obtain ⟨cs, ds, rfl, hcs, hds⟩ := ih hrest
      refine ⟨c :: cs, ds, rfl, ?_, hds⟩
      rw [serve_cons, hfirst, hcs]

/-- The call that gave an answer. -/
theorem exists_call_of_cons {calls : List Call} {a : Answer} {answers : List Answer}
    (h : (e.serve calls).2 = a :: answers) :
    ∃ c rest, e.Called c (e.call c).1 a ∧ ((e.call c).1.serve rest).2 = answers := by
  cases calls with
  | nil => exact nomatch h
  | cons c rest =>
    rw [serve_cons] at h
    obtain ⟨rfl, hrest⟩ := List.cons.inj h
    exact ⟨c, rest, called e c, hrest⟩

/-- A step that is answered with a result was applied. -/
theorem Called.steps_of_applied {c : Call} (hc : e.Called c e' (.stepped (some r))) :
    e.Steps e' r := by
  cases hc with
  | steps _ step => exact step

/-- Once an entry that fills holes is resolved there is no hole ahead. -/
theorem Steps.ahead_ne_hole (hs : e.Steps e' r) (hsq : e.world.overlay.Square)
    (hr : r.command = some (.basic .ifHole)) :
    e'.world.overlay.look? e'.world.robot.ahead ≠ some .hole := by
  cases hs with
  | exhausted due past => exact nomatch hr
  | acts due entry effect =>
    obtain rfl := Command.basic.inj (Option.some.inj hr)
    exact (World.does_of_perform hsq effect).ahead_ne_hole

/-- A step that reports a fall had a hole ahead. -/
theorem Steps.hole_of_falls (hs : e.Steps e' r) (hsq : e.world.overlay.Square)
    (hr : r.reason = some .fellInHole) :
    e.world.overlay.look? e.world.robot.ahead = some .hole := by
  cases hs with
  | exhausted due past => exact nomatch hr
  | acts due entry effect =>
    obtain rfl := eq_fails_of_reason? hr nofun
    exact (World.does_of_perform hsq effect).hole_of_falls

/-- With nothing but refused or idle calls in between, no step falls after one that looked
for a hole ahead. -/
theorem Patched.not_falls {calls : List Call} {between after : List Answer} {r' : StepResult}
    (h : e.Patched ground fills)
    (hanswers : (e.serve calls).2 =
      .stepped (some r) :: (between ++ .stepped (some r') :: after))
    (hidle : ∀ a ∈ between, a.isRewind = false ∧ a.isApplied = false)
    (hr : r.command = some (.basic .ifHole)) : r'.reason ≠ some .fellInHole := by
  obtain ⟨c, rest, hcalled, hrest⟩ := exists_call_of_cons hanswers
  have hstep := hcalled.steps_of_applied
  have hahead := hstep.ahead_ne_hole h.square hr
  have hsquare := (h.step hstep).square
  obtain ⟨cs, ds, rfl, hcs, hds⟩ := exists_serve_of_append hrest
  -- the robot stands where it looked for the hole
  have hworld := world_serve_eq (hcs ▸ hidle)
  rw [← hworld] at hahead hsquare
  obtain ⟨c', rest', hcalled', -⟩ := exists_call_of_cons hds
  exact fun hfell => hahead (hcalled'.steps_of_applied.hole_of_falls hsquare hfell)

/-! ## The history of an overlay -/

/-- After any calls to an executor on a square maze, edits of the maze included: the overlay
is the grid at the last rewind with exactly the cells that the steps since then have reported
turned into floor; each of them was a hole there, and none is reported twice.  The next call
changes the overlay only if it rewinds or reports a filled cell.  In one run the step that
comes next after an `ifHole` does not fall into a hole, a `forward` in particular. -/
theorem overlay_history (m : Maze) (hm : m.WellFormed) (trace : Trace) (initial : Option Pose)
    (calls : List Call) :
    let e := ((create m trace initial).serve calls).1
    let answers := ((create m trace initial).serve calls).2
    let ground := (create m trace initial).groundOf m.grid calls
    let fills := Answer.fillsSinceRewind answers
    e.snapshot.grid = ground.floored fills ∧
    (∀ c ∈ fills, ground.inBounds c = true ∧ ground.tileAt c = .ok .hole) ∧ fills.Nodup ∧
    (∀ c, (e.call c).1.snapshot.grid = e.snapshot.grid ∨ (e.call c).2.isRewind = true ∨
      (e.call c).2.filled?.isSome = true) ∧
    ∀ before r between r' after,
      answers = before ++ .stepped (some r) :: (between ++ .stepped (some r') :: after) →
      (∀ a ∈ between, a.isRewind = false ∧ a.isApplied = false) →
      r.command = some (.basic .ifHole) → r'.reason ≠ some .fellInHole := by
  intro e answers ground fills
  have hcreate : (create m trace initial).Patched m.grid (Answer.fillsSinceRewind []) :=
    patched_create hm trace initial
  have he : e.Patched ground fills := hcreate.serve calls
  refine ⟨he.overlay_eq, fun c hc => ?_, he.nodup, fun c => ?_, ?_⟩
  · have hole := he.holes c hc
    exact ⟨he.ground_square.inBounds_of_look? hole, Grid.tileAt_of_look? hole⟩
  · exact he.overlay_of_called (called e c)
  · intro before r between r' after hanswers hidle hr
    obtain ⟨cs, ds, -, hcs, hds⟩ := exists_serve_of_append hanswers
    exact (hcreate.serve cs).not_falls hds hidle hr

/-- The hole is filled, then walled up in the maze itself: the robot still steps onto the
filled cell, and the copy is that of the maze as it was when the run began. -/
theorem overlay_history_trench :
    let start := create .trench [.basic .ifHole, .basic .forward]
    let calls : List Call := [.start, .step none, .editTile ⟨1, 0⟩ .wall, .step none]
    let e := (start.serve calls).1
    Maze.trench.WellFormed ∧ e.maze.grid = Maze.trench.grid.put ⟨1, 0⟩ .wall ∧
      e.snapshot.grid = Maze.trench.grid.floored [⟨1, 0⟩] ∧
      Maze.trench.grid.tileAt ⟨1, 0⟩ = .ok .hole ∧
      ∃ r r', (start.serve calls).2 =
          [.started true] ++ .stepped (some r) :: ([.changed] ++ .stepped (some r') :: []) ∧
        r.filled = some ⟨1, 0⟩ ∧ r'.robot.cell = ⟨1, 0⟩ ∧ r'.reason ≠ some .fellInHole := by
  intro start calls e
  obtain ⟨hgrid, hfills, -, -, hsteps⟩ :=
    overlay_history .trench Maze.trench_wellFormed [.basic .ifHole, .basic .forward] none calls
  have hidle : ∀ a ∈ [Answer.changed], a.isRewind = false ∧ a.isApplied = false := by
    simp [Answer.isRewind, Answer.isApplied]
  refine ⟨Maze.trench_wellFormed, by decide, hgrid, (hfills ⟨1, 0⟩ ?_).2, _, _, rfl, rfl, rfl, ?_⟩
  · exact List.mem_singleton_self _
  · exact hsteps [.started true] _ [.changed] _ [] rfl hidle rfl

end Executor

end MazeRobot
