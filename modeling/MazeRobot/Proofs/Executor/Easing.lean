import Mathlib.Data.List.Forall2
import MazeRobot.Proofs.Executor.Run

/-!
# Easier mazes, more careful programs

A program that reaches the goal still reaches it, by the same moves, if holes and walls of
the maze are turned into floor and if `ifHole` commands are added to the program, wherever
they stand.

The two runs are of different length and work on different overlays.  What they keep in
common is told by `World.Eased`: the same robot after the same number of moves, on overlays
of which the second is the first with some holes and walls turned into floor.  The runs need
not agree for longer than the first one goes well, so a first run that has failed is eased by
any other (`Course.Eased`).
-/

namespace MazeRobot

/-! ## Clearing a maze -/

/-- A tile, and what clearing may make of it. -/
inductive Tile.Cleared : Tile → Tile → Prop where
  | kept (t : Tile) : Cleared t t
  | hole : Cleared .hole .floor
  | wall : Cleared .wall .floor

/-- Some of the holes and walls of a grid are turned into floor. -/
def Grid.Cleared (g g' : Grid) : Prop :=
  List.Forall₂ (List.Forall₂ Tile.Cleared) g.rows g'.rows

namespace Tile

variable {t u : Tile}

/-- Filling holes in both keeps them as they are to each other. -/
theorem Cleared.filled (h : t.Cleared u) : t.filled.Cleared u.filled := by
  cases h with
  | kept => exact .kept _
  | hole => exact .kept _
  | wall => exact .wall

/-- A hole may be filled although the other one is left. -/
theorem Cleared.filled_right (h : t.Cleared u) : t.Cleared u.filled := by
  cases h with
  | kept =>
    cases t with
    | hole => exact .hole
    | _ => exact .kept _
  | hole => exact .hole
  | wall => exact .wall

/-- No start tile comes or goes. -/
theorem Cleared.beq_start (h : t.Cleared u) : (t == .start) = (u == .start) := by
  cases h <;> rfl

end Tile

namespace Grid

variable {g g' : Grid}

/-- Related lists have related elements at each index, and the same indices. -/
private theorem rel_getElem? {R : α → β → Prop} {xs : List α} {ys : List β}
    (h : List.Forall₂ R xs ys) (i : Nat) : Option.Rel R xs[i]? ys[i]? := by
  induction h generalizing i with
  | nil => exact .none
  | cons first _ ih =>
    cases i with
    | zero => exact .some first
    | succ i => exact ih i

/-- Every cell of the one overlay against the same cell of the other. -/
def Eased (g g' : Grid) : Prop := ∀ c, Option.Rel Tile.Cleared (g.look? c) (g'.look? c)

/-- To clear a grid is to ease it. -/
theorem Cleared.eased (h : g.Cleared g') : g.Eased g' := by
  intro c
  unfold look?
  split
  · have hrow := rel_getElem? h c.y.toNat
    generalize g.rows[c.y.toNat]? = row at hrow ⊢
    generalize g'.rows[c.y.toNat]? = row' at hrow ⊢
    cases hrow with
    | none => exact .none
    | some hrow => exact rel_getElem? hrow c.x.toNat
  · exact .none

/-- Related optional values stay related under functions that take related to related. -/
private theorem rel_map {R : α → β → Prop} {x : Option α} {y : Option β} {f : α → γ} {k : β → δ}
    {S : γ → δ → Prop} (h : Option.Rel R x y) (hf : ∀ {a b}, R a b → S (f a) (k b)) :
    Option.Rel S (x.map f) (y.map k) := by
  cases h with
  | none => exact .none
  | some hab => exact .some (hf hab)

/-- The same cell is filled in both overlays, if there is a hole. -/
theorem Eased.fill (h : g.Eased g') (c : Cell) : (g.fill c).Eased (g'.fill c) := by
  intro d
  by_cases hd : d = c
  · subst hd
    rw [look?_fill_self, look?_fill_self]
    exact rel_map (h d) Tile.Cleared.filled
  · rw [look?_fill_of_ne hd, look?_fill_of_ne hd]
    exact h d

/-- A hole is filled that the first run never looks at. -/
theorem Eased.fill_right (h : g.Eased g') (c : Cell) : g.Eased (g'.fill c) := by
  intro d
  by_cases hd : d = c
  · subst hd
    have hmap := rel_map (f := id) (h d) Tile.Cleared.filled_right
    rwa [Option.map_id_apply, ← look?_fill_self] at hmap
  · rw [look?_fill_of_ne hd]
    exact h d

/-- Clearing a row leaves its first start where it is. -/
private theorem findIdx?_eq_of_cleared {row row' : List Tile}
    (h : List.Forall₂ Tile.Cleared row row') :
    row.findIdx? (· == .start) = row'.findIdx? (· == .start) := by
  induction h with
  | nil => rfl
  | cons first _ ih => rw [List.findIdx?_cons, List.findIdx?_cons, first.beq_start, ih]

/-- Clearing rows leaves the first start of them where it is. -/
private theorem go_eq_of_cleared {rows rows' : List (List Tile)}
    (h : List.Forall₂ (List.Forall₂ Tile.Cleared) rows rows') (y : Nat) :
    findCell?.go (· == .start) y rows = findCell?.go (· == .start) y rows' := by
  induction h generalizing y with
  | nil => rfl
  | cons first _ ih => rw [findCell?.go, findCell?.go, findIdx?_eq_of_cleared first, ih]

/-- The start cell stays where it is. -/
theorem Cleared.startCell_eq (h : g.Cleared g') : g'.startCell = g.startCell := by
  unfold startCell find? findCell?
  rw [go_eq_of_cleared h 0]

end Grid

/-- A cleared maze is as square as it was. -/
theorem Maze.WellFormed.cleared {m : Maze} {g : Grid} (hm : m.WellFormed)
    (h : m.grid.Cleared g) : Maze.WellFormed { m with grid := g } := by
  refine ⟨hm.size_pos, h.length_eq.symm.trans hm.rows_length, fun row' hrow' => ?_⟩
  -- every row is that of the first grid, cleared
  obtain ⟨y, hy⟩ := List.mem_iff_getElem?.mp hrow'
  have hrel := Grid.rel_getElem? h y
  rw [hy] at hrel
  generalize hrow : m.grid.rows[y]? = found at hrel
  cases hrel with
  | some hcleared =>
    rw [← hcleared.length_eq]
    exact hm.row_length _ (List.mem_of_getElem? hrow)

/-! ## Guarding a program -/

/-- The second program is the first with `ifHole` commands added, at the top or in the body
of any loop. -/
inductive Command.Guarded : List Command → List Command → Prop where
  | nil : Guarded [] []
  | act (a : Action) {rest rest' : List Command} (h : Guarded rest rest') :
      Guarded (basic a :: rest) (basic a :: rest')
  | loop (count : Option Nat) {body body' rest rest' : List Command} (inside : Guarded body body')
      (h : Guarded rest rest') : Guarded (loop count body :: rest) (loop count body' :: rest')
  | guard {rest rest' : List Command} (h : Guarded rest rest') :
      Guarded rest (basic .ifHole :: rest')

/-! ## Two runs -/

/-- The same robot on an overlay that is at least as easy. -/
structure World.Eased (w w' : World) : Prop where
  robot_eq : w'.robot = w.robot
  moves_eq : w'.moves = w.moves
  overlay : w.overlay.Eased w'.overlay

/-- The second course goes as well as the first, unless the first has failed. -/
inductive Course.Eased : Course → Course → Prop where
  | onward {w w' : World} (h : w.Eased w') : Eased (.onward w) (.onward w')
  | arrived {w w' : World} (h : w.Eased w') : Eased (.arrived w) (.arrived w')
  | failed {w : World} {reason : FailureReason} {c : Course} : Eased (.failed w reason) c

namespace Course

variable {c c' : Course} {next next' : World → Course}

/-- If one course is easier than another, so it is with something easier after it. -/
theorem Eased.andThen (h : c.Eased c')
    (hnext : ∀ {w w' : World}, w.Eased w' → (next w).Eased (next' w')) :
    (c.andThen next).Eased (c'.andThen next') := by
  cases h with
  | onward hw => exact hnext hw
  | arrived hw => exact .arrived hw
  | failed => exact .failed

/-- Repeating the easier of two courses is easier than repeating the other. -/
theorem eased_times (hnext : ∀ {w w' : World}, w.Eased w' → (next w).Eased (next' w')) (n : Nat)
    {w w' : World} (hw : w.Eased w') : (times next n w).Eased (times next' n w') := by
  induction n generalizing w w' with
  | zero => exact .onward hw
  | succ n ih => exact (hnext hw).andThen ih

/-- A course is a success only if it has arrived. -/
theorem eq_arrived_of_success (h : c.outcome.status = .success) : ∃ w, c = .arrived w := by
  cases c with
  | arrived w => exact ⟨w, rfl⟩
  | _ => exact nomatch h

end Course

/-- The same action goes as well in an eased world. -/
theorem World.Eased.act {w w' : World} (h : w.Eased w') (a : Action) :
    (w.act a).Eased (w'.act a) := by
  obtain ⟨robot, overlay, moves⟩ := w
  obtain ⟨robot', overlay', moves'⟩ := w'
  obtain ⟨rfl, rfl, hoverlay⟩ := h
  cases a with
  | forward =>
    -- a step that goes well finds the same tile ahead in both worlds
    have hahead := hoverlay robot'.ahead
    simp only [World.act]
    generalize overlay.look? robot'.ahead = tile at hahead ⊢
    generalize overlay'.look? robot'.ahead = tile' at hahead ⊢
    cases hahead with
    | none => exact .failed
    | @some t _ hcleared =>
      cases hcleared with
      | kept =>
        cases t with
        | floor | start => exact .onward ⟨rfl, rfl, hoverlay⟩
        | goal => exact .arrived ⟨rfl, rfl, hoverlay⟩
        | wall | hole => exact .failed
      | hole | wall => exact .failed
  | turnRight | turnLeft => exact .onward ⟨rfl, rfl, hoverlay⟩
  | ifHole =>
    rw [World.act_ifHole, World.act_ifHole]
    exact .onward ⟨rfl, rfl, hoverlay.fill robot'.ahead⟩

namespace Command

/-- A guarded program in an eased world does as well as the program. -/
theorem eased_interpretAll {program program' : List Command} (h : Guarded program program')
    {w w' : World} (hw : w.Eased w') :
    (interpretAll program w).Eased (interpretAll program' w') := by
  -- on how the program was guarded; what a body does is a case of its own
  induction h generalizing w w' with
  | nil => exact .onward hw
  | act a _ ih => exact (hw.act a).andThen ih
  | loop count _ _ ihbody ih =>
    -- the count is kept, so the rounds of the two loops go together
    rw [interpretAll, interpretAll, interpret_loop, interpret_loop]
    exact (Course.eased_times ihbody _ hw).andThen ih
  | guard _ ih =>
    -- the first run stands still while the second one fills a hole
    rw [interpretAll, interpret, World.act_ifHole]
    exact ih ⟨hw.robot_eq, hw.moves_eq, hw.overlay.fill_right _⟩

end Command

namespace Executor

/-- If a program reaches the goal, then so does the guarded program in the cleared maze, from
the same pose, and it ends with the same pose after the same number of moves. -/
theorem success_of_cleared_of_guarded (m : Maze) (hm : m.WellFormed) (g : Grid)
    (hg : m.grid.Cleared g) (program program' : List Command)
    (hp : Command.Guarded program program') (initial : Option Pose) (rs : List StepResult)
    (e : Executor) (hrun : (create m (Command.unrollAll program) initial).Completes rs e)
    (hsuccess : e.status = .success) :
    ∃ rs' e', (create { m with grid := g } (Command.unrollAll program') initial).Completes rs' e' ∧
      e'.status = .success ∧ e'.world.robot = e.world.robot ∧ e'.world.moves = e.world.moves := by
  obtain ⟨rs', e', hrun', hout'⟩ := exists_completes (hm.cleared hg) program' initial
  have hout := hrun.outcome_eq hm
  -- both runs begin in the same pose
  have hpose : Maze.startPose { m with grid := g } = m.startPose := by
    unfold Maze.startPose
    rw [hg.startCell_eq]
  have hfresh : (freshWorld m (initial.getD m.startPose)).Eased
      (freshWorld { m with grid := g } (initial.getD (Maze.startPose { m with grid := g }))) :=
    ⟨by rw [hpose]; rfl, rfl, hg.eased⟩
  have heased := Command.eased_interpretAll hp hfresh
  have hstatus : e.outcome.status = .success := hsuccess
  rw [hout] at hstatus
  obtain ⟨w, hw⟩ := Course.eq_arrived_of_success hstatus
  rw [hw] at hout heased
  generalize Command.interpretAll program' _ = course' at hout' heased
  cases heased with
  | arrived hends =>
    refine ⟨rs', e', hrun', congrArg Outcome.status hout', ?_, ?_⟩
    · calc e'.world.robot = _ := congrArg Outcome.robot hout'
        _ = w.robot := hends.robot_eq
        _ = e.world.robot := (congrArg Outcome.robot hout).symm
    · calc e'.world.moves = _ := congrArg Outcome.moves hout'
        _ = w.moves := hends.moves_eq
        _ = e.world.moves := (congrArg Outcome.moves hout).symm

/-- The hole is left for the program to fill and the wall is gone; the guards inside the loop
stand in the trace twice. -/
theorem success_of_cleared_of_guarded_trench :
    let g : Grid := ⟨[[.start, .hole, .goal], [.floor, .floor, .floor], [.floor, .floor, .floor]]⟩
    let program : List Command := [.loop (some 2) [.basic .ifHole, .basic .forward]]
    let program' : List Command :=
      [.basic .ifHole, .loop (some 2) [.basic .ifHole, .basic .forward, .basic .ifHole]]
    Maze.trench.WellFormed ∧ Maze.trench.grid.Cleared g ∧ Command.Guarded program program' ∧
      ∃ rs e, (create .trench (Command.unrollAll program)).Completes rs e ∧ e.status = .success ∧
        ∃ rs' e',
          (create { Maze.trench with grid := g } (Command.unrollAll program')).Completes rs' e' ∧
          e'.status = .success ∧ e'.world.robot = e.world.robot ∧
          e'.world.moves = e.world.moves := by
  intro g program program'
  have hkept : ∀ row : List Tile, List.Forall₂ Tile.Cleared row row :=
    fun row => List.forall₂_same.mpr fun t _ => .kept t
  have hg : Maze.trench.grid.Cleared g :=
    .cons (hkept _) (.cons (.cons (.kept _) (.cons .wall (.cons (.kept _) .nil)))
      (.cons (hkept _) .nil))
  have hp : Command.Guarded program program' :=
    .guard (.loop _ (.act _ (.act _ (.guard .nil))) .nil)
  obtain ⟨rs, e, hrun, hout⟩ := exists_completes Maze.trench_wellFormed program none
  have hsuccess : e.status = .success := (congrArg Outcome.status hout).trans (by decide)
  exact ⟨Maze.trench_wellFormed, hg, hp, rs, e, hrun, hsuccess,
    success_of_cleared_of_guarded .trench Maze.trench_wellFormed g hg program program' hp none
      rs e hrun hsuccess⟩

end Executor

end MazeRobot
