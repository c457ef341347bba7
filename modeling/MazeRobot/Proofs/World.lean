import MazeRobot.Executor.World
import MazeRobot.Proofs.Grid

/-!
# Actions on a square grid

`World.Does` lists everything that an action can do, told from the tile ahead of the
robot: nine rules, one for each way in which an action can turn out.  On a square grid
`World.perform` answers every action by one of them (`exists_perform`, `does_of_perform`),
so later proofs split on the rules and never unfold `perform`.
-/

namespace MazeRobot

namespace World

/-- What an action can do: the world afterwards and the verdict. -/
inductive Does (w : World) : Action → World → Verdict → Prop where
  | leaves (ahead : w.overlay.look? w.robot.ahead = none) :
      Does w .forward w (.fails .outOfBounds)
  | collides (ahead : w.overlay.look? w.robot.ahead = some .wall) :
      Does w .forward w (.fails .wallCollision)
  | falls (ahead : w.overlay.look? w.robot.ahead = some .hole) :
      Does w .forward w.advance (.fails .fellInHole)
  | arrives (ahead : w.overlay.look? w.robot.ahead = some .goal) :
      Does w .forward w.advance .reachesGoal
  | walks {t : Tile} (ahead : w.overlay.look? w.robot.ahead = some t)
      (free : t = .floor ∨ t = .start) : Does w .forward w.advance (.continues none)
  | turnsRight : Does w .turnRight { w with robot := w.robot.turnedRight } (.continues none)
  | turnsLeft : Does w .turnLeft { w with robot := w.robot.turnedLeft } (.continues none)
  | fills (ahead : w.overlay.look? w.robot.ahead = some .hole) :
      Does w .ifHole { w with overlay := w.overlay.put w.robot.ahead .floor }
        (.continues (some w.robot.ahead))
  | passes (ahead : w.overlay.look? w.robot.ahead ≠ some .hole) :
      Does w .ifHole w (.continues none)

variable {w w' : World} {a : Action} {v : Verdict}

/-! ## Reading `perform` -/

/-- Moving follows one of the rules. -/
private theorem exists_forward (hw : w.overlay.Square) :
    ∃ w' v, w.forward = some (w', v) ∧ Does w .forward w' v := by
  unfold forward
  by_cases hin : w.overlay.inBounds w.robot.ahead = true
  · obtain ⟨t, ht⟩ := hw.exists_look? hin
    rw [if_pos hin, Grid.tileAt?_of_look? ht]
    -- one rule for each tile that can be ahead
    cases t with
    | floor => exact ⟨_, _, rfl, .walks ht (.inl rfl)⟩
    | wall => exact ⟨_, _, rfl, .collides ht⟩
    | hole => exact ⟨_, _, rfl, .falls ht⟩
    | start => exact ⟨_, _, rfl, .walks ht (.inr rfl)⟩
    | goal => exact ⟨_, _, rfl, .arrives ht⟩
  · rw [if_neg hin]
    exact ⟨_, _, rfl, .leaves (hw.look?_eq_none hin)⟩

/-- Filling a hole follows one of the rules. -/
private theorem exists_fillHole (hw : w.overlay.Square) :
    ∃ w' v, w.fillHole = some (w', v) ∧ Does w .ifHole w' v := by
  unfold fillHole
  by_cases hin : w.overlay.inBounds w.robot.ahead = true
  · obtain ⟨t, ht⟩ := hw.exists_look? hin
    rw [if_pos hin, Grid.tileAt?_of_look? ht]
    by_cases hole : t = .hole
    · subst hole
      rw [hw.setTile_eq_put hin]
      exact ⟨_, _, rfl, .fills ht⟩
    · -- whatever else is ahead is left alone
      refine ⟨w, .continues none, ?_, .passes ?_⟩
      · cases t <;> first | rfl | exact absurd rfl hole
      · rw [ht]
        exact fun h => hole (Option.some.inj h)
  · rw [if_neg hin]
    refine ⟨_, _, rfl, .passes ?_⟩
    rw [hw.look?_eq_none hin]
    exact nofun

/-- On a square grid every action has an effect, and it follows the rules. -/
theorem exists_perform (hw : w.overlay.Square) (a : Action) :
    ∃ w' v, w.perform a = some (w', v) ∧ Does w a w' v := by
  cases a with
  | forward => exact exists_forward hw
  | turnRight => exact ⟨_, _, rfl, .turnsRight⟩
  | turnLeft => exact ⟨_, _, rfl, .turnsLeft⟩
  | ifHole => exact exists_fillHole hw

/-- What an action did on a square grid follows the rules. -/
theorem does_of_perform (hw : w.overlay.Square) (h : w.perform a = some (w', v)) :
    Does w a w' v := by
  obtain ⟨w₁, v₁, h₁, hd⟩ := exists_perform hw a
  rw [h, Option.some.injEq, Prod.mk.injEq] at h₁
  obtain ⟨rfl, rfl⟩ := h₁
  exact hd

/-! ## What every action keeps -/

-- here the grid need not be square, so the rules do not apply
/-- A forward makes one move at most. -/
private theorem moves_le_of_forward (h : w.forward = some (w', v)) : w'.moves ≤ w.moves + 1 := by
  simp only [forward] at h
  split at h
  · obtain ⟨t, -, ht⟩ := Option.map_eq_some_iff.mp h
    cases t <;> obtain ⟨rfl, -⟩ := Prod.mk.inj ht <;> simp [advance]
  · obtain ⟨rfl, -⟩ := Prod.mk.inj (Option.some.inj h)
    omega

/-- Filling a hole makes no move. -/
private theorem moves_eq_of_fillHole (h : w.fillHole = some (w', v)) : w'.moves = w.moves := by
  simp only [fillHole] at h
  split at h
  · split at h
    · exact nomatch h
    · split at h
      · obtain ⟨rfl, -⟩ := Prod.mk.inj (Option.some.inj h); rfl
      · exact nomatch h
    · obtain ⟨rfl, -⟩ := Prod.mk.inj (Option.some.inj h); rfl
  · obtain ⟨rfl, -⟩ := Prod.mk.inj (Option.some.inj h); rfl

/-- An action makes at most one move, on any grid. -/
theorem moves_le_of_perform (h : w.perform a = some (w', v)) : w'.moves ≤ w.moves + 1 := by
  cases a with
  | forward => exact moves_le_of_forward h
  | turnRight | turnLeft =>
    obtain ⟨rfl, -⟩ := Prod.mk.inj (Option.some.inj h)
    exact Nat.le_succ _
  | ifHole =>
    rw [moves_eq_of_fillHole h]
    exact Nat.le_succ _

/-- Actions keep the grid square. -/
theorem Does.square (h : Does w a w' v) (hw : w.overlay.Square) : w'.overlay.Square := by
  cases h with
  | fills _ => exact hw.put _ _
  | _ => exact hw

/-- Actions keep the size of the grid. -/
theorem Does.size_eq (h : Does w a w' v) : w'.overlay.size = w.overlay.size := by
  cases h with
  | fills _ => exact Grid.size_put
  | _ => rfl

/-- The rules leave no choice. -/
theorem Does.unique {w₁ w₂ : World} {v₁ v₂ : Verdict} (h₁ : Does w a w₁ v₁)
    (h₂ : Does w a w₂ v₂) : w₁ = w₂ ∧ v₁ = v₂ := by
  cases h₁ <;> cases h₂ <;> grind

/-- What the rules say is what an action does on a square grid. -/
theorem Does.perform_eq (h : Does w a w' v) (hw : w.overlay.Square) :
    w.perform a = some (w', v) := by
  obtain ⟨w₁, v₁, hperform, hdoes⟩ := exists_perform hw a
  obtain ⟨rfl, rfl⟩ := hdoes.unique h
  exact hperform

/-- A run fails out of bounds or at a wall where it stands. -/
theorem Does.eq_of_blocked (h : Does w a w' v)
    (hv : v = .fails .outOfBounds ∨ v = .fails .wallCollision) : w' = w := by
  cases h <;> simp_all

end World

end MazeRobot
