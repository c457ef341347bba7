import MazeRobot.Executor.Basic
import MazeRobot.Maze.Playable
import MazeRobot.Proofs.Landmarks
import MazeRobot.Proofs.Maze.Record

/-!
# Which mazes can be played

What stands in the way of playing a maze is that it breaks a `Rule`: its size is out of range,
or a tile that has to stand on one cell does not.  The issues of a maze are what there is to say
of the rules it breaks, in the order of the rules (`issues_eq_broken`), so there are none exactly
if the size is in range and there is one start and one goal (`issues_eq_nil_iff`).

A blank maze is the floor with two tiles replaced, of which the second hides the first if there
is one cell only; from two lines on, both stand on a cell of their own
(`look?_blankBoard_start`, `look?_blankBoard_goal`).

## Key results

- `issues_eq_broken`: one issue for each broken rule
- `WellFormed.landmarks`: where start and goal are, if there are no issues
- `issues_blankMaze_eq_nil_iff`: which blank mazes are played
- `playability`: all of it together
-/

namespace MazeRobot

namespace Maze

variable {m : Maze}

/-! ## The rules -/

/-- What a maze has to keep to. -/
inductive Rule where
  /-- The edge length is in range. -/
  | size
  /-- A tile stands on one cell. -/
  | single (t : Tile)
  deriving DecidableEq, Repr

namespace Rule

/-- The rules, in the order in which they are reported. -/
def all : List Rule := [size, single .start, single .goal]

/-- Whether a maze breaks a rule. -/
def Broken (m : Maze) : Rule → Prop
  | size => ¬ (5 ≤ m.size ∧ m.size ≤ 10)
  | single t => (m.grid.occurrences t).ncard ≠ 1

instance (m : Maze) : DecidablePred (Broken m)
  | size => inferInstanceAs (Decidable (¬ (5 ≤ m.size ∧ m.size ≤ 10)))
  | single t => decidable_of_iff (m.grid.countTile t ≠ 1) (by rw [← Grid.ncard_occurrences]; rfl)

/-- What there is to say of a tile that stands on `n` cells, if not on one. -/
def miscount (t : Tile) : Nat → String
  | 0 => s!"place one {t.word} tile"
  | n => s!"only one {t.word} tile is allowed, found {n}"

/-- What there is to say of a broken rule. -/
noncomputable def wording (m : Maze) : Rule → String
  | size => s!"size must be between 5 and 10, got {m.size}"
  | single t => miscount t (m.grid.occurrences t).ncard

/-- What is reported of a rule. -/
noncomputable def report (m : Maze) (r : Rule) : List String :=
  if r.Broken m then [r.wording m] else []

/-- A broken rule is reported in its wording. -/
theorem report_of_broken {r : Rule} (h : r.Broken m) : r.report m = [r.wording m] := if_pos h

/-- A rule that is kept is not reported. -/
theorem report_of_kept {r : Rule} (h : ¬ r.Broken m) : r.report m = [] := if_neg h

/-- The reports in order are the wordings of the rules that are broken. -/
theorem map_wording_filter (rs : List Rule) :
    (rs.filter (Broken m)).map (wording m) = rs.flatMap (report m) := by
  induction rs with
  | nil => rfl
  | cons r rs ih =>
    rw [List.flatMap_cons, ← ih, List.filter_cons, report]
    by_cases h : r.Broken m <;> simp [h]

end Rule

/-- What is said of the size is the report of its rule. -/
theorem sizeIssues_eq (m : Maze) : m.sizeIssues = Rule.size.report m := by
  by_cases h : Rule.size.Broken m
  · rw [Rule.report_of_broken h]
    exact if_neg h
  · rw [Rule.report_of_kept h]
    exact if_pos (not_not.mp h)

/-- What is said of a tile is the report of its rule. -/
theorem countIssues_eq (m : Maze) (t : Tile) : m.countIssues t = (Rule.single t).report m := by
  rw [countIssues, ← Grid.ncard_occurrences]
  by_cases h : (Rule.single t).Broken m
  · rw [Rule.report_of_broken h]
    change (m.grid.occurrences t).ncard ≠ 1 at h
    show _ = [Rule.miscount t (m.grid.occurrences t).ncard]
    generalize (m.grid.occurrences t).ncard = n at h
    -- none and too many are worded differently
    obtain _ | _ | n := n
    · rfl
    · contradiction
    · rfl
  · rw [Rule.report_of_kept h, not_not.mp h]
    rfl

/-- The issues are what there is to say of the broken rules. -/
theorem issues_eq_broken (m : Maze) :
    m.issues = (Rule.all.filter (Rule.Broken m)).map (Rule.wording m) := by
  rw [Rule.map_wording_filter, issues, sizeIssues_eq, countIssues_eq, countIssues_eq]
  simp only [Rule.all, List.flatMap_cons, List.flatMap_nil, List.append_nil, List.append_assoc]

/-- Nothing is wrong if the size is in range and start and goal occur once. -/
theorem issues_eq_nil_iff :
    m.issues = [] ↔ (5 ≤ m.size ∧ m.size ≤ 10) ∧
      (m.grid.occurrences .start).ncard = 1 ∧ (m.grid.occurrences .goal).ncard = 1 := by
  rw [issues_eq_broken, List.map_eq_nil_iff, List.filter_eq_nil_iff]
  simp only [Rule.all, List.forall_mem_cons, List.not_mem_nil, false_implies, implies_true,
    and_true, decide_eq_true_eq]
  simp only [Rule.Broken, not_not]

/-! ## What is played -/

/-- A maze with which nothing is wrong is handed through. -/
theorem playable_of_issues_eq_nil (h : m.issues = []) : m.playable = .ok m := by
  rw [playable, h]
  rfl

/-- A maze with which something is wrong is refused with all of it. -/
theorem playable_of_issues_ne_nil (h : m.issues ≠ []) :
    m.playable = .error (.unplayable m.id m.issues) := by
  rw [playable, if_neg (by simpa using h)]

/-- To be playable is to have nothing wrong. -/
theorem playable_eq_ok_iff : m.playable = .ok m ↔ m.issues = [] := by
  refine ⟨fun h => ?_, playable_of_issues_eq_nil⟩
  by_contra hissues
  rw [playable_of_issues_ne_nil hissues] at h
  exact nomatch h

end Maze

/-! ## Blank mazes -/

namespace Grid

variable {k : Nat} {c : Cell} {t : Tile}

/-- A square of floor. -/
def floor (k : Nat) : Grid := ⟨List.replicate k (List.replicate k .floor)⟩

/-- A square of floor with start and goal in opposite corners. -/
def blankBoard (k : Nat) : Grid := ((floor k).put ⟨0, 0⟩ .start).put ⟨k - 1, k - 1⟩ .goal

theorem size_floor (k : Nat) : (floor k).size = k := List.length_replicate

/-- The floor is square. -/
theorem square_floor (k : Nat) : (floor k).Square :=
  ⟨fun row hrow => by rw [List.eq_of_mem_replicate hrow, size_floor, List.length_replicate]⟩

/-- Two opposite corners of the floor are in bounds. -/
theorem inBounds_floor (hk : 1 ≤ k) :
    (floor k).inBounds ⟨0, 0⟩ = true ∧ (floor k).inBounds ⟨k - 1, k - 1⟩ = true := by
  simp only [inBounds_iff, size_floor]
  omega

/-- There is nothing but floor. -/
theorem look?_floor (h : (floor k).look? c = some t) : t = .floor := by
  obtain ⟨-, row, hrow, hcell⟩ := exists_row_of_look? h
  rw [List.eq_of_mem_replicate (List.mem_of_getElem? hrow)] at hcell
  exact List.eq_of_mem_replicate (List.mem_of_getElem? hcell)

/-- The goal's corner is in bounds when the start has been put. -/
theorem inBounds_put_floor (hk : 1 ≤ k) :
    ((floor k).put ⟨0, 0⟩ .start).inBounds ⟨k - 1, k - 1⟩ = true := by
  rw [inBounds_of_size_eq size_put]
  exact (inBounds_floor hk).2

theorem size_blankBoard (k : Nat) : (blankBoard k).size = k := by
  rw [blankBoard, size_put, size_put, size_floor]

/-- A blank board is square. -/
theorem square_blankBoard (k : Nat) : (blankBoard k).Square :=
  ((square_floor k).put _ _).put _ _

/-- From two lines on, the start is top left only. -/
theorem look?_blankBoard_start (hk : 2 ≤ k) :
    (blankBoard k).look? c = some .start ↔ c = ⟨0, 0⟩ := by
  have hne : (⟨0, 0⟩ : Cell) ≠ ⟨k - 1, k - 1⟩ := by
    rw [Ne, Cell.mk.injEq]
    omega
  have hfloor : (floor k).look? c ≠ some .start := fun h => nomatch look?_floor h
  rw [blankBoard, ((square_floor k).put _ _).look?_put_eq_some_iff (inBounds_put_floor (by omega)),
    (square_floor k).look?_put_eq_some_iff (inBounds_floor (by omega)).1]
  split
  · -- the goal was put here last
    next hc => simp [hc, hne.symm]
  · simp [hfloor]

/-- The goal is bottom right only. -/
theorem look?_blankBoard_goal (hk : 1 ≤ k) :
    (blankBoard k).look? c = some .goal ↔ c = ⟨k - 1, k - 1⟩ := by
  have hfloor : (floor k).look? c ≠ some .goal := fun h => nomatch look?_floor h
  rw [blankBoard, ((square_floor k).put _ _).look?_put_eq_some_iff (inBounds_put_floor hk),
    (square_floor k).look?_put_eq_some_iff (inBounds_floor hk).1]
  simp [hfloor]

end Grid

namespace Maze

variable {k : Nat} {n : Int}

/-- For a size of at least one the blank grid is the board. -/
theorem blankGrid_natCast (hk : 1 ≤ k) : blankGrid k = .ok (Grid.blankBoard k) := by
  show ((Grid.floor k).setTile ⟨0, 0⟩ .start >>= fun g => g.setTile ⟨k - 1, k - 1⟩ .goal) = _
  rw [(Grid.square_floor k).setTile_eq_put (Grid.inBounds_floor hk).1]
  exact ((Grid.square_floor k).put _ _).setTile_eq_put (Grid.inBounds_put_floor hk) _

/-- There is no cell to put the start on. -/
theorem blankGrid_of_nonpos (h : n ≤ 0) : blankGrid n = .error .reading := by
  rw [blankGrid, Int.toNat_of_nonpos h]
  rfl

/-- The blank maze of `k` lines. -/
def blankMaze (id name : Text) (k : Nat) : Maze := ⟨id, name, k, Grid.blankBoard k⟩

/-- The maze on a blank board is well formed. -/
theorem wellFormed_blankMaze (id name : Text) (hk : 1 ≤ k) : (blankMaze id name k).WellFormed :=
  ⟨hk, Grid.size_blankBoard k, fun row hrow =>
    ((Grid.square_blankBoard k).row_length row hrow).trans (Grid.size_blankBoard k)⟩

/-- For a size of at least one the blank maze is the one on the board. -/
theorem blank_natCast (id name : Text) (hk : 1 ≤ k) :
    blank (.str id) (.str name) k = .ok (blankMaze id name k) := by
  rw [blank, blankGrid_natCast hk]
  show ofJson (draft _ _ _) = _
  rw [ofJson_eq_ok_iff, draft, Grid.size_blankBoard]
  exact ⟨_, rfl, recorded_toJson (blankMaze id name k), wellFormed_blankMaze id name hk⟩

/-- There is a blank maze exactly if it has a cell. -/
theorem blank_eq_ok_iff {id name : Text} {b : Maze} :
    blank (.str id) (.str name) n = .ok b ↔ ∃ k : Nat, 1 ≤ k ∧ n = k ∧ b = blankMaze id name k := by
  constructor
  · intro h
    by_cases hn : n ≤ 0
    · rw [blank, blankGrid_of_nonpos hn] at h
      exact nomatch h
    · obtain ⟨k, rfl⟩ := Int.eq_ofNat_of_zero_le (by omega : 0 ≤ n)
      have hk : 1 ≤ k := by omega
      rw [blank_natCast id name hk] at h
      exact ⟨k, hk, rfl, (Except.ok.inj h).symm⟩
  · rintro ⟨k, hk, rfl, rfl⟩
    exact blank_natCast id name hk

/-- The blank maze is played exactly if its size is in range. -/
theorem issues_blankMaze_eq_nil_iff {id name : Text} :
    (blankMaze id name k).issues = [] ↔ 5 ≤ k ∧ k ≤ 10 := by
  rw [issues_eq_nil_iff]
  refine ⟨fun h => h.1, fun h => ⟨h, ?_⟩⟩
  -- a size in range leaves room for both tiles
  have hk : 2 ≤ k := by omega
  simp only [Grid.ncard_occurrences_eq_one_iff, blankMaze, Grid.look?_blankBoard_start hk,
    Grid.look?_blankBoard_goal (Nat.le_of_succ_le hk), existsUnique_eq, and_self]

/-- A maze without issues has a start and a goal. -/
theorem WellFormed.landmarks {m : Maze} (hm : m.WellFormed) (h : m.issues = []) :
    ∃ start goal, m.grid.Landmarks start goal := by
  obtain ⟨-, hstart, hgoal⟩ := issues_eq_nil_iff.mp h
  obtain ⟨start, -, hstart⟩ := Grid.exists_unique_of_ncard hstart
  obtain ⟨goal, -, hgoal⟩ := Grid.exists_unique_of_ncard hgoal
  exact ⟨start, goal, hm.square.landmarks hstart hgoal⟩

/-- A maze is played exactly if it has no issues, that is, if its size is in range and one cell
holds the start and one the goal; else it is refused with what there is to say of each broken
rule, in order.  In a maze without issues both cells are found, and a robot sets out from the
start.  The blank maze of `n` lines is played exactly if `n` is in range, and from two lines on
its start is top left and its goal bottom right. -/
theorem playability (m : Maze) (hm : m.WellFormed) (id name : Text) (n : Int) :
    (m.playable = .ok m ↔ m.issues = []) ∧
    (m.issues = [] ↔ (5 ≤ m.size ∧ m.size ≤ 10) ∧
      (∃! c, m.grid.look? c = some .start) ∧ ∃! c, m.grid.look? c = some .goal) ∧
    m.issues = (Rule.all.filter (Rule.Broken m)).map (Rule.wording m) ∧
    (m.issues ≠ [] → m.playable = .error (.unplayable m.id m.issues)) ∧
    (m.issues = [] → ∃ start goal, m.grid.Landmarks start goal ∧
      ∀ trace, (Executor.create m trace).snapshot.robot.cell = start) ∧
    ((∃ b, blank (.str id) (.str name) n = .ok b ∧ b.playable = .ok b) ↔ 5 ≤ n ∧ n ≤ 10) ∧
    (2 ≤ n → ∃ b, blank (.str id) (.str name) n = .ok b ∧
      b.grid.Landmarks ⟨0, 0⟩ ⟨n - 1, n - 1⟩) := by
  refine ⟨playable_eq_ok_iff, ?_, issues_eq_broken m, playable_of_issues_ne_nil, fun h => ?_, ?_,
    fun hn => ?_⟩
  · rw [issues_eq_nil_iff, Grid.ncard_occurrences_eq_one_iff, Grid.ncard_occurrences_eq_one_iff]
  · obtain ⟨start, goal, hlandmarks⟩ := hm.landmarks h
    exact ⟨start, goal, hlandmarks, fun _ => hlandmarks.startCell_eq⟩
  · simp only [blank_eq_ok_iff, playable_eq_ok_iff]
    -- whatever blank maze there is, it is the one of `k` lines, so only its size counts
    constructor
    · rintro ⟨b, ⟨k, -, rfl, rfl⟩, hissues⟩
      have := issues_blankMaze_eq_nil_iff.mp hissues
      omega
    · intro hn
      obtain ⟨k, rfl⟩ := Int.eq_ofNat_of_zero_le (by omega : 0 ≤ n)
      exact ⟨_, ⟨k, by omega, rfl, rfl⟩, issues_blankMaze_eq_nil_iff.mpr (by omega)⟩
  · obtain ⟨k, rfl⟩ := Int.eq_ofNat_of_zero_le (by omega : 0 ≤ n)
    have hk : 2 ≤ k := by omega
    exact ⟨_, blank_natCast id name (Nat.le_of_succ_le hk),
      (Grid.square_blankBoard k).landmarks (fun _ => Grid.look?_blankBoard_start hk)
        fun _ => Grid.look?_blankBoard_goal (Nat.le_of_succ_le hk)⟩

/-- The trench is too small, and the least blank maze is played. -/
theorem playability_trench :
    trench.WellFormed ∧
      trench.playable = .error (.unplayable ⟨[]⟩ ["size must be between 5 and 10, got 3"]) ∧
      ∃ b, blank (.str ⟨[]⟩) (.str ⟨[]⟩) 5 = .ok b ∧ b.playable = .ok b ∧
        b.grid.Landmarks ⟨0, 0⟩ ⟨4, 4⟩ := by
  obtain ⟨-, -, -, hrefused, -, hblank, hcorners⟩ :=
    playability trench trench_wellFormed ⟨[]⟩ ⟨[]⟩ 5
  have hissues : trench.issues = ["size must be between 5 and 10, got 3"] := by decide
  obtain ⟨b, hb, hplayable⟩ := hblank.mpr (by decide)
  obtain ⟨b', hb', hlandmarks⟩ := hcorners (by decide)
  obtain rfl := Except.ok.inj (hb.symm.trans hb')
  refine ⟨trench_wellFormed, ?_, b, hb, hplayable, hlandmarks⟩
  rw [hrefused (by rw [hissues]; exact List.cons_ne_nil _ _), hissues]
  rfl

end Maze

end MazeRobot
