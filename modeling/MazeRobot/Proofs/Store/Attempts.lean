import MazeRobot.Proofs.Store.Patience

/-!
# How often a maze is read

A load with retries reads until it finds something that lasts (`Retry.Lasts`), or until there
are no attempts left (`load_exhausted`).  In either case the last read decides what the load
comes to, and every read but the first is announced (`load_law`).  Outcomes behind the last
read do not matter (`attempt_congr`).
-/

namespace MazeRobot

namespace Retry

variable {outcome outcome' : Nat → Except Failure (Option Maze)} {id : Text} {attempts : Int}
  {chosen : Option Int} {configured : Int}

/-- How many reads there may be: there is always one. -/
def limit (chosen : Option Int) (configured : Int) : Nat :=
  (max 1 (attemptsInForce chosen configured)).toNat

/-- The read number `j`, counted from zero, is the first that does not fail for a passing
reason. -/
def Lasts (outcome : Nat → Except Failure (Option Maze)) (j : Nat) : Prop :=
  (∀ i < j, Passing (outcome i)) ∧ ¬ Passing (outcome j)

/-- There is always at least one attempt. -/
theorem limit_pos (chosen : Option Int) (configured : Int) : 0 < limit chosen configured := by
  unfold limit
  omega

/-- The limit in whole numbers. -/
theorem lt_limit_iff {k : Nat} :
    k < limit chosen configured ↔ (k : Int) < max 1 (attemptsInForce chosen configured) := by
  unfold limit
  omega

/-! ## The reads that count -/

/-- There is a first read in any case. -/
theorem lt_calls_attempt (outcome : Nat → Except Failure (Option Maze)) (id : Text)
    (attempts : Int) (call left : Nat) : call < (attempt outcome id attempts call left).calls := by
  induction left generalizing call with
  | zero => exact Nat.lt_succ_self _
  | succ left ih =>
    rw [attempt]
    split
    · exact Nat.lt_succ_self _
    · split
      · exact Nat.lt_trans (Nat.lt_succ_self _) (ih (call + 1))
      · exact Nat.lt_succ_self _

/-- Outcomes that are not read do not matter. -/
theorem attempt_congr {call left : Nat}
    (hsame : ∀ i, call ≤ i → i < (attempt outcome id attempts call left).calls →
      outcome' i = outcome i) :
    attempt outcome' id attempts call left = attempt outcome id attempts call left := by
  have hfirst : outcome' call = outcome call :=
    hsame call (Nat.le_refl _) (lt_calls_attempt outcome id attempts call left)
  induction left generalizing call with
  | zero => rw [attempt, attempt, hfirst]
  | succ left ih =>
    rw [attempt] at hsame
    rw [attempt, attempt, hfirst]
    cases houtcome : outcome call with
    | ok found => rfl
    | error e =>
      rw [houtcome] at hsame
      by_cases htransient : e.isTransient = true
      · -- the reads behind this one are those of the later attempts
        simp only [htransient, if_true] at hsame ⊢
        have hlater : ∀ i, call + 1 ≤ i →
            i < (attempt outcome id attempts (call + 1) left).calls → outcome' i = outcome i :=
          fun i hi => hsame i (by omega)
        have hnext : outcome' (call + 1) = outcome (call + 1) :=
          hlater (call + 1) (Nat.le_refl _) (lt_calls_attempt outcome id attempts _ left)
        rw [ih hlater hnext]
      · simp only [htransient]
        rfl

/-- If all reads that there may be fail for a passing reason, the last one is reported. -/
theorem load_exhausted (hpassing : ∀ i < limit chosen configured, Passing (outcome i)) :
    load outcome id chosen configured =
      ⟨(outcome (limit chosen configured - 1)).bind (demand id), limit chosen configured,
        announcements id (attemptsInForce chosen configured) 0 (limit chosen configured - 1)⟩ := by
  obtain ⟨k, hk⟩ : ∃ k, limit chosen configured = k + 1 :=
    Nat.exists_eq_succ_of_ne_zero (limit_pos chosen configured).ne'
  have hleft : (attemptsInForce chosen configured - 1).toNat = k := by
    unfold limit at hk
    omega
  have hskipped : ∀ i < k, Passing (outcome (0 + i)) := fun i hi => by
    rw [Nat.zero_add]
    exact hpassing i (by omega)
  rw [load, hleft, attempt_passing (Nat.le_refl k) hskipped, Nat.sub_self, Nat.zero_add, attempt,
    List.append_nil, hk, Nat.add_sub_cancel]

/-- A load stops at the first read that lasts, and at the limit otherwise. -/
theorem calls_load_of_lasts {j : Nat} (hj : Lasts outcome j) :
    (load outcome id chosen configured).calls = min (limit chosen configured) (j + 1) := by
  by_cases hlimit : j < limit chosen configured
  · rw [load_passing (lt_limit_iff.mp hlimit) hj.1 hj.2]
    exact (Nat.min_eq_right hlimit).symm
  · have hpassing : ∀ i < limit chosen configured, Passing (outcome i) :=
      fun i hi => hj.1 i (by omega)
    have hle : limit chosen configured ≤ j + 1 := by omega
    rw [load_exhausted hpassing]
    exact (Nat.min_eq_left hle).symm

/-- Something lasts within the limit, or all that can be read is passing. -/
theorem exists_lasts_or_passing (outcome : Nat → Except Failure (Option Maze)) (n : Nat) :
    (∃ j < n, Lasts outcome j) ∨ ∀ i < n, Passing (outcome i) := by
  induction n with
  | zero => exact .inr fun i hi => absurd hi (Nat.not_lt_zero i)
  | succ n ih =>
    obtain ⟨j, hj, hlasts⟩ | hpassing := ih
    · exact .inl ⟨j, by omega, hlasts⟩
    -- all before were let pass, so the attempt at hand is the first that may decide
    · by_cases hlast : Passing (outcome n)
      · right
        intro i hi
        obtain hi | rfl := Nat.lt_succ_iff_lt_or_eq.mp hi
        · exact hpassing i hi
        · exact hlast
      · exact .inl ⟨n, Nat.lt_succ_self n, hpassing, hlast⟩

/-- The second read is announced as number two, and so on. -/
theorem log_load (outcome : Nat → Except Failure (Option Maze)) (id : Text)
    (chosen : Option Int) (configured : Int) :
    (load outcome id chosen configured).log =
      (List.range' 2 ((load outcome id chosen configured).calls - 1)).map
        (announcement id (attemptsInForce chosen configured)) := by
  obtain ⟨j, hj, hlasts⟩ | hpassing :=
    exists_lasts_or_passing outcome (limit chosen configured)
  · rw [load_passing (lt_limit_iff.mp hj) hlasts.1 hlasts.2]
    rfl
  · rw [load_exhausted hpassing]
    rfl

/-- Whatever successive reads come to, a load reads until it finds something that lasts, but
not more often than the limit allows.  What lasts is the answer: the maze, that there is none,
or the failure as it is.  If nothing lasts, the answer is the failure of the last read.  Every
read but the first is announced with its number, and what further reads would have found does
not matter. -/
theorem load_law (outcome : Nat → Except Failure (Option Maze)) (id : Text)
    (chosen : Option Int) (configured : Int) :
    let n := limit chosen configured
    let loading := load outcome id chosen configured
    (∀ j, Lasts outcome j → loading.calls = min n (j + 1) ∧ (j < n →
      (∀ m, outcome j = .ok (some m) → loading.result = .ok m) ∧
        (outcome j = .ok none → loading.result = .error (.mazeNotFound id)) ∧
        ∀ e, outcome j = .error e → loading.result = .error e)) ∧
    ((∀ i < n, Passing (outcome i)) → loading.calls = n ∧
      ∃ e, outcome (n - 1) = .error e ∧ e.isTransient = true ∧ loading.result = .error e) ∧
    loading.log = (List.range' 2 (loading.calls - 1)).map
      (announcement id (attemptsInForce chosen configured)) ∧
    ∀ outcome', (∀ i < loading.calls, outcome' i = outcome i) →
      load outcome' id chosen configured = loading := by
  intro n loading
  refine ⟨fun j hj => ⟨calls_load_of_lasts hj, fun hn => ?_⟩, fun hpassing => ?_,
    log_load outcome id chosen configured, fun outcome' hsame => ?_⟩
  -- it is the first attempt that decides, so its outcome is the result
  · have hresult : loading.result = (outcome j).bind (demand id) := by
      show (load outcome id chosen configured).result = _
      rw [load_passing (lt_limit_iff.mp hn) hj.1 hj.2]
    rw [hresult]
    refine ⟨fun m hm => ?_, fun hnone => ?_, fun e he => ?_⟩
    · rw [hm]
      rfl
    · rw [hnone]
      rfl
    · rw [he]
      rfl
  · obtain ⟨e, he, htransient⟩ := hpassing (n - 1) (Nat.sub_lt (limit_pos _ _) Nat.one_pos)
    have hload : loading = _ := load_exhausted hpassing
    refine ⟨congrArg Loading.calls hload, e, he, htransient, ?_⟩
    rw [hload]
    show (outcome (n - 1)).bind _ = _
    rw [he]
    rfl
  · exact attempt_congr fun i _ hi => hsame i hi

/-- The storage is out of reach twice, and then there is no maze.  Three reads find that out,
also if four are allowed; two do not get to it, and of fewer than none there is still one. -/
theorem load_law_outages :
    let outcome : Nat → Except Failure (Option Maze) :=
      fun i => if i < 2 then .error (.outage s!"{i}") else .ok none
    let read (chosen : Int) := load outcome "a" (some chosen)
    Lasts outcome 2 ∧
      (read 4).calls = 3 ∧ (read 4).result = .error (.mazeNotFound "a") ∧
      (read 4).log = [announcement "a" 4 2, announcement "a" 4 3] ∧
      (read 2).calls = 2 ∧ (read 2).result = .error (.outage "1") ∧
      (read (-7)).calls = 1 ∧ (read (-7)).log = [] ∧ (read 0).calls = 3 := by
  intro outcome read
  -- two attempts are let pass, the third decides
  have hlasts : Lasts outcome 2 := by
    refine ⟨fun i hi => ⟨.outage s!"{i}", if_pos hi, rfl⟩, ?_⟩
    exact not_passing_ok none
  have hall (chosen : Int) := load_law outcome "a" (some chosen) standardAttempts
  have hfour := (hall 4).1 2 hlasts
  have htwo : ∀ i < limit (some 2) standardAttempts, Passing (outcome i) := hlasts.1
  obtain ⟨hcalls, e, he, -, hresult⟩ := (hall 2).2.1 htwo
  obtain rfl : Failure.outage "1" = e := Except.error.inj he
  have hlog := (hall 4).2.2.1
  rw [hfour.1] at hlog
  have hone := (hall (-7)).2.2.1
  rw [((hall (-7)).1 2 hlasts).1] at hone
  exact ⟨hlasts, hfour.1, (hfour.2 (by decide)).2.1 rfl, hlog, hcalls, hresult,
    ((hall (-7)).1 2 hlasts).1, hone, ((hall 0).1 2 hlasts).1⟩

end Retry

end MazeRobot
