import Mathlib.Algebra.BigOperators.Ring.List
import Mathlib.Algebra.Order.BigOperators.Group.List
import Mathlib.Algebra.Order.Ring.Nat
import MazeRobot.Proofs.Interpreter

/-!
# How often an action occurs in a trace

A tree of commands is looked at from its `Leaf`s, the actions in it, each with the counts of
the loops around it.  The trace holds an action as often as these counts multiply to
(`Leaf.weight`), and it holds nothing else: for every property of commands, the entries of the
trace that have it are counted by `countP_unrollAll`.

## Key results

- `countP_unrollAll`: how many entries of a trace have a property
- `unrollAll_of_linear`: a trace is its own trace
- `unrollAll_of_swaps`: the counts of two loops, one straight inside the other, can be swapped
- `length_unrollAll_le`: how long a trace can become
-/

namespace MazeRobot

namespace Command

/-- An action in a tree, and the counts of the loops around it, the outermost first. -/
structure Leaf where
  counts : List (Option Nat)
  action : Action
  deriving DecidableEq, Repr

namespace Leaf

/-- The node of the tree. -/
def node (l : Leaf) : Command := basic l.action

/-- The counts of all enclosing loops multiplied; one for a loop without a count. -/
def weight (l : Leaf) : Nat := (l.counts.map fun count => count.getD 1).prod

/-- The same action with one more loop around everything. -/
def inside (count : Option Nat) (l : Leaf) : Leaf := { l with counts := count :: l.counts }

@[simp] theorem node_inside (count : Option Nat) (l : Leaf) : (l.inside count).node = l.node := rfl

/-- Inside of one more loop a leaf occurs as many times more as the loop repeats. -/
@[simp] theorem weight_inside (count : Option Nat) (l : Leaf) :
    (l.inside count).weight = count.getD 1 * l.weight := by
  simp only [weight, inside, List.map_cons, List.prod_cons]

end Leaf

mutual

/-- The actions of a tree, from left to right. -/
def leaves : Command → List Leaf
  | basic a => [⟨[], a⟩]
  | loop count body => (leavesAll body).map (Leaf.inside count)

/-- The actions of the trees of a program. -/
def leavesAll : List Command → List Leaf
  | [] => []
  | c :: rest => leaves c ++ leavesAll rest

end

mutual

/-- How many loops are nested, one inside the other. -/
def nesting : Command → Nat
  | basic _ => 0
  | loop _ body => nestingAll body + 1

/-- The deepest nest of loops in a program. -/
def nestingAll : List Command → Nat
  | [] => 0
  | c :: rest => max (nesting c) (nestingAll rest)

end

/-- Two loops, the inner one being all that the outer one repeats, swap their counts, at the
top of a program or in the body of a loop at any depth. -/
inductive Swaps : List Command → List Command → Prop where
  | here (before : List Command) (outer inner : Option Nat) (body after : List Command) :
      Swaps (before ++ loop outer [loop inner body] :: after)
        (before ++ loop inner [loop outer body] :: after)
  | inside {body body' : List Command} (before : List Command) (count : Option Nat)
      (after : List Command) (h : Swaps body body') :
      Swaps (before ++ loop count body :: after) (before ++ loop count body' :: after)

/-! ## Counting -/

/-- The weights of the leaves with a property, added up. -/
def total (p : Command → Bool) (ls : List Leaf) : Nat :=
  ((ls.filter fun l => p l.node).map Leaf.weight).sum

/-- The leaves of two lists count together. -/
theorem total_append (p : Command → Bool) (ls ks : List Leaf) :
    total p (ls ++ ks) = total p ls + total p ks := by
  simp only [total, List.filter_append, List.map_append, List.sum_append]

/-- A loop around everything multiplies all weights. -/
theorem total_map_inside (p : Command → Bool) (count : Option Nat) (ls : List Leaf) :
    total p (ls.map (Leaf.inside count)) = count.getD 1 * total p ls := by
  simp only [total, List.filter_map, List.map_map, Function.comp_def, Leaf.node_inside,
    Leaf.weight_inside, List.sum_map_mul_left]

/-- Copies of a list count as many times as there are copies. -/
theorem countP_flatten_replicate (p : Command → Bool) (n : Nat) (xs : List Command) :
    (List.replicate n xs).flatten.countP p = n * xs.countP p := by
  simp only [List.countP_flatten, List.map_replicate, List.sum_replicate_nat]

mutual

/-- What a command is unrolled to holds a leaf as often as its loops repeat it. -/
theorem countP_unroll (p : Command → Bool) :
    (c : Command) → (unroll c).countP p = total p (leaves c)
  | basic a => by
    -- the only leaf stands in no loop
    cases h : p (basic a) <;> simp [unroll, leaves, total, Leaf.node, Leaf.weight, h]
  | loop count body => by
    rw [unroll, countP_flatten_replicate, countP_unrollAll p body, leaves,
      total_map_inside, repetitions]

/-- How many entries of a trace have a property: the leaves that have it, each as often as
the counts around it say. -/
theorem countP_unrollAll (p : Command → Bool) :
    (cs : List Command) → (unrollAll cs).countP p = total p (leavesAll cs)
  | [] => rfl
  | c :: rest => by
    rw [unrollAll, List.countP_append, countP_unroll p c, countP_unrollAll p rest,
      leavesAll, total_append]

end

/-! ## Traces of traces -/

/-- What holds no loop is its own trace. -/
theorem unrollAll_of_linear {trace : Trace} (h : Linear trace) : unrollAll trace = trace := by
  induction trace with
  | nil => rfl
  | cons c rest ih =>
    obtain ⟨a, rfl⟩ := h c List.mem_cons_self
    have hrest : Linear rest := fun d hd => h d (List.mem_cons_of_mem _ hd)
    simp only [unrollAll, unroll, ih hrest, List.singleton_append]

/-! ## Swapping counts -/

/-- Copies of copies: only the product of the counts matters. -/
theorem flatten_replicate_flatten_replicate (m n : Nat) (xs : List Command) :
    (List.replicate m (List.replicate n xs).flatten).flatten =
      (List.replicate (m * n) xs).flatten := by
  rw [← List.flatten_replicate_replicate, List.flatten_flatten, List.map_replicate]

/-- The counts of loops around each other multiply. -/
theorem unroll_nested (outer inner : Option Nat) (body : List Command) :
    unroll (loop outer [loop inner body]) =
      (List.replicate (repetitions outer * repetitions inner) (unrollAll body)).flatten := by
  simp only [unroll, unrollAll, List.append_nil, flatten_replicate_flatten_replicate]

/-- Exchanging such loops does not show once they are unrolled. -/
theorem unrollAll_of_swaps {cs ds : List Command} (h : Swaps cs ds) :
    unrollAll ds = unrollAll cs := by
  induction h with
  | here before outer inner body after =>
    simp only [unrollAll_append, unrollAll, unroll_nested,
      Nat.mul_comm (repetitions outer) (repetitions inner)]
  | inside before count after _ ih =>
    -- a loop only sees the trace of its body
    simp only [unrollAll_append, unrollAll, unroll, ih]

/-! ## The length of a trace -/

/-- No count is above the highest one, and there are no more counts than loops nested. -/
def Leaf.Bounded (depth : Nat) (l : Leaf) : Prop :=
  l.counts.length ≤ depth ∧ ∀ count ∈ l.counts, count.getD 1 ≤ maxLoopCount

/-- A leaf in few loops is in no more than many. -/
theorem Leaf.Bounded.mono {depth depth' : Nat} {l : Leaf} (h : l.Bounded depth)
    (hle : depth ≤ depth') : l.Bounded depth' :=
  ⟨Nat.le_trans h.1 hle, h.2⟩

/-- One more loop with a count in range is one level more. -/
theorem Leaf.Bounded.inside {depth : Nat} {l : Leaf} {count : Option Nat} (h : l.Bounded depth)
    (hcount : ∀ n ∈ count, n ≤ maxLoopCount) : (l.inside count).Bounded (depth + 1) := by
  have hrepeated : count.getD 1 ≤ maxLoopCount := by
    cases count with
    | none => decide
    | some n => exact hcount n rfl
  refine ⟨Nat.succ_le_succ h.1, ?_⟩
  intro other hother
  rcases List.mem_cons.mp hother with rfl | hother
  · exact hrepeated
  · exact h.2 other hother

mutual

/-- A leaf of a command in normal form is in no more loops than the command is deep. -/
theorem bounded_of_mem_leaves :
    (c : Command) → c.Normal → ∀ l ∈ leaves c, l.Bounded (nesting c)
  | basic a, _ => by
    intro l hl
    obtain rfl := List.mem_singleton.mp hl
    exact ⟨Nat.le_refl 0, nofun⟩
  | loop count body, .loop bounded normal => by
    intro l hl
    obtain ⟨k, hk, rfl⟩ := List.mem_map.mp hl
    exact (bounded_of_mem_leavesAll body normal k hk).inside bounded

/-- A leaf of commands in normal form is in no more loops than they are deep. -/
theorem bounded_of_mem_leavesAll :
    (cs : List Command) → (∀ c ∈ cs, c.Normal) → ∀ l ∈ leavesAll cs, l.Bounded (nestingAll cs)
  | [], _ => by
    intro l hl
    simp only [leavesAll, List.not_mem_nil] at hl
  | c :: rest, h => by
    intro l hl
    obtain ⟨hc, hrest⟩ := List.forall_mem_cons.mp h
    rw [leavesAll] at hl
    rcases List.mem_append.mp hl with hl | hl
    · exact (bounded_of_mem_leaves c hc l hl).mono (Nat.le_max_left _ _)
    · exact (bounded_of_mem_leavesAll rest hrest l hl).mono (Nat.le_max_right _ _)

end

/-- A leaf occurs at most ten times for each loop around it, multiplied. -/
theorem Leaf.Bounded.weight_le {depth : Nat} {l : Leaf} (h : l.Bounded depth) :
    l.weight ≤ maxLoopCount ^ depth := by
  have hcounts : ∀ n ∈ l.counts.map fun count => count.getD 1, n ≤ maxLoopCount := by
    simpa only [List.forall_mem_map] using h.2
  calc l.weight
      ≤ maxLoopCount ^ (l.counts.map fun count => count.getD 1).length :=
        List.prod_le_pow_card _ _ hcounts
    _ = maxLoopCount ^ l.counts.length := by rw [List.length_map]
    _ ≤ maxLoopCount ^ depth := Nat.pow_le_pow_right (by decide) h.1

/-- A trace is at most ten times for each level, multiplied, as long as there are leaves. -/
theorem length_unrollAll_le {cs : List Command} (h : ∀ c ∈ cs, c.Normal) :
    (unrollAll cs).length ≤ maxLoopCount ^ nestingAll cs * (leavesAll cs).length := by
  have hweights : ∀ n ∈ (leavesAll cs).map Leaf.weight, n ≤ maxLoopCount ^ nestingAll cs := by
    simp only [List.forall_mem_map]
    intro l hl
    exact (bounded_of_mem_leavesAll cs h l hl).weight_le
  have hsum : ((leavesAll cs).map Leaf.weight).sum ≤
      ((leavesAll cs).map Leaf.weight).length * maxLoopCount ^ nestingAll cs :=
    List.sum_le_card_nsmul _ _ hweights
  -- every entry has the property that all entries have
  have hlength := countP_unrollAll (fun _ => true) cs
  simp only [List.countP_true, total, List.filter_true] at hlength
  rw [hlength, Nat.mul_comm]
  rwa [List.length_map] at hsum

/-! ## Exact multiplicity -/

/-- For every program: a trace holds what has some property as often as the leaves with that
property say, each of them by the product of the counts around it (one for a loop without a
count).  No entry is a loop, the trace is its own trace, programs in sequence have their
traces in sequence, and two loops of which the inner one is all that the outer one repeats
can swap their counts wherever they stand.  So if no count is above ten, the trace is at most
`10 ^ d` times as long as there are actions in the trees, where loops are nested `d` deep. -/
theorem multiplicity_unrollAll (cs : List Command) :
    (∀ p : Command → Bool, (unrollAll cs).countP p =
      (((leavesAll cs).filter fun l => p l.node).map fun l =>
        (l.counts.map fun count => count.getD 1).prod).sum) ∧
    (∀ c ∈ unrollAll cs, c.isLoop = false) ∧
    unrollAll (unrollAll cs) = unrollAll cs ∧
    (∀ ds, unrollAll (cs ++ ds) = unrollAll cs ++ unrollAll ds) ∧
    (∀ ds, Swaps cs ds → unrollAll ds = unrollAll cs) ∧
    ((∀ c ∈ cs, c.Normal) →
      (unrollAll cs).length ≤ 10 ^ nestingAll cs * (leavesAll cs).length) := by
  refine ⟨fun p => countP_unrollAll p cs, ?_, unrollAll_of_linear (linear_unrollAll cs),
    fun ds => unrollAll_append cs ds, fun ds => unrollAll_of_swaps, length_unrollAll_le⟩
  intro c hc
  obtain ⟨a, rfl⟩ := linear_unrollAll cs c hc
  rfl

/-- Three loops around each other, one without a count, and one that never runs: six times
`forward`, nothing of the loop that never runs, and the counts three and two can be
swapped. -/
theorem multiplicity_unrollAll_nest :
    let nest (outer inner : Option Nat) : Command :=
      loop outer [loop inner [loop none [basic .forward], loop (some 0) [basic .turnLeft]]]
    let cs := [basic .ifHole, nest (some 3) (some 2)]
    (∀ c ∈ cs, c.Normal) ∧ Swaps cs [basic .ifHole, nest (some 2) (some 3)] ∧
      (unrollAll cs).countP (· == basic .forward) = 6 ∧
      (unrollAll cs).countP (· == basic .turnLeft) = 0 ∧
      unrollAll [basic .ifHole, nest (some 2) (some 3)] = unrollAll cs ∧
      (unrollAll cs).length ≤ 10 ^ 3 * 3 := by
  intro nest cs
  have hnormal : ∀ c ∈ cs, c.Normal := by
    have hnever : (loop (some 0) [basic .turnLeft]).Normal :=
      .loop (by simp [maxLoopCount]) (by simp [Normal.basic])
    have honce : (loop none [basic .forward]).Normal := .loop (by simp) (by simp [Normal.basic])
    have hinner : (loop (some 2) [loop none [basic .forward],
        loop (some 0) [basic .turnLeft]]).Normal :=
      .loop (by simp [maxLoopCount]) (by simp [honce, hnever])
    simp only [cs, nest, List.forall_mem_cons, Normal.basic, true_and]
    exact ⟨.loop (by simp [maxLoopCount]) (by simp [hinner]), List.forall_mem_nil _⟩
  -- the two outer counts change places; what they enclose stays
  have hswaps : Swaps cs [basic .ifHole, nest (some 2) (some 3)] :=
    .here [basic .ifHole] (some 3) (some 2) _ []
  obtain ⟨hcount, -, -, -, hswap, hlength⟩ := multiplicity_unrollAll cs
  refine ⟨hnormal, hswaps, ?_, ?_, hswap _ hswaps, ?_⟩
  · exact (hcount (· == basic .forward)).trans (by decide)
  · exact (hcount (· == basic .turnLeft)).trans (by decide)
  · exact hlength hnormal

end Command

end MazeRobot
