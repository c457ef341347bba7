import MazeRobot.Command.Edit
import MazeRobot.Proofs.Command.Record
import MazeRobot.Proofs.CommandStack
import MazeRobot.Proofs.Submissions

/-!
# Every command is in normal form

Commands come from records, from building loops, and from the program and the loop that are
edited at the entry point, where other commands are handed in again (`Obtained`, `Reached`).
All of them are normal, at every node of the tree (`normal_of_obtained`): whoever builds a loop
brings its count into range, and nothing else ever makes a node.

A normal node can be built anew from its parts, and its record is read back unless it is too
deep (`Normal.anew_eq`, `ofJson_write`).

## Key results

- `orderly_submit`, `orderly_apply`: what the entry point holds stays normal
- `normal_of_obtained`, `orderly_of_reached`: wherever a command comes from, it is normal
- `chooseCount_sets`: the count of a loop that was given one
- `normalForm_of_obtained`: the normal form of every node, and its limit
-/

namespace MazeRobot

namespace Command

/-! ## Nodes -/

mutual

/-- All nodes of a tree, the root first. -/
def nodes : Command → List Command
  | basic a => [basic a]
  | loop count body => loop count body :: nodesAll body

/-- All nodes of some trees. -/
def nodesAll : List Command → List Command
  | [] => []
  | c :: rest => nodes c ++ nodesAll rest

end

/-- A command is one of its own nodes. -/
theorem self_mem_nodes (c : Command) : c ∈ c.nodes := by
  cases c <;> exact List.mem_cons_self

mutual

/-- What is in normal form is so at every node. -/
theorem normal_nodes : (c : Command) → c.Normal → ∀ d ∈ c.nodes, d.Normal
  | basic _, h => List.forall_mem_singleton.mpr h
  | loop _ body, h => List.forall_mem_cons.mpr ⟨h, normal_nodesAll body h.inside⟩

/-- Commands in normal form are so at all of their nodes. -/
theorem normal_nodesAll : (cs : List Command) → (∀ c ∈ cs, c.Normal) →
    ∀ d ∈ nodesAll cs, d.Normal
  | [], _ => List.forall_mem_nil _
  | c :: rest, h => by
    obtain ⟨hc, hrest⟩ := List.forall_mem_cons.mp h
    exact List.forall_mem_append.mpr ⟨normal_nodes c hc, normal_nodesAll rest hrest⟩

end

/-- The node that is built from the kind, the count and the body of another. -/
def anew (c : Command) : Checked Command :=
  (checkCount (countRecord c.count?)).bind fun count => assemble c.kind count c.children

/-- A command in normal form is validated anew as itself. -/
theorem Normal.anew_eq {c : Command} (h : c.Normal) : c.anew = .ok c := by
  have hcount : checkCount (countRecord c.count?) = .ok c.count? := by
    cases hc : c.count? with
    | none => rfl
    | some k => exact checkCount_of_le (h.count_le k hc)
  unfold anew
  rw [hcount]
  exact assemble_parts c

end Command

/-! ## Where commands come from -/

/-- The commands that an edit hands in. -/
def Edit.commands : Edit → List Command
  | append c | replace _ c | addChild _ c => [c]
  | _ => []

/-- The commands in the program, and the loop being built. -/
def Ingestion.held (i : Ingestion) : List Command := i.program.commands ++ i.mode.pending?.toList

mutual

/-- The commands that there can be. -/
inductive Obtained : Command → Prop where
  | read {v : Json} {c : Command} : Command.ofJson v = .ok c → Obtained c
  | readText {t : Text} {c : Command} : Command.ofText t = .ok c → Obtained c
  | repeated {count : Json} {body : List Command} {c : Command} :
      (∀ b ∈ body, Obtained b) → Command.repeated count body = .ok c → Obtained c
  | withChildren {c d : Command} {body : List Command} :
      Obtained c → (∀ b ∈ body, Obtained b) → c.withChildren body = .ok d → Obtained d
  | withCount {c d : Command} {count : Json} :
      Obtained c → c.withChosenCount count = .ok d → Obtained d
  | child {c d : Command} : Obtained c → d ∈ c.children → Obtained d
  | held {i : Ingestion} {c : Command} : Reached i → c ∈ i.held → Obtained c

/-- The states of the entry point that there can be, whoever listens to the program. -/
inductive Reached : Ingestion → Prop where
  | fresh {i : Ingestion} :
      i.mode = .idle → (∀ c ∈ i.program.commands, Obtained c) → Reached i
  | submitted {i : Ingestion} {c : Command} (running : Bool) (now : Float) :
      Reached i → Obtained c → Reached (i.submit running now c).1
  | edited {i : Ingestion} {e : Edit} :
      Reached i → (∀ c ∈ e.commands, Obtained c) → Reached (e.apply i).1

end

namespace Command

variable {c d : Command}

/-- A loop that is built from a count and a body is in normal form if the body is. -/
theorem normal_of_repeated {count : Json} {body : List Command}
    (h : repeated count body = .ok c) (hbody : ∀ b ∈ body, b.Normal) : c.Normal := by
  unfold repeated at h
  split at h
  · next read hcount =>
    obtain rfl := Except.ok.inj h
    exact .loop (count_le_of_checkCount (Checked.within_eq_ok_iff.mp hcount)) hbody
  · cases h

/-- Other children in normal form keep a command so. -/
theorem normal_of_withChildren {body : List Command} (h : c.withChildren body = .ok d)
    (hc : c.Normal) (hbody : ∀ b ∈ body, b.Normal) : d.Normal := by
  cases c with
  | basic a => cases h
  | loop count old =>
    obtain rfl := Except.ok.inj h
    exact .loop hc.count_le hbody

/-- A loop with a count that was chosen. -/
theorem normal_clamped {body : List Command} (n : Int) (hbody : ∀ b ∈ body, b.Normal) :
    (loop (some (clampCount n)) body).Normal := by
  refine .loop (fun k hk => ?_) hbody
  obtain rfl := Option.some.inj hk
  exact clampCount_le n

/-- Another count keeps a command in normal form. -/
theorem normal_of_withChosenCount {count : Json} (h : c.withChosenCount count = .ok d)
    (hc : c.Normal) : d.Normal := by
  cases c with
  | basic a => cases h
  | loop old body =>
    change (chosenCount count).bind _ = _ at h
    cases hchosen : chosenCount count with
    | error f =>
      rw [hchosen] at h
      cases h
    | ok n =>
      rw [hchosen] at h
      obtain rfl := Except.ok.inj h
      exact normal_clamped n hc.inside

/-- What is read from a text is in normal form. -/
theorem normal_of_ofText {t : Text} (h : ofText t = .ok c) : c.Normal := by
  -- a text is read as a value first, so it adds no commands of its own
  have hread : ∃ v, check .text maxLevels v = .ok c := by
    unfold ofText at h
    generalize hr : (Checked.string t).bind _ = r at h
    cases r with
    | error issues => cases h
    | ok c' =>
      obtain rfl : c' = c := Except.ok.inj h
      obtain ⟨s, -, hs⟩ := bind_eq_ok_iff.mp hr
      split at hs
      · cases hs
      · exact ⟨_, hs⟩
  obtain ⟨v, hv⟩ := hread
  exact (sound_of_check c hv).1

end Command

/-! ## Programs -/

namespace Program

variable {p : Program} {c : Command}

/-- All commands of a program are normal. -/
def Orderly (p : Program) : Prop := ∀ c ∈ p.commands, c.Normal

/-- Appending keeps a program orderly. -/
theorem Orderly.append (h : p.Orderly) (hc : c.Normal) : (p.append c).1.Orderly :=
  List.forall_mem_append.mpr ⟨h, List.forall_mem_singleton.mpr hc⟩

/-- Removing keeps a program orderly, whether or not there is something to remove. -/
theorem Orderly.remove (h : p.Orderly) (k : Int) : (p.remove k).1.Orderly := by
  unfold Program.remove
  split
  · exact h
  · split
    · exact h
    · exact fun c hc => h c (List.mem_of_mem_eraseIdx hc)

/-- Replacing by a command in normal form keeps a program orderly. -/
theorem Orderly.replace (h : p.Orderly) (k : Int) (hc : c.Normal) :
    (p.replace k c).1.Orderly := by
  unfold Program.replace
  split
  · exact h
  · intro d hd
    rcases List.mem_or_eq_of_mem_set hd with hd | rfl
    · exact h d hd
    · exact hc

/-- An empty program is orderly. -/
theorem orderly_clear (p : Program) : p.clear.1.Orderly := List.forall_mem_nil _

end Program

/-! ## The entry point -/

namespace Ingestion

variable {i : Ingestion} {c : Command}

/-- Whatever is held is normal, and the loop being built has a count that could be chosen. -/
structure Orderly (i : Ingestion) : Prop where
  program : i.program.Orderly
  count : ∀ k ∈ i.mode.count?, minLoopCount ≤ k ∧ k ≤ maxLoopCount
  pending : ∀ c ∈ i.mode.pending?, c.Normal

/-- Everything that an orderly ingestion holds is in normal form. -/
theorem Orderly.held (h : i.Orderly) : ∀ c ∈ i.held, c.Normal :=
  List.forall_mem_append.mpr ⟨h.program, fun c hc => h.pending c (Option.mem_toList.mp hc)⟩

/-- An edit of the program keeps the ingestion orderly if it keeps the program so. -/
theorem Orderly.onProgram {α : Type} {edited : Program × α} (h : i.Orderly)
    (hedited : edited.1.Orderly) : (i.onProgram edited).1.Orderly :=
  ⟨hedited, h.count, h.pending⟩

/-- Without an open loop only the program counts. -/
theorem orderly_of_idle (hmode : i.mode = .idle) (hcommands : ∀ c ∈ i.program.commands, c.Normal) :
    i.Orderly := by
  refine ⟨hcommands, ?_, ?_⟩
  · rw [hmode]
    exact forall_mem_none
  · rw [hmode]
    exact forall_mem_none

/-- Giving an open loop up keeps the rest orderly. -/
theorem Orderly.idle (h : i.Orderly) : Orderly { i with mode := .idle } :=
  orderly_of_idle rfl h.program

/-- Another loop is being built, with a count that was chosen. -/
theorem Orderly.building (h : i.Orderly) (n : Int) {body : List Command}
    (hbody : ∀ b ∈ body, b.Normal) :
    Orderly { i with mode := .building (clampCount n) body } := by
  refine ⟨h.program, fun k hk => ?_, fun c hc => ?_⟩
  · obtain rfl := Option.some.inj hk
    exact ⟨le_clampCount n, clampCount_le n⟩
  · obtain rfl := Option.some.inj hc
    exact Command.normal_clamped n hbody

/-- The count of a loop that is opened is a clamped one, wherever it comes from. -/
theorem exists_openingCount_eq (i : Ingestion) (count : Option Nat) :
    ∃ n, i.openingCount count = clampCount n := by
  unfold openingCount
  split <;> exact ⟨_, rfl⟩

/-- Taking a detection in keeps the ingestion orderly, whether it opens, closes or fills a
loop. -/
theorem orderly_absorb (h : i.Orderly) (hc : c.Normal) : (i.absorb c).1.Orderly := by
  unfold absorb
  split
  · next count body hmode =>
    have hloop : (Command.loop (some count) body).Normal := h.pending _ (by rw [hmode]; rfl)
    have hadded := h.onProgram (h.program.append hloop)
    -- the loop is done with or not, depending on the listeners
    dsimp only
    split
    · exact hadded.idle
    · exact hadded
  · next count _ hmode =>
    -- of what the loop card carries only the count matters
    obtain ⟨n, hn⟩ := i.exists_openingCount_eq count
    rw [hn]
    exact h.building n (List.forall_mem_nil _)
  · next a count body hmode =>
    obtain ⟨hmin, hmax⟩ := h.count count (by rw [hmode]; rfl)
    have hloop : (Command.loop (some count) body).Normal := h.pending _ (by rw [hmode]; rfl)
    -- a count that is in range already is the one brought into range
    rw [← clampCount_of_le hmin hmax]
    exact h.building count
      (List.forall_mem_append.mpr ⟨hloop.inside, List.forall_mem_singleton.mpr hc⟩)
  · exact h.onProgram (h.program.append hc)

/-- A submission keeps the ingestion orderly, a dropped one included. -/
theorem orderly_submit (h : i.Orderly) (hc : c.Normal) (running : Bool) (now : Float) :
    (i.submit running now c).1.Orderly := by
  have hannounced : (i.announce now c).Orderly := ⟨h.program, h.count, h.pending⟩
  unfold submit
  split
  · exact h
  · exact orderly_absorb hannounced hc

/-- A loop that is looked up in the program is in normal form. -/
theorem Orderly.normal_of_loopAt (h : i.Orderly) {index : Int} {edit : LoopEdit}
    {count : Option Nat} {body : List Command} (hloop : i.loopAt index edit = .ok (count, body)) :
    (Command.loop count body).Normal := by
  unfold loopAt at hloop
  split at hloop
  · cases hloop
  · split at hloop
    · cases hloop
    · next hentry =>
      obtain ⟨rfl, rfl⟩ := Prod.mk.inj (Except.ok.inj hloop)
      exact h.program _ (List.mem_of_getElem? hentry)
    · cases hloop

/-- Replacing a command keeps the ingestion orderly. -/
theorem Orderly.updateCommand (h : i.Orderly) (index : Int) (hc : c.Normal) :
    (i.updateCommand index c).1.Orderly :=
  h.onProgram (h.program.replace index hc)

/-- Another child keeps the ingestion orderly. -/
theorem Orderly.addChild (h : i.Orderly) (index : Int) (hc : c.Normal) :
    (i.addChild index c).1.Orderly := by
  unfold Ingestion.addChild
  split
  · exact h
  · next count body hloop =>
    have hold := h.normal_of_loopAt hloop
    exact h.updateCommand index (.loop hold.count_le
      (List.forall_mem_append.mpr ⟨hold.inside, List.forall_mem_singleton.mpr hc⟩))

/-- Removing a child keeps the ingestion orderly. -/
theorem Orderly.removeChild (h : i.Orderly) (index child : Int) :
    (i.removeChild index child).1.Orderly := by
  unfold Ingestion.removeChild
  split
  · exact h
  · next count body hloop =>
    have hold := h.normal_of_loopAt hloop
    split
    · split
      · exact h
      · exact h.updateCommand index (.loop hold.count_le
          fun c hc => hold.inside c (List.mem_of_mem_eraseIdx hc))
    · exact h

/-- Another count for a loop of the program keeps the ingestion orderly. -/
theorem Orderly.chooseCount (h : i.Orderly) (index : Int) (count : Json) :
    (i.chooseCount index count).1.Orderly := by
  unfold Ingestion.chooseCount
  split
  · exact h
  · split
    · exact h
    · next n _ =>
      unfold updateCount
      split
      · exact h
      · next body hloop =>
        exact h.updateCommand index
          (Command.normal_clamped n (h.normal_of_loopAt hloop).inside)

/-- Another count for the open loop keeps the ingestion orderly. -/
theorem Orderly.choosePendingCount (h : i.Orderly) (count : Json) :
    (i.choosePendingCount count).1.Orderly := by
  unfold Ingestion.choosePendingCount
  split
  · exact h
  · next old body hmode =>
    have hloop : (Command.loop (some old) body).Normal := h.pending _ (by rw [hmode]; rfl)
    split
    · exact h
    · next n _ =>
      simp only [setPendingCount, hmode]
      exact h.building n hloop.inside

/-- Every edit keeps the ingestion orderly, a refused one included. -/
theorem orderly_apply (h : i.Orderly) {e : Edit} (he : ∀ c ∈ e.commands, c.Normal) :
    (e.apply i).1.Orderly := by
  cases e with
  | append c => exact h.onProgram (h.program.append (he c List.mem_cons_self))
  | remove index => exact h.onProgram (h.program.remove index)
  | replace index c => exact h.updateCommand index (he c List.mem_cons_self)
  | clear => exact h.onProgram i.program.orderly_clear
  | addChild index c => exact h.addChild index (he c List.mem_cons_self)
  | removeChild index child => exact h.removeChild index child
  | chooseCount index count => exact h.chooseCount index count
  | choosePendingCount count => exact h.choosePendingCount count
  | cancelLoop => exact h.idle

/-! ## Loops that are given a count -/

/-- A loop that is closed has a count that could be chosen, whether or not a listener fails. -/
theorem Orderly.closes (h : i.Orderly) (hmode : i.mode.isBuilding = true)
    (hloop : c.isLoop = true) (now : Float) :
    ∃ k body, i.mode.pending? = some (.loop (some k) body) ∧
      (minLoopCount ≤ k ∧ k ≤ maxLoopCount) ∧
      (i.submit false now c).1.program.commands =
        i.program.commands ++ [.loop (some k) body] := by
  have hadds := take_adds (i := i) (s := ⟨false, now, c⟩) rfl (hloop.trans hmode.symm)
  cases hm : i.mode with
  | idle =>
    rw [hm] at hmode
    cases hmode
  | building k body =>
    refine ⟨k, body, rfl, h.count k (by rw [hm]; rfl), ?_⟩
    rw [hm] at hadds
    exact hadds.1

/-- Where there is a command to be replaced, the others stay. -/
theorem commands_replace {p : Program} {k : Int} {j : Nat} (h : p.index k = .ok j) :
    (p.replace k c).1.commands = p.commands.set j c := by
  unfold Program.replace
  rw [h]
  rfl

/-- Either the loop at an index has a count that could be chosen from now on, or the edit is
refused. -/
theorem chooseCount_sets (i : Ingestion) (index : Int) (count : Json) :
    (∃ f, i.chooseCount index count = (i, .error f)) ∨
      ∃ k body, (minLoopCount ≤ k ∧ k ≤ maxLoopCount) ∧ 0 ≤ index ∧
        (i.chooseCount index count).1.program.commands[index.toNat]? =
          some (.loop (some k) body) := by
  by_cases hin : 0 ≤ index ∧ index < i.program.commands.length
  · -- the program around the command at the index
    obtain ⟨before, old, after, hp, hindex⟩ := exists_split hin
    unfold chooseCount
    cases old with
    | basic a =>
      left
      rw [hindex, loopAt_of_basic hp]
      exact ⟨_, rfl⟩
    | loop old body =>
      have hloop : i.loopAt index .setCount = .ok (old, body) := by
        rw [hindex]
        exact loopAt_of_loop hp _
      rw [hloop]
      cases Command.chosenCount count with
      | error f => exact .inl ⟨f, rfl⟩
      | ok n =>
        right
        refine ⟨clampCount n, body, ⟨le_clampCount n, clampCount_le n⟩, hin.1, ?_⟩
        have hset : (i.updateCount index n).1.program.commands =
            i.program.commands.set before.length (.loop (some (clampCount n)) body) := by
          unfold updateCount
          rw [hloop]
          exact commands_replace (hindex ▸ Program.index_of_split hp)
        show (i.updateCount index n).1.program.commands[index.toNat]? = _
        rw [hset, hp, set_split, hindex]
        exact getElem?_split _ _ _
  · left
    unfold chooseCount
    rw [loopAt_of_outside hin]
    exact ⟨_, rfl⟩

end Ingestion

/-! ## All of them -/

mutual

/-- However a command was obtained, it is in normal form. -/
theorem normal_of_obtained : {c : Command} → Obtained c → c.Normal
  | c, .read h => (Command.sound_of_check c (Command.ofJson_eq_ok_iff.mp h)).1
  | _, .readText h => Command.normal_of_ofText h
  | _, .repeated hbody h => Command.normal_of_repeated h fun b hb => normal_of_obtained (hbody b hb)
  | _, .withChildren hc hbody h => Command.normal_of_withChildren h (normal_of_obtained hc)
      fun b hb => normal_of_obtained (hbody b hb)
  | _, .withCount hc h => Command.normal_of_withChosenCount h (normal_of_obtained hc)
  | _, .child hc hd => (normal_of_obtained hc).inside _ hd
  | _, .held hi hc => (orderly_of_reached hi).held _ hc

/-- However an ingestion was reached, it is orderly. -/
theorem orderly_of_reached : {i : Ingestion} → Reached i → i.Orderly
  | _, .fresh hmode hcommands =>
      Ingestion.orderly_of_idle hmode fun c hc => normal_of_obtained (hcommands c hc)
  | _, .submitted running now hi hc =>
      Ingestion.orderly_submit (orderly_of_reached hi) (normal_of_obtained hc) running now
  | _, .edited hi he =>
      Ingestion.orderly_apply (orderly_of_reached hi) fun c hc => normal_of_obtained (he c hc)

end

namespace Command

/-- Wherever a command comes from, every node of it is in normal form: only loops have counts and
bodies, and no count exceeds the range.  A node that is built anew from its parts is the same
node.  So is one that is read back from either of its records, unless it is too deep to be read
at all.  A loop that is closed at the entry point, or given another count there, has a count
that could be chosen. -/
theorem normalForm_of_obtained :
    (∀ c, Obtained c → ∀ d ∈ c.nodes,
      (d.isLoop = false → d.count? = none ∧ d.children = []) ∧
      (d.isLoop = true → ∀ k ∈ d.count?, k ≤ maxLoopCount) ∧
      d.anew = .ok d ∧
      (d.levels ≤ maxLevels → ofJson d.wire = .ok d ∧ ofJson d.full = .ok d) ∧
      (maxLevels < d.levels → ∀ e, ofJson d.wire ≠ .ok e ∧ ofJson d.full ≠ .ok e)) ∧
    ∀ i, Reached i →
      (∀ now c, i.mode.isBuilding = true → c.isLoop = true →
        ∃ k body, i.mode.pending? = some (.loop (some k) body) ∧
          (minLoopCount ≤ k ∧ k ≤ maxLoopCount) ∧
          (i.submit false now c).1.program.commands =
            i.program.commands ++ [.loop (some k) body]) ∧
      ∀ index count, (∃ f, i.chooseCount index count = (i, .error f)) ∨
        ∃ k body, (minLoopCount ≤ k ∧ k ≤ maxLoopCount) ∧ 0 ≤ index ∧
          (i.chooseCount index count).1.program.commands[index.toNat]? =
            some (.loop (some k) body) := by
  constructor
  -- every node of a normal command is normal, and the rest is said of normal commands
  · intro c hc d hd
    have hnormal : d.Normal := normal_nodes c (normal_of_obtained hc) d hd
    refine ⟨fun haction => ?_, fun _ => hnormal.count_le, hnormal.anew_eq, fun hlevels => ?_,
      fun hdeep e => ?_⟩
    · cases d with
      | basic a => exact ⟨rfl, rfl⟩
      | loop count body => cases haction
    · exact ⟨(ofJson_write faithful_wire hnormal).mpr ⟨hlevels, rfl⟩,
        (ofJson_write faithful_full hnormal).mpr ⟨hlevels, rfl⟩⟩
    · exact ⟨ofJson_write_ne faithful_wire hnormal hdeep,
        ofJson_write_ne faithful_full hnormal hdeep⟩
  · intro i hi
    exact ⟨fun now c hmode hloop => (orderly_of_reached hi).closes hmode hloop now,
      i.chooseCount_sets⟩

/-- A loop that was built with a count out of range is in the program, and another one with a
count in range is being built. -/
theorem normalForm_of_obtained_building :
    let c : Command := .loop (some 10) [.basic .forward]
    let i : Ingestion := { program := .ofCommands [c] }
    let j : Ingestion := (i.submit false 0 (.loop (some 7) [])).1
    Obtained c ∧ Reached j ∧ c.anew = .ok c ∧ ofJson c.wire = .ok c ∧ ofJson c.full = .ok c ∧
      (∃ k body, (minLoopCount ≤ k ∧ k ≤ maxLoopCount) ∧
        (j.submit false 1 (.loop none [])).1.program.commands = [c, .loop (some k) body]) ∧
      ∃ k body, (minLoopCount ≤ k ∧ k ≤ maxLoopCount) ∧
        (j.chooseCount 0 (.int (-5))).1.program.commands[0]? = some (.loop (some k) body) := by
  intro c i j
  have hstep : Obtained (.basic .forward) :=
    .read (v := .obj [("type", .str "forward")]) rfl
  have hc : Obtained c :=
    @Obtained.repeated (.int 42) [.basic .forward] c (List.forall_mem_singleton.mpr hstep) rfl
  have hopening : Obtained (.loop (some 7) []) :=
    @Obtained.repeated (.int 7) [] _ (List.forall_mem_nil _) rfl
  -- the loop that is open was itself obtained, so what it becomes is in normal form
  have hj : Reached j :=
    .submitted false 0 (.fresh rfl (List.forall_mem_singleton.mpr hc)) hopening
  obtain ⟨hnodes, hreached⟩ := normalForm_of_obtained
  obtain ⟨-, -, hanew, hread, -⟩ := hnodes c hc c c.self_mem_nodes
  obtain ⟨hwire, hfull⟩ := hread (by decide)
  obtain ⟨hcloses, hcounts⟩ := hreached j hj
  obtain ⟨k, body, -, hk, hclosed⟩ := hcloses 1 (.loop none []) rfl rfl
  refine ⟨hc, hj, hanew, hwire, hfull, ⟨k, body, hk, hclosed⟩, ?_⟩
  rcases hcounts 0 (.int (-5)) with ⟨f, hf⟩ | ⟨k, body, hk, -, hset⟩
  · cases congrArg Prod.snd hf
  · exact ⟨k, body, hk, hset⟩

/-- Loops nested to any depth can be obtained. -/
theorem obtained_nested (n : Nat) : Obtained (nested n) := by
  induction n with
  | zero => exact .read (v := .obj [("type", .str "forward")]) rfl
  | succ n ih =>
    exact @Obtained.repeated (.int 1) [nested n] _ (List.forall_mem_singleton.mpr ih) rfl

/-- A loop can be built around the deepest command that can be read, but neither of its records
is read back. -/
theorem nested_not_revalidated :
    Obtained (nested maxLevels) ∧ nested maxLevels ∈ (nested maxLevels).nodes ∧
      ∀ d, ofJson (nested maxLevels).wire ≠ .ok d ∧ ofJson (nested maxLevels).full ≠ .ok d :=
  ⟨obtained_nested _, self_mem_nodes _, fun _ =>
    ⟨ofJson_write_ne faithful_wire (normal_nested _) deep_nested,
      ofJson_write_ne faithful_full (normal_nested _) deep_nested⟩⟩

end Command

end MazeRobot
