import MazeRobot.Command.Record
import MazeRobot.Proofs.Ingestion

/-!
# Edits of the command stack

A `StackEdit` takes out or replaces a command of the program, or edits the body or the count of
a loop in it.  Three questions are settled in order before anything is changed: whether there
is a command at the index, whether it is a loop if the edit needs one, and whether the loop has
the child that is to be taken out (`StackEdit.Possible`).  So an edit either puts at most one
command in the place of one other, and everybody hears of the new trace, or it is refused and
nobody notices.

`StackEdit.Makes` says what becomes of the command at the index, and `StackEdit.Refused` which
of the questions is answered by which failure.

## Key results

- `exists_makes`: an edit that fits a command makes something of it
- `perform_of_makes`: which commands there are afterwards, and what was heard
- `Makes.repeated`: a loop that was edited passes the check of its count unchanged
- `perform_splices`: an edit is local, or it is refused
-/

namespace MazeRobot

/-- An edit of the commands that are in the program already. -/
inductive StackEdit where
  | remove (index : Int)
  | update (index : Int) (c : Command)
  | addChild (index : Int) (c : Command)
  | removeChild (index child : Int)
  | updateCount (index count : Int)

namespace StackEdit

/-- The index of the command to be edited. -/
def index : StackEdit → Int
  | remove index | update index _ | addChild index _ | removeChild index _
  | updateCount index _ => index

/-- The edit of a loop that is asked for, if it needs one. -/
def loopEdit? : StackEdit → Option LoopEdit
  | remove _ | update _ _ => none
  | addChild _ _ => some .addChild
  | removeChild _ _ => some .removeChild
  | updateCount _ _ => some .setCount

/-- Makes an edit; the answer is the command that was taken out, if the edit takes one out. -/
def perform (i : Ingestion) : StackEdit → Ingestion × Except Failure (Option Command)
  | remove index => (i.removeCommand index).map id (Except.map some)
  | update index c => (i.updateCommand index c).map id (Except.map fun _ => none)
  | addChild index c => (i.addChild index c).map id (Except.map fun _ => none)
  | removeChild index child => (i.removeChild index child).map id (Except.map some)
  | updateCount index count => (i.chooseCount index (.int count)).map id (Except.map fun _ => none)

/-- Whether a command can take the edit. -/
def Fits : StackEdit → Command → Prop
  | remove _, _ | update _ _, _ => True
  | addChild _ _, old | updateCount _ _, old => old.isLoop = true
  | removeChild _ child, old => old.isLoop = true ∧ 0 ≤ child ∧ child < old.children.length

/-- There is a command at the index, and it can take the edit. -/
def Possible (e : StackEdit) (commands : List Command) : Prop :=
  (0 ≤ e.index ∧ e.index < commands.length) ∧
    ∀ old ∈ commands[e.index.toNat]?, e.Fits old

/-- What becomes of the command at the index: what stands in its place, and the answer. -/
inductive Makes : StackEdit → Command → Option Command → Option Command → Prop where
  | removes {index : Int} {old : Command} : Makes (.remove index) old none (some old)
  | updates {index : Int} {old c : Command} : Makes (.update index c) old (some c) none
  | addsChild {index : Int} {c : Command} {count : Option Nat} {body : List Command} :
      Makes (.addChild index c) (.loop count body) (some (.loop count (body ++ [c]))) none
  | removesChild {index : Int} {c : Command} {count : Option Nat} {first last : List Command} :
      Makes (.removeChild index first.length) (.loop count (first ++ c :: last))
        (some (.loop count (first ++ last))) (some c)
  | setsCount {index n : Int} {count : Option Nat} {body : List Command} :
      Makes (.updateCount index n) (.loop count body) (some (.loop (some (clampCount n)) body)) none

/-- Why an edit is refused.  The type of a command matters only if there is one, and the child
only if the command is a loop. -/
inductive Refused (commands : List Command) : StackEdit → Failure → Prop where
  | noCommand {e : StackEdit} (outside : ¬ (0 ≤ e.index ∧ e.index < commands.length)) :
      Refused commands e (.commandIndex e.index commands.length)
  | noLoop {e : StackEdit} {edit : LoopEdit} {a : Action} (inside : 0 ≤ e.index)
      (entry : commands[e.index.toNat]? = some (.basic a)) (needs : e.loopEdit? = some edit) :
      Refused commands e (.loopOnly a.kind edit)
  | noChild {index child : Int} {count : Option Nat} {body : List Command} (inside : 0 ≤ index)
      (entry : commands[index.toNat]? = some (.loop count body))
      (outside : ¬ (0 ≤ child ∧ child < body.length)) :
      Refused commands (.removeChild index child) (.childIndex child body.length)

end StackEdit

namespace Command

/-- The record of a count. -/
def countRecord : Option Nat → Json
  | none => .null
  | some n => .int n

/-- A count in range passes its check unchanged. -/
theorem repeated_countRecord {count : Option Nat} (h : ∀ n ∈ count, n ≤ maxLoopCount)
    (body : List Command) : repeated (countRecord count) body = .ok (loop count body) := by
  cases count with
  | none => rfl
  | some n =>
    have hcap : capCount (n : Int) = n := by
      have hn := h n rfl
      simp only [capCount, maxLoopCount] at hn ⊢
      omega
    show Except.ok (loop (some (capCount n)) body) = _
    rw [hcap]

end Command

/-! ## Lists around an element -/

/-- The elements before and behind one that a position names. -/
theorem exists_split {xs : List α} {k : Int} (h : 0 ≤ k ∧ k < xs.length) :
    ∃ before x after, xs = before ++ x :: after ∧ k = (before.length : Int) := by
  have hlt : k.toNat < xs.length := by omega
  refine ⟨xs.take k.toNat, xs[k.toNat], xs.drop (k.toNat + 1), ?_, ?_⟩
  · rw [← List.drop_eq_getElem_cons hlt, List.take_append_drop]
  · rw [List.length_take_of_le (Nat.le_of_lt hlt)]
    omega

/-- The place between two parts is in range. -/
theorem lt_length_split (before : List α) (x : α) (after : List α) :
    0 ≤ (before.length : Int) ∧ (before.length : Int) < (before ++ x :: after).length := by
  rw [List.length_append, List.length_cons]
  omega

/-- What stands between two parts is found there. -/
theorem getElem?_split (before : List α) (x : α) (after : List α) :
    (before ++ x :: after)[before.length]? = some x := by
  rw [List.getElem?_append_right (Nat.le_refl _), Nat.sub_self, List.getElem?_cons_zero]

/-- Without what stands between them the two parts are left. -/
theorem eraseIdx_split (before : List α) (x : α) (after : List α) :
    (before ++ x :: after).eraseIdx before.length = before ++ after := by
  rw [List.eraseIdx_append_of_length_le (Nat.le_refl _), Nat.sub_self, List.eraseIdx_cons_zero]

/-- What stands between two parts can be replaced. -/
theorem set_split (before : List α) (x y : α) (after : List α) :
    (before ++ x :: after).set before.length y = before ++ y :: after := by
  rw [List.set_append_right before.length y (Nat.le_refl _), Nat.sub_self, List.set_cons_zero]

namespace Program

variable {p : Program} {before after : List Command} {old : Command}

/-- A program with other commands and their trace, of which every listener has heard. -/
def announced (p : Program) (commands : List Command) (trace : Trace) : Program where
  commands := commands
  trace := trace
  listeners := p.listeners.map fun l => { l with heard := trace :: l.heard }
  heardByAll := p.heardByAll + 1

/-! ## The command at an index -/

/-- An index out of range is refused with the size of the program. -/
theorem index_of_outside {k : Int} (h : ¬ (0 ≤ k ∧ k < p.commands.length)) :
    p.index k = .error (.commandIndex k p.commands.length) :=
  if_neg h

/-- An index in range is its own. -/
theorem index_of_split (hp : p.commands = before ++ old :: after) :
    p.index before.length = .ok before.length := by
  have hin := lt_length_split before old after
  rw [← hp] at hin
  exact if_pos hin

/-- Taking out a command leaves those before and those behind it. -/
theorem remove_of_split (hquiet : p.Quiet) (hp : p.commands = before ++ old :: after) :
    p.remove before.length =
      (p.announced (before ++ after) (Command.unrollAll (before ++ after)), .ok old) := by
  unfold remove
  simp only [index_of_split hp, hp, getElem?_split, eraseIdx_split, put_of_quiet hquiet]
  rfl

/-- Replacing a command leaves those before and those behind it. -/
theorem replace_of_split (hquiet : p.Quiet) (hp : p.commands = before ++ old :: after)
    (c : Command) :
    p.replace before.length c =
      (p.announced (before ++ c :: after) (Command.unrollAll (before ++ c :: after)), .ok ()) := by
  unfold replace
  simp only [index_of_split hp, hp, set_split, put_of_quiet hquiet]
  rfl

end Program

namespace Ingestion

variable {i : Ingestion} {before after : List Command}

/-- No loop is found out of range. -/
theorem loopAt_of_outside {k : Int} (h : ¬ (0 ≤ k ∧ k < i.program.commands.length))
    (edit : LoopEdit) :
    i.loopAt k edit = .error (.commandIndex k i.program.commands.length) := by
  unfold loopAt
  rw [Program.index_of_outside h]

/-- A loop in range is found with its count and body. -/
theorem loopAt_of_loop {count : Option Nat} {body : List Command}
    (hp : i.program.commands = before ++ .loop count body :: after) (edit : LoopEdit) :
    i.loopAt before.length edit = .ok (count, body) := by
  unfold loopAt
  simp only [Program.index_of_split hp, hp, getElem?_split]

/-- An action in range is refused, and the refusal names the edit. -/
theorem loopAt_of_basic {a : Action} (hp : i.program.commands = before ++ .basic a :: after)
    (edit : LoopEdit) : i.loopAt before.length edit = .error (.loopOnly a.kind edit) := by
  unfold loopAt
  simp only [Program.index_of_split hp, hp, getElem?_split]

/-- The entry point after an edit of which everybody has heard. -/
def announced (i : Ingestion) (commands : List Command) : Ingestion :=
  { i with program := i.program.announced commands (Command.unrollAll commands) }

/-- Removing leaves the other commands in order, and answers the one removed. -/
theorem removeCommand_of_split {old : Command} (hquiet : i.program.Quiet)
    (hp : i.program.commands = before ++ old :: after) :
    i.removeCommand before.length = (i.announced (before ++ after), .ok old) := by
  unfold removeCommand
  rw [Program.remove_of_split hquiet hp]
  rfl

/-- Replacing leaves the other commands where they are. -/
theorem updateCommand_of_split {old : Command} (hquiet : i.program.Quiet)
    (hp : i.program.commands = before ++ old :: after) (c : Command) :
    i.updateCommand before.length c = (i.announced (before ++ c :: after), .ok ()) := by
  unfold updateCommand
  rw [Program.replace_of_split hquiet hp]
  rfl

end Ingestion

namespace StackEdit

variable {i : Ingestion} {e : StackEdit} {before after : List Command} {old : Command}
  {new answer : Option Command}

/-! ## Edits that are made -/

/-- A command that can take an edit takes it. -/
theorem exists_makes (h : e.Fits old) : ∃ new answer, e.Makes old new answer := by
  cases e with
  | remove index => exact ⟨_, _, .removes⟩
  | update index c => exact ⟨_, _, .updates⟩
  | addChild index c =>
    cases old with
    | basic a => exact nomatch h
    | loop count body => exact ⟨_, _, .addsChild⟩
  | removeChild index child =>
    cases old with
    | basic a => exact nomatch h.1
    | loop count body =>
      -- the index splits the body around the child
      obtain ⟨first, c, last, hbody, rfl⟩ := exists_split h.2
      obtain rfl : body = first ++ c :: last := hbody
      exact ⟨_, _, .removesChild⟩
  | updateCount index n =>
    cases old with
    | basic a => exact nomatch h
    | loop count body => exact ⟨_, _, .setsCount⟩

/-- What is made of a command stands in its place, and nothing else is touched. -/
theorem perform_of_makes (hquiet : i.program.Quiet)
    (hp : i.program.commands = before ++ old :: after) (hindex : e.index = before.length)
    (h : e.Makes old new answer) :
    e.perform i = (i.announced (before ++ new.toList ++ after), .ok answer) := by
  -- every edit but the first comes down to an update
  have hupdate (c : Command) :
      i.updateCommand before.length c = (i.announced (before ++ [c] ++ after), .ok ()) := by
    rw [Ingestion.updateCommand_of_split hquiet hp, List.append_assoc, List.singleton_append]
  cases h with
  | removes =>
    obtain rfl := hindex
    show ((i.removeCommand before.length).map id (Except.map some)) = _
    rw [Ingestion.removeCommand_of_split hquiet hp, Option.toList_none, List.append_nil]
    rfl
  | updates =>
    obtain rfl := hindex
    show ((i.updateCommand before.length _).map id (Except.map fun _ => none)) = _
    rw [hupdate]
    rfl
  | addsChild =>
    obtain rfl := hindex
    show ((i.addChild before.length _).map id (Except.map fun _ => none)) = _
    rw [Ingestion.addChild, Ingestion.loopAt_of_loop hp]
    simp only [hupdate]
    rfl
  | @removesChild _ c count first last =>
    obtain rfl := hindex
    show ((i.removeChild before.length first.length).map id (Except.map some)) = _
    rw [Ingestion.removeChild, Ingestion.loopAt_of_loop hp]
    have hchild := lt_length_split first c last
    simp only [hchild, and_self, if_true, Int.toNat_natCast, getElem?_split, eraseIdx_split,
      hupdate]
    rfl
  | setsCount =>
    obtain rfl := hindex
    show ((i.chooseCount before.length (.int _)).map id (Except.map fun _ => none)) = _
    rw [Ingestion.chooseCount, Ingestion.loopAt_of_loop hp]
    simp only [Command.chosenCount, Ingestion.updateCount, Ingestion.loopAt_of_loop hp, hupdate]
    rfl

/-! ## Edits that are refused -/

/-- An edit that needs a loop is refused as soon as none is found. -/
theorem perform_of_loopAt_error {edit : LoopEdit} {f : Failure}
    (hneeds : e.loopEdit? = some edit) (h : i.loopAt e.index edit = .error f) :
    e.perform i = (i, .error f) := by
  cases e with
  -- these two edits take any command
  | remove index => exact nomatch hneeds
  | update index c => exact nomatch hneeds
  | addChild index c =>
    obtain rfl := Option.some.inj hneeds
    change i.loopAt index .addChild = _ at h
    show ((i.addChild index c).map id (Except.map fun _ => none)) = _
    rw [Ingestion.addChild, h]
    rfl
  | removeChild index child =>
    obtain rfl := Option.some.inj hneeds
    change i.loopAt index .removeChild = _ at h
    show ((i.removeChild index child).map id (Except.map some)) = _
    rw [Ingestion.removeChild, h]
    rfl
  | updateCount index n =>
    obtain rfl := Option.some.inj hneeds
    change i.loopAt index .setCount = _ at h
    show ((i.chooseCount index (.int n)).map id (Except.map fun _ => none)) = _
    rw [Ingestion.chooseCount, h]
    rfl

/-- An edit out of range is refused before anything else is looked at. -/
theorem perform_of_outside (h : ¬ (0 ≤ e.index ∧ e.index < i.program.commands.length)) :
    e.perform i = (i, .error (.commandIndex e.index i.program.commands.length)) := by
  -- the first two ask the program for the index, the others ask for a loop at it
  have hindex := Program.index_of_outside h
  cases e with
  | remove index =>
    change i.program.index index = _ at hindex
    show ((i.onProgram (i.program.remove index)).map id (Except.map some)) = _
    rw [Program.remove, hindex]
    rfl
  | update index c =>
    change i.program.index index = _ at hindex
    show ((i.onProgram (i.program.replace index c)).map id (Except.map fun _ => none)) = _
    rw [Program.replace, hindex]
    rfl
  | addChild index c => exact perform_of_loopAt_error rfl (Ingestion.loopAt_of_outside h _)
  | removeChild index child => exact perform_of_loopAt_error rfl (Ingestion.loopAt_of_outside h _)
  | updateCount index n => exact perform_of_loopAt_error rfl (Ingestion.loopAt_of_outside h _)

/-- Every edit fits some command at the index, and only a child that is not there does not fit
a loop. -/
theorem eq_of_not_fits (h : ¬ e.Fits old) :
    (∃ a edit, old = .basic a ∧ e.loopEdit? = some edit) ∨
      ∃ index child count body, old = .loop count body ∧ e = .removeChild index child ∧
        ¬ (0 ≤ child ∧ child < (body.length : Int)) := by
  cases old with
  | basic a =>
    left
    cases e with
    | remove index => exact absurd trivial h
    | update index c => exact absurd trivial h
    | addChild index c => exact ⟨a, _, rfl, rfl⟩
    | removeChild index child => exact ⟨a, _, rfl, rfl⟩
    | updateCount index n => exact ⟨a, _, rfl, rfl⟩
  -- against a loop only the removal of a child that is not there fails
  | loop count body =>
    right
    cases e with
    | remove index => exact absurd trivial h
    | update index c => exact absurd trivial h
    | addChild index c => exact absurd rfl h
    | updateCount index n => exact absurd rfl h
    | removeChild index child =>
      exact ⟨index, child, count, body, rfl, rfl, fun hin => h ⟨rfl, hin⟩⟩

/-- An edit that does not fit the command at the index leaves everything as it was. -/
theorem perform_of_not_fits (hp : i.program.commands = before ++ old :: after)
    (hindex : e.index = before.length) (h : ¬ e.Fits old) :
    ∃ f, e.Refused i.program.commands f ∧ e.perform i = (i, .error f) := by
  have hinside : 0 ≤ e.index := by omega
  have hentry : i.program.commands[e.index.toNat]? = some old := by
    rw [hindex, Int.toNat_natCast, hp, getElem?_split]
  -- either a basic command stands where a loop is needed, or the loop has no such child
  obtain ⟨a, edit, rfl, hneeds⟩ | ⟨index, child, count, body, rfl, rfl, houtside⟩ :=
    eq_of_not_fits h
  · refine ⟨_, .noLoop hinside hentry hneeds, ?_⟩
    apply perform_of_loopAt_error hneeds
    rw [hindex]
    exact Ingestion.loopAt_of_basic hp edit
  · refine ⟨_, .noChild hinside hentry houtside, ?_⟩
    obtain rfl : index = before.length := hindex
    show ((i.removeChild before.length child).map id (Except.map some)) = _
    rw [Ingestion.removeChild, Ingestion.loopAt_of_loop hp]
    simp only [houtside, if_false]
    rfl

/-! ## Loops that were edited -/

/-- The loop that an edit makes of a loop whose count was in range passes the check of counts,
which changes nothing. -/
theorem Makes.repeated {edit : LoopEdit} (h : e.Makes old new answer) (hold : old.Normal)
    (hneeds : e.loopEdit? = some edit) :
    ∃ count body, new = some (.loop count body) ∧
      Command.repeated (Command.countRecord count) body = .ok (.loop count body) := by
  -- the count is that of the loop before, or it has just been brought into range
  cases h with
  | removes => exact nomatch hneeds
  | updates => exact nomatch hneeds
  | addsChild =>
    cases hold with
    | loop bounded _ => exact ⟨_, _, rfl, Command.repeated_countRecord bounded _⟩
  | removesChild =>
    cases hold with
    | loop bounded _ => exact ⟨_, _, rfl, Command.repeated_countRecord bounded _⟩
  | @setsCount _ n =>
    refine ⟨_, _, rfl, Command.repeated_countRecord ?_ _⟩
    intro count hcount
    obtain rfl := Option.some.inj hcount
    exact clampCount_le n

/-! ## All edits -/

/-- Where no listener fails, an edit of the command stack succeeds exactly if there is a command
at the index that can take it.  Then the commands before and behind it stay, the trace is put
together from theirs and that of what stands in its place, every listener hears that trace once,
and nothing else of the entry point changes; a loop that was edited is what building it anew
gives.  Otherwise the failure names what is missing, and nothing changes at all. -/
theorem perform_splices (i : Ingestion) (hquiet : i.program.Quiet) (e : StackEdit) :
    (e.Possible i.program.commands →
      ∃ before old after new answer,
        i.program.commands = before ++ old :: after ∧ e.index = before.length ∧
        e.Makes old new answer ∧
        e.perform i =
          ({ i with
              program := i.program.announced (before ++ new.toList ++ after)
                (Command.unrollAll before ++ Command.unrollAll new.toList ++
                  Command.unrollAll after) },
            .ok answer) ∧
        (old.Normal → e.loopEdit?.isSome = true →
          ∃ count body, new = some (.loop count body) ∧
            Command.repeated (Command.countRecord count) body = .ok (.loop count body))) ∧
    (¬ e.Possible i.program.commands →
      ∃ f, e.Refused i.program.commands f ∧ e.perform i = (i, .error f)) := by
  by_cases hin : 0 ≤ e.index ∧ e.index < i.program.commands.length
  · obtain ⟨before, old, after, hp, hindex⟩ := exists_split hin
    have hentry : i.program.commands[e.index.toNat]? = some old := by
      rw [hindex, Int.toNat_natCast, hp, getElem?_split]
    constructor
    · rintro ⟨-, hfits⟩
      obtain ⟨new, answer, hmakes⟩ := exists_makes (hfits old hentry)
      refine ⟨before, old, after, new, answer, hp, hindex, hmakes, ?_, ?_⟩
      · rw [perform_of_makes hquiet hp hindex hmakes, Ingestion.announced,
          Command.unrollAll_append, Command.unrollAll_append]
      · intro hold hneeds
        obtain ⟨edit, hedit⟩ := Option.isSome_iff_exists.mp hneeds
        exact hmakes.repeated hold hedit
    · intro hnot
      apply perform_of_not_fits hp hindex
      intro hfits
      apply hnot
      refine ⟨hin, fun old' hold' => ?_⟩
      -- there is only one command at the index
      obtain rfl := Option.some.inj (hentry.symm.trans hold')
      exact hfits
  · constructor
    · exact fun hpossible => absurd hpossible.1 hin
    · exact fun _ => ⟨_, .noCommand hin, perform_of_outside hin⟩

/-- While a loop is being built and a notice is shown, a child is taken out of a loop without a
count; a child that is not there cannot be. -/
theorem perform_splices_pending :
    let i : Ingestion := {
      program := .ofCommands
        [.basic .forward, .loop none [.basic .turnLeft, .basic .ifHole], .basic .turnRight]
        [.quiet]
      mode := .building 3 [.basic .forward]
      notice := some ⟨"loop", 1.5⟩ }
    let e : StackEdit := .removeChild 1 0
    i.program.Quiet ∧ e.Possible i.program.commands ∧
      (∃ before old after new answer,
        i.program.commands = before ++ old :: after ∧ e.index = before.length ∧
        e.Makes old new answer ∧
        e.perform i =
          ({ i with
              program := i.program.announced (before ++ new.toList ++ after)
                (Command.unrollAll before ++ Command.unrollAll new.toList ++
                  Command.unrollAll after) },
            .ok answer)) ∧
      ∃ f, StackEdit.Refused i.program.commands (.removeChild 1 2) f ∧
        StackEdit.perform i (.removeChild 1 2) = (i, .error f) := by
  intro i e
  have hquiet : i.program.Quiet := by
    intro l hl heard
    obtain rfl := List.mem_singleton.mp hl
    rfl
  have hpossible : e.Possible i.program.commands := by
    refine ⟨by decide, fun old hold => ?_⟩
    obtain rfl := Option.some.inj hold
    exact ⟨rfl, by decide⟩
  have hnot : ¬ StackEdit.Possible (.removeChild 1 2) i.program.commands := by
    intro h
    obtain ⟨-, -, hchild⟩ := h.2 _ rfl
    exact absurd hchild (by decide)
  obtain ⟨before, old, after, new, answer, hp, hindex, hmakes, hperform, -⟩ :=
    (perform_splices i hquiet e).1 hpossible
  exact ⟨hquiet, hpossible, ⟨before, old, after, new, answer, hp, hindex, hmakes, hperform⟩,
    (perform_splices i hquiet _).2 hnot⟩

end StackEdit

end MazeRobot
