import MazeRobot.Proofs.Detections

/-!
# Programs shown as cards

A program is flat if its loops have counts that can be chosen and bodies without loops.  Such a
program can be laid out as a sequence of `Card`s (`Command.cards`): an action is its own card, a
loop is a loop card, its count, its body and another loop card.

Whoever shows these cards, at whatever times, adds exactly that program to the one that is there
(`receiveAll_cards`).  Since the cards alone decide what is added, no two flat programs have the
same cards (`eq_of_cards_eq`).

Where no loop is being built, the cards of one command add it and leave none (`Stands.shows`), so
the commands of a program can be shown one by one, also two loops next to each other.
-/

namespace MazeRobot

/-- A signal, whenever it comes and whatever a detection carries beside its kind. -/
inductive Card where
  | shown (k : Kind)
  | count (n : Int)
  | cancel
  deriving DecidableEq, Repr

namespace Signal

/-- The card that a signal comes from. -/
def card : Signal → Card
  | detected _ c => .shown c.kind
  | counted n => .count n
  | cancelled => .cancel

variable {s : Signal}

/-- Only the detection of an action comes from the card of an action. -/
theorem card_eq_shown_action {a : Action} (h : s.card = .shown a.kind) :
    ∃ now, s = .detected now (.basic a) := by
  cases s with
  | detected now c =>
    have hkind : c.kind = a.kind := Card.shown.inj h
    cases c with
    | basic b => cases a <;> cases b <;> first | exact ⟨now, rfl⟩ | cases hkind
    | loop count body => cases a <;> cases hkind
  | counted n => cases h
  | cancelled => cases h

/-- Only the detection of a loop comes from a loop card. -/
theorem card_eq_shown_loop (h : s.card = .shown .loop) :
    ∃ now carried children, s = .detected now (.loop carried children) := by
  cases s with
  | detected now c =>
    cases c with
    | basic b => cases b <;> cases Card.shown.inj h
    | loop count body => exact ⟨now, count, body, rfl⟩
  | counted n => cases h
  | cancelled => cases h

/-- Only the choice of a count comes from the card of that count. -/
theorem card_eq_count {n : Int} (h : s.card = .count n) : s = .counted n := by
  cases s with
  | detected now c => cases h
  | counted m =>
    obtain rfl := Card.count.inj h
    rfl
  | cancelled => cases h

/-- Cards of actions leave a loop open, and bring no count. -/
theorem inside_of_cards {inside : List Signal} {actions : List Action}
    (h : inside.map card = actions.map fun a => .shown a.kind) :
    (∀ s ∈ inside, s.isInside = true) ∧ inside.filterMap count? = [] ∧
      inside.filterMap action? = actions := by
  induction inside generalizing actions with
  | nil =>
    obtain rfl : actions = [] := List.map_eq_nil_iff.mp h.symm
    exact ⟨List.forall_mem_nil _, rfl, rfl⟩
  | cons s rest ih =>
    cases actions with
    | nil => cases h
    | cons a actions =>
      obtain ⟨hs, hrest⟩ := List.cons.inj h
      obtain ⟨now, rfl⟩ := card_eq_shown_action hs
      obtain ⟨hinside, hcount, haction⟩ := ih hrest
      exact ⟨List.forall_mem_cons.mpr ⟨rfl, hinside⟩, hcount, congrArg (a :: ·) haction⟩

/-- A count that no other follows is the one of the loop. -/
theorem loopCount_counted {standard : Nat} {carried : Option Nat} {inside : List Signal} (n : Int)
    (h : inside.filterMap count? = []) :
    loopCount standard carried (.counted n :: inside) = clampCount n := by
  show clampCount ((n :: inside.filterMap count?).getLast?.getD _) = _
  rw [h]
  rfl

end Signal

namespace Command

/-- An action, or a loop around actions with a count that can be chosen. -/
inductive Flat : Command → Prop where
  | basic (a : Action) : Flat (basic a)
  | loop {n : Nat} {body : List Command} (least : minLoopCount ≤ n) (most : n ≤ maxLoopCount)
      (inside : ∀ c ∈ body, c.isLoop = false) : Flat (loop (some n) body)

/-- The cards that show a command. -/
def cards : Command → List Card
  | basic a => [.shown a.kind]
  | loop count body =>
    .shown .loop :: .count (repetitions count) :: (body.map fun c => .shown c.kind)
      ++ [.shown .loop]

/-- A flat body is a list of actions. -/
theorem exists_actions {body : List Command} (h : ∀ c ∈ body, c.isLoop = false) :
    ∃ actions : List Action, body = actions.map .basic := by
  induction body with
  | nil => exact ⟨[], rfl⟩
  | cons c rest ih =>
    obtain ⟨hc, hrest⟩ := List.forall_mem_cons.mp h
    obtain ⟨actions, rfl⟩ := ih hrest
    cases c with
    | basic a => exact ⟨a :: actions, rfl⟩
    | loop count body => cases hc

end Command

namespace Ingestion

variable {i : Ingestion} {commands : List Command} {standard : Nat} {signals : List Signal}

/-- Where no loop is being built, the cards of a command add that command. -/
theorem Stands.shows {c : Command} (h : i.Stands commands .idle standard) (hc : c.Flat)
    (hcards : signals.map Signal.card = c.cards)
    (hok : ∀ a ∈ (i.receiveAll signals).2, a.isOk = true) :
    (i.receiveAll signals).1.Stands (commands ++ [c]) .idle standard := by
  cases hc with
  | basic a =>
    obtain ⟨s, rfl, hs⟩ := List.map_eq_singleton_iff.mp hcards
    obtain ⟨now, rfl⟩ := Signal.card_eq_shown_action hs
    exact h.step now a
  | @loop n body least most hbody =>
    obtain ⟨actions, rfl⟩ := Command.exists_actions hbody
    -- what opens the loop and leaves it open, then what closes it
    obtain ⟨front, back, rfl, hfront, hback⟩ := List.map_eq_append_iff.mp hcards
    obtain ⟨opening, rest, rfl, hopening, hrest⟩ := List.map_eq_cons_iff.mp hfront
    obtain ⟨chosen, shown, rfl, hchosen, hshown⟩ := List.map_eq_cons_iff.mp hrest
    obtain ⟨closing, rfl, hclosing⟩ := List.map_eq_singleton_iff.mp hback
    obtain ⟨now, carried, children, rfl⟩ := Signal.card_eq_shown_loop hopening
    obtain ⟨now', carried', children', rfl⟩ := Signal.card_eq_shown_loop hclosing
    obtain rfl := Signal.card_eq_count hchosen
    rw [List.map_map] at hshown
    obtain ⟨hinside, hcounts, hactions⟩ := Signal.inside_of_cards hshown
    -- whatever the loop card carried, the count that follows it is the one that holds
    have hopen : ∀ s ∈ Signal.counted n :: shown, s.isInside = true :=
      List.forall_mem_cons.mpr ⟨rfl, hinside⟩
    obtain ⟨hloop, -⟩ := h.loop now carried children hopen
    rw [Signal.loopCount_counted n hcounts, clampCount_of_le least most,
      List.filterMap_cons_none rfl, hactions] at hloop
    rw [receiveAll_append] at hok ⊢
    exact hloop.closes now' carried' children' (hok _ (List.mem_append_right _ List.mem_cons_self))

/-- Where no loop is being built, the cards of a flat program add that program. -/
theorem Stands.showsAll {program : List Command} (h : i.Stands commands .idle standard)
    (hflat : ∀ c ∈ program, c.Flat)
    (hcards : signals.map Signal.card = program.flatMap Command.cards)
    (hok : ∀ a ∈ (i.receiveAll signals).2, a.isOk = true) :
    (i.receiveAll signals).1.Stands (commands ++ program) .idle standard := by
  induction program generalizing i commands signals with
  | nil =>
    obtain rfl := List.map_eq_nil_iff.mp hcards
    rw [List.append_nil]
    exact h
  | cons c rest ih =>
    obtain ⟨hc, hrest⟩ := List.forall_mem_cons.mp hflat
    rw [List.flatMap_cons] at hcards
    obtain ⟨front, back, rfl, hfront, hback⟩ := List.map_eq_append_iff.mp hcards
    rw [receiveAll_append] at hok ⊢
    -- after the cards of `c` no loop is being built again, so the others can be shown
    have hnext := h.shows hc hfront fun a ha => hok a (List.mem_append_left _ ha)
    have hlast := ih hnext hrest hback fun a ha => hok a (List.mem_append_right _ ha)
    rwa [List.append_assoc] at hlast

/-- The trace stays that of the program at every signal, refused ones included. -/
theorem synced_receive (hsynced : i.program.Synced) (s : Signal) :
    (i.receive s).1.program.Synced := by
  cases s with
  | detected now c => exact (i.edited_submit false now c).synced hsynced
  | counted n =>
    show (i.setPendingCount n).1.program.Synced
    rw [i.program_setPendingCount]
    exact hsynced
  | cancelled => exact hsynced

/-- The trace stays that of the program through any sequence of signals. -/
theorem synced_receiveAll (hsynced : i.program.Synced) (signals : List Signal) :
    (i.receiveAll signals).1.program.Synced := by
  induction signals generalizing i with
  | nil => exact hsynced
  | cons s rest ih => exact ih (synced_receive hsynced s)

end Ingestion

/-! ## Cards read back -/

namespace Card

/-- A signal with a given card. -/
def signal : Card → Signal
  | shown k => .detected 0 (.ofKind k)
  | count n => .counted n
  | cancel => .cancelled

/-- The signal that stands for a card comes from that card. -/
theorem card_signal (c : Card) : c.signal.card = c := by
  cases c with
  | shown k => exact congrArg Card.shown (Command.kind_ofKind k)
  | count n => rfl
  | cancel => rfl

/-- The signals that stand for some cards come from those cards. -/
theorem map_card_signal (cards : List Card) : (cards.map signal).map Signal.card = cards := by
  rw [List.map_map]
  exact List.map_id'' card_signal cards

end Card

/-- No two flat programs have the same cards: shown to somebody who starts with nothing, the cards
build both of them. -/
theorem Command.eq_of_cards_eq {first second : List Command} (hfirst : ∀ c ∈ first, c.Flat)
    (hsecond : ∀ c ∈ second, c.Flat)
    (h : first.flatMap Command.cards = second.flatMap Command.cards) : first = second := by
  let start : Ingestion := { program := .ofCommands [] }
  let signals := (first.flatMap Command.cards).map Card.signal
  have hstart : start.Stands [] .idle standardLoopCount := ⟨rfl, rfl, rfl⟩
  have hcards : signals.map Signal.card = first.flatMap Command.cards := Card.map_card_signal _
  have hok := start.receiveAll_isOk (Program.quiet_ofCommands []) signals
  have builds_first := (hstart.showsAll hfirst hcards hok).commands_eq
  have builds_second := (hstart.showsAll hsecond (hcards.trans h) hok).commands_eq
  exact builds_first.symm.trans builds_second

namespace Ingestion

/-- While no loop is open, whoever shows the cards of a flat program, at whatever times and with
whatever counts and bodies on the loop cards themselves, adds that program.  Only a listener of
the program can stand in the way.  Different flat programs have different cards. -/
theorem receiveAll_cards (i : Ingestion) (hidle : i.mode = .idle) (hsynced : i.program.Synced) :
    (∀ (program : List Command) (signals : List Signal), (∀ c ∈ program, c.Flat) →
      signals.map Signal.card = program.flatMap Command.cards →
      let last := (i.receiveAll signals).1
      let answers := (i.receiveAll signals).2
      (i.program.Quiet → ∀ a ∈ answers, a.isOk = true) ∧
        ((∀ a ∈ answers, a.isOk = true) →
          last.mode = .idle ∧
            last.program.commands = i.program.commands ++ program ∧
            last.program.trace =
              Command.unrollAll i.program.commands ++ Command.unrollAll program)) ∧
      ∀ first second : List Command, (∀ c ∈ first, c.Flat) → (∀ c ∈ second, c.Flat) →
        first.flatMap Command.cards = second.flatMap Command.cards → first = second := by
  refine ⟨fun program signals hflat hcards => ?_, fun _ _ => Command.eq_of_cards_eq⟩
  refine ⟨fun hquiet => receiveAll_isOk hquiet signals, fun hok => ?_⟩
  have hstands : i.Stands i.program.commands .idle i.defaultCount := ⟨rfl, hidle, rfl⟩
  obtain ⟨hcommands, hmode, -⟩ := hstands.showsAll hflat hcards hok
  have htrace : (i.receiveAll signals).1.program.Synced := synced_receiveAll hsynced signals
  refine ⟨hmode, hcommands, ?_⟩
  rw [htrace, hcommands, Command.unrollAll_append]

/-- Two loops next to each other, the first one around nothing.  The loop cards carry a count and
a body of their own, and the clock runs backwards. -/
theorem receiveAll_cards_adjacent :
    let i : Ingestion := { program := .ofCommands [.basic .ifHole] }
    let program : List Command := [.loop (some 10) [], .loop (some 3) [.basic .forward]]
    let loop (now : Float) : Signal := .detected now (.loop (some 7) [.basic .turnLeft])
    let signals : List Signal :=
      [loop 9, .counted 10, loop 8, loop 7, .counted 3, .detected 6 (.basic .forward), loop 5]
    let last := (i.receiveAll signals).1
    i.mode = .idle ∧ i.program.Synced ∧ i.program.Quiet ∧ (∀ c ∈ program, c.Flat) ∧
      signals.map Signal.card = program.flatMap Command.cards ∧
      last.mode = .idle ∧ last.program.commands = .basic .ifHole :: program ∧
      last.program.trace = [.basic .ifHole, .basic .forward, .basic .forward, .basic .forward] ∧
      [Command.basic .forward].flatMap Command.cards ≠ program.flatMap Command.cards := by
  intro i program loop signals last
  have hquiet : i.program.Quiet := Program.quiet_ofCommands _
  have hempty : (Command.loop (some 10) []).Flat :=
    .loop (by decide) (by decide) (List.forall_mem_nil _)
  have hforward : (Command.loop (some 3) [.basic .forward]).Flat :=
    .loop (by decide) (by decide) (List.forall_mem_singleton.mpr rfl)
  have hflat : ∀ c ∈ program, c.Flat :=
    List.forall_mem_cons.mpr ⟨hempty, List.forall_mem_singleton.mpr hforward⟩
  have hstep : ∀ c ∈ [Command.basic .forward], c.Flat := List.forall_mem_singleton.mpr (.basic _)
  have hcards : signals.map Signal.card = program.flatMap Command.cards := rfl
  obtain ⟨hbuilds, hdistinct⟩ := receiveAll_cards i rfl (Program.synced_ofCommands _ _)
  obtain ⟨hok, hends⟩ := hbuilds program signals hflat hcards
  obtain ⟨hmode, hcommands, htrace⟩ := hends (hok hquiet)
  refine ⟨rfl, Program.synced_ofCommands _ _, hquiet, hflat, hcards, hmode, hcommands, htrace,
    fun h => ?_⟩
  -- different programs have different cards; here the lengths differ already
  exact absurd (congrArg List.length (hdistinct _ _ hstep hflat h)) (by decide)

end Ingestion

end MazeRobot
