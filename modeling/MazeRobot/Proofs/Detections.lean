import MazeRobot.Proofs.Ingestion

/-!
# The language of detections

While no run is executing, all that is detected, every choice of a count and every
cancelled loop is a `Signal`.  A sequence of signals is a text with brackets: a loop
detection opens a loop, the next one closes it.  `Signal.parse` reads such a text as a
whole.  It cuts it into `Piece`s, and what belongs to a loop is found by looking ahead for
its end; there is no state from one signal to the next.  The body of a piece holds actions
only.

`Ingestion.receiveAll` takes the signals one at a time instead.  It comes to the same
(`receiveAll_eq_parse`), and `kinds_parse` says that the pieces spell out all that was
detected, in order.
-/

namespace MazeRobot

/-- What reaches the entry point between two runs. -/
inductive Signal where
  /-- A command is detected at a point in time. -/
  | detected (now : Float) (c : Command)
  /-- A count is chosen for the loop being built. -/
  | counted (n : Int)
  /-- The loop being built is dropped. -/
  | cancelled

/-- What a stretch of signals comes to. -/
inductive Piece where
  | step (a : Action)
  /-- A loop that was closed. -/
  | closed (count : Nat) (body : List Action)
  /-- A loop that was cancelled. -/
  | dropped (count : Nat) (body : List Action)
  /-- A loop that is still open where the signals end. -/
  | unfinished (count : Nat) (body : List Action)
  deriving DecidableEq, Repr

namespace Piece

/-- The loop around some actions. -/
def loopOf (count : Nat) (body : List Action) : Command := .loop (some count) (body.map .basic)

/-- What goes into the program. -/
def added? : Piece → Option Command
  | step a => some (.basic a)
  | closed count body => some (loopOf count body)
  | _ => none

/-- The loop of a piece that was given up. -/
def dropped? : Piece → Option Command
  | dropped count body => some (loopOf count body)
  | _ => none

/-- The loop of a piece that is still open. -/
def unfinished? : Piece → Option Command
  | unfinished count body => some (loopOf count body)
  | _ => none

/-- The kinds of the detections that make up a piece. -/
def kinds : Piece → List Kind
  | step a => [a.kind]
  | closed _ body => .loop :: (body.map Action.kind ++ [.loop])
  | dropped _ body | unfinished _ body => .loop :: body.map Action.kind

end Piece

namespace Signal

/-- A signal that leaves an open loop open. -/
def isInside : Signal → Bool
  | detected _ c => !c.isLoop
  | counted _ => true
  | cancelled => false

/-- The action that a signal detects. -/
def action? : Signal → Option Action
  | detected _ (.basic a) => some a
  | _ => none

/-- The count that a signal chooses. -/
def count? : Signal → Option Int
  | counted n => some n
  | _ => none

/-- The kind of a detection. -/
def kind? : Signal → Option Kind
  | detected _ c => some c.kind
  | _ => none

/-- The count of a loop, brought into range: the one chosen last, or else the one that its
first detection carried, where zero is none, or else the standard one. -/
def loopCount (standard : Nat) (carried : Option Nat) (inside : List Signal) : Nat :=
  let proposed := if carried.getD 0 = 0 then standard else carried.getD 0
  clampCount ((inside.filterMap count?).getLast?.getD proposed)

/-- What a loop comes to, given the signal that ends it. -/
def loopPiece (stop : Option Signal) (count : Nat) (body : List Action) : Piece :=
  match stop with
  | none => .unfinished count body
  | some cancelled => .dropped count body
  | some _ => .closed count body

/-- The pieces of a sequence of signals.  Only the first detection of a loop can bring a
count, and none brings a body. -/
def parse (standard : Nat) : List Signal → List Piece
  | [] => []
  | detected _ (.basic a) :: rest => .step a :: parse standard rest
  | detected _ (.loop carried _) :: rest =>
    let inside := rest.takeWhile isInside
    let after := rest.dropWhile isInside
    loopPiece after.head? (loopCount standard carried inside) (inside.filterMap action?)
      :: parse standard after.tail
  | counted _ :: rest | cancelled :: rest => parse standard rest
termination_by signals => signals.length
decreasing_by
  · exact Nat.lt_add_one _
  · have hle := (List.dropWhile_suffix isInside (l := rest)).length_le
    rw [List.length_tail, List.length_cons]
    omega
  · exact Nat.lt_add_one _
  · exact Nat.lt_add_one _

/-- The signal behind those that leave a loop open closes it or cancels it. -/
theorem loop_or_cancelled {s : Signal} {rest later : List Signal}
    (h : rest.dropWhile isInside = s :: later) :
    s = .cancelled ∨ ∃ now carried children, s = .detected now (.loop carried children) := by
  have hs : ¬ s.isInside = true := by
    have hhead := List.head?_dropWhile_not isInside rest
    rw [h, List.head?_cons] at hhead
    exact Bool.eq_false_iff.mp hhead
  match s with
  | .cancelled => exact .inl rfl
  | .detected now (.loop carried children) => exact .inr ⟨now, carried, children, rfl⟩
  | .detected _ (.basic _) => exact absurd rfl hs
  | .counted _ => exact absurd rfl hs

/-- The kinds that are shown inside of a loop are those of the actions. -/
theorem kinds_of_inside {inside : List Signal} (hinside : ∀ s ∈ inside, s.isInside = true) :
    inside.filterMap kind? = (inside.filterMap action?).map Action.kind := by
  induction inside with
  | nil => rfl
  | cons s rest ih =>
    have hs := hinside s List.mem_cons_self
    have hrest := ih fun s' hmem => hinside s' (List.mem_cons_of_mem s hmem)
    match s with
    | detected now (.basic a) =>
      show a.kind :: rest.filterMap kind? = a.kind :: (rest.filterMap action?).map Action.kind
      rw [hrest]
    | counted n => exact hrest

/-- All that was detected is in the pieces, once and in order. -/
theorem kinds_parse (standard : Nat) (signals : List Signal) :
    (parse standard signals).flatMap Piece.kinds = signals.filterMap kind? := by
  fun_induction parse standard signals with
  | case1 => rfl
  | case2 now a rest ih =>
    show a.kind :: (parse standard rest).flatMap Piece.kinds = a.kind :: rest.filterMap kind?
    rw [ih]
  | case3 now carried children rest inside =>
    rename_i after ih
    have hinside : ∀ s ∈ inside, s.isInside = true := List.all_eq_true.mp List.all_takeWhile
    have hends {stop later} : after = stop :: later → _ := loop_or_cancelled
    have hsplit : inside ++ after = rest := List.takeWhile_append_dropWhile
    -- from here on it does not matter how the signals were split
    clear_value inside after
    subst hsplit
    have hfront : (detected now (.loop carried children) :: (inside ++ after)).filterMap kind? =
        .loop :: ((inside.filterMap action?).map Action.kind ++ after.filterMap kind?) := by
      rw [← kinds_of_inside hinside, ← List.filterMap_append]
      rfl
    rw [hfront, List.flatMap_cons, ih]
    match after with
    | [] => rfl
    | stop :: later =>
      rcases hends rfl with rfl | ⟨now', carried', children', rfl⟩
      · rfl
      · exact congrArg (Kind.loop :: ·) (List.append_assoc _ [Kind.loop] _)
  | case4 n rest ih => exact ih
  | case5 rest ih => exact ih

end Signal

/-- What the entry point answers to a signal. -/
inductive Response where
  /-- Whether a detection was accepted, or a count was taken over. -/
  | told (yes : Bool)
  /-- The loop that was being built. -/
  | cancelled (loop : Option Command)

/-- The loop that an answer hands back. -/
def Response.loop? : Except Failure Response → Option Command
  | .ok (.cancelled loop) => loop
  | _ => none

namespace Ingestion

/-- The ingestion hears one signal while no run is executing. -/
def receive (i : Ingestion) : Signal → Ingestion × Except Failure Response
  | .detected now c => (i.submit false now c).map id (Except.map .told)
  | .counted n => (i.setPendingCount n).map id fun yes => .ok (.told yes)
  | .cancelled => i.cancelLoop.map id fun loop => .ok (.cancelled loop)

/-- Receives signals in order: the entry point after the last one, and all answers. -/
def receiveAll (i : Ingestion) : List Signal → Ingestion × List (Except Failure Response)
  | [] => (i, [])
  | s :: rest =>
    let (i, answer) := i.receive s
    let (i, answers) := i.receiveAll rest
    (i, answer :: answers)

theorem receiveAll_cons (i : Ingestion) (s : Signal) (rest : List Signal) :
    i.receiveAll (s :: rest) =
      (((i.receive s).1.receiveAll rest).1,
        (i.receive s).2 :: ((i.receive s).1.receiveAll rest).2) := rfl

/-- Signals in two portions are heard one portion after the other. -/
theorem receiveAll_append (i : Ingestion) (xs ys : List Signal) :
    i.receiveAll (xs ++ ys) =
      (((i.receiveAll xs).1.receiveAll ys).1,
        (i.receiveAll xs).2 ++ ((i.receiveAll xs).1.receiveAll ys).2) := by
  induction xs generalizing i with
  | nil => rfl
  | cons x xs ih => rw [List.cons_append, receiveAll_cons, ih, receiveAll_cons, List.cons_append]

/-! ## What one signal does -/

/-- What there is to know of an entry point: the program so far, the loop being built, and
the count proposed for the next one. -/
structure Stands (i : Ingestion) (commands : List Command) (mode : Mode) (standard : Nat) :
    Prop where
  commands_eq : i.program.commands = commands
  mode_eq : i.mode = mode
  standard_eq : i.defaultCount = standard

variable {i : Ingestion} {commands : List Command} {standard count : Nat}
  {body : List Command}

/-- A detection is announced and taken in. -/
theorem receive_detected (i : Ingestion) (now : Float) (c : Command) :
    i.receive (.detected now c) =
      (((i.announce now c).absorb c).1,
        ((i.announce now c).absorb c).2.map fun _ => .told true) := by
  show (((i.announce now c).absorb c).1, (((i.announce now c).absorb c).2.map _).map _) = _
  cases ((i.announce now c).absorb c).2 <;> rfl

/-- An action outside of loops goes to the end of the program. -/
theorem Stands.step (h : i.Stands commands .idle standard) (now : Float) (a : Action) :
    (i.receive (.detected now (.basic a))).1.Stands (commands ++ [.basic a]) .idle standard := by
  obtain ⟨rfl, hmode, rfl⟩ := h
  have habsorb : (i.announce now (.basic a)).absorb (.basic a) =
      (i.announce now (.basic a)).onProgram (i.program.append (.basic a)) := by
    simp only [absorb, announce, hmode]
  rw [receive_detected, habsorb]
  exact ⟨rfl, hmode, rfl⟩

/-- A loop marker opens a loop and leaves the program alone. -/
theorem Stands.opens (h : i.Stands commands .idle standard) (now : Float) (carried : Option Nat)
    (children : List Command) :
    (i.receive (.detected now (.loop carried children))).1.Stands commands
      (.building (Signal.loopCount standard carried []) []) standard := by
  obtain ⟨rfl, hmode, rfl⟩ := h
  have hcount : i.openingCount carried = Signal.loopCount i.defaultCount carried [] := by
    unfold openingCount
    split <;> rfl
  have habsorb : (i.announce now (.loop carried children)).absorb (.loop carried children) =
      ({ i.announce now (.loop carried children) with
          mode := .building (i.openingCount carried) [] }, .ok ()) := by
    simp only [absorb, announce, hmode]
    rfl
  rw [receive_detected, habsorb, hcount]
  exact ⟨rfl, rfl, rfl⟩

/-- An action inside of a loop goes to the end of its body. -/
theorem Stands.grows (h : i.Stands commands (.building count body) standard) (now : Float)
    (a : Action) :
    (i.receive (.detected now (.basic a))).1.Stands commands
      (.building count (body ++ [.basic a])) standard := by
  obtain ⟨rfl, hmode, rfl⟩ := h
  have habsorb : (i.announce now (.basic a)).absorb (.basic a) =
      ({ i.announce now (.basic a) with mode := .building count (body ++ [.basic a]) },
        .ok ()) := by
    simp only [absorb, announce, hmode]
  rw [receive_detected, habsorb]
  exact ⟨rfl, rfl, rfl⟩

/-- A finished loop of which somebody does not hear counts as open still. -/
theorem Stands.closes (h : i.Stands commands (.building count body) standard) (now : Float)
    (carried : Option Nat) (children : List Command)
    (hok : (i.receive (.detected now (.loop carried children))).2.isOk = true) :
    (i.receive (.detected now (.loop carried children))).1.Stands
      (commands ++ [.loop (some count) body]) .idle standard := by
  obtain ⟨rfl, hmode, rfl⟩ := h
  let added := (i.announce now (.loop carried children)).onProgram
    (i.program.append (.loop (some count) body))
  have hbuilding : (i.announce now (.loop carried children)).mode = .building count body := hmode
  have habsorb : (i.announce now (.loop carried children)).absorb (.loop carried children) =
      (if added.2.isOk then { added.1 with mode := .idle } else added.1, added.2) := by
    simp only [absorb, hbuilding]
    rfl
  rw [receive_detected, habsorb] at hok ⊢
  have hadded : added.2.isOk = true := by
    cases htold : added.2 with
    | ok => rfl
    | error f =>
      rw [htold] at hok
      exact nomatch hok
  rw [if_pos hadded]
  exact ⟨rfl, rfl, rfl⟩

/-- A chosen count replaces that of the open loop, within bounds. -/
theorem Stands.counted (h : i.Stands commands (.building count body) standard) (n : Int) :
    (i.receive (.counted n)).1.Stands commands (.building (clampCount n) body) standard := by
  obtain ⟨rfl, hmode, rfl⟩ := h
  have hset : i.setPendingCount n = ({ i with mode := .building (clampCount n) body }, true) := by
    simp only [setPendingCount, hmode]
  show (i.setPendingCount n).1.Stands _ _ _
  rw [hset]
  exact ⟨rfl, rfl, rfl⟩

/-- Without an open loop there is nothing that could be given a count. -/
theorem Stands.counted_idle (h : i.Stands commands .idle standard) (n : Int) :
    (i.receive (.counted n)).1.Stands commands .idle standard := by
  obtain ⟨rfl, hmode, rfl⟩ := h
  have hset : i.setPendingCount n = (i, false) := by
    simp only [setPendingCount, hmode]
  show (i.setPendingCount n).1.Stands _ _ _
  rw [hset]
  exact ⟨rfl, hmode, rfl⟩

/-- Cancelling gives the open loop back and leaves none. -/
theorem Stands.cancels {mode : Mode} (h : i.Stands commands mode standard) :
    (i.receive .cancelled).1.Stands commands .idle standard ∧
      Response.loop? (i.receive .cancelled).2 = mode.pending? := by
  obtain ⟨rfl, rfl, rfl⟩ := h
  exact ⟨⟨rfl, rfl, rfl⟩, rfl⟩

/-- Only a cancelled loop is handed back. -/
theorem loop?_receive {s : Signal} (hs : s.isInside = true ∨ s.kind? = some .loop) :
    Response.loop? (i.receive s).2 = none := by
  cases s with
  | detected now c =>
    rw [receive_detected]
    cases ((i.announce now c).absorb c).2 <;> rfl
  | counted n => rfl
  | cancelled => exact hs.elim nofun nofun

/-! ## What a loop comes to -/

/-- Signals that leave the loop open.  The count is still that of the number `n`, or of the
number chosen last. -/
theorem Stands.inside {n : Int} (actions : List Action) {inside : List Signal}
    (hinside : ∀ s ∈ inside, s.isInside = true)
    (h : i.Stands commands (.building (clampCount n) (actions.map .basic)) standard) :
    (i.receiveAll inside).1.Stands commands
        (.building (clampCount ((inside.filterMap Signal.count?).getLast?.getD n))
          ((actions ++ inside.filterMap Signal.action?).map .basic)) standard ∧
      (i.receiveAll inside).2.filterMap Response.loop? = [] := by
  induction inside generalizing i n actions with
  | nil =>
    rw [List.filterMap_nil, List.filterMap_nil, List.append_nil]
    exact ⟨h, rfl⟩
  | cons s rest ih =>
    have hs := hinside s List.mem_cons_self
    have hrest := fun s' hmem => hinside s' (List.mem_cons_of_mem s hmem)
    have hanswer : Response.loop? (i.receive s).2 = none := loop?_receive (.inl hs)
    rw [receiveAll_cons, List.filterMap_cons_none hanswer]
    match s with
    | .detected now (.basic a) =>
      have hnext : (i.receive (.detected now (.basic a))).1.Stands commands
          (.building (clampCount n) ((actions ++ [a]).map .basic)) standard := by
        rw [List.map_append]
        exact h.grows now a
      have := ih (actions ++ [a]) hrest hnext
      rwa [List.append_assoc] at this
    | .counted m =>
      -- `m` takes the place of `n` for the signals that follow
      have hlast : ((m :: rest.filterMap Signal.count?).getLast?).getD n =
          (rest.filterMap Signal.count?).getLast?.getD m := by
        rw [List.getLast?_cons, Option.getD_some]
      have := ih actions hrest (h.counted m)
      rwa [← hlast] at this

/-- From a loop detection on, as long as the loop stays open. -/
theorem Stands.loop {inside : List Signal} (h : i.Stands commands .idle standard) (now : Float)
    (carried : Option Nat) (children : List Command)
    (hinside : ∀ s ∈ inside, s.isInside = true) :
    (i.receiveAll (.detected now (.loop carried children) :: inside)).1.Stands commands
        (.building (Signal.loopCount standard carried inside)
          ((inside.filterMap Signal.action?).map .basic)) standard ∧
      (i.receiveAll (.detected now (.loop carried children) :: inside)).2.filterMap
        Response.loop? = [] := by
  have hopens := h.opens now carried children
  have hanswer : Response.loop? (i.receive (.detected now (.loop carried children))).2 = none :=
    loop?_receive (.inr rfl)
  rw [receiveAll_cons, List.filterMap_cons_none hanswer]
  exact hopens.inside [] hinside

/-! ## What all signals come to -/

/-- The program, the loop that is open at the end, and the loops that were handed back are
those of the pieces. -/
structure Parsed (i : Ingestion) (commands : List Command) (signals : List Signal)
    (pieces : List Piece) : Prop where
  commands_eq :
    (i.receiveAll signals).1.program.commands = commands ++ pieces.filterMap Piece.added?
  pending_eq : (i.receiveAll signals).1.mode.pending? = pieces.findSome? Piece.unfinished?
  dropped_eq :
    (i.receiveAll signals).2.filterMap Response.loop? = pieces.filterMap Piece.dropped?

/-- Pieces can be told one after the other, as long as no loop is left open in between. -/
theorem Parsed.append (front : List Signal) {rest : List Signal} (new : List Piece)
    {pieces : List Piece}
    (h : (i.receiveAll front).1.Parsed (commands ++ new.filterMap Piece.added?) rest pieces)
    (hloops : (i.receiveAll front).2.filterMap Response.loop? = new.filterMap Piece.dropped?)
    (hopen : new.findSome? Piece.unfinished? = none) :
    i.Parsed commands (front ++ rest) (new ++ pieces) := by
  constructor
  case commands_eq =>
    rw [receiveAll_append, List.filterMap_append, ← List.append_assoc]
    exact h.commands_eq
  case pending_eq =>
    rw [receiveAll_append, List.findSome?_append, hopen, Option.none_or]
    exact h.pending_eq
  case dropped_eq =>
    rw [receiveAll_append, List.filterMap_append, List.filterMap_append, hloops, h.dropped_eq]

/-- A signal that hands back no loop and leaves none open. -/
theorem Parsed.cons {s : Signal} {rest : List Signal} (new : List Piece) {pieces : List Piece}
    (h : (i.receive s).1.Parsed (commands ++ new.filterMap Piece.added?) rest pieces)
    (hloop : Response.loop? (i.receive s).2 = none) (hnone : new.filterMap Piece.dropped? = [])
    (hopen : new.findSome? Piece.unfinished? = none) :
    i.Parsed commands (s :: rest) (new ++ pieces) := by
  have hloops : (i.receiveAll [s]).2.filterMap Response.loop? = new.filterMap Piece.dropped? :=
    (List.filterMap_cons_none hloop).trans hnone.symm
  exact Parsed.append [s] new h hloops hopen

/-- What the ingestion comes to is what parsing the signals comes to, if no listener fails. -/
theorem parsed {signals : List Signal} (h : i.Stands commands .idle standard)
    (hok : ∀ a ∈ (i.receiveAll signals).2, a.isOk = true) :
    i.Parsed commands signals (Signal.parse standard signals) := by
  fun_induction Signal.parse standard signals generalizing i commands with
  | case1 =>
    refine ⟨?_, ?_, rfl⟩
    · show i.program.commands = commands ++ []
      rw [h.commands_eq, List.append_nil]
    · show i.mode.pending? = none
      rw [h.mode_eq]
      rfl
  | case2 now a rest ih =>
    have hrest := ih (h.step now a) fun x hx => hok x (List.mem_cons_of_mem _ hx)
    exact Parsed.cons [.step a] hrest (loop?_receive (.inl rfl)) rfl rfl
  | case3 now carried children rest inside =>
    rename_i after ih
    have hinside : ∀ s ∈ inside, s.isInside = true := List.all_eq_true.mp List.all_takeWhile
    have hends {stop later} : after = stop :: later → _ := Signal.loop_or_cancelled
    have hsplit : inside ++ after = rest := List.takeWhile_append_dropWhile
    -- from here on it does not matter how the signals were split
    clear_value inside after
    subst hsplit
    obtain ⟨hloop, hnone⟩ := h.loop now carried children hinside
    -- what opens the loop and leaves it open, then what ends it
    rw [← List.cons_append] at hok ⊢
    generalize Signal.detected now (.loop carried children) :: inside = front at hloop hnone hok ⊢
    match after with
    | [] =>
      rw [List.append_nil, List.tail_nil, Signal.parse]
      refine ⟨?_, ?_, hnone⟩
      · rw [hloop.commands_eq]
        exact (List.append_nil commands).symm
      · rw [hloop.mode_eq]
        rfl
    | stop :: later =>
      rw [receiveAll_append, receiveAll_cons] at hok
      have hstop := hok _ (List.mem_append_right _ List.mem_cons_self)
      have hlater := fun x hx => hok x (List.mem_append_right _ (List.mem_cons_of_mem _ hx))
      refine Parsed.append front [] ?_ hnone rfl
      rw [List.filterMap_nil, List.append_nil]
      rcases hends rfl with rfl | ⟨now', carried', children', rfl⟩
      · obtain ⟨hidle, hanswer⟩ := hloop.cancels
        have hrest := ih hidle hlater
        rw [← List.append_nil commands] at hrest
        refine Parsed.append [.cancelled] [.dropped _ _] hrest ?_ rfl
        exact List.filterMap_cons_some hanswer
      · have hrest := ih (hloop.closes now' carried' children' hstop) hlater
        exact Parsed.cons [.closed _ _] hrest (loop?_receive (.inr rfl)) rfl rfl
  | case4 n rest ih =>
    have hrest := ih (h.counted_idle n) fun x hx => hok x (List.mem_cons_of_mem _ hx)
    rw [← List.append_nil commands] at hrest
    exact Parsed.cons [] hrest rfl rfl rfl
  | case5 rest ih =>
    obtain ⟨hidle, hanswer⟩ := h.cancels
    have hrest := ih hidle fun x hx => hok x (List.mem_cons_of_mem _ hx)
    rw [← List.append_nil commands] at hrest
    exact Parsed.cons [] hrest hanswer rfl rfl

/-! ## Refusals -/

/-- Without listeners no signal is refused. -/
theorem receive_of_quiet (hquiet : i.program.Quiet) (s : Signal) :
    (i.receive s).1.program.Quiet ∧ (i.receive s).2.isOk = true := by
  cases s with
  | detected now c =>
    rw [receive_detected]
    refine ⟨((i.announce now c).edited_absorb c).quiet hquiet, ?_⟩
    have hput (commands : List Command) : (i.program.put commands).2 = .ok () := by
      rw [Program.put_of_quiet hquiet]
    -- only closing a loop and adding a command tell listeners, and these are quiet
    have htold : ((i.announce now c).absorb c).2 = .ok () := by
      unfold absorb
      split
      · exact hput _
      · rfl
      · rfl
      · exact hput _
    rw [htold]
    rfl
  | counted n =>
    refine ⟨?_, rfl⟩
    show (i.setPendingCount n).1.program.Quiet
    rw [i.program_setPendingCount]
    exact hquiet
  | cancelled => exact ⟨hquiet, rfl⟩

/-- Without listeners none of a sequence of signals is refused. -/
theorem receiveAll_isOk (hquiet : i.program.Quiet) (signals : List Signal) :
    ∀ a ∈ (i.receiveAll signals).2, a.isOk = true := by
  induction signals generalizing i with
  | nil => exact nofun
  | cons s rest ih =>
    obtain ⟨hnext, hok⟩ := receive_of_quiet hquiet s
    rw [receiveAll_cons]
    intro a ha
    rcases List.mem_cons.mp ha with rfl | ha
    · exact hok
    · exact ih hnext a ha

/-- Where no loop is open, the signals that follow add to the program what is added by their
pieces.  The loop that is open in the end and the loops that were dropped are those of the
pieces too.  Only a listener of the program can stand in the way.  The pieces hold all that
was detected, once and in order. -/
theorem receiveAll_eq_parse (i : Ingestion) (hidle : i.mode = .idle) (signals : List Signal) :
    let last := (i.receiveAll signals).1
    let answers := (i.receiveAll signals).2
    let pieces := Signal.parse i.defaultCount signals
    (i.program.Quiet → ∀ a ∈ answers, a.isOk = true) ∧
      ((∀ a ∈ answers, a.isOk = true) →
        last.program.commands = i.program.commands ++ pieces.filterMap Piece.added? ∧
          last.mode.pending? = pieces.findSome? Piece.unfinished? ∧
          answers.filterMap Response.loop? = pieces.filterMap Piece.dropped?) ∧
      pieces.flatMap Piece.kinds = signals.filterMap Signal.kind? := by
  intro last answers pieces
  refine ⟨fun hquiet => receiveAll_isOk hquiet signals, fun hok => ?_, Signal.kinds_parse _ _⟩
  have hstands : i.Stands i.program.commands .idle i.defaultCount := ⟨rfl, hidle, rfl⟩
  obtain ⟨hcommands, hpending, hdropped⟩ := parsed hstands hok
  exact ⟨hcommands, hpending, hdropped⟩

/-- A count of zero gives way to the standard count, the count chosen last to none, and no
count goes beyond the range.  A second loop is dropped, and a third one is left open. -/
theorem receiveAll_eq_parse_mixed :
    let i : Ingestion := { program := .ofCommands [.basic .forward], defaultCount := 4 }
    let loop (carried : Option Nat) : Signal := .detected 0 (.loop carried [.basic .ifHole])
    let step (a : Action) : Signal := .detected 0 (.basic a)
    let signals : List Signal :=
      [step .ifHole, loop (some 0), step .forward, step .turnLeft, loop (some 7), .counted 3,
        loop none, .counted 99, step .forward, .counted (-5), .cancelled, .cancelled,
        loop (some 8), step .turnRight]
    let last := (i.receiveAll signals).1
    i.mode = .idle ∧ i.program.Quiet ∧
      last.program.commands = [.basic .forward, .basic .ifHole,
        .loop (some 4) [.basic .forward, .basic .turnLeft]] ∧
      last.mode.pending? = some (.loop (some 8) [.basic .turnRight]) ∧
      (i.receiveAll signals).2.filterMap Response.loop? =
        [.loop (some 1) [.basic .forward]] := by
  intro i loop step signals last
  have hquiet : i.program.Quiet := Program.quiet_ofCommands _
  obtain ⟨hok, hparse, -⟩ := receiveAll_eq_parse i rfl signals
  obtain ⟨hcommands, hpending, hdropped⟩ := hparse (hok hquiet)
  have hpieces : Signal.parse i.defaultCount signals =
      [.step .ifHole, .closed 4 [.forward, .turnLeft], .dropped 1 [.forward],
        .unfinished 8 [.turnRight]] := by
    decide +kernel
  rw [hpieces] at hcommands hpending hdropped
  exact ⟨rfl, hquiet, hcommands, hpending, hdropped⟩

end Ingestion

end MazeRobot
