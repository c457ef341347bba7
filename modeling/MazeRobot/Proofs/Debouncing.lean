import Mathlib.Data.List.Induction
import MazeRobot.Proofs.Cards
import MazeRobot.Proofs.Submissions

/-!
# Which cards are forwarded

A stream of `CardEvent`s goes through a feed: cards are seen at any times, and now and then the
debouncer forgets what it knows.  `MarkerFeed.decisions` notes for each event which command was
forwarded on it.  Three things are said about these decisions, for every stream:

* those on one text are the decisions of a feed that sees no other text (`filter_decisions`);
* a card is forwarded unless its text was forwarded within the cooldown, since all was forgotten
  last (`forwards_eq_some_iff`, `last?_faceAll`);
* cards that were not forwarded can be struck out, and neither another decision nor the feed
  itself comes out differently (`decisions_of_sublist`).

All of them come from what a debouncer knows of a text after one event (`last?_face`), and from
the fact that a card that is not forwarded changes nothing (`face_of_not_forwarded`).
-/

namespace MazeRobot

/-- What happens in front of an entry point. -/
inductive CardEvent where
  | seen (s : Showing)
  /-- The debouncer forgets all cards. -/
  | forgotten

namespace CardEvent

/-- A card is seen that carries the text; that all cards are forgotten concerns every text. -/
def concerns (x : Text) : CardEvent → Bool
  | seen s => s.text == x
  | forgotten => true

/-- Whether all cards are forgotten. -/
def forgets : CardEvent → Bool
  | seen _ => false
  | forgotten => true

end CardEvent

/-- An event and the command that was forwarded on it, if any. -/
structure Decision where
  event : CardEvent
  forwarded : Option Command

namespace Decision

/-- A card was forwarded, or all cards were forgotten. -/
def matters (d : Decision) : Bool := d.event.forgets || d.forwarded.isSome

/-- When a text was forwarded, if this is what was decided. -/
def forwardedAt? (x : Text) : Decision → Option Float
  | ⟨.seen s, some _⟩ => if s.text = x then some s.now else none
  | _ => none

/-- What reaches the entry point. -/
def submission? : Decision → Option Submission
  | ⟨.seen s, some c⟩ => some ⟨s.running, s.now, c⟩
  | _ => none

/-- When a text was forwarded last since all cards were forgotten. -/
def lastForwarded? (x : Text) (ds : List Decision) : Option Float :=
  (ds.reverse.takeWhile fun d => !d.event.forgets).findSome? (forwardedAt? x)

/-- With one more decision: a reset forgets everything, and otherwise the decision itself comes
before those that were made earlier. -/
theorem lastForwarded?_concat (x : Text) (ds : List Decision) (d : Decision) :
    lastForwarded? x (ds ++ [d]) =
      if d.event.forgets then none
      else (forwardedAt? x d).or (lastForwarded? x ds) := by
  unfold lastForwarded?
  rw [List.reverse_append, List.reverse_singleton, List.singleton_append, List.takeWhile_cons]
  cases hforgets : d.event.forgets with
  | true => rfl
  | false =>
    show ((d :: _).findSome? _) = _
    rw [List.findSome?_cons]
    cases forwardedAt? x d <;> rfl

end Decision

/-- A payload is a marker if it is, without blanks around it, the name of a kind. -/
theorem Marker.parse?_eq_some_iff {payload : Text} {c : Command} :
    parse? payload = some c ↔ ∃ k : Kind, stripped payload = k.word ∧ c = .ofKind k := by
  unfold parse?
  simp only [Option.map_eq_some_iff, Option.bind_eq_some_iff, Text.string?_eq_some_iff,
    Kind.ofWord?_eq_some_iff]
  constructor
  · rintro ⟨k, ⟨s, hs, rfl⟩, rfl⟩
    exact ⟨k, hs, rfl⟩
  · rintro ⟨k, hk, rfl⟩
    exact ⟨k, ⟨_, hk, rfl⟩, rfl⟩

namespace MarkerFeed

/-- The command that is forwarded on an event. -/
def forwards (f : MarkerFeed) : CardEvent → Option Command
  | .seen s => (f.debouncer.onPayload s.payload s.now).2
  | .forgotten => none

/-- The feed after an event. -/
def face (f : MarkerFeed) : CardEvent → MarkerFeed
  | .seen s => f.see s
  | .forgotten => { f with debouncer := f.debouncer.reset }

/-- The feed after a stream of events. -/
def faceAll (f : MarkerFeed) (es : List CardEvent) : MarkerFeed := es.foldl face f

/-- The decisions on a stream of events. -/
def decisions (f : MarkerFeed) : List CardEvent → List Decision
  | [] => []
  | e :: es => ⟨e, f.forwards e⟩ :: (f.face e).decisions es

variable {f f' : MarkerFeed} {s : Showing} {c : Command} {e : CardEvent} {x : Text}

/-! ## One event -/

/-- A card is forwarded if it is known and not held back. -/
theorem forwards_eq_some_iff :
    f.forwards (.seen s) = some c ↔
      Marker.parse? s.payload = some c ∧ ¬ f.debouncer.Holds s.text s.now := by
  show (f.debouncer.onPayload s.payload s.now).2 = some c ↔ _
  unfold Debouncer.onPayload
  cases Marker.parse? s.payload with
  | none => simp
  | some c' =>
    dsimp only
    -- the card is a command in any case; what is left is whether it is held back
    by_cases hheld : f.debouncer.Holds s.text s.now
    · have haccept : f.debouncer.accept (Marker.stripped s.payload) s.now = (f.debouncer, false) :=
        Debouncer.accept_of_holds hheld
      simp [haccept, hheld]
    · have haccept : (f.debouncer.accept (Marker.stripped s.payload) s.now).2 = true := by
        have := Debouncer.accept_of_not_holds hheld
        exact congrArg Prod.snd this
      simp [haccept, hheld]

/-- A card that is not forwarded leaves no trace. -/
theorem face_of_not_forwarded (h : f.forwards (.seen s) = none) : f.face (.seen s) = f := by
  cases hparse : Marker.parse? s.payload with
  | none => exact see_of_unknown hparse
  | some c =>
    by_cases hheld : f.debouncer.Holds s.text s.now
    · exact see_of_holds hheld
    · rw [forwards_eq_some_iff.mpr ⟨hparse, hheld⟩] at h
      cases h

/-- An event that is forwarded is submitted and noted. -/
theorem face_of_forwarded (h : f.forwards (.seen s) = some c) :
    f.face (.seen s) =
      ⟨(f.ingestion.submit s.running s.now c).1, (f.debouncer.accept s.text s.now).1⟩ := by
  obtain ⟨hparse, hfree⟩ := forwards_eq_some_iff.mp h
  exact see_of_free hparse hfree

/-- The answer to a card tells whether it was forwarded, also where the entry point fails. -/
theorem onPayload_eq_none_iff :
    (f.onPayload s.running s.now s.payload).2 = .ok none ↔ f.forwards (.seen s) = none := by
  show _ ↔ (f.debouncer.onPayload s.payload s.now).2 = none
  unfold onPayload
  generalize f.debouncer.onPayload s.payload s.now = answer
  obtain ⟨debouncer, forwarded⟩ := answer
  cases forwarded with
  | none => simp
  | some c =>
    dsimp only
    cases (f.ingestion.submit s.running s.now c).2 <;> simp [Except.map]

/-- What the entry point gets to see of an event. -/
theorem ingestion_face (f : MarkerFeed) (e : CardEvent) :
    (f.face e).ingestion =
      f.ingestion.takeAll (Decision.submission? ⟨e, f.forwards e⟩).toList := by
  cases e with
  | forgotten => rfl
  | seen s =>
    cases h : f.forwards (.seen s) with
    | none => rw [face_of_not_forwarded h]; rfl
    | some c => rw [face_of_forwarded h]; rfl

/-- The cooldown never changes by an event. -/
theorem cooldown_face (f : MarkerFeed) (e : CardEvent) :
    (f.face e).debouncer.cooldown = f.debouncer.cooldown := by
  cases e with
  | forgotten => rfl
  | seen s => exact f.cooldown_see s

/-- What is known of a text after an event. -/
theorem last?_face (f : MarkerFeed) (e : CardEvent) (x : Text) :
    (f.face e).debouncer.last? x =
      if e.forgets then none
      else (Decision.forwardedAt? x ⟨e, f.forwards e⟩).or (f.debouncer.last? x) := by
  cases e with
  | forgotten => rfl
  | seen s =>
    show (f.face (.seen s)).debouncer.last? x = (Decision.forwardedAt? x _).or _
    cases h : f.forwards (.seen s) with
    | none => rw [face_of_not_forwarded h]; rfl
    | some c =>
      -- the debouncer notes the time under the text of the card, and nothing under any other
      rw [face_of_forwarded h]
      by_cases hx : s.text = x
      · subst hx
        obtain ⟨-, hfree⟩ := forwards_eq_some_iff.mp h
        rw [Debouncer.last?_accept_self hfree]
        simp [Decision.forwardedAt?]
      · rw [Debouncer.last?_accept_of_ne _ _ (Ne.symm hx)]
        simp [Decision.forwardedAt?, hx]

/-! ## The decisions on one text -/

/-- Two feeds know the same of a text. -/
structure KnowSame (x : Text) (f f' : MarkerFeed) : Prop where
  cooldown : f'.debouncer.cooldown = f.debouncer.cooldown
  last : f'.debouncer.last? x = f.debouncer.last? x

/-- Feeds that know the same of a marker forward the same of it. -/
theorem KnowSame.forwards_eq (h : KnowSame x f f') (he : e.concerns x = true) :
    f'.forwards e = f.forwards e := by
  cases e with
  | forgotten => rfl
  | seen s =>
    obtain rfl : s.text = x := eq_of_beq he
    have hholds : f'.debouncer.Holds s.text s.now ↔ f.debouncer.Holds s.text s.now :=
      Debouncer.holds_congr h.cooldown h.last
    apply Option.ext
    intro c
    rw [forwards_eq_some_iff, forwards_eq_some_iff, hholds]

/-- An event on the text teaches both the same. -/
theorem KnowSame.face (h : KnowSame x f f') (he : e.concerns x = true) :
    KnowSame x (f.face e) (f'.face e) := by
  refine ⟨by rw [cooldown_face, cooldown_face, h.cooldown], ?_⟩
  rw [last?_face, last?_face, h.forwards_eq he, h.last]

/-- An event on another text teaches nothing about this one. -/
theorem KnowSame.face_of_not_concerns (h : KnowSame x f f') (he : e.concerns x = false) :
    KnowSame x (f.face e) f' := by
  refine ⟨by rw [cooldown_face, h.cooldown], ?_⟩
  rw [last?_face, h.last]
  cases e with
  | forgotten => cases he
  | seen s =>
    have hx : ¬ s.text = x := ne_of_beq_false he
    cases f.forwards (.seen s) <;> simp [CardEvent.forgets, Decision.forwardedAt?, hx]

/-- The decisions about a marker are those that are made of its own events. -/
theorem filter_decisions (h : KnowSame x f f') (es : List CardEvent) :
    (f.decisions es).filter (fun d => d.event.concerns x) =
      f'.decisions (es.filter fun e => e.concerns x) := by
  induction es generalizing f f' with
  | nil => rfl
  | cons e es ih =>
    rw [decisions, List.filter_cons, List.filter_cons]
    cases he : e.concerns x with
    | true =>
      rw [if_pos rfl, if_pos rfl, decisions, ih (h.face he), h.forwards_eq he]
    | false => exact ih (h.face_of_not_concerns he)

/-! ## The rule -/

/-- Decisions about later events are made in the state that the earlier ones lead to. -/
theorem decisions_append (f : MarkerFeed) (es es' : List CardEvent) :
    f.decisions (es ++ es') = f.decisions es ++ (f.faceAll es).decisions es' := by
  induction es generalizing f with
  | nil => rfl
  | cons e es ih => exact congrArg (_ :: ·) (ih (f.face e))

/-- The last event comes on top of those before it. -/
theorem faceAll_concat (f : MarkerFeed) (es : List CardEvent) (e : CardEvent) :
    f.faceAll (es ++ [e]) = (f.faceAll es).face e := by
  unfold faceAll
  rw [List.foldl_append]
  rfl

/-- What a feed knows of a text after a stream of events, having known nothing. -/
theorem last?_faceAll (hnone : f.debouncer.last? x = none) (es : List CardEvent) :
    (f.faceAll es).debouncer.last? x = Decision.lastForwarded? x (f.decisions es) := by
  induction es using List.reverseRecOn with
  | nil => exact hnone
  | append_singleton es e ih =>
    -- both sides look at the last event first
    rw [faceAll_concat, last?_face, ih, decisions_append]
    show _ = Decision.lastForwarded? x (_ ++ [⟨e, (f.faceAll es).forwards e⟩])
    rw [Decision.lastForwarded?_concat]

/-- The cooldown never changes. -/
theorem cooldown_faceAll (f : MarkerFeed) (es : List CardEvent) :
    (f.faceAll es).debouncer.cooldown = f.debouncer.cooldown := by
  induction es generalizing f with
  | nil => rfl
  | cons e es ih => exact (ih (f.face e)).trans (f.cooldown_face e)

/-! ## What is not forwarded -/

/-- The ingestion only hears of what is forwarded. -/
theorem ingestion_faceAll (f : MarkerFeed) (es : List CardEvent) :
    (f.faceAll es).ingestion =
      f.ingestion.takeAll ((f.decisions es).filterMap Decision.submission?) := by
  induction es generalizing f with
  | nil => rfl
  | cons e es ih =>
    show ((f.face e).faceAll es).ingestion = _
    rw [ih, ingestion_face, decisions, List.filterMap_cons]
    cases Decision.submission? ⟨e, f.forwards e⟩ <;> rfl

/-- Cards that were not forwarded can be struck out of a stream. -/
theorem decisions_of_sublist {rest : List Decision} {es : List CardEvent}
    (hrest : rest.Sublist (f.decisions es))
    (hmatters : rest.filter Decision.matters = (f.decisions es).filter Decision.matters) :
    f.decisions (rest.map Decision.event) = rest ∧
      f.faceAll (rest.map Decision.event) = f.faceAll es := by
  induction es generalizing f rest with
  | nil =>
    obtain rfl := List.sublist_nil.mp hrest
    exact ⟨rfl, rfl⟩
  | cons e es ih =>
    rw [decisions] at hrest hmatters
    rw [List.filter_cons] at hmatters
    rcases List.sublist_cons_iff.mp hrest with hrest | ⟨later, rfl, hlater⟩
    · -- this decision was struck out, so nothing depended on it
      have hstruck : ¬ Decision.matters ⟨e, f.forwards e⟩ = true := by
        intro h
        rw [if_pos h] at hmatters
        have hlength := (hrest.filter Decision.matters).length_le
        rw [hmatters, List.length_cons] at hlength
        omega
      rw [if_neg hstruck] at hmatters
      have hface : f.face e = f := by
        cases e with
        | forgotten => exact absurd rfl hstruck
        | seen s =>
          apply face_of_not_forwarded
          simpa [Decision.matters, CardEvent.forgets] using hstruck
      rw [hface] at hrest hmatters
      show _ ∧ _ = (f.face e).faceAll es
      rw [hface]
      exact ih hrest hmatters
    · have hmatters' : later.filter Decision.matters =
          ((f.face e).decisions es).filter Decision.matters := by
        rw [List.filter_cons] at hmatters
        split at hmatters
        · exact (List.cons.inj hmatters).2
        · exact hmatters
      obtain ⟨hdecisions, hface⟩ := ih hlater hmatters'
      exact ⟨congrArg (_ :: ·) hdecisions, hface⟩

/-! ## Streams of events -/

/-- What becomes of a card depends on its own text alone.  For any text, the decisions on it are
those of a feed that sees no other text.  A card is forwarded exactly if it carries the word of a
kind and that word was not forwarded within the cooldown, since all cards were forgotten last;
so the answer to it tells, too.  The entry point gets to see what is forwarded and nothing else.
And whichever cards are struck out that were not forwarded, all other decisions and the feed
come out the same. -/
theorem decisions_independent (ingestion : Ingestion) (cooldown : Float) (es : List CardEvent) :
    let f : MarkerFeed := ⟨ingestion, { cooldown }⟩
    let last := f.faceAll es
    let ds := f.decisions es
    (∀ x, ds.filter (fun d => d.event.concerns x) =
      f.decisions (es.filter fun e => e.concerns x)) ∧
    (∀ s c, last.forwards (.seen s) = some c ↔
      (∃ k : Kind, s.text = k.word ∧ c = .ofKind k) ∧
        ∀ t, Decision.lastForwarded? s.text ds = some t → ¬ s.now - t < cooldown) ∧
    (∀ s, (last.onPayload s.running s.now s.payload).2 = .ok none ↔
      last.forwards (.seen s) = none) ∧
    last.ingestion = ingestion.takeAll (ds.filterMap Decision.submission?) ∧
    ∀ rest, rest.Sublist ds → rest.filter Decision.matters = ds.filter Decision.matters →
      f.decisions (rest.map Decision.event) = rest ∧
        f.faceAll (rest.map Decision.event) = last := by
  intro f last ds
  refine ⟨fun x => filter_decisions ⟨rfl, rfl⟩ es, fun s c => ?_, fun s => onPayload_eq_none_iff,
    f.ingestion_faceAll es, fun rest hrest hmatters => decisions_of_sublist hrest hmatters⟩
  have hlast : last.debouncer.last? s.text = Decision.lastForwarded? s.text ds :=
    last?_faceAll rfl es
  have hcooldown : last.debouncer.cooldown = cooldown := f.cooldown_faceAll es
  rw [forwards_eq_some_iff, Marker.parse?_eq_some_iff, Debouncer.Holds, hlast, hcooldown]
  simp only [not_exists, not_and]
  rfl

/-- A card held in view, and an unknown one between: only the first showing is forwarded. -/
theorem decisions_independent_held :
    let f : MarkerFeed := ⟨{ program := .ofCommands [] }, { cooldown := 1.5 }⟩
    let first : CardEvent := .seen ⟨false, 0, " forward"⟩
    let unknown : CardEvent := .seen ⟨false, 1, "back"⟩
    let again : CardEvent := .seen ⟨false, 1, "forward "⟩
    let es := [first, unknown, again]
    let ds : List Decision := [⟨first, some (.basic .forward)⟩, ⟨unknown, none⟩, ⟨again, none⟩]
    f.decisions es = ds ∧
      (ds.take 1).Sublist ds ∧
      (ds.take 1).filter Decision.matters = ds.filter Decision.matters ∧
      (f.faceAll es).ingestion.program.commands = [.basic .forward] ∧
      f.decisions [first] = ds.take 1 ∧ f.faceAll [first] = f.faceAll es := by
  intro f first unknown again es ds
  -- the unknown card is no marker of a command and does not shorten the hold
  have hds : f.decisions es = ds := by
    have hfirst : f.forwards first = some (.basic .forward) := by decide +kernel
    have hunknown : (f.face first).forwards unknown = none := by decide +kernel
    have hagain : ((f.face first).face unknown).forwards again = none := by decide +kernel
    show [_, _, _] = _
    rw [hfirst, hunknown, hagain]
  obtain ⟨-, -, -, hingestion, hstruck⟩ :=
    decisions_independent { program := .ofCommands [] } 1.5 es
  change (f.faceAll es).ingestion = Ingestion.takeAll _ ((f.decisions es).filterMap _) at hingestion
  change ∀ rest : List Decision, rest.Sublist (f.decisions es) →
    rest.filter Decision.matters = (f.decisions es).filter Decision.matters → _ at hstruck
  rw [hds] at hingestion hstruck
  have hsublist : (ds.take 1).Sublist ds := List.take_sublist 1 ds
  obtain ⟨hdecisions, hface⟩ := hstruck _ hsublist rfl
  refine ⟨hds, hsublist, rfl, ?_, hdecisions, hface⟩
  rw [hingestion]
  rfl

end MarkerFeed

end MazeRobot
