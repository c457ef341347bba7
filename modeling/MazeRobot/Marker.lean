import MazeRobot.Ingestion

/-! # Marker cards

A card carries the word of a command kind, possibly with space around it.  A card held
in view is decoded again and again, so a `Debouncer` lets the same payload through only
once per cooldown; the time is that of the latest payload it let through. -/

namespace MazeRobot

namespace Marker

/-- The words printed on cards. -/
def words : List String := Kind.all.map Kind.word

/-- A payload without the space around it. -/
def stripped (payload : Text) : Text :=
  ⟨Text.trim (fun p => p.char?.any Text.isSpacing) payload.points⟩

/-- The command that a payload names. -/
def parse? (payload : Text) : Option Command :=
  ((stripped payload).string?.bind Kind.ofWord?).map Command.ofKind

/-- As `parse?`, but an unknown payload is a failure. -/
def parse (payload : Text) : Except Failure Command :=
  match parse? payload with
  | some c => .ok c
  | none => .error (.unknownMarker payload words)

end Marker

/-- Seconds between two uses of the same card unless told otherwise. -/
def standardCooldown : Float := 1.5

/-- When each payload was last let through. -/
structure Debouncer where
  cooldown : Float := standardCooldown
  lastSeen : List (Text × Float) := []
  deriving Inhabited

namespace Debouncer

/-- When a payload was last let through. -/
def last? (d : Debouncer) (payload : Text) : Option Float := d.lastSeen.lookup payload

/-- Whether a payload is let through at a point in time; if so, this is noted. -/
def accept (d : Debouncer) (payload : Text) (now : Float) : Debouncer × Bool :=
  let recent :=
    match d.last? payload with
    | none => false
    | some last => now - last < d.cooldown
  if recent then (d, false)
  else
    let others := d.lastSeen.filter fun entry => entry.1 != payload
    ({ d with lastSeen := (payload, now) :: others }, true)

/-- Forgets all payloads. -/
def reset (d : Debouncer) : Debouncer := { d with lastSeen := [] }

/-- The command to be forwarded for a decoded payload, if any. -/
def onPayload (d : Debouncer) (payload : Text) (now : Float) : Debouncer × Option Command :=
  match Marker.parse? payload with
  | none => (d, none)
  | some c =>
    let (d, accepted) := d.accept (Marker.stripped payload) now
    (d, if accepted then some c else none)

end Debouncer

/-- Cards shown to an entry point: a debouncer in front of an `Ingestion`. -/
structure MarkerFeed where
  ingestion : Ingestion
  debouncer : Debouncer := {}
  deriving Inhabited

namespace MarkerFeed

/-- One decoded payload.  The answer is the command that was forwarded, whether or not it
was accepted. -/
def onPayload (f : MarkerFeed) (running : Bool) (now : Float) (payload : Text) :
    MarkerFeed × Except Failure (Option Command) :=
  match f.debouncer.onPayload payload now with
  | (debouncer, none) => ({ f with debouncer }, .ok none)
  | (debouncer, some c) =>
    let (ingestion, told) := f.ingestion.submit running now c
    (⟨ingestion, debouncer⟩, told.map fun _ => some c)

end MarkerFeed

end MazeRobot
