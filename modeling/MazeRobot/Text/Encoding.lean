import MazeRobot.Text.Basic

/-! # Texts as bytes

Characters are written as bytes, halves of surrogate pairs are not.  `Text.halfRun?` finds
the first halves in a text that stand in the way; there are none exactly in strings
(`halfRun?_eq_none_iff`).

Names of files and values of variables are bytes in the first place.  In the text of a
name, halves of a certain range stand for single bytes (`CodePoint.isByte`).  Halves that
together spell a character come back from there as that character (`Text.settled`);
strings come back as they are (`settled_ofString`). -/

namespace MazeRobot

/-- Whether a half stands for a single byte. -/
def CodePoint.isByte (p : CodePoint) : Bool :=
  p.isHalf && decide (0xDC80 ≤ p.toNat) && decide (p.toNat ≤ 0xDCFF)

/-- The half that stands for a byte. -/
def CodePoint.ofByte (b : UInt8) : CodePoint :=
  .half ⟨0x400 + b.toNat, by have := b.toNat_lt; omega⟩

/-- The bytes of a code point in a name, where every half stands for one. -/
def CodePoint.nameBytes : CodePoint → List UInt8
  | .char c => String.utf8EncodeChar c
  | .half offset => [UInt8.ofNat offset]

/-- Neighbouring halves of surrogate pairs inside a text. -/
structure HalfRun where
  /-- How many code points stand before them. -/
  start : Nat
  length : Nat
  /-- The first of them. -/
  first : CodePoint
  deriving DecidableEq, Repr, Inhabited

namespace Text

/-- The first half among code points that cannot be written, with all halves that follow
it directly.  `start` code points stand before, and those that satisfy `kept` can be
written. -/
def halfRunFrom? (kept : CodePoint → Bool) (start : Nat) : List CodePoint → Option HalfRun
  | [] => none
  | p :: rest =>
    if p.isHalf && !kept p then
      some ⟨start, (rest.takeWhile CodePoint.isHalf).length + 1, p⟩
    else halfRunFrom? kept (start + 1) rest

/-- The first halves that cannot be written as bytes. -/
def halfRun? (t : Text) : Option HalfRun := halfRunFrom? (fun _ => false) 0 t.points

/-- The first halves that cannot be part of a name or a value that is kept as bytes. -/
def nameRun? (t : Text) : Option HalfRun := halfRunFrom? CodePoint.isByte 0 t.points

/-- The bytes of a text, or what stands in the way. -/
def encode (t : Text) : Except HalfRun ByteArray :=
  match t.halfRun? with
  | some run => .error run
  | none => .ok t.lossy.toUTF8

/-- The bytes of a name. -/
def nameBytes (t : Text) : List UInt8 := t.points.flatMap CodePoint.nameBytes

/-- The code points that bytes spell.  A byte that begins no character is a half. -/
def spelled : List UInt8 → List CodePoint
  | [] => []
  | b :: rest =>
    -- no character takes more than four bytes
    match (b :: rest.take 3).toByteArray.utf8DecodeChar? 0 with
    | some c => .char c :: spelled (rest.drop (c.utf8Size - 1))
    | none => .ofByte b :: spelled rest
termination_by bytes => bytes.length
decreasing_by all_goals simp only [List.length_drop, List.length_cons]; omega

/-- A name as it comes back from where it is kept as bytes. -/
def settled (t : Text) : Text := ⟨spelled t.nameBytes⟩

/-- There is no run of halves if there is no half at all. -/
theorem halfRunFrom?_eq_none_iff {start : Nat} {ps : List CodePoint} :
    halfRunFrom? (fun _ => false) start ps = none ↔ ∀ p ∈ ps, p.isHalf = false := by
  induction ps generalizing start with
  | nil => simp [halfRunFrom?]
  | cons p rest ih => by_cases h : p.isHalf = true <;> simp [halfRunFrom?, h, ih]

/-- A text can be written as bytes exactly if it is a string. -/
theorem halfRun?_eq_none_iff {t : Text} : t.halfRun? = none ↔ t.string?.isSome := by
  rw [halfRun?, halfRunFrom?_eq_none_iff, Option.isSome_iff_exists]
  constructor
  · intro whole
    refine ⟨t.lossy, string?_eq_some_iff.2 ?_⟩
    have same : ∀ p ∈ t.points, CodePoint.char p.shown = p := fun p hp => by
      cases p with
      | char c => rfl
      | half offset => exact absurd (whole _ hp) (by simp [CodePoint.isHalf])
    cases t with
    | mk points => simpa [ofString, ofChars, lossy, Function.comp_def] using
        ((List.map_congr_left same).trans (List.map_id points)).symm
  · rintro ⟨s, hs⟩ p hp
    rw [string?_eq_some_iff] at hs
    subst hs
    obtain ⟨c, -, rfl⟩ := List.mem_map.1 hp
    rfl

/-- The bytes of a character spell it, whatever follows. -/
theorem spelled_utf8EncodeChar_append (c : Char) (bytes : List UInt8) :
    spelled (String.utf8EncodeChar c ++ bytes) = .char c :: spelled bytes := by
  have size := String.length_utf8EncodeChar c
  have least := c.utf8Size_pos
  have most := c.utf8Size_le_four
  have read (more : List UInt8) :
      (String.utf8EncodeChar c ++ more).toByteArray.utf8DecodeChar? 0 = some c := by
    rw [List.toByteArray_append]
    exact ByteArray.utf8DecodeChar?_utf8EncodeChar_append
  cases h : String.utf8EncodeChar c with
  | nil => simp [h] at size; omega
  | cons b tail =>
    rw [h] at size read
    simp only [List.length_cons] at size
    have short : (tail ++ bytes).take 3 = tail ++ bytes.take (3 - tail.length) := by
      rw [List.take_append, List.take_of_length_le (by omega)]
    have first := read (bytes.take (3 - tail.length))
    rw [List.cons_append] at first
    rw [List.cons_append, spelled, short, first]
    simp [← size]

/-- A string comes back as it is. -/
@[simp] theorem settled_ofString (s : String) : (ofString s).settled = ofString s := by
  have all (cs : List Char) :
      spelled ((ofChars cs).points.flatMap CodePoint.nameBytes) = (ofChars cs).points := by
    induction cs with
    | nil => simp [ofChars, spelled]
    | cons c cs ih =>
      simp only [ofChars, List.map_cons, List.flatMap_cons, CodePoint.nameBytes] at ih ⊢
      rw [spelled_utf8EncodeChar_append, ih]
  simp [settled, nameBytes, ofString, all]

end Text

end MazeRobot
