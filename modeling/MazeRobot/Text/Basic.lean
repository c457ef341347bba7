/-! # Text

A `Text` is a sequence of code points.  A code point is a character or half of a
surrogate pair; the halves have no place in a string, but they can stand alone in a text
that was written with escapes.  Every string is a text (`Text.ofString`), and the texts
without halves are exactly the strings (`Text.string?`):

* `string?_ofString`     `(ofString s).string? = some s`
* `string?_eq_some_iff`  `t.string? = some s ↔ t = ofString s`

Where only a string will do, `Text.lossy` shows a half as the replacement character. -/

namespace MazeRobot

/-- A character, or half of a surrogate pair. -/
inductive CodePoint where
  | char (c : Char)
  /-- The half with the number `0xD800 + offset`. -/
  | half (offset : Fin 0x800)
  deriving DecidableEq, Repr, Inhabited

namespace CodePoint

/-- The number of a code point. -/
def toNat : CodePoint → Nat
  | char c => c.toNat
  | half offset => 0xD800 + offset

/-- The half with a number from `0xD800` on. -/
def ofHalf (n : Nat) : CodePoint := half (Fin.ofNat 0x800 (n - 0xD800))

/-- The character, unless it is a half. -/
def char? : CodePoint → Option Char
  | char c => some c
  | half _ => none

/-- Whether it is half of a surrogate pair. -/
def isHalf : CodePoint → Bool
  | char _ => false
  | half _ => true

/-- The character, or the one that takes the place of a half. -/
def shown : CodePoint → Char
  | char c => c
  | half _ => '\ufffd'

end CodePoint

/-- A sequence of code points. -/
structure Text where
  points : List CodePoint
  deriving DecidableEq, Repr, Inhabited

namespace Text

/-- The text of some characters. -/
def ofChars (cs : List Char) : Text := ⟨cs.map .char⟩

/-- The text of a string. -/
def ofString (s : String) : Text := ofChars s.toList

instance : Coe String Text := ⟨ofString⟩

instance : Append Text := ⟨fun s t => ⟨s.points ++ t.points⟩⟩

/-- The numbers of the code points. -/
def codes (t : Text) : List Nat := t.points.map CodePoint.toNat

/-- Texts are ordered by the numbers of their code points. -/
instance : LE Text := ⟨fun s t => List.le s.codes t.codes⟩

instance (s t : Text) : Decidable (s ≤ t) := List.decidableLE s.codes t.codes

/-- Whether there is nothing in a text. -/
def isEmpty (t : Text) : Bool := t.points.isEmpty

/-- Whether a character occurs in a text. -/
def holds (t : Text) (c : Char) : Bool := t.points.contains (.char c)

/-- The string, if there is no half. -/
def string? (t : Text) : Option String := (t.points.mapM CodePoint.char?).map String.ofList

/-- The string with the replacement character in place of every half. -/
def lossy (t : Text) : String := String.ofList (t.points.map CodePoint.shown)

instance : ToString Text := ⟨lossy⟩

/-- Code points are all characters if they are those of some characters. -/
theorem mapM_char? (ps : List CodePoint) (cs : List Char) :
    ps.mapM CodePoint.char? = some cs ↔ ps = cs.map .char := by
  induction ps generalizing cs with
  | nil => cases cs <;> simp
  | cons p ps ih =>
    cases p with
    | char c =>
      cases cs with
      | nil => simp [List.mapM_cons, CodePoint.char?, Option.bind_eq_some_iff]
      | cons d ds =>
        simp [List.mapM_cons, CodePoint.char?, Option.bind_eq_some_iff, ← ih, and_left_comm]
    | half offset => cases cs <;> simp [List.mapM_cons, CodePoint.char?]

/-- A text is a string if it is that of the string. -/
theorem string?_eq_some_iff {t : Text} {s : String} : t.string? = some s ↔ t = ofString s := by
  cases t with
  | mk points =>
    simp only [string?, Option.map_eq_some_iff, mapM_char?, ofString, ofChars, Text.mk.injEq]
    constructor
    · rintro ⟨cs, rfl, rfl⟩
      simp
    · rintro rfl
      exact ⟨s.toList, rfl, by simp⟩

@[simp] theorem string?_ofString (s : String) : (ofString s).string? = some s :=
  string?_eq_some_iff.2 rfl

/-- Different strings are different texts. -/
theorem ofString_inj {s t : String} : ofString s = ofString t ↔ s = t := by
  constructor
  · intro h
    have same := string?_ofString s
    rw [h, string?_ofString] at same
    exact (Option.some.inj same).symm
  · rintro rfl
    rfl

/-- Nothing is lost in a string. -/
@[simp] theorem lossy_ofString (s : String) : (ofString s).lossy = s := by
  simp [lossy, ofString, ofChars, CodePoint.shown, Function.comp_def]

end Text

end MazeRobot
