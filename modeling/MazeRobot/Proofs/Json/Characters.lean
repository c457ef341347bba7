import MazeRobot.Proofs.Json.RoundTrip
import MazeRobot.Text.Encoding

/-!
# The characters of a text

The text of a plain value holds no halves of surrogate pairs and no carriage returns, as
those inside strings are escaped (`lines_write`).  It can be written as bytes, and
bringing its line ends to a single form leaves it as it is.  The text of an object stands
between braces (`write_obj_braces`).
-/

namespace MazeRobot

namespace Json

variable {layout : Layout} {room : Nat}

/-- Characters other than the carriage return. -/
def Lines (ps : List CodePoint) : Prop := ∀ p ∈ ps, ∃ c, c ≠ '\r' ∧ p = .char c

/-- Texts in sequence are free of carriage returns and halves if each of them is. -/
theorem lines_append {ps qs : List CodePoint} : Lines (ps ++ qs) ↔ Lines ps ∧ Lines qs :=
  List.forall_mem_append

/-- Whole characters need only be no carriage returns. -/
theorem lines_map_char {cs : List Char} : Lines (cs.map .char) ↔ ∀ c ∈ cs, c ≠ '\r' := by
  constructor
  · intro h c hc
    obtain ⟨d, hd, hcd⟩ := h _ (List.mem_map_of_mem hc)
    cases hcd
    exact hd
  · intro h p hp
    obtain ⟨c, hc, rfl⟩ := List.mem_map.1 hp
    exact ⟨c, h c hc, rfl⟩

/-- The computed check says what it should. -/
theorem ne_return_of_all {cs : List Char} (h : cs.all (· != '\r') = true) :
    ∀ c ∈ cs, c ≠ '\r' :=
  fun c hc => bne_iff_ne.1 (List.all_eq_true.1 h c hc)

/-- Whether a given string holds carriage returns can be computed. -/
theorem lines_ofString (s : String) (h : s.toList.all (· != '\r') = true) :
    Lines (Text.ofString s).points := lines_map_char.2 (ne_return_of_all h)

/-- A text without halves is that of a string. -/
theorem exists_string_of_lines {t : Text} (h : Lines t.points) :
    ∃ s : String, t = .ofString s ∧ ∀ c ∈ s.toList, c ≠ '\r' := by
  have hwhole : t.halfRun? = none := by
    rw [Text.halfRun?, Text.halfRunFrom?_eq_none_iff]
    intro p hp
    obtain ⟨c, -, rfl⟩ := h p hp
    rfl
  obtain ⟨s, hs⟩ := Option.isSome_iff_exists.1 (Text.halfRun?_eq_none_iff.1 hwhole)
  rw [Text.string?_eq_some_iff] at hs
  subst hs
  exact ⟨s, rfl, lines_map_char.1 h⟩

/-! ## Strings -/

/-- Digits are no carriage returns. -/
theorem digitChar_ne_return {d : Nat} (hd : d < 16) : d.digitChar ≠ '\r' := by
  revert d
  decide

/-- Escapes are spelled without carriage returns. -/
theorem ne_return_of_mem_unitEscape {n : Nat} (hn : n < 0x10000) :
    ∀ c ∈ unitEscape n, c ≠ '\r' := by
  rw [unitEscape, toList_hex_four hn]
  refine List.forall_mem_cons.2 ⟨by decide, List.forall_mem_cons.2 ⟨by decide, ?_⟩⟩
  simp only [List.forall_mem_cons]
  refine ⟨digitChar_ne_return ?_, digitChar_ne_return ?_, digitChar_ne_return ?_,
    digitChar_ne_return ?_, fun c hc => absurd hc List.not_mem_nil⟩ <;> omega

/-- However a character is written, it is not by a carriage return: that one is escaped. -/
theorem ne_return_of_mem_writeChar (asciiOnly : Bool) (c : Char) :
    ∀ d ∈ writeChar asciiOnly c, d ≠ '\r' := by
  have hmax := Reading.toNat_lt c
  unfold writeChar
  split
  case h_8 =>
    dsimp only
    split
    · next h => exact ne_return_of_mem_unitEscape (by omega)
    · next hplain =>
      split
      · refine List.forall_mem_singleton.2 ?_
        rintro rfl
        exact hplain (by decide)
      · split
        · next h => exact ne_return_of_mem_unitEscape h
        · exact List.forall_mem_append.2
            ⟨ne_return_of_mem_unitEscape (by omega), ne_return_of_mem_unitEscape (by omega)⟩
  -- a backslash and a letter
  all_goals exact ne_return_of_all rfl

/-- A string is written without carriage returns, whatever it holds. -/
theorem lines_writeText (asciiOnly : Bool) (s : String) :
    Lines (writeText asciiOnly s).points := by
  have hchars : Lines ((Text.ofString s).points.flatMap (writePoint asciiOnly)) := by
    intro p hp
    obtain ⟨q, hq, hp⟩ := List.mem_flatMap.1 hp
    obtain ⟨c, -, rfl⟩ := List.mem_map.1 hq
    exact lines_map_char.2 (ne_return_of_mem_writeChar asciiOnly c) p hp
  have hquote : Lines [.char '"'] := lines_ofString "\"" rfl
  exact List.forall_mem_cons.2 ⟨hquote _ List.mem_cons_self, lines_append.2 ⟨hchars, hquote⟩⟩

/-! ## Values -/

/-- The start of a new line is a line feed and blanks. -/
theorem lines_newLine (depth : Nat) : Lines (Layout.newLine depth).points := by
  refine lines_map_char.2 (List.forall_mem_cons.2 ⟨by decide, fun c hc => ?_⟩)
  obtain ⟨-, rfl⟩ := List.mem_replicate.1 hc
  decide

/-- The space inside of brackets is a line feed and blanks, if there is any. -/
theorem lines_margin (layout : Layout) (depth : Nat) : Lines (layout.margin depth).points := by
  cases layout with
  | indented => exact lines_newLine depth
  | _ => exact fun p hp => absurd hp List.not_mem_nil

/-- Items are separated by a comma and such space. -/
theorem lines_separator (layout : Layout) (depth : Nat) :
    Lines (layout.separator depth).points := by
  cases layout with
  | compact => exact lines_ofString "," rfl
  | spaced => exact lines_ofString ", " rfl
  | indented =>
    exact lines_append.2 ⟨lines_ofString "," rfl, lines_newLine depth⟩

/-- Keys are separated from their values by a colon, and perhaps a blank. -/
theorem lines_colon (layout : Layout) : Lines layout.colon.points := by
  cases layout with
  | compact => exact lines_ofString ":" rfl
  | _ => exact lines_ofString ": " rfl

/-- Items are written without carriage returns if each of them is. -/
theorem lines_writeItems {vs : List Json}
    (h : ∀ v ∈ vs, ∀ depth, Lines (write layout depth v).points) (depth : Nat) :
    Lines (writeItems layout depth vs).points := by
  induction vs with
  | nil => exact lines_ofString "" rfl
  | cons v vs ih =>
    obtain ⟨hv, hvs⟩ := List.forall_mem_cons.1 h
    exact lines_append.2 ⟨lines_separator layout depth, lines_append.2 ⟨hv depth, ih hvs⟩⟩

/-- Fields are written without carriage returns if their keys are strings and each value is. -/
theorem lines_writeFields {fields : List (Text × Json)}
    (hkeys : ∀ f ∈ fields, ∃ k : String, f.1 = .ofString k)
    (h : ∀ f ∈ fields, ∀ depth, Lines (write layout depth f.2).points) (depth : Nat) :
    Lines (writeFields layout depth fields).points := by
  induction fields with
  | nil => exact lines_ofString "" rfl
  | cons f fields ih =>
    obtain ⟨key, v⟩ := f
    obtain ⟨hkey, hrest⟩ := List.forall_mem_cons.1 hkeys
    obtain ⟨hv, hfields⟩ := List.forall_mem_cons.1 h
    obtain ⟨k, rfl⟩ : ∃ k : String, key = .ofString k := hkey
    exact lines_append.2 ⟨lines_separator layout depth, lines_append.2
      ⟨lines_writeText _ k, lines_append.2 ⟨lines_colon layout, lines_append.2
        ⟨hv depth, ih hrest hfields⟩⟩⟩⟩

/-- The text of a plain value is made of characters, none of them a carriage return. -/
theorem lines_write {v : Json} (h : Plain room v) (depth : Nat) :
    Lines (write layout depth v).points := by
  induction h generalizing depth with
  | null => exact lines_ofString "null" rfl
  | bool b =>
    cases b
    · exact lines_ofString "false" rfl
    · exact lines_ofString "true" rfl
  -- digits and a minus sign: none of them is a carriage return
  | @int _ n _ =>
    refine lines_map_char.2 fun c hc => ?_
    rintro rfl
    rw [toList_toString_int] at hc
    have hdigit := isDigit_toDigits n.natAbs '\r'
    split at hc <;> simp_all
  | str s => exact lines_writeText _ s
  | @arr _ items _ ih =>
    cases items with
    | nil => exact lines_ofString "[]" rfl
    | cons v rest =>
      obtain ⟨hv, hrest⟩ := List.forall_mem_cons.1 ih
      -- the text is a bracket, a margin, the items, a margin and a bracket
      have hopen : Lines [.char '['] := lines_ofString "[" rfl
      have hclose : Lines [.char ']'] := lines_ofString "]" rfl
      exact lines_append.2 ⟨hopen, lines_append.2 ⟨lines_margin layout _, lines_append.2
        ⟨hv _, lines_append.2 ⟨lines_writeItems hrest _, lines_append.2
          ⟨lines_margin layout _, hclose⟩⟩⟩⟩⟩
  | @obj _ fields keys _ ih =>
    cases fields with
    | nil => exact lines_ofString "\x7b\x7d" rfl
    | cons f rest =>
      obtain ⟨key, v⟩ := f
      obtain ⟨hkey, hkeys⟩ := List.forall_mem_cons.1 keys
      obtain ⟨hv, hrest⟩ := List.forall_mem_cons.1 ih
      obtain ⟨k, rfl⟩ : ∃ k : String, key = .ofString k := hkey
      have hopen : Lines [.char '\x7b'] := lines_ofString "\x7b" rfl
      have hclose : Lines [.char '\x7d'] := lines_ofString "\x7d" rfl
      exact lines_append.2 ⟨hopen, lines_append.2 ⟨lines_margin layout _, lines_append.2
        ⟨lines_writeText _ k, lines_append.2 ⟨lines_colon layout, lines_append.2
          ⟨hv _, lines_append.2 ⟨lines_writeFields hkeys hrest _, lines_append.2
            ⟨lines_margin layout _, hclose⟩⟩⟩⟩⟩⟩⟩

/-- The text of an object stands between braces. -/
theorem write_obj_braces (layout : Layout) (depth : Nat) (fields : List (Text × Json)) :
    ∃ ps, (write layout depth (.obj fields)).points = .char '\x7b' :: (ps ++ [.char '\x7d']) := by
  cases fields with
  | nil => exact ⟨[], rfl⟩
  | cons f rest =>
    obtain ⟨key, v⟩ := f
    rw [points_write_obj]
    simp only [← List.append_assoc]
    exact ⟨_, rfl⟩

end Json

end MazeRobot
