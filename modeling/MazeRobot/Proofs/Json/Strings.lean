import MazeRobot.Json.Reader
import MazeRobot.Json.Writer

/-!
# Strings are read back

What the reader makes of some code points is `Reading.run`.  A string is written character
by character, and however a character is written, plain or escaped, it is read as that
character (`run_writeChar`).  So a written string is read as the string (`run_writeText`).
-/

namespace MazeRobot

namespace Json

/-! ## Hexadecimal digits -/

/-- Pushing a character several times appends that many copies. -/
theorem toList_pushn (s : String) (c : Char) (n : Nat) :
    (s.pushn c n).toList = s.toList ++ List.replicate n c := by
  rw [String.pushn_eq_repeat_push]
  induction n with
  | zero => exact (List.append_nil _).symm
  | succ n ih => rw [Nat.repeat, String.toList_push, ih, List.append_assoc, ← List.replicate_succ']

/-- A single hexadecimal digit. -/
theorem toList_hex_one {n : Nat} (hn : n < 16) : (Text.hex 1 n).toList = [n.digitChar] := by
  unfold Text.hex
  simp only [Nat.toDigits_of_lt_base hn, String.toList_append, String.toList_ofList,
    String.length_ofList, toList_pushn]
  rfl

/-- The last digit can be split off, also if there are zeros in front. -/
theorem toList_hex_succ (width n : Nat) :
    (Text.hex (width + 2) n).toList =
      (Text.hex (width + 1) (n / 16)).toList ++ [(n % 16).digitChar] := by
  unfold Text.hex
  simp only [String.toList_append, String.toList_ofList, String.length_ofList, toList_pushn]
  by_cases h : n < 16
  · rw [Nat.toDigits_of_lt_base h, Nat.div_eq_of_lt h, Nat.toDigits_zero, Nat.mod_eq_of_lt h]
    simp [List.replicate_succ']
  · rw [Nat.toDigits_of_base_le (by decide) (Nat.le_of_not_lt h)]
    simp

/-- Four hexadecimal digits, the most significant one first. -/
theorem toList_hex_four {n : Nat} (hn : n < 0x10000) :
    (Text.hex 4 n).toList =
      [(n / 16 / 16 / 16).digitChar, (n / 16 / 16 % 16).digitChar, (n / 16 % 16).digitChar,
        (n % 16).digitChar] := by
  have hfirst : n / 16 / 16 / 16 < 16 := by omega
  rw [toList_hex_succ, toList_hex_succ, toList_hex_succ, toList_hex_one hfirst]
  rfl

/-- A hexadecimal digit is read back. -/
theorem hexDigit?_digitChar {d : Nat} (hd : d < 16) :
    Reading.hexDigit? d.digitChar = some d := by
  revert d
  decide

namespace Reading

variable {dialect : Dialect} {limit : Nat} {r r' : Reading} {c : Char}

/-- The state of the reader after some code points. -/
def run (dialect : Dialect) (limit : Nat) (r : Reading) (ps : List CodePoint) :
    Except Fault Reading :=
  ps.foldlM (take dialect limit) r

/-- A text in two portions is read one portion after the other. -/
theorem run_append (r : Reading) (xs ys : List CodePoint) :
    run dialect limit r (xs ++ ys) =
      (run dialect limit r xs).bind fun r => run dialect limit r ys :=
  List.foldlM_append

/-- The second portion is read in the state that the first leads to. -/
theorem run_append_of_ok {xs : List CodePoint} (h : run dialect limit r xs = .ok r')
    (ys : List CodePoint) : run dialect limit r (xs ++ ys) = run dialect limit r' ys := by
  rw [run_append, h]
  rfl

/-- One character is read before the rest. -/
theorem run_char (r : Reading) (c : Char) (ps : List CodePoint) :
    run dialect limit r (.char c :: ps) =
      (r.next dialect limit c).bind fun r => run dialect limit r ps := rfl

/-- The rest is read in the state that the character leads to. -/
theorem run_char_of_ok (h : r.next dialect limit c = .ok r') (ps : List CodePoint) :
    run dialect limit r (.char c :: ps) = run dialect limit r' ps := by
  rw [run_char, h]
  rfl

/-! ## Escapes -/

/-- One of the first three digits of an escape is collected. -/
theorem next_hex {d : Nat} (hd : hexDigit? c = some d) (r : Reading) (t : OpenText)
    (high : Option Nat) {digits : List Nat} (hshort : digits.length < 3) :
    next dialect limit { r with mode := .hex t high digits } c =
      .ok { r with mode := .hex t high (digits ++ [d]) } := by
  have hlength : (digits ++ [d]).length < 4 := by
    rw [List.length_append, List.length_singleton]
    omega
  simp only [next, hd, if_pos hlength]

/-- The fourth completes the code unit. -/
theorem next_hex_last {d : Nat} (hd : hexDigit? c = some d) (r : Reading) (t : OpenText)
    (high : Option Nat) {digits : List Nat} (hlong : digits.length = 3) :
    next dialect limit { r with mode := .hex t high digits } c =
      (endHex dialect t high ((digits ++ [d]).foldl (fun n d => 16 * n + d) 0)).map
        fun mode => { r with mode } := by
  have hlength : ¬ (digits ++ [d]).length < 4 := by
    rw [List.length_append, List.length_singleton]
    omega
  simp only [next, hd, if_neg hlength]
  cases endHex dialect t high ((digits ++ [d]).foldl (fun n d => 16 * n + d) 0) <;> rfl

/-- Four digits are read as the number they write. -/
theorem run_hex (r : Reading) (t : OpenText) (high : Option Nat) {n : Nat} (hn : n < 0x10000) :
    run dialect limit { r with mode := .hex t high [] } ((Text.hex 4 n).toList.map .char) =
      (endHex dialect t high n).map fun mode => { r with mode } := by
  have hd₁ := hexDigit?_digitChar (d := n / 16 / 16 / 16) (by omega)
  have hd₂ := hexDigit?_digitChar (d := n / 16 / 16 % 16) (by omega)
  have hd₃ := hexDigit?_digitChar (d := n / 16 % 16) (by omega)
  have hd₄ := hexDigit?_digitChar (d := n % 16) (by omega)
  have hvalue : [n / 16 / 16 / 16, n / 16 / 16 % 16, n / 16 % 16, n % 16].foldl
      (fun n d => 16 * n + d) 0 = n := by
    simp only [List.foldl_cons, List.foldl_nil]
    omega
  rw [toList_hex_four hn]
  simp only [List.map_cons, List.map_nil]
  rw [run_char_of_ok (next_hex hd₁ r t high (by simp)),
    run_char_of_ok (next_hex hd₂ r t high (by simp)),
    run_char_of_ok (next_hex hd₃ r t high (by simp)),
    run_char, next_hex_last hd₄ r t high (by rfl)]
  simp only [List.nil_append, List.cons_append, hvalue]
  cases endHex dialect t high n <;> rfl

/-- An escape is a backslash, the letter and four digits. -/
theorem map_unitEscape (n : Nat) :
    (unitEscape n).map CodePoint.char =
      .char '\\' :: .char 'u' :: (Text.hex 4 n).toList.map CodePoint.char := by
  rw [unitEscape, List.map_cons, List.map_cons]

/-- An escape is read as its code unit. -/
theorem run_unitEscape (r : Reading) (t : OpenText) {n : Nat} (hn : n < 0x10000) :
    run dialect limit { r with mode := .text t } ((unitEscape n).map .char) =
      (endSingle dialect t n).map fun mode => { r with mode } := by
  have hslash : next dialect limit { r with mode := .text t } '\\' =
      .ok { r with mode := .escape t } := rfl
  have hletter : next dialect limit { r with mode := .escape t } 'u' =
      .ok { r with mode := .hex t none [] } := rfl
  rw [map_unitEscape, run_char_of_ok hslash, run_char_of_ok hletter, run_hex r t none hn]
  rfl

/-- The second half of a pair is read together with the first one. -/
theorem run_unitEscape_low (r : Reading) (t : OpenText) (high : Nat) {n : Nat}
    (hn : n < 0x10000) :
    run dialect limit { r with mode := .lowBackslash t high } ((unitEscape n).map .char) =
      (endHex dialect t (some high) n).map fun mode => { r with mode } := by
  have hslash : next dialect limit { r with mode := .lowBackslash t high } '\\' =
      .ok { r with mode := .lowLetter t high } := rfl
  have hletter : next dialect limit { r with mode := .lowLetter t high } 'u' =
      .ok { r with mode := .hex t (some high) [] } := rfl
  rw [map_unitEscape, run_char_of_ok hslash, run_char_of_ok hletter, run_hex r t (some high) hn]

theorem toNat_lt (c : Char) : c.toNat < 0x110000 := by
  rcases c.valid with h | h
  · exact Nat.lt_trans h (by decide)
  · exact h.2

/-- The code unit of a character ends as that character. -/
theorem endSingle_char (t : OpenText) (c : Char) :
    endSingle dialect t c.toNat = .ok (.text (t.push (.char c))) := by
  have hvalid : c.toNat < 0xD800 ∨ 0xE000 ≤ c.toNat := by
    rcases c.valid with h | h
    · exact .inl h
    · exact .inr h.1
  have hhigh : isHighHalf c.toNat = false := by
    simp only [isHighHalf, Bool.and_eq_false_iff, decide_eq_false_iff_not]
    omega
  have hlow : isLowHalf c.toNat = false := by
    simp only [isLowHalf, Bool.and_eq_false_iff, decide_eq_false_iff_not]
    omega
  simp only [endSingle, hhigh, hlow, Char.ofNat_toNat, Bool.false_eq_true, if_false]

/-- Two halves are read as the character that was taken apart. -/
theorem run_pair (r : Reading) (t : OpenText) {c : Char} (hc : 0x10000 ≤ c.toNat) :
    run dialect limit { r with mode := .text t }
        ((unitEscape (0xD800 + (c.toNat - 0x10000) / 0x400) ++
          unitEscape (0xDC00 + (c.toNat - 0x10000) % 0x400)).map .char) =
      .ok { r with mode := .text (t.push (.char c)) } := by
  have hmax := toNat_lt c
  generalize hhigh : 0xD800 + (c.toNat - 0x10000) / 0x400 = high
  generalize hlow : 0xDC00 + (c.toNat - 0x10000) % 0x400 = low
  have hhalf : isHighHalf high = true := by
    simp only [isHighHalf, Bool.and_eq_true, decide_eq_true_eq]
    omega
  have hsingle : endSingle dialect t high = .ok (.lowBackslash t high) := by
    simp only [endSingle, hhalf, if_true]
  have hpair : endHex dialect t (some high) low = .ok (.text (t.push (.char c))) := by
    have hhalf : isLowHalf low = true := by
      simp only [isLowHalf, Bool.and_eq_true, decide_eq_true_eq]
      omega
    have hsum : 0x10000 + (high - 0xD800) * 0x400 + (low - 0xDC00) = c.toNat := by omega
    simp only [endHex, hhalf, if_true, hsum, Char.ofNat_toNat]
  have hfirst : run dialect limit { r with mode := .text t } ((unitEscape high).map .char) =
      .ok { r with mode := .lowBackslash t high } := by
    rw [run_unitEscape r t (by omega), hsingle]
    rfl
  rw [List.map_append, run_append_of_ok hfirst, run_unitEscape_low r t high (by omega), hpair]
  rfl

/-! ## Strings -/

/-- A plain character in a text is read as itself. -/
theorem next_text {c : Char} (hquote : c ≠ '"') (hslash : c ≠ '\\') (hplain : ¬ c.toNat < 0x20)
    (r : Reading) (t : OpenText) :
    next dialect limit { r with mode := .text t } c =
      .ok { r with mode := .text (t.push (.char c)) } := by
  simp only [next, nextInText, beq_iff_eq, hquote, hslash, hplain, if_false]

/-- A character, in whatever way it is written. -/
theorem run_writeChar (asciiOnly : Bool) (r : Reading) (t : OpenText) (c : Char) :
    run dialect limit { r with mode := .text t } ((writeChar asciiOnly c).map .char) =
      .ok { r with mode := .text (t.push (.char c)) } := by
  unfold writeChar
  split
  case h_8 hquote hslash _ _ _ _ _ =>
    -- a character that has no short escape
    dsimp only
    have hescape (h : c.toNat < 0x10000) :
        run dialect limit { r with mode := .text t } ((unitEscape c.toNat).map .char) =
          .ok { r with mode := .text (t.push (.char c)) } := by
      rw [run_unitEscape r t h, endSingle_char]
      rfl
    by_cases hcontrol : c.toNat < 0x20
    · rw [if_pos hcontrol]
      exact hescape (by omega)
    · rw [if_neg hcontrol]
      split
      · exact run_char_of_ok (next_text hquote hslash hcontrol r t) []
      · split
        · next h => exact hescape h
        · next h => exact run_pair r t (Nat.le_of_not_lt h)
  -- a backslash and a letter
  all_goals rfl

/-- The characters of a string, up to the quote that ends it. -/
theorem run_writeChars (asciiOnly : Bool) (r : Reading) (t : OpenText) (cs : List Char) :
    run dialect limit { r with mode := .text t }
        ((cs.map CodePoint.char).flatMap (writePoint asciiOnly)) =
      .ok { r with
        mode := .text { t with done := (cs.map CodePoint.char).reverse ++ t.done } } := by
  induction cs generalizing t with
  | nil => rfl
  | cons c cs ih =>
    have hfirst : run dialect limit { r with mode := .text t } ((writeChar asciiOnly c).map .char) =
        .ok { r with mode := .text (t.push (.char c)) } := run_writeChar asciiOnly r t c
    rw [List.map_cons, List.flatMap_cons, writePoint, run_append_of_ok hfirst, ih]
    simp [OpenText.push]

/-- The last character decides the outcome. -/
theorem run_last {s : Except Fault Reading} (h : r.next dialect limit c = s) :
    run dialect limit r [.char c] = s := by
  rw [run_char, h]
  cases s <;> rfl

/-- From the opening quote on, a written string is read as the string. -/
theorem run_writeText (asciiOnly : Bool) {r : Reading} {isKey : Bool} (s : String)
    (hbegin : r.next dialect limit '"' = .ok { r with mode := .text { isKey } }) :
    run dialect limit r (writeText asciiOnly (.ofString s)).points =
      r.deliverText { isKey, done := (Text.ofString s).points.reverse } := by
  have hquote (t : OpenText) :
      run dialect limit { r with mode := .text t } [.char '"'] = r.deliverText t :=
    run_last rfl
  have hchars : run dialect limit { r with mode := .text { isKey } }
      ((Text.ofString s).points.flatMap (writePoint asciiOnly)) =
        .ok { r with mode := .text { isKey, done := (Text.ofString s).points.reverse } } := by
    rw [Text.ofString, Text.ofChars, run_writeChars, List.append_nil]
  rw [writeText, run_char_of_ok hbegin, run_append_of_ok hchars, hquote]

end Reading

end Json

end MazeRobot
