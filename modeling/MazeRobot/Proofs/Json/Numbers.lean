import Mathlib.Data.List.TakeWhile
import MazeRobot.Json.Number

/-!
# Whole numbers are read back

A whole number is written with an optional minus and digits without a leading zero.  In
both dialects the number is read back from there, unless it is too long
(`number_toString`).
-/

namespace MazeRobot

namespace Json

/-- A plain digit has its place after zero for a value. -/
theorem asciiDigit?_of_isDigit {c : Char} (h : c.isDigit = true) :
    Text.asciiDigit? c = some (c.toNat - '0'.toNat) := by
  have hrange : '0' ≤ c ∧ c ≤ '9' := by
    rw [Char.isDigit, Bool.and_eq_true, decide_eq_true_eq, decide_eq_true_eq] at h
    exact h
  rw [Text.asciiDigit?, if_pos hrange]

/-- Plain digits have their places after zero for values. -/
theorem mapM_asciiDigit? {cs : List Char} (h : ∀ c ∈ cs, c.isDigit = true) :
    cs.mapM Text.asciiDigit? = some (cs.map fun c => c.toNat - '0'.toNat) := by
  induction cs with
  | nil => rfl
  | cons c cs ih =>
    have hhead := asciiDigit?_of_isDigit (h c List.mem_cons_self)
    have htail := ih fun d hd => h d (List.mem_cons_of_mem _ hd)
    rw [List.mapM_cons, hhead, htail]
    rfl

/-- A natural number is written in plain digits. -/
theorem isDigit_toDigits (n : Nat) : ∀ c ∈ Nat.toDigits 10 n, c.isDigit = true :=
  fun _ => Nat.isDigit_of_mem_toDigits (by decide) (by decide)

/-- A natural number is written in at least one digit. -/
theorem toDigits_ne_nil (n : Nat) : Nat.toDigits 10 n ≠ [] := by
  rw [Nat.toDigits_eq_if (by decide)]
  split <;> simp

/-- A number is written with a zero in front only if it is zero. -/
theorem toDigits_of_head_zero {n : Nat} {cs : List Char} (h : Nat.toDigits 10 n = '0' :: cs) :
    cs = [] := by
  induction n using Nat.strongRecOn generalizing cs with
  | ind n ih =>
    rw [Nat.toDigits_eq_if (by decide)] at h
    split at h
    · exact (List.cons.inj h).2.symm
    · next hn =>
      obtain ⟨d, ds, hds⟩ := List.exists_cons_of_ne_nil (toDigits_ne_nil (n / 10))
      rw [hds, List.cons_append] at h
      obtain ⟨rfl, -⟩ := List.cons.inj h
      have htail := ih (n / 10) (by omega) hds
      -- then `n / 10` would be the zero that `n` is not short enough for
      have hvalue : n / 10 = 0 := by
        rw [← Nat.ofDigitChars_ten_toDigits (n := n / 10), hds, htail]
        rfl
      omega

/-- The digits of a natural number are read back as the number. -/
theorem unsigned?_toDigits (n : Nat) : Numeral.unsigned? (Nat.toDigits 10 n) = some n := by
  have hdigits : Numeral.asciiDigits? (Nat.toDigits 10 n) =
      some ((Nat.toDigits 10 n).map fun c => c.toNat - '0'.toNat) := by
    rw [Numeral.asciiDigits?, List.isEmpty_eq_false_iff.2 (toDigits_ne_nil n)]
    exact mapM_asciiDigit? (isDigit_toDigits n)
  have hvalue : Numeral.ofDigits ((Nat.toDigits 10 n).map fun c => c.toNat - '0'.toNat) = n := by
    rw [Numeral.ofDigits, List.foldl_map]
    exact Nat.ofDigitChars_ten_toDigits
  unfold Numeral.unsigned?
  split
  · next h => exact absurd (toDigits_of_head_zero h) (List.cons_ne_nil _ _)
  · rw [hdigits, Option.map_some, hvalue]

/-- A whole number is written as a minus, where it is negative, and digits. -/
theorem toList_toString_int (n : Int) :
    (toString n).toList =
      if n < 0 then '-' :: Nat.toDigits 10 n.natAbs else Nat.toDigits 10 n.natAbs := by
  cases n with
  | ofNat m => exact Nat.toList_repr
  | negSucc m =>
    have h : (toString (Int.negSucc m)).toList = ("-" ++ (m + 1).repr).toList := rfl
    rw [h, String.toList_append, Nat.toList_repr, if_pos (Int.negSucc_lt_zero m)]
    rfl

/-- The minus is split off again. -/
theorem splitMinus_toString (n : Int) :
    Numeral.splitMinus (toString n).toList = (decide (n < 0), Nat.toDigits 10 n.natAbs) := by
  rw [toList_toString_int]
  split
  · next h => rw [decide_eq_true h]; rfl
  · next h =>
    rw [decide_eq_false h]
    unfold Numeral.splitMinus
    split
    · next rest hminus =>
      have := isDigit_toDigits n.natAbs '-' (hminus ▸ List.mem_cons_self)
      exact absurd this (by decide)
    · rfl

/-- Sign and magnitude make up the number. -/
theorem withSign_natAbs (n : Int) : Numeral.withSign (decide (n < 0)) n.natAbs = n := by
  unfold Numeral.withSign
  by_cases h : n < 0
  · rw [decide_eq_true h, if_pos rfl, Int.ofNat_natAbs_of_nonpos (Int.le_of_lt h), Int.neg_neg]
  · rw [decide_eq_false h, if_neg Bool.false_ne_true, Int.natAbs_of_nonneg (Int.not_lt.1 h)]

/-- A whole number is read back unless it has too many digits. -/
theorem number_toString (dialect : Dialect) {n : Int}
    (hshort : (toString n).length ≤ Numeral.maxWholeDigits) :
    number dialect (toString n).toList = .ok (.int n) := by
  have hdigits := isDigit_toDigits n.natAbs
  have hwhole : (Nat.toDigits 10 n.natAbs).takeWhile Char.isDigit = Nat.toDigits 10 n.natAbs :=
    List.takeWhile_eq_self_iff.2 hdigits
  have hrest : (Nat.toDigits 10 n.natAbs).dropWhile Char.isDigit = [] :=
    List.dropWhile_eq_nil_iff.2 hdigits
  have hlength : (Nat.toDigits 10 n.natAbs).length + (if decide (n < 0) then 1 else 0) ≤
      Numeral.maxWholeDigits := by
    rw [← String.length_toList, toList_toString_int] at hshort
    simp only [decide_eq_true_eq]
    split at hshort
    · next h => rwa [if_pos h]
    · next h => rwa [if_neg h]
  have hfits :
      dialect.isOverlong (decide (n < 0)) (Nat.toDigits 10 n.natAbs).length [] = false := by
    cases dialect
    · exact decide_eq_false (Nat.not_lt.2 hlength)
    · exact Bool.and_eq_false_iff.2 (.inl (decide_eq_false (by omega)))
  unfold number
  simp only [splitMinus_toString, hwhole, hrest, unsigned?_toDigits, hfits, literal?,
    withSign_natAbs, Bool.false_eq_true, if_false]

end Json

end MazeRobot
