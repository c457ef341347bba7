import Mathlib.Data.List.Basic
import Mathlib.Data.List.Pairwise
import MazeRobot.Store.Basic

/-!
# The order of mazes

Texts are in linear order, so sorting mazes by their ids is well defined: mazes with
different ids come out strictly ascending (`pairwise_sortById`), and it does not matter
in which order they went in (`sortById_eq_of_perm`).
-/

namespace MazeRobot

/-- No two code points have one number. -/
theorem CodePoint.toNat_inj {p q : CodePoint} (h : p.toNat = q.toNat) : p = q := by
  cases p with
  | char c =>
    cases q with
    | char d => exact congrArg char (Char.toNat_inj.1 h)
    | half offset =>
      have hvalid := c.valid
      have hc : c.val.toNat = 0xD800 + offset := h
      simp only [UInt32.isValidChar, Nat.isValidChar, hc] at hvalid
      omega
  | half offset =>
    cases q with
    | char d =>
      have hvalid := d.valid
      have hd : 0xD800 + offset = d.val.toNat := h
      simp only [UInt32.isValidChar, Nat.isValidChar, ← hd] at hvalid
      omega
    | half offset' =>
      have hoffset : (offset : Nat) = offset' := Nat.add_left_cancel h
      exact congrArg half (Fin.ext hoffset)

namespace Text

/-- No two texts have the same numbers. -/
theorem codes_inj {s t : Text} (h : s.codes = t.codes) : s = t := by
  obtain ⟨ps⟩ := s
  obtain ⟨qs⟩ := t
  exact congrArg Text.mk (List.map_injective_iff.2 (fun _ _ => CodePoint.toNat_inj) h)

theorem le_iff {s t : Text} : s ≤ t ↔ List.le s.codes t.codes := Iff.rfl

/-- The order of texts is transitive. -/
theorem le_trans {s t u : Text} (hst : s ≤ t) (htu : t ≤ u) : s ≤ u :=
  le_iff.2 (List.le_trans (le_iff.1 hst) (le_iff.1 htu))

/-- Any two texts are ordered. -/
theorem le_total (s t : Text) : s ≤ t ∨ t ≤ s := List.le_total s.codes t.codes

/-- Texts that come before each other are the same. -/
theorem le_antisymm {s t : Text} (hst : s ≤ t) (hts : t ≤ s) : s = t :=
  codes_inj (List.le_antisymm (le_iff.1 hst) (le_iff.1 hts))

end Text

namespace Maze

variable {ms ns : List Maze}

/-- No two mazes have the same id. -/
def Distinct (ms : List Maze) : Prop := ms.Pairwise fun a b => a.id ≠ b.id

/-- Sorting loses no maze and makes none. -/
theorem perm_sortById (ms : List Maze) : (sortById ms).Perm ms := List.mergeSort_perm ms _

/-- Sorted mazes are those from before. -/
theorem mem_sortById {m : Maze} : m ∈ sortById ms ↔ m ∈ ms := (perm_sortById ms).mem_iff

/-- Sorted mazes come in the order of their ids. -/
theorem sorted_sortById (ms : List Maze) : (sortById ms).Pairwise fun a b => a.id ≤ b.id := by
  have hsorted : (sortById ms).Pairwise fun a b => decide (a.id ≤ b.id) = true :=
    List.pairwise_mergeSort
      (fun a b c hab hbc => by
        rw [decide_eq_true_eq] at hab hbc ⊢
        exact Text.le_trans hab hbc)
      (fun a b => by
        rw [Bool.or_eq_true, decide_eq_true_eq, decide_eq_true_eq]
        exact Text.le_total a.id b.id) ms
  exact hsorted.imp of_decide_eq_true

/-- Whether ids are distinct does not depend on the order. -/
theorem Distinct.perm (h : Distinct ms) (hperm : ms.Perm ns) : Distinct ns :=
  hperm.pairwise h fun hne => hne.symm

/-- Mazes with different ids come out strictly ascending. -/
theorem pairwise_sortById (h : Distinct ms) :
    (sortById ms).Pairwise fun a b => a.id ≤ b.id ∧ a.id ≠ b.id :=
  (sorted_sortById ms).and (h.perm (perm_sortById ms).symm)

/-- With distinct ids a maze is told by its id. -/
theorem Distinct.eq_of_id_eq (h : Distinct ms) {a b : Maze} (ha : a ∈ ms) (hb : b ∈ ms)
    (hid : a.id = b.id) : a = b := by
  have hsymm : Std.Symm fun a b : Maze => a.id ≠ b.id := ⟨fun _ _ => Ne.symm⟩
  by_contra hne
  exact h.forall ha hb hne hid

/-- The order in which mazes with different ids go in does not matter. -/
theorem sortById_eq_of_perm (h : Distinct ms) (hperm : ms.Perm ns) :
    sortById ms = sortById ns := by
  have hsorted : (sortById ms).Perm (sortById ns) :=
    (perm_sortById ms).trans (hperm.trans (perm_sortById ns).symm)
  refine hsorted.eq_of_pairwise (fun a b ha hb hab hba => ?_) (sorted_sortById ms)
    (sorted_sortById ns)
  have hb : b ∈ ms := hperm.mem_iff.2 (mem_sortById.1 hb)
  exact h.eq_of_id_eq (mem_sortById.1 ha) hb (Text.le_antisymm hab hba)

end Maze

end MazeRobot
