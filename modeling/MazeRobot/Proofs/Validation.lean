import MazeRobot.Validation

/-!
# What checks out

A check succeeds exactly if its parts do.  The lemmas here say so for every way of putting
checks together, so that the check of a record can be read as a list of conditions on the
record: what has to be there, and what it is taken for.  The elements of a list that stand for
one value each are checked all at once (`each_eq_ok_iff`).

Reading a list element by element succeeds exactly if it does for every element, and what comes out
is what the elements are read as (`exists_of_mapM_eq_ok`, `exists_mapM_eq_ok`).
-/

namespace MazeRobot

/-! ## Results -/

section Results

variable {ε δ α β : Type}

/-- A sequence succeeds if both parts do. -/
theorem bind_eq_ok_iff {r : Except ε α} {f : α → Except ε β} {y : β} :
    r.bind f = .ok y ↔ ∃ x, r = .ok x ∧ f x = .ok y := by
  cases r <;> simp [Except.bind]

/-- A result that is converted is there if there was one. -/
theorem map_eq_ok_iff {r : Except ε α} {f : α → β} {y : β} :
    r.map f = .ok y ↔ ∃ x, r = .ok x ∧ f x = y := by
  cases r <;> simp [Except.map]

/-- Wording a failure otherwise concerns no result. -/
theorem mapError_eq_ok_iff {r : Except ε α} {f : ε → δ} {x : α} :
    r.mapError f = .ok x ↔ r = .ok x := by
  cases r with
  | error e =>
    show Except.error (f e) = .ok x ↔ Except.error e = .ok x
    simp only [reduceCtorEq]
  | ok y =>
    show (Except.ok y : Except δ α) = .ok x ↔ (Except.ok y : Except ε α) = .ok x
    rw [Except.ok.injEq, Except.ok.injEq]

/-- There is a failure if there is no result. -/
theorem exists_eq_error_iff {r : Except ε α} : (∃ e, r = .error e) ↔ ¬ ∃ x, r = .ok x := by
  cases r <;> simp

/-- If every element that is written is read as something, so is the list. -/
theorem mapM_map_eq_pure {γ : Type} {m : Type → Type} [Monad m] [LawfulMonad m] {write : γ → α}
    {read : α → m β} {f : γ → β} {xs : List γ} (h : ∀ x ∈ xs, read (write x) = pure (f x)) :
    (xs.map write).mapM read = pure (xs.map f) := by
  induction xs with
  | nil => rfl
  | cons x xs ih =>
    obtain ⟨hx, hxs⟩ := List.forall_mem_cons.mp h
    rw [List.map_cons, List.mapM_cons, hx, pure_bind, ih hxs, pure_bind, List.map_cons]

/-- A list succeeds if its first element does and the rest do. -/
theorem mapM_cons_eq_ok_iff {f : α → Except ε β} {x : α} {xs : List α} {zs : List β} :
    (x :: xs).mapM f = .ok zs ↔ ∃ y ys, f x = .ok y ∧ xs.mapM f = .ok ys ∧ zs = y :: ys := by
  rw [List.mapM_cons]
  show (f x).bind _ = .ok zs ↔ _
  rw [bind_eq_ok_iff]
  refine exists_congr fun y => ?_
  show (f x = .ok y ∧ (xs.mapM f).bind _ = .ok zs) ↔ _
  simp only [bind_eq_ok_iff, exists_and_left, pure, Except.pure, Except.ok.injEq, eq_comm (a := zs)]

/-- What is read from a list is read from its elements, one by one. -/
theorem exists_of_mapM_eq_ok {f : α → Except ε β} {xs : List α} {ys : List β}
    (h : xs.mapM f = .ok ys) : ∀ x ∈ xs, ∃ y ∈ ys, f x = .ok y := by
  induction xs generalizing ys with
  | nil => exact List.forall_mem_nil _
  | cons x xs ih =>
    obtain ⟨y, ys, hx, hxs, rfl⟩ := mapM_cons_eq_ok_iff.mp h
    refine List.forall_mem_cons.mpr ⟨⟨y, List.mem_cons_self, hx⟩, fun x' hx' => ?_⟩
    obtain ⟨y', hy', h'⟩ := ih hxs x' hx'
    exact ⟨y', List.mem_cons_of_mem y hy', h'⟩

/-- If every element is read as something, so is the list, and it is read as nothing else. -/
theorem exists_mapM_eq_ok {f : α → Except ε β} {xs : List α} (h : ∀ x ∈ xs, ∃ y, f x = .ok y) :
    ∃ ys, xs.mapM f = .ok ys ∧ ∀ y ∈ ys, ∃ x ∈ xs, f x = .ok y := by
  induction xs with
  | nil => exact ⟨[], rfl, List.forall_mem_nil _⟩
  | cons x xs ih =>
    obtain ⟨⟨y, hx⟩, hxs⟩ := List.forall_mem_cons.mp h
    obtain ⟨ys, hys, hread⟩ := ih hxs
    refine ⟨y :: ys, mapM_cons_eq_ok_iff.mpr ⟨y, ys, hx, hys, rfl⟩, ?_⟩
    refine List.forall_mem_cons.mpr ⟨⟨x, List.mem_cons_self, hx⟩, fun y' hy' => ?_⟩
    obtain ⟨x', hx', h'⟩ := hread y' hy'
    exact ⟨x', List.mem_cons_of_mem x hx', h'⟩

end Results

namespace Checked

variable {α β : Type}

/-- Where a value stands only bears on its failures. -/
theorem within_eq_ok_iff {step : PathStep} {r : Checked α} {x : α} :
    within step r = .ok x ↔ r = .ok x := mapError_eq_ok_iff

/-- Two checks succeed together if each does. -/
theorem both_eq_ok_iff {a : Checked α} {b : Checked β} {p : α × β} :
    both a b = .ok p ↔ a = .ok p.1 ∧ b = .ok p.2 := by
  cases a <;> cases b <;> simp [both, Prod.ext_iff]

/-! ## Fields -/

/-- A field that is there is checked, at its own place. -/
theorem required_of_field {fields : List (Text × Json)} {name : String} {v : Json}
    (h : Json.field? name fields = some v) (check : Json → Checked α) :
    required fields name check = within (.field name) (check v) := by
  unfold required
  rw [h]

/-- A required field has to be there and to check out. -/
theorem required_eq_ok_iff {fields : List (Text × Json)} {name : String}
    {check : Json → Checked α} {x : α} :
    required fields name check = .ok x ↔
      ∃ v, Json.field? name fields = some v ∧ check v = .ok x := by
  cases hfield : Json.field? name fields with
  | none =>
    unfold required
    rw [hfield, within_eq_ok_iff]
    simp [complain]
  | some v =>
    rw [required_of_field hfield, within_eq_ok_iff]
    simp

/-! ## Texts and words -/

/-- Only a string is read as a text. -/
theorem text_eq_ok_iff {v : Json} {t : Text} : text v = .ok t ↔ v = .str t := by
  cases v <;> simp [text, complain]

/-- A text without halves of pairs is read as a string. -/
theorem string_eq_ok_iff {t : Text} {s : String} : string t = .ok s ↔ t = .ofString s := by
  rw [← Text.string?_eq_some_iff, string]
  cases t.string? <;> simp [complain]

/-- A word is a string that can be read as one of those allowed. -/
theorem word_eq_ok_iff {words : List String} {read? : String → Option α} {v : Json} {x : α} :
    word words read? v = .ok x ↔ ∃ s : String, v = .str s ∧ read? s = some x := by
  cases v with
  | str t =>
    simp only [word, bind_eq_ok_iff, string_eq_ok_iff, Json.str.injEq]
    refine exists_congr fun s => and_congr_right fun _ => ?_
    cases read? s <;> simp [complain]
  | _ => simp [word, complain]

/-! ## Lists -/

/-- Where every element stands for one value, so does every list of elements. -/
theorem each_eq_ok_iff {check : α → Checked β} {f : β → α}
    (h : ∀ v x, check v = .ok x ↔ v = f x) {vs : List α} {xs : List β} :
    each check vs = .ok xs ↔ vs = xs.map f := by
  -- the places count up along the list, so the induction is over every first place
  have hfrom (i : Nat) : eachFrom i check vs = .ok xs ↔ vs = xs.map f := by
    induction vs generalizing i xs with
    | nil => cases xs <;> simp [eachFrom]
    | cons v vs ih =>
      simp only [eachFrom, map_eq_ok_iff, both_eq_ok_iff, within_eq_ok_iff, h, ih]
      constructor
      · rintro ⟨⟨x, xs⟩, ⟨rfl, rfl⟩, rfl⟩
        rfl
      · intro hcons
        cases xs with
        | nil => exact nomatch hcons
        | cons x xs =>
          obtain ⟨hv, hvs⟩ := List.cons.inj hcons
          exact ⟨(x, xs), ⟨hv, hvs⟩, rfl⟩
  exact hfrom 0

end Checked

end MazeRobot
