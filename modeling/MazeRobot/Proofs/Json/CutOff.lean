import MazeRobot.Proofs.Json.RoundTrip

/-!
# Texts that are cut off

Once an array or object has been opened, the reader is inside one until the outermost
value is complete (`Enclosed`), and after that only blanks are read.  So a text from brace
to brace is no longer read if anything is cut off at its end (`error_of_cut`).
-/

namespace MazeRobot

namespace Json

namespace Reading

variable {dialect : Dialect} {limit : Nat} {r s : Reading} {c : Char}

/-! ## Inside an array or object -/

/-- Something is open, or the outermost value is complete. -/
def Enclosed (r : Reading) : Prop := r.stack ≠ [] ∨ r.mode = .after

/-- Unless it is a fault, the outcome of a step is enclosed. -/
def Encloses (x : Except Fault Reading) : Prop := ∀ s, x = .ok s → s.Enclosed

/-- A step to an enclosed state encloses. -/
theorem Encloses.ok (h : s.Enclosed) : Encloses (.ok s) := fun _ hs => by
  cases hs
  exact h

/-- A fault leads nowhere. -/
theorem Encloses.error (fault : Fault) : Encloses (.error fault) := fun _ hs => nomatch hs

/-- What comes after a step decides. -/
theorem Encloses.bind {α : Type} {x : Except Fault α} {f : α → Except Fault Reading}
    (h : ∀ a, x = .ok a → Encloses (f a)) : Encloses (x >>= f) := by
  cases x with
  | error fault => exact .error fault
  | ok a => exact h a rfl

/-- Both branches have to enclose. -/
theorem Encloses.ite {p : Prop} [Decidable p] {x y : Except Fault Reading} (hx : Encloses x)
    (hy : Encloses y) : Encloses (if p then x else y) := by
  split
  · exact hx
  · exact hy

/-- A value that is delivered goes into what is open, or it is the outermost one. -/
theorem encloses_deliver (r : Reading) (v : Json) : Encloses (r.deliver v) :=
  fun _ hs => .inr (mode_of_deliver hs)

/-- A text that is complete goes into what is open, be it a key or a value. -/
theorem encloses_deliverText (r : Reading) (t : OpenText) : Encloses (r.deliverText t) := by
  refine .ite ?_ (encloses_deliver r _)
  split
  · exact .ok (.inl (List.cons_ne_nil _ _))
  · exact .error _

/-- To open an array or object encloses. -/
theorem encloses_push (r : Reading) (frame : Frame) (mode : Mode) :
    Encloses (r.push dialect limit frame mode) :=
  .ite (.error _) (.ok (.inl (List.cons_ne_nil _ _)))

/-- To close a list or an object delivers it. -/
theorem encloses_close (r : Reading) (c : Char) : Encloses (r.close c) := by
  unfold close
  split
  · exact .ite (encloses_deliver _ _) (.error _)
  · exact .ite (encloses_deliver _ _) (.error _)
  · exact .error _

/-- Between the parts of a text the reader stays inside. -/
theorem Enclosed.proceed (h : r.Enclosed) (c : Char) : Encloses (r.proceed c) := by
  refine .ite (.ok h) (.ite ?_ (encloses_close r c))
  split
  · next hstack => exact .ok (.inl (by simp [hstack]))
  · next hstack => exact .ok (.inl (by simp [hstack]))
  · exact .error _

/-- While something is open, no step but `close` changes what is open. -/
theorem encloses_beginValue (h : r.stack ≠ []) (c : Char) :
    Encloses (r.beginValue dialect limit c) := by
  refine .ite (.ok (.inl h)) (.bind fun _ _ => ?_)
  -- brackets open something further, all else changes the mode only
  refine .ite (.ok (.inl h)) (.ite (encloses_push _ _ _) (.ite (encloses_push _ _ _) ?_))
  repeat' apply Encloses.ite
  any_goals exact .ok (.inl h)
  exact .error _

/-- Where a key may begin the reader stays inside. -/
theorem encloses_beginKey (h : r.stack ≠ []) (c : Char) :
    Encloses (r.beginKey dialect limit c) :=
  .ite (.ok (.inl h)) (.bind fun _ _ => .ite (.ok (.inl h)) (.error _))

/-- In a text the reader stays inside. -/
theorem encloses_nextInText (h : r.stack ≠ []) (t : OpenText) (c : Char) :
    Encloses (r.nextInText t c) :=
  .ite (encloses_deliverText r t) (.ite (.ok (.inl h)) (.ite (.error _) (.ok (.inl h))))

/-- In an escape the reader stays inside. -/
theorem encloses_nextInEscape (h : r.stack ≠ []) (t : OpenText) (c : Char) :
    Encloses (r.nextInEscape t c) := by
  refine .ite (.ok (.inl h)) ?_
  split
  · exact .ok (.inl h)
  · exact .error _

/-- At any character the reader stays inside, if something is open. -/
theorem encloses_next (h : r.stack ≠ []) (c : Char) : Encloses (r.next dialect limit c) := by
  obtain ⟨stack, mode, result⟩ := r
  cases mode with
  | value => exact encloses_beginValue h c
  | firstItem => exact .ite (encloses_close _ c) (encloses_beginValue h c)
  | firstKey => exact .ite (.ok (.inl h)) (.ite (encloses_close _ c) (encloses_beginKey h c))
  | key => exact encloses_beginKey h c
  | colon => exact .ite (.ok (.inl h)) (.ite (.ok (.inl h)) (.error _))
  | after => exact Enclosed.proceed (.inl h) c
  | text t => exact encloses_nextInText h t c
  | escape t => exact encloses_nextInEscape h t c
  | hex t high digits =>
    simp only [next]
    split
    · exact .error _
    · exact .ite (.ok (.inl h)) (.bind fun _ _ => .ok (.inl h))
  | lowBackslash t high =>
    exact .ite (.ok (.inl h)) (.bind fun _ _ => encloses_nextInText h _ c)
  | lowLetter t high =>
    exact .ite (.ok (.inl h)) (.bind fun _ _ => encloses_nextInEscape h _ c)
  -- the character that ends a number is read again after it
  | number done =>
    refine .ite (.ok (.inl h)) (.ite (.ok (.inl h)) (.bind fun v _ => .bind fun s hs => ?_))
    exact (encloses_deliver _ v s hs).proceed c
  | word rest named =>
    cases rest with
    | nil => exact .error _
    | cons w rest => exact .ite (.ite (encloses_deliver _ _) (.ok (.inl h))) (.error _)

/-- Once inside, the reader stays so at any character. -/
theorem Enclosed.next (h : r.Enclosed) (c : Char) : Encloses (r.next dialect limit c) := by
  by_cases hafter : r.mode = .after
  · rw [Reading.next, hafter]
    exact h.proceed c
  · exact encloses_next (h.resolve_right hafter) c

/-- Once inside, the reader stays so at any code point. -/
theorem Enclosed.take (h : r.Enclosed) (p : CodePoint) : Encloses (r.take dialect limit p) := by
  have hnext (c : Char) : Encloses (r.next dialect limit c) := h.next c
  obtain ⟨stack, mode, result⟩ := r
  cases p with
  | char c => exact hnext c
  | half offset =>
    cases mode with
    | text t => exact .bind fun _ _ => .ok (.inl (h.resolve_right Mode.noConfusion))
    | lowBackslash t high =>
      exact .bind fun _ _ => .bind fun _ _ => .ok (.inl (h.resolve_right Mode.noConfusion))
    | _ => exact hnext (CodePoint.half offset).shown

/-- Once inside, the reader stays so through any text. -/
theorem Enclosed.run (h : r.Enclosed) (ps : List CodePoint) :
    Encloses (r.run dialect limit ps) := by
  induction ps generalizing r with
  | nil => exact .ok h
  | cons p ps ih => exact .bind fun s hs => ih (h.take p s hs)

/-! ## After the outermost value -/

/-- Behind the outermost value only blanks are read, and they change nothing. -/
theorem take_of_closed {result : Option Json} {p : CodePoint}
    (h : take dialect limit ⟨[], .after, result⟩ p = .ok s) :
    (∃ c, isGap c = true ∧ p = .char c) ∧ s = ⟨[], .after, result⟩ := by
  cases p with
  | char c =>
    have hproceed : proceed ⟨[], .after, result⟩ c = .ok s := h
    by_cases hgap : isGap c = true
    · rw [proceed, if_pos hgap] at hproceed
      exact ⟨⟨c, hgap, rfl⟩, (Except.ok.inj hproceed).symm⟩
    · rw [proceed, if_neg hgap] at hproceed
      split at hproceed <;> cases hproceed
  | half offset => cases h

/-- After a complete value there is nothing but blanks. -/
theorem gaps_of_run {result : Option Json} {ps : List CodePoint}
    (h : run dialect limit ⟨[], .after, result⟩ ps = .ok s) : Gaps ps := by
  induction ps with
  | nil => exact fun p hp => absurd hp List.not_mem_nil
  | cons p ps ih =>
    cases htake : take dialect limit ⟨[], .after, result⟩ p with
    | error fault =>
      rw [run, List.foldlM_cons, htake] at h
      cases h
    | ok s' =>
      obtain ⟨hgap, rfl⟩ := take_of_closed htake
      rw [run, List.foldlM_cons, htake] at h
      exact List.forall_mem_cons.2 ⟨hgap, ih h⟩

/-- The text must not end while something is open. -/
theorem finish_of_open (h : r.stack ≠ []) : ∃ fault, r.finish dialect = .error fault := by
  obtain ⟨stack, mode, result⟩ := r
  cases mode with
  -- a number may end with the text, but what holds it stays open
  | number done =>
    simp only [finish]
    cases number dialect done.reverse with
    | error fault => exact ⟨fault, rfl⟩
    | ok v => exact ⟨.malformed, if_neg (by simpa using h)⟩
  | after =>
    cases stack with
    | nil => exact absurd rfl h
    | cons frame outer => exact ⟨.malformed, rfl⟩
  | _ => exact ⟨.malformed, rfl⟩

/-- Behind an opening brace the reader is inside. -/
theorem enclosed_of_brace (ps : List CodePoint) :
    Encloses (run dialect limit {} (.char '\x7b' :: ps)) := by
  have hbrace : Encloses (take dialect limit {} (.char '\x7b')) :=
    .bind fun _ _ => encloses_push {} (.object [] none) .firstKey
  exact .bind fun s hs => Enclosed.run (hbrace s hs) ps

end Reading

/-- A text from brace to brace is not read any more when it lacks its end. -/
theorem error_of_cut {dialect : Dialect} {limit : Nat} {v : Json} {p q : List CodePoint}
    (hq : q ≠ []) (hfirst : (p ++ q).head? = some (.char '\x7b'))
    (hlast : (p ++ q).getLast? = some (.char '\x7d'))
    (hread : read dialect limit ⟨p ++ q⟩ = .ok v) :
    ∃ fault, read dialect limit ⟨p⟩ = .error fault := by
  have hrun : ((Reading.run dialect limit {} (p ++ q)).bind (Reading.finish dialect)) = .ok v :=
    hread
  show ∃ fault, (Reading.run dialect limit {} p).bind (Reading.finish dialect) = .error fault
  rw [Reading.run_append] at hrun
  cases hp : Reading.run dialect limit {} p with
  | error fault => exact ⟨fault, rfl⟩
  | ok r =>
    rw [hp] at hrun
    cases p with
    | nil =>
      cases hp
      exact ⟨.malformed, rfl⟩
    | cons first p =>
      obtain rfl : first = .char '\x7b' := Option.some.inj hfirst
      by_cases hopen : r.stack = []
      · -- the outermost value is complete: only blanks may follow, but the last brace does
        have hafter := (Reading.enclosed_of_brace p r hp).resolve_left (not_not_intro hopen)
        obtain ⟨stack, mode, result⟩ := r
        subst hopen hafter
        have hgaps : Reading.Gaps q := by
          cases hrest : Reading.run dialect limit ⟨[], .after, result⟩ q with
          | error fault =>
            simp only [Except.bind, hrest] at hrun
            cases hrun
          | ok s => exact Reading.gaps_of_run hrest
        have hmem : CodePoint.char '\x7d' ∈ q := by
          rw [List.getLast?_append, List.getLast?_eq_some_getLast hq, Option.some_or] at hlast
          exact Option.some.inj hlast ▸ List.getLast_mem hq
        obtain ⟨c, hc, hbrace⟩ := hgaps _ hmem
        cases hbrace
        exact absurd hc (by decide)
      · exact Reading.finish_of_open hopen

end Json

end MazeRobot
