import MazeRobot.Marker

/-!
# Cards held up during a run

A card that is held up while a run is executing does nothing to the entry point
(`ingestion_see_of_running`), but the debouncer takes note of it all the same.  So it may hold
back a card that is held up again soon after the run.

Unless it does, it may as well not have been held up: from a stream of showings those during
runs can be struck out, and the entry point comes out the same (`ingestion_seeAll_of_thinned`).
Where it does, the later showing is lost, also after the run (`ingestion_see_of_hidden`).

For the proof two debouncers are run side by side, one for the whole stream and one for what is
left of it.  For each card they either agree on when it was let through last, or what they know
of it is too old to matter (`Debouncer.Agrees`).
-/

namespace MazeRobot

/-- A card that is held up, and whether a run is executing then. -/
structure Showing where
  running : Bool
  now : Float
  payload : Text

namespace Showing

/-- The text on a card. -/
def text (s : Showing) : Text := Marker.stripped s.payload

/-- A later showing of the same card comes within the cooldown. -/
def Hides (cooldown : Float) (s k : Showing) : Prop :=
  (Marker.parse? s.payload).isSome ∧ k.text = s.text ∧ k.now - s.now < cooldown

instance (cooldown : Float) (s k : Showing) : Decidable (Hides cooldown s k) :=
  inferInstanceAs (Decidable (_ ∧ _ ∧ _))

end Showing

/-- What is left of a stream of showings when some are struck out that happened during a run
and hide nothing that is left. -/
inductive Thinned (cooldown : Float) : List Showing → List Showing → Prop where
  | nil : Thinned cooldown [] []
  | keep (s : Showing) {ss kept : List Showing} :
      Thinned cooldown ss kept → Thinned cooldown (s :: ss) (s :: kept)
  | drop (s : Showing) {ss kept : List Showing} :
      s.running = true → (∀ k ∈ kept, ¬ s.Hides cooldown k) →
      Thinned cooldown ss kept → Thinned cooldown (s :: ss) kept

/-- The clock does not go backwards: what is within the cooldown after some mark was so at any
earlier showing. -/
def Forward (cooldown : Float) (marks : List Float) (ss : List Showing) : Prop :=
  ss.Pairwise fun a b => ∀ t ∈ marks, b.now - t < cooldown → a.now - t < cooldown

/-- What is kept was shown. -/
theorem Thinned.subset {cooldown : Float} {ss kept : List Showing} (h : Thinned cooldown ss kept) :
    kept ⊆ ss := by
  induction h with
  | nil => exact List.Subset.refl _
  | keep s _ ih => exact List.cons_subset_cons s ih
  | drop s _ _ _ ih => exact List.subset_cons_of_subset s ih

/-! ## Debouncers -/

namespace Debouncer

variable {d d' : Debouncer} {x y : Text} {now : Float}

/-- A card is held back, for it was let through a moment ago. -/
def Holds (d : Debouncer) (x : Text) (now : Float) : Prop :=
  ∃ last, d.last? x = some last ∧ now - last < d.cooldown

/-- When cards were let through. -/
def marks (d : Debouncer) : List Float := d.lastSeen.map Prod.snd

/-- Dropping the entries of one text leaves what is found under another. -/
theorem lookup_filter_of_ne (h : y ≠ x) (entries : List (Text × Float)) :
    (entries.filter fun entry => entry.1 != x).lookup y = entries.lookup y := by
  induction entries with
  | nil => rfl
  | cons entry rest ih =>
    rw [List.filter_cons]
    by_cases hx : entry.1 = x
    · have hy : (y == entry.1) = false := by rw [hx]; exact beq_false_of_ne h
      rw [if_neg (by simp [hx]), ih, List.lookup_cons, hy]
    · rw [if_pos (by simp [hx]), List.lookup_cons, List.lookup_cons, ih]

/-- A showing that is held back leaves the debouncer as it was. -/
theorem accept_of_holds (h : d.Holds x now) : d.accept x now = (d, false) := by
  obtain ⟨last, hlast, hrecent⟩ := h
  unfold accept
  rw [hlast]
  exact if_pos (decide_eq_true hrecent)

/-- A showing that is let through is noted, in place of the last one of its text. -/
theorem accept_of_not_holds (h : ¬ d.Holds x now) :
    d.accept x now =
      ({ d with lastSeen := (x, now) :: d.lastSeen.filter fun entry => entry.1 != x }, true) := by
  unfold accept
  cases hlast : d.last? x with
  | none => rfl
  | some last =>
    have hrecent : ¬ now - last < d.cooldown := fun hrecent => h ⟨last, hlast, hrecent⟩
    exact if_neg (by simpa using hrecent)

/-- The cooldown never changes. -/
theorem cooldown_accept (d : Debouncer) (x : Text) (now : Float) :
    (d.accept x now).1.cooldown = d.cooldown := by
  by_cases h : d.Holds x now
  · rw [accept_of_holds h]
  · rw [accept_of_not_holds h]

/-- What was let through is the last one of its text. -/
theorem last?_accept_self (h : ¬ d.Holds x now) : (d.accept x now).1.last? x = some now := by
  rw [accept_of_not_holds h]
  exact List.lookup_cons_self

/-- To let a text through leaves the last showings of other texts. -/
theorem last?_accept_of_ne (d : Debouncer) (now : Float) (h : y ≠ x) :
    (d.accept x now).1.last? y = d.last? y := by
  by_cases hheld : d.Holds x now
  · rw [accept_of_holds hheld]
  · rw [accept_of_not_holds hheld]
    show List.lookup y (_ :: _) = _
    rw [List.lookup_cons, beq_false_of_ne h]
    exact lookup_filter_of_ne h _

/-- A last showing that is remembered is among the times that are remembered. -/
theorem mem_marks {t : Float} (h : d.last? x = some t) : t ∈ d.marks := by
  obtain ⟨before, after, hentries, -⟩ := List.lookup_eq_some_iff.mp h
  exact List.mem_map.mpr ⟨(x, t), by rw [hentries]; simp, rfl⟩

/-- Whether a text is held back depends on its own last showing and on the cooldown alone. -/
theorem holds_congr (hcooldown : d'.cooldown = d.cooldown) (hlast : d'.last? x = d.last? x) :
    d'.Holds x now ↔ d.Holds x now := by
  unfold Holds
  rw [hcooldown, hlast]

/-- Two debouncers treat the showings of a stream alike: what they know of a card is the same
or holds none of them back. -/
structure Agrees (d d' : Debouncer) (ss : List Showing) : Prop where
  cooldown : d'.cooldown = d.cooldown
  last : ∀ x, d'.last? x = d.last? x ∨
    ∀ k ∈ ss, k.text = x → ¬ d.Holds x k.now ∧ ¬ d'.Holds x k.now

theorem Agrees.refl (d : Debouncer) (ss : List Showing) : d.Agrees d ss := ⟨rfl, fun _ => .inl rfl⟩

theorem Agrees.tail {s : Showing} {ss : List Showing} (h : d.Agrees d' (s :: ss)) :
    d.Agrees d' ss :=
  ⟨h.cooldown, fun x => (h.last x).imp_right fun hold k hk => hold k (List.mem_cons_of_mem s hk)⟩

/-- Debouncers that agree decide the next showing alike. -/
theorem Agrees.holds_iff {s : Showing} {ss : List Showing} (h : d.Agrees d' (s :: ss)) :
    d'.Holds s.text s.now ↔ d.Holds s.text s.now := by
  obtain hlast | hold := h.last s.text
  · exact holds_congr h.cooldown hlast
  · obtain ⟨hd, hd'⟩ := hold s List.mem_cons_self rfl
    exact ⟨fun h => absurd h hd', fun h => absurd h hd⟩

/-- What both debouncers let through, both know of. -/
theorem Agrees.keep {s : Showing} {ss : List Showing} (h : d.Agrees d' (s :: ss))
    (hfree : ¬ d.Holds s.text s.now) :
    (d.accept s.text s.now).1.Agrees (d'.accept s.text s.now).1 ss := by
  have hcooldown := cooldown_accept d s.text s.now
  have hcooldown' := cooldown_accept d' s.text s.now
  refine ⟨by rw [hcooldown, hcooldown', h.cooldown], fun x => ?_⟩
  by_cases hx : x = s.text
  · left
    rw [hx, last?_accept_self hfree, last?_accept_self (mt h.holds_iff.mp hfree)]
  · -- of other cards both know what they knew before
    have hlast := last?_accept_of_ne d s.now hx
    have hlast' := last?_accept_of_ne d' s.now hx
    refine (h.tail.last x).imp (fun hsame => ?_) fun hold k hk htext => ?_
    · rw [hlast, hlast', hsame]
    · obtain ⟨hd, hd'⟩ := hold k hk htext
      exact ⟨mt (holds_congr hcooldown hlast).mp hd, mt (holds_congr hcooldown' hlast').mp hd'⟩

/-- Only one debouncer knows of a card that is let through; this does not matter as long as it
hides nothing. -/
theorem Agrees.drop {s : Showing} {ss : List Showing} (h : d.Agrees d' ss)
    (hfree : ¬ d.Holds s.text s.now)
    (hhides : ∀ k ∈ ss, k.text = s.text → ¬ k.now - s.now < d.cooldown)
    (hclock : ∀ t ∈ d'.marks, ∀ k ∈ ss, k.now - t < d.cooldown → s.now - t < d.cooldown) :
    (d.accept s.text s.now).1.Agrees d' ss := by
  have hcooldown := cooldown_accept d s.text s.now
  refine ⟨by rw [hcooldown, h.cooldown], fun x => ?_⟩
  by_cases hx : x = s.text
  · subst hx
    right
    intro k hk htext
    constructor
    · rintro ⟨last, hlast, hrecent⟩
      rw [last?_accept_self hfree] at hlast
      rw [hcooldown, ← Option.some.inj hlast] at hrecent
      exact hhides k hk htext hrecent
    · obtain hsame | hold := h.last s.text
      · -- what was old when the card was struck out is no younger now
        rintro ⟨last, hlast, hrecent⟩
        rw [h.cooldown] at hrecent
        exact hfree ⟨last, hsame ▸ hlast, hclock last (mem_marks hlast) k hk hrecent⟩
      · exact (hold k hk htext).2
  · have hlast := last?_accept_of_ne d s.now hx
    refine (h.last x).imp (fun hsame => ?_) fun hold k hk htext => ?_
    · rw [hlast, hsame]
    · obtain ⟨hd, hd'⟩ := hold k hk htext
      exact ⟨mt (holds_congr hcooldown hlast).mp hd, hd'⟩

/-- No time is remembered but those from before and the present one. -/
theorem marks_accept_subset (d : Debouncer) (x : Text) (now : Float) :
    (d.accept x now).1.marks ⊆ now :: d.marks := by
  by_cases h : d.Holds x now
  · rw [accept_of_holds h]
    exact List.subset_cons_self _ _
  · rw [accept_of_not_holds h]
    exact List.cons_subset_cons now (List.map_subset _ List.filter_sublist.subset)

end Debouncer

/-! ## Cards and the entry point -/

namespace MarkerFeed

/-- A card is held up. -/
def see (f : MarkerFeed) (s : Showing) : MarkerFeed := (f.onPayload s.running s.now s.payload).1

/-- Cards are held up one after another. -/
def seeAll (f : MarkerFeed) (ss : List Showing) : MarkerFeed := ss.foldl see f

variable {f f' : MarkerFeed} {s : Showing}

/-- A payload that is no marker leaves the feed as it was. -/
theorem see_of_unknown (h : Marker.parse? s.payload = none) : f.see s = f := by
  unfold see onPayload Debouncer.onPayload
  rw [h]

/-- A showing that is held back leaves the feed as it was. -/
theorem see_of_holds (h : f.debouncer.Holds s.text s.now) : f.see s = f := by
  unfold see onPayload Debouncer.onPayload
  cases hparse : Marker.parse? s.payload with
  | none => rfl
  | some c =>
    have haccept : f.debouncer.accept (Marker.stripped s.payload) s.now = (f.debouncer, false) :=
      Debouncer.accept_of_holds h
    simp only [haccept]
    rfl

/-- A marker that is let through is submitted and noted, even if the submission is dropped. -/
theorem see_of_free {c : Command} (hparse : Marker.parse? s.payload = some c)
    (h : ¬ f.debouncer.Holds s.text s.now) :
    f.see s =
      ⟨(f.ingestion.submit s.running s.now c).1, (f.debouncer.accept s.text s.now).1⟩ := by
  have haccept : (f.debouncer.accept (Marker.stripped s.payload) s.now).2 = true := by
    have := Debouncer.accept_of_not_holds h
    exact congrArg Prod.snd this
  unfold see onPayload Debouncer.onPayload
  rw [hparse]
  simp only [haccept]
  rfl

/-- A card that is held up during a run does nothing to the entry point. -/
theorem ingestion_see_of_running (f : MarkerFeed) (h : s.running = true) :
    (f.see s).ingestion = f.ingestion := by
  cases hparse : Marker.parse? s.payload with
  | none => rw [see_of_unknown hparse]
  | some c =>
    by_cases hheld : f.debouncer.Holds s.text s.now
    · rw [see_of_holds hheld]
    · rw [see_of_free hparse hheld]
      exact congrArg Prod.fst (if_pos h)

/-- Seeing a card leaves the debouncer or has it accept the card. -/
theorem debouncer_see (f : MarkerFeed) (s : Showing) :
    (f.see s).debouncer = f.debouncer ∨
      (f.see s).debouncer = (f.debouncer.accept s.text s.now).1 := by
  cases hparse : Marker.parse? s.payload with
  | none => exact .inl (by rw [see_of_unknown hparse])
  | some c =>
    by_cases hheld : f.debouncer.Holds s.text s.now
    · exact .inl (by rw [see_of_holds hheld])
    · exact .inr (by rw [see_of_free hparse hheld])

/-- The cooldown never changes by what is seen. -/
theorem cooldown_see (f : MarkerFeed) (s : Showing) :
    (f.see s).debouncer.cooldown = f.debouncer.cooldown := by
  obtain h | h := f.debouncer_see s
  · rw [h]
  · rw [h, Debouncer.cooldown_accept]

/-- Seeing a card adds no time but the present one. -/
theorem marks_see_subset (f : MarkerFeed) (s : Showing) :
    (f.see s).debouncer.marks ⊆ s.now :: f.debouncer.marks := by
  obtain h | h := f.debouncer_see s
  · rw [h]
    exact List.subset_cons_self _ _
  · rw [h]
    exact f.debouncer.marks_accept_subset s.text s.now

/-! ## Streams of showings -/

section Streams

variable {ss kept : List Showing} {marks : List Float} {cooldown : Float}

/-- A showing that is in both streams. -/
theorem keep_step (hsame : f'.ingestion = f.ingestion)
    (hagrees : f.debouncer.Agrees f'.debouncer (s :: kept)) :
    (f'.see s).ingestion = (f.see s).ingestion ∧
      (f.see s).debouncer.Agrees (f'.see s).debouncer kept := by
  cases hparse : Marker.parse? s.payload with
  | none =>
    rw [see_of_unknown hparse, see_of_unknown hparse]
    exact ⟨hsame, hagrees.tail⟩
  | some c =>
    by_cases hheld : f.debouncer.Holds s.text s.now
    · rw [see_of_holds hheld, see_of_holds (hagrees.holds_iff.mpr hheld)]
      exact ⟨hsame, hagrees.tail⟩
    · rw [see_of_free hparse hheld, see_of_free hparse (mt hagrees.holds_iff.mp hheld), hsame]
      exact ⟨rfl, hagrees.keep hheld⟩

/-- A showing that has been struck out of the second stream. -/
theorem drop_step (hagrees : f.debouncer.Agrees f'.debouncer kept)
    (hhides : ∀ k ∈ kept, ¬ s.Hides f.debouncer.cooldown k)
    (hclock : ∀ t ∈ f'.debouncer.marks, ∀ k ∈ kept,
      k.now - t < f.debouncer.cooldown → s.now - t < f.debouncer.cooldown) :
    (f.see s).debouncer.Agrees f'.debouncer kept := by
  cases hparse : Marker.parse? s.payload with
  | none =>
    rw [see_of_unknown hparse]
    exact hagrees
  | some c =>
    by_cases hheld : f.debouncer.Holds s.text s.now
    · rw [see_of_holds hheld]
      exact hagrees
    · rw [see_of_free hparse hheld]
      have hknown : (Marker.parse? s.payload).isSome = true := by rw [hparse]; rfl
      exact hagrees.drop hheld
        (fun k hk htext hrecent => hhides k hk ⟨hknown, htext, hrecent⟩) hclock

/-- Feeds whose debouncers agree on the showings that are kept come to the same ingestion,
though one of them sees all the showings. -/
theorem ingestion_seeAll_of_agrees (hthin : Thinned cooldown ss kept)
    (hcooldown : f.debouncer.cooldown = cooldown) (hsame : f'.ingestion = f.ingestion)
    (hagrees : f.debouncer.Agrees f'.debouncer kept) (hmarks : f'.debouncer.marks ⊆ marks)
    (htimes : ∀ s ∈ ss, s.now ∈ marks) (hforward : Forward cooldown marks ss) :
    (f'.seeAll kept).ingestion = (f.seeAll ss).ingestion := by
  induction hthin generalizing f f' with
  | nil => exact hsame
  | keep s hthin ih =>
    obtain ⟨hsame', hagrees'⟩ := keep_step hsame hagrees
    refine ih (by rw [cooldown_see, hcooldown]) hsame' hagrees' ?_
      (fun k hk => htimes k (List.mem_cons_of_mem s hk)) (List.Pairwise.of_cons hforward)
    exact fun t ht => (List.mem_cons.mp (marks_see_subset f' s ht)).elim
      (fun h => h ▸ htimes s List.mem_cons_self) (hmarks ·)
  | @drop s ss kept hrunning hhides hthin ih =>
    -- only the debouncer of the whole stream may take note of this card
    obtain ⟨hclock, hlater⟩ := List.pairwise_cons.mp hforward
    have hagrees' : (f.see s).debouncer.Agrees f'.debouncer kept := by
      refine drop_step hagrees (hcooldown ▸ hhides) fun t ht k hk => ?_
      rw [hcooldown]
      exact hclock k (hthin.subset hk) t (hmarks ht)
    exact ih (by rw [cooldown_see, hcooldown])
      (hsame.trans (f.ingestion_see_of_running hrunning).symm) hagrees' hmarks
      (fun k hk => htimes k (List.mem_cons_of_mem s hk)) hlater

/-- Cards that are held up during a run can be struck out of a stream as long as none of them
is held up again within the cooldown: program, pending loop and notice come out the same.  This
takes a clock that does not go backwards. -/
theorem ingestion_seeAll_of_thinned (f : MarkerFeed) {ss kept : List Showing}
    (hthin : Thinned f.debouncer.cooldown ss kept)
    (hforward : Forward f.debouncer.cooldown (f.debouncer.marks ++ ss.map Showing.now) ss) :
    (f.seeAll kept).ingestion = (f.seeAll ss).ingestion :=
  ingestion_seeAll_of_agrees hthin rfl rfl (.refl _ _) (List.subset_append_left _ _)
    (fun _ hs => List.mem_append_right _ (List.mem_map_of_mem hs)) hforward

/-- A card is held up during a run and twice after it, the second time too soon. -/
def held (text : Text) : List Showing :=
  [⟨true, 0, text⟩, ⟨false, 2, text⟩, ⟨false, 3, text⟩]

/-- The showing during the run can be left out, and the two after it count as one. -/
theorem ingestion_seeAll_of_thinned_held :
    let f : MarkerFeed := { ingestion := { program := .ofCommands [] } }
    Thinned f.debouncer.cooldown (held "forward") (held "forward").tail ∧
      Forward f.debouncer.cooldown (f.debouncer.marks ++ (held "forward").map Showing.now)
        (held "forward") ∧
      (f.seeAll (held "forward")).ingestion.program.commands = [.basic .forward] := by
  intro f
  have hthin : Thinned f.debouncer.cooldown (held "forward") (held "forward").tail := by
    have hhides : ∀ k ∈ (held "forward").tail,
        ¬ Showing.Hides f.debouncer.cooldown ⟨true, 0, "forward"⟩ k := by
      decide +kernel
    exact .drop _ rfl hhides (.keep _ (.keep _ .nil))
  have hforward : Forward f.debouncer.cooldown
      (f.debouncer.marks ++ (held "forward").map Showing.now) (held "forward") := by
    unfold Forward
    decide +kernel
  refine ⟨hthin, hforward, ?_⟩
  rw [← f.ingestion_seeAll_of_thinned hthin hforward]
  decide +kernel

/-- Where a card is held up during a run and let through, the same card does nothing within the
cooldown, whether or not the run is over by then. -/
theorem ingestion_see_of_hidden (f : MarkerFeed) {s k : Showing} (hrunning : s.running = true)
    (hfree : ¬ f.debouncer.Holds s.text s.now) (hhides : s.Hides f.debouncer.cooldown k) :
    ((f.see s).see k).ingestion = f.ingestion := by
  obtain ⟨hknown, htext, hrecent⟩ := hhides
  obtain ⟨c, hparse⟩ := Option.isSome_iff_exists.mp hknown
  have hheld : (f.see s).debouncer.Holds k.text k.now := by
    rw [see_of_free hparse hfree, htext]
    refine ⟨s.now, Debouncer.last?_accept_self hfree, ?_⟩
    rw [Debouncer.cooldown_accept]
    exact hrecent
  rw [see_of_holds hheld]
  exact f.ingestion_see_of_running hrunning

/-- A card is held up during a run and again a second later: it is taken for the same card
held in view, and does nothing at all. -/
theorem hidden_after_run :
    let f : MarkerFeed := { ingestion := { program := .ofCommands [] } }
    let during : Showing := ⟨true, 0, "forward"⟩
    let after : Showing := ⟨false, 1, "forward"⟩
    (f.seeAll [during, after]).ingestion.program.commands = [] ∧
      (f.seeAll [after]).ingestion.program.commands = [.basic .forward] := by
  decide +kernel

end Streams

end MarkerFeed

end MazeRobot
