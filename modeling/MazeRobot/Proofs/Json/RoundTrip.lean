import MazeRobot.Proofs.Json.Numbers
import MazeRobot.Proofs.Json.Strings

/-!
# Values are read back

`Plain room v` says that nothing stands in the way of writing `v` and reading it back.
What the reader does with the text of such a value comes down to what it does with the
value (`run_write`), in any layout and any dialect; so the text of a plain value is read
as that value (`read_render`).

A number ends where something else begins.  What comes after the text of a value
therefore enters `run_write` as a continuation that does not mind whether a number has
been ended (`Reading.Settles`).
-/

namespace MazeRobot

namespace Json

/-! ## What may be read back -/

/-- Values without doubles, halves of surrogate pairs and overlong numbers, in which at
most `room` arrays and objects stand inside each other. -/
inductive Plain : (room : Nat) → Json → Prop where
  | null {room : Nat} : Plain room .null
  | bool {room : Nat} (b : Bool) : Plain room (.bool b)
  | int {room : Nat} {n : Int} (short : (toString n).length ≤ Numeral.maxWholeDigits) :
    Plain room (.int n)
  | str {room : Nat} (s : String) : Plain room (.str s)
  | arr {room : Nat} {items : List Json} (plain : ∀ v ∈ items, Plain room v) :
    Plain (room + 1) (.arr items)
  | obj {room : Nat} {fields : List (Text × Json)}
    (keys : ∀ f ∈ fields, ∃ k : String, f.1 = .ofString k)
    (plain : ∀ f ∈ fields, Plain room f.2) : Plain (room + 1) (.obj fields)

/-! ## What is written -/

/-- The text of the items behind the first. -/
theorem points_writeItems (layout : Layout) (depth : Nat) (v : Json) (vs : List Json) :
    (writeItems layout depth (v :: vs)).points = (layout.separator depth).points ++
      ((write layout depth v).points ++ (writeItems layout depth vs).points) := by
  rw [writeItems]
  rfl

/-- The text of an array that is not empty. -/
theorem points_write_arr (layout : Layout) (depth : Nat) (v : Json) (vs : List Json) :
    (write layout depth (.arr (v :: vs))).points =
      .char '[' :: ((layout.margin (depth + 1)).points ++
        ((write layout (depth + 1) v).points ++ ((writeItems layout (depth + 1) vs).points ++
          ((layout.margin depth).points ++ [.char ']'])))) := by
  rw [write]
  rfl

/-- The text of the fields behind the first. -/
theorem points_writeFields (layout : Layout) (depth : Nat) (key : Text) (v : Json)
    (fields : List (Text × Json)) :
    (writeFields layout depth ((key, v) :: fields)).points = (layout.separator depth).points ++
      ((writeText layout.asciiOnly key).points ++ (layout.colon.points ++
        ((write layout depth v).points ++ (writeFields layout depth fields).points))) := by
  rw [writeFields]
  rfl

/-- The text of an object that is not empty. -/
theorem points_write_obj (layout : Layout) (depth : Nat) (key : Text) (v : Json)
    (fields : List (Text × Json)) :
    (write layout depth (.obj ((key, v) :: fields))).points =
      .char '\x7b' :: ((layout.margin (depth + 1)).points ++
        ((writeText layout.asciiOnly key).points ++ (layout.colon.points ++
          ((write layout (depth + 1) v).points ++ ((writeFields layout (depth + 1) fields).points ++
            ((layout.margin depth).points ++ [.char '\x7d'])))))) := by
  rw [write]
  rfl

namespace Reading

variable {dialect : Dialect} {limit room depth : Nat} {layout : Layout} {r : Reading}

/-! ## Blanks -/

/-- Code points that are blanks between the parts of a text. -/
def Gaps (ps : List CodePoint) : Prop := ∀ p ∈ ps, ∃ c, isGap c = true ∧ p = .char c

/-- A new line is made of blanks. -/
theorem gaps_newLine (depth : Nat) : Gaps (Layout.newLine depth).points := by
  intro p hp
  obtain ⟨c, hc, rfl⟩ := List.mem_map.1 hp
  rcases List.mem_cons.1 hc with rfl | hc
  · exact ⟨_, rfl, rfl⟩
  · obtain ⟨-, rfl⟩ := List.mem_replicate.1 hc
    exact ⟨_, rfl, rfl⟩

/-- The space inside of brackets is made of blanks. -/
theorem gaps_margin (layout : Layout) (depth : Nat) : Gaps (layout.margin depth).points := by
  cases layout with
  | indented => exact gaps_newLine depth
  | _ => exact fun p hp => absurd hp List.not_mem_nil

theorem gaps_blank : Gaps [.char ' '] :=
  fun _ hp => ⟨' ', rfl, List.mem_singleton.1 hp⟩

/-- A comma and blanks. -/
theorem points_separator (layout : Layout) (depth : Nat) :
    ∃ gaps, Gaps gaps ∧ (layout.separator depth).points = .char ',' :: gaps := by
  cases layout with
  | compact => exact ⟨[], fun p hp => absurd hp List.not_mem_nil, rfl⟩
  | spaced => exact ⟨_, gaps_blank, rfl⟩
  | indented => exact ⟨_, gaps_newLine depth, rfl⟩

/-- A colon and blanks. -/
theorem points_colon (layout : Layout) :
    ∃ gaps, Gaps gaps ∧ layout.colon.points = .char ':' :: gaps := by
  cases layout with
  | compact => exact ⟨[], fun p hp => absurd hp List.not_mem_nil, rfl⟩
  | _ => exact ⟨_, gaps_blank, rfl⟩

/-- The modes between the parts of a text. -/
def betweenParts : Mode → Bool
  | .value | .firstItem | .firstKey | .key | .colon | .after => true
  | _ => false

/-- Between the parts of a text a blank changes nothing. -/
theorem next_gap (hmode : betweenParts r.mode = true) {c : Char} (hc : isGap c = true) :
    r.next dialect limit c = .ok r := by
  have hbracket : (c == ']') = false := by
    rw [beq_eq_false_iff_ne]
    rintro rfl
    exact absurd hc (by decide)
  obtain ⟨stack, mode, result⟩ := r
  cases mode with
  | value | firstItem | firstKey | key | colon | after =>
    simp only [next, beginValue, beginKey, proceed, hc, hbracket, if_true, Bool.false_eq_true,
      if_false]
  | _ => exact absurd hmode Bool.false_ne_true

/-- Between the parts of a text any number of blanks changes nothing. -/
theorem run_gaps (hmode : betweenParts r.mode = true) {gaps : List CodePoint} (h : Gaps gaps)
    (ps : List CodePoint) : run dialect limit r (gaps ++ ps) = run dialect limit r ps := by
  induction gaps with
  | nil => rfl
  | cons p gaps ih =>
    obtain ⟨c, hc, rfl⟩ := h p List.mem_cons_self
    rw [List.cons_append, run_char_of_ok (next_gap hmode hc)]
    exact ih fun p hp => h p (List.mem_cons_of_mem _ hp)

/-! ## Before a value -/

/-- A value may come next in which at most `room` arrays and objects stand inside each
other. -/
structure Awaits (limit room : Nat) (r : Reading) : Prop where
  mode : r.mode = .value ∨ r.mode = .firstItem
  room : r.stack.length + room ≤ limit

/-- Where the nesting stays within the limit, another array or object may be opened. -/
theorem checkDepth_of_le (h : r.stack.length ≤ limit) : r.checkDepth dialect limit = .ok () := by
  unfold checkDepth
  split
  · next frame outer hstack =>
    rw [hstack] at h
    exact if_pos h
  · rfl

/-- Where the nesting is below the limit an array or object is opened. -/
theorem push_of_lt (h : r.stack.length < limit) (frame : Frame) (mode : Mode) :
    r.push dialect limit frame mode = .ok { r with stack := frame :: r.stack, mode } := by
  rw [push, if_neg]
  rintro ⟨-, hdeep⟩
  omega

/-- Blanks and the end of an array apart, a value has to begin. -/
theorem Awaits.next_eq (h : r.Awaits limit room) {c : Char} (hc : c ≠ ']') :
    r.next dialect limit c = r.beginValue dialect limit c := by
  rcases h.mode with hmode | hmode
  · rw [next, hmode]
  · rw [next, hmode]
    exact if_neg (by simpa using hc)

/-- Where a value may come next the nesting is within the limit. -/
theorem Awaits.checkDepth (h : r.Awaits limit room) : r.checkDepth dialect limit = .ok () :=
  checkDepth_of_le (Nat.le_trans (Nat.le_add_right _ room) h.room)

/-- Where there is room for an array or object there is room for it on the stack. -/
theorem Awaits.length_lt (h : r.Awaits limit (room + 1)) : r.stack.length < limit :=
  Nat.lt_of_lt_of_le (Nat.lt_add_of_pos_right (Nat.succ_pos room)) h.room

/-- A quote opens a text. -/
theorem Awaits.next_quote (h : r.Awaits limit room) :
    r.next dialect limit '"' = .ok { r with mode := .text { isKey := false } } := by
  rw [h.next_eq (by decide), beginValue, h.checkDepth]
  rfl

/-- A bracket opens an array. -/
theorem Awaits.next_bracket (dialect : Dialect) (h : r.Awaits limit (room + 1)) :
    r.next dialect limit '[' =
      .ok { r with stack := .array [] :: r.stack, mode := .firstItem } := by
  rw [h.next_eq (by decide), beginValue, h.checkDepth]
  exact push_of_lt h.length_lt (.array []) .firstItem

/-- A brace opens an object. -/
theorem Awaits.next_brace (dialect : Dialect) (h : r.Awaits limit (room + 1)) :
    r.next dialect limit '\x7b' =
      .ok { r with stack := .object [] none :: r.stack, mode := .firstKey } := by
  rw [h.next_eq (by decide), beginValue, h.checkDepth]
  exact push_of_lt h.length_lt (.object [] none) .firstKey

/-- A minus or a digit begins a number. -/
theorem Awaits.next_number (h : r.Awaits limit room) {c : Char}
    (hc : c = '-' ∨ c.isDigit = true) :
    r.next dialect limit c = .ok { r with mode := .number [c] } := by
  have hother (d : Char) (hd : (d == '-' || d.isDigit) = false) : c ≠ d := by
    rintro rfl
    simp_all
  have hgap : isGap c = false := by simp [isGap, hother]
  rw [h.next_eq (hother _ rfl), beginValue, hgap, h.checkDepth]
  simp [hother, hc]

/-! ## Words and numbers -/

/-- The rest of a word. -/
theorem run_word (r : Reading) (named : Json) {word : List Char} (hword : word ≠ []) :
    run dialect limit { r with mode := .word word named } (word.map .char) = r.deliver named := by
  induction word with
  | nil => exact absurd rfl hword
  | cons c word ih =>
    have hnext : next dialect limit { r with mode := .word (c :: word) named } c =
        if word.isEmpty then r.deliver named else .ok { r with mode := .word word named } :=
      if_pos (beq_self_eq_true c)
    cases word with
    | nil => exact run_last hnext
    | cons d word => rw [List.map_cons, run_char_of_ok hnext, ih (List.cons_ne_nil _ _)]

/-- The characters of a number are collected. -/
theorem run_number (r : Reading) (done : List Char) {cs : List Char}
    (h : ∀ c ∈ cs, isNumberChar c = true) :
    run dialect limit { r with mode := .number done } (cs.map .char) =
      .ok { r with mode := .number (cs.reverse ++ done) } := by
  induction cs generalizing done with
  | nil => rfl
  | cons c cs ih =>
    have hnext : next dialect limit { r with mode := .number done } c =
        .ok { r with mode := .number (c :: done) } := by
      simp only [next, h c List.mem_cons_self, if_true]
    rw [List.map_cons, run_char_of_ok hnext, ih _ fun d hd => h d (List.mem_cons_of_mem _ hd),
      List.reverse_cons, List.append_assoc]
    rfl

/-! ## After a value -/

/-- What is done next does not depend on whether a number that has been read is ended
already. -/
def Settles {α : Type} (dialect : Dialect) (r : Reading) (k : Reading → Except Fault α) : Prop :=
  ∀ done v, number dialect done.reverse = .ok v →
    k { r with mode := .number done } = (r.deliver v).bind k

/-- After a value the reader waits for what follows one. -/
theorem mode_of_deliver {v : Json} {s : Reading} (h : r.deliver v = .ok s) : s.mode = .after := by
  unfold deliver at h
  split at h
  · cases h; rfl
  · cases h; rfl
  · cases h; rfl
  · cases h

/-- The end of the text ends a number. -/
theorem settles_finish (h : r.stack = []) : Settles dialect r (finish dialect) := by
  intro done v hv
  obtain ⟨stack, mode, result⟩ := r
  subst h
  simp only [finish, hv]
  rfl

/-- Whether a character ends a number that stands before it. -/
def endsNumber : List CodePoint → Bool
  | .char c :: _ => !isNumberChar c && !(c == 'I')
  | _ => false

/-- What ends a number is read after it as it is read after a value. -/
theorem settles_run {ps : List CodePoint} (h : endsNumber ps = true) (r : Reading) :
    Settles dialect r fun s => run dialect limit s ps := by
  intro done v hv
  match ps, h with
  | .char c :: ps, h =>
    simp only [endsNumber, Bool.and_eq_true, Bool.not_eq_true'] at h
    have hnext : next dialect limit { r with mode := .number done } c =
        (r.deliver v).bind fun s => s.proceed c := by
      simp only [next, h.1, h.2, hv, Bool.false_and, Bool.false_eq_true, if_false]
      rfl
    simp only [run_char, hnext]
    cases hs : r.deliver v with
    | error fault => rfl
    | ok s =>
      have hproceed : s.next dialect limit c = s.proceed c := by rw [next, mode_of_deliver hs]
      simp only [Except.bind, hproceed]

/-! ## Values -/

/-- Where a value is awaited, reading its text comes down to delivering it. -/
def Reads (dialect : Dialect) (limit : Nat) (layout : Layout) (room : Nat) (v : Json) : Prop :=
  ∀ ⦃α : Type⦄ (depth : Nat) ⦃r : Reading⦄ ⦃k : Reading → Except Fault α⦄,
    r.Awaits limit room → Settles dialect r k →
    (run dialect limit r (write layout depth v).points).bind k = (r.deliver v).bind k

/-- A value that is read back is so before any text that would end a number. -/
theorem Reads.run_append {v : Json} (h : Reads dialect limit layout room v)
    (hr : r.Awaits limit room) {ps : List CodePoint} (hps : endsNumber ps = true) :
    run dialect limit r ((write layout depth v).points ++ ps) =
      (r.deliver v).bind fun s => run dialect limit s ps := by
  rw [Reading.run_append]
  exact h depth hr (settles_run hps r)

/-- A value is read back if reading its text delivers it at once. -/
theorem reads_of_run {v : Json}
    (h : ∀ depth {r : Reading}, r.Awaits limit room →
      run dialect limit r (write layout depth v).points = r.deliver v) :
    Reads dialect limit layout room v := by
  intro α depth r k hr _
  rw [h depth hr]

/-- Values that are written as a word are read back. -/
theorem reads_word {v : Json} {c : Char} {word : List Char} (hword : word ≠ []) (hc : c ≠ ']')
    (hwrite : ∀ depth, (write layout depth v).points = (c :: word).map .char)
    (hbegin : ∀ r : Reading, r.checkDepth dialect limit = .ok () →
      r.beginValue dialect limit c = .ok { r with mode := .word word v }) :
    Reads dialect limit layout room v := by
  refine reads_of_run fun depth r hr => ?_
  have hnext := (hr.next_eq hc).trans (hbegin r hr.checkDepth)
  rw [hwrite, List.map_cons, run_char_of_ok hnext, run_word r v hword]

/-- The null is read back. -/
theorem reads_null : Reads dialect limit layout room .null := by
  refine reads_word (List.cons_ne_nil 'u' ['l', 'l']) (by decide) (fun _ => rfl) fun r h => ?_
  rw [beginValue, h]
  rfl

/-- The truth values are read back. -/
theorem reads_bool (b : Bool) : Reads dialect limit layout room (.bool b) := by
  cases b with
  | true =>
    refine reads_word (List.cons_ne_nil 'r' ['u', 'e']) (by decide) (fun _ => rfl) fun r h => ?_
    rw [beginValue, h]
    rfl
  | false =>
    refine reads_word (List.cons_ne_nil 'a' ['l', 's', 'e']) (by decide) (fun _ => rfl)
      fun r h => ?_
    rw [beginValue, h]
    rfl

/-- Digits belong to numbers. -/
theorem isNumberChar_of_isDigit {c : Char} (h : c.isDigit = true) : isNumberChar c = true := by
  simp [isNumberChar, h]

/-- Whole numbers are read back unless they have too many digits. -/
theorem reads_int {n : Int} (hshort : (toString n).length ≤ Numeral.maxWholeDigits) :
    Reads dialect limit layout room (.int n) := by
  intro α depth r k hr hk
  have hchars : ∀ c ∈ (toString n).toList, c = '-' ∨ c.isDigit = true := by
    intro c hc
    rw [toList_toString_int] at hc
    split at hc
    · exact (List.mem_cons.1 hc).imp_right (isDigit_toDigits n.natAbs c)
    · exact .inr (isDigit_toDigits n.natAbs c hc)
  have hvalue := number_toString dialect hshort
  have hwrite : (write layout depth (.int n)).points = (toString n).toList.map .char := by
    rw [write]
    rfl
  rw [hwrite]
  -- nothing is delivered yet: the digits wait in the mode until something ends the number
  generalize (toString n).toList = cs at hchars hvalue
  cases cs with
  | nil => cases dialect <;> cases hvalue
  | cons c cs =>
    have hrest : ∀ d ∈ cs, isNumberChar d = true := by
      intro d hd
      rcases hchars d (List.mem_cons_of_mem _ hd) with rfl | hdigit
      · rfl
      · exact isNumberChar_of_isDigit hdigit
    rw [List.map_cons, run_char_of_ok (hr.next_number (hchars c List.mem_cons_self)),
      run_number r [c] hrest]
    refine hk _ _ ?_
    rwa [List.reverse_append, List.reverse_reverse]

/-- Strings are read back. -/
theorem reads_str (s : String) : Reads dialect limit layout room (.str s) := by
  refine reads_of_run fun depth r hr => ?_
  rw [write, run_writeText layout.asciiOnly s hr.next_quote, deliverText, List.reverse_reverse]
  rfl

/-! ## Arrays -/

/-- Behind an item there is something that ends a number. -/
theorem endsNumber_items (layout : Layout) (depth depth' : Nat) (vs : List Json)
    (ps : List CodePoint) :
    endsNumber ((writeItems layout depth vs).points ++
      ((layout.margin depth').points ++ .char ']' :: ps)) = true := by
  cases vs <;> cases layout <;> rfl

/-- Further elements, up to the bracket that ends the array. -/
theorem run_items {outer : List Frame} {result : Option Json} {vs : List Json}
    (hvs : ∀ v ∈ vs, Reads dialect limit layout room v) (hroom : outer.length + 1 + room ≤ limit)
    (done : List Json) (depth depth' : Nat) :
    run dialect limit ⟨.array done :: outer, .after, result⟩
        ((writeItems layout depth vs).points ++ ((layout.margin depth').points ++ [.char ']'])) =
      deliver ⟨outer, .after, result⟩ (.arr (done.reverse ++ vs)) := by
  induction vs generalizing done with
  | nil =>
    have hclose : next dialect limit ⟨.array done :: outer, .after, result⟩ ']' =
        deliver ⟨outer, .after, result⟩ (.arr done.reverse) := rfl
    rw [List.append_nil]
    exact (run_gaps rfl (gaps_margin layout depth') _).trans (run_last hclose)
  | cons v vs ih =>
    obtain ⟨hv, hvs⟩ := List.forall_mem_cons.1 hvs
    obtain ⟨gaps, hgaps, hseparator⟩ := points_separator layout depth
    have hcomma : next dialect limit ⟨.array done :: outer, .after, result⟩ ',' =
        .ok ⟨.array done :: outer, .value, result⟩ := rfl
    have hr : Awaits limit room ⟨.array done :: outer, .value, result⟩ := ⟨.inl rfl, hroom⟩
    have hrest := ih hvs (v :: done)
    rw [List.reverse_cons, List.append_assoc, List.singleton_append] at hrest
    -- the comma, blanks and the element; what follows is the induction hypothesis
    rw [points_writeItems, hseparator]
    simp only [List.cons_append, List.append_assoc]
    rw [run_char_of_ok hcomma, run_gaps rfl hgaps,
      hv.run_append hr (endsNumber_items layout depth depth' vs [])]
    exact hrest

/-- An array is read back, one level down, if its items are. -/
theorem reads_arr {items : List Json} (h : ∀ v ∈ items, Reads dialect limit layout room v) :
    Reads dialect limit layout (room + 1) (.arr items) := by
  refine reads_of_run fun depth r hr => ?_
  obtain ⟨stack, mode, result⟩ := r
  -- the bracket takes one of the levels that are left
  have hopen := hr.next_bracket dialect
  have hroom : stack.length + 1 + room ≤ limit := by
    have : stack.length + (room + 1) ≤ limit := hr.room
    omega
  cases items with
  | nil =>
    have hpoints : (write layout depth (.arr [])).points = [.char '[', .char ']'] := by
      rw [write]
      rfl
    rw [hpoints, run_char_of_ok hopen]
    exact run_last rfl
  | cons v rest =>
    obtain ⟨hv, hrest⟩ := List.forall_mem_cons.1 h
    have hr : Awaits limit room ⟨.array [] :: stack, .firstItem, result⟩ := ⟨.inr rfl, hroom⟩
    rw [points_write_arr, run_char_of_ok hopen, run_gaps rfl (gaps_margin layout (depth + 1)),
      hv.run_append hr (endsNumber_items layout (depth + 1) depth rest [])]
    exact run_items hrest hroom [v] (depth + 1) depth

/-! ## Objects -/

/-- Behind the value of a field there is something that ends a number. -/
theorem endsNumber_fields (layout : Layout) (depth depth' : Nat) (fields : List (Text × Json))
    (ps : List CodePoint) :
    endsNumber ((writeFields layout depth fields).points ++
      ((layout.margin depth').points ++ .char '\x7d' :: ps)) = true := by
  cases fields <;> cases layout <;> rfl

/-- A quote opens a key. -/
theorem next_key {frame : Frame} {outer : List Frame} {mode : Mode} {result : Option Json}
    (hmode : mode = .key ∨ mode = .firstKey) (hroom : outer.length + 1 ≤ limit) :
    next dialect limit ⟨frame :: outer, mode, result⟩ '"' =
      .ok ⟨frame :: outer, .text { isKey := true }, result⟩ := by
  have hdepth : checkDepth dialect limit ⟨frame :: outer, mode, result⟩ = .ok () :=
    checkDepth_of_le hroom
  have hbegin : beginKey dialect limit ⟨frame :: outer, mode, result⟩ '"' =
      .ok ⟨frame :: outer, .text { isKey := true }, result⟩ := by
    rw [beginKey, hdepth]
    rfl
  rcases hmode with rfl | rfl <;> exact hbegin

/-- A key, the colon and the value. -/
theorem run_field {outer : List Frame} (depth : Nat) (mode : Mode) (result : Option Json)
    (hmode : mode = .key ∨ mode = .firstKey) (hroom : outer.length + 1 + room ≤ limit)
    (done : List (Text × Json)) (k : String) {v : Json} (hv : Reads dialect limit layout room v)
    {ps : List CodePoint} (hps : endsNumber ps = true) :
    run dialect limit ⟨.object done none :: outer, mode, result⟩
        ((writeText layout.asciiOnly k).points ++ (layout.colon.points ++
          ((write layout depth v).points ++ ps))) =
      run dialect limit ⟨.object ((.ofString k, v) :: done) none :: outer, .after, result⟩ ps := by
  have hkey : run dialect limit ⟨.object done none :: outer, mode, result⟩
      (writeText layout.asciiOnly k).points =
        .ok ⟨.object done (some (.ofString k)) :: outer, .colon, result⟩ := by
    rw [run_writeText layout.asciiOnly k (next_key hmode (by omega)), deliverText,
      List.reverse_reverse]
    rfl
  obtain ⟨gaps, hgaps, hcolon⟩ := points_colon layout
  have hnext : next dialect limit ⟨.object done (some (.ofString k)) :: outer, .colon, result⟩
      ':' = .ok ⟨.object done (some (.ofString k)) :: outer, .value, result⟩ := rfl
  have hr : Awaits limit room ⟨.object done (some (.ofString k)) :: outer, .value, result⟩ :=
    ⟨.inl rfl, hroom⟩
  rw [run_append_of_ok hkey, hcolon, List.cons_append, run_char_of_ok hnext, run_gaps rfl hgaps,
    hv.run_append hr hps]
  rfl

/-- Further fields, up to the brace that ends the object. -/
theorem run_fields {outer : List Frame} (result : Option Json) {fields : List (Text × Json)}
    (hkeys : ∀ f ∈ fields, ∃ k : String, f.1 = .ofString k)
    (hfields : ∀ f ∈ fields, Reads dialect limit layout room f.2)
    (hroom : outer.length + 1 + room ≤ limit) (done : List (Text × Json)) (depth depth' : Nat) :
    run dialect limit ⟨.object done none :: outer, .after, result⟩
        ((writeFields layout depth fields).points ++
          ((layout.margin depth').points ++ [.char '\x7d'])) =
      deliver ⟨outer, .after, result⟩ (.obj (done.reverse ++ fields)) := by
  induction fields generalizing done with
  | nil =>
    have hclose : next dialect limit ⟨.object done none :: outer, .after, result⟩ '\x7d' =
        deliver ⟨outer, .after, result⟩ (.obj done.reverse) := rfl
    rw [List.append_nil]
    exact (run_gaps rfl (gaps_margin layout depth') _).trans (run_last hclose)
  | cons f fields ih =>
    obtain ⟨key, v⟩ := f
    obtain ⟨hkey, hkeys'⟩ := List.forall_mem_cons.1 hkeys
    obtain ⟨hv, hfields'⟩ := List.forall_mem_cons.1 hfields
    obtain ⟨k, rfl⟩ : ∃ k : String, key = .ofString k := hkey
    obtain ⟨gaps, hgaps, hseparator⟩ := points_separator layout depth
    -- a separator brings the reader back to a key, one field richer
    have hcomma : next dialect limit ⟨.object done none :: outer, .after, result⟩ ',' =
        .ok ⟨.object done none :: outer, .key, result⟩ := rfl
    have hfield := run_field depth .key result (.inl rfl) hroom done k hv
      (endsNumber_fields layout depth depth' fields [])
    have hrest := ih hkeys' hfields' ((.ofString k, v) :: done)
    rw [List.reverse_cons, List.append_assoc, List.singleton_append] at hrest
    rw [points_writeFields, hseparator]
    simp only [List.cons_append, List.append_assoc]
    rw [run_char_of_ok hcomma, run_gaps rfl hgaps, hfield, hrest]

/-- An object is read back, one level down, if the values of its fields are. -/
theorem reads_obj {fields : List (Text × Json)}
    (hkeys : ∀ f ∈ fields, ∃ k : String, f.1 = .ofString k)
    (hfields : ∀ f ∈ fields, Reads dialect limit layout room f.2) :
    Reads dialect limit layout (room + 1) (.obj fields) := by
  refine reads_of_run fun depth r hr => ?_
  obtain ⟨stack, mode, result⟩ := r
  -- the brace takes one of the levels that are left
  have hopen := hr.next_brace dialect
  have hroom : stack.length + 1 + room ≤ limit := by
    have : stack.length + (room + 1) ≤ limit := hr.room
    omega
  cases fields with
  | nil =>
    have hpoints : (write layout depth (.obj [])).points = [.char '\x7b', .char '\x7d'] := by
      rw [write]
      rfl
    rw [hpoints, run_char_of_ok hopen]
    exact run_last rfl
  | cons f rest =>
    obtain ⟨key, v⟩ := f
    obtain ⟨hkey, hkeys'⟩ := List.forall_mem_cons.1 hkeys
    obtain ⟨hv, hfields'⟩ := List.forall_mem_cons.1 hfields
    obtain ⟨k, rfl⟩ : ∃ k : String, key = .ofString k := hkey
    -- the first field has no separator in front; the others follow it with one
    have hfield := run_field (depth + 1) .firstKey result (.inr rfl) hroom [] k hv
      (endsNumber_fields layout (depth + 1) depth rest [])
    have hrest := run_fields result hkeys' hfields' hroom [(.ofString k, v)] (depth + 1) depth
    rw [points_write_obj, run_char_of_ok hopen, run_gaps rfl (gaps_margin layout (depth + 1)),
      hfield, hrest]
    rfl

/-- Reading the text of a plain value comes down to delivering the value. -/
theorem run_write {v : Json} (h : Plain room v) : Reads dialect limit layout room v := by
  induction h with
  | null => exact reads_null
  | bool b => exact reads_bool b
  | int short => exact reads_int short
  | str s => exact reads_str s
  | arr _ ih => exact reads_arr ih
  | obj keys _ ih => exact reads_obj keys ih

end Reading

/-- A plain value is read back from its text, whatever the layout and the dialect. -/
theorem read_render (dialect : Dialect) {limit : Nat} (layout : Layout) {v : Json}
    (h : Plain limit v) : read dialect limit (v.render layout) = .ok v := by
  have hr : Reading.Awaits limit limit {} := ⟨.inl rfl, by simp⟩
  exact Reading.run_write h 0 hr (Reading.settles_finish rfl)

end Json

end MazeRobot
