import MazeRobot.Command.Levels
import MazeRobot.Command.Unroll
import MazeRobot.Proofs.Validation

/-!
# Records of commands are read back

`Command.check` succeeds on a record exactly if the record names the kind, the count and the
body of the command that comes out (`check_eq_ok_iff`).  Everything else here follows from that
one statement, by induction on the command.

A command that was read is normal and has no more levels than are read (`sound_of_check`).  The
other way round, a record that names kind, count and body of a normal command is read back as
that command, again if it has no more levels than are read, and otherwise not at all
(`check_write`).  Both written forms are such records (`faithful_wire`, `faithful_full`).

## Key results

- `check_eq_ok_iff`: what a record says that checks out
- `check_write`: which records are read back, and as what
- `eq_of_write_eq`: written forms tell commands apart, however deep they are
- `ofJson_written`: the round trip, its limit, and its fixed points
-/

namespace MazeRobot

theorem forall_mem_none {α : Type} {p : α → Prop} : ∀ a ∈ (none : Option α), p a :=
  fun a ha => absurd ha (Option.not_mem_none a)

namespace Command

variable {source : Source} {n : Nat} {c d : Command} {fields : List (Text × Json)}

/-! ## What a record says that checks out -/

/-- A command is told by its kind, its count and its body. -/
theorem eq_of_parts (hkind : c.kind = d.kind) (hcount : c.count? = d.count?)
    (hchildren : c.children = d.children) : c = d := by
  cases c with
  | basic a =>
    cases d with
    | basic b => cases a <;> cases b <;> first | rfl | cases hkind
    | loop count body => cases a <;> cases hkind
  | loop count body =>
    cases d with
    | basic b => cases b <;> cases hkind
    | loop count' body' =>
      obtain rfl : count = count' := hcount
      obtain rfl : body = body' := hchildren
      rfl

/-- A command is assembled from its own parts. -/
theorem assemble_parts (c : Command) : assemble c.kind c.count? c.children = .ok c := by
  cases c with
  | basic a =>
    show assemble a.kind none [] = .ok (basic a)
    simp [assemble]
  | loop count body => rfl

/-- What is put together has the parts it was put together from. -/
theorem assemble_eq_ok_iff {kind : Kind} {count : Option Nat} {body : List Command} :
    assemble kind count body = .ok c ↔ kind = c.kind ∧ count = c.count? ∧ body = c.children := by
  constructor
  · intro h
    unfold assemble at h
    split at h
    · next hloop =>
      obtain rfl := Except.ok.inj h
      cases kind with
      | loop => exact ⟨rfl, rfl, rfl⟩
      | forward | turnRight | turnLeft | ifHole => cases hloop
    · next a haction =>
      -- neither of the two complaints was made
      split at h
      · cases h
      · next hbody =>
        split at h
        · cases h
        · next hcount =>
          obtain rfl := Except.ok.inj h
          obtain rfl : count = none := by simpa using hcount
          obtain rfl : body = [] := by simpa using hbody
          exact ⟨Kind.action?_eq_some_iff.mp haction, rfl, rfl⟩
  · rintro ⟨rfl, rfl, rfl⟩
    exact assemble_parts c

/-- A missing body counts as checked, and one that is there is checked. -/
theorem checkBodyField_eq (source : Source) (n : Nat) (fields : List (Text × Json)) :
    checkBodyField source n fields = (Json.field? "children" fields).map (checkBody source n) := by
  induction fields with
  | nil => rfl
  | cons field rest ih =>
    obtain ⟨k, v⟩ := field
    rw [checkBodyField, Json.field?, ih]
    cases Json.field? "children" rest with
    | some w => rfl
    | none =>
      dsimp only [Option.map_none]
      rw [apply_ite (Option.map _)]
      rfl

/-- Without a field for the body, the body is empty. -/
theorem getD_checkBodyField (source : Source) (n : Nat) (fields : List (Text × Json)) :
    (checkBodyField source n fields).getD (.ok []) =
      checkBody source n ((Json.field? "children" fields).getD (.arr [])) := by
  rw [checkBodyField_eq]
  cases Json.field? "children" fields <;> rfl

/-- A record checks out if its kind, its count and its body do. -/
theorem check_eq_ok_iff {v : Json} :
    check source n v = .ok c ↔
      ∃ fields, v = .obj fields ∧ n ≠ 0 ∧ checkKind fields = .ok c.kind ∧
        checkCountField fields = .ok c.count? ∧
        checkBody source (n - 1) ((Json.field? "children" fields).getD (.arr [])) =
          .ok c.children := by
  cases v with
  | obj fields =>
    rw [check, getD_checkBodyField]
    by_cases hn : n = 0
    · rw [if_pos hn]
      constructor
      · intro h
        cases h
      · rintro ⟨_, _, hne, _⟩
        exact absurd hn hne
    · rw [if_neg hn]
      -- the three fields are checked apart, so each gives its own part of the record
      simp only [bind_eq_ok_iff, Checked.both_eq_ok_iff, Checked.within_eq_ok_iff,
        assemble_eq_ok_iff]
      constructor
      · rintro ⟨⟨kind, count, body⟩, ⟨hkind, hcount, hbody⟩, rfl, rfl, rfl⟩
        exact ⟨fields, rfl, hn, hkind, hcount, hbody⟩
      · rintro ⟨_, hfields, -, hkind, hcount, hbody⟩
        obtain rfl := Json.obj.inj hfields
        exact ⟨⟨_, _, _⟩, ⟨hkind, hcount, hbody⟩, rfl, rfl, rfl⟩
  | null | bool | int | real | str | arr =>
    constructor
    · intro h
      cases h
    · rintro ⟨_, hfields, _⟩
      cases hfields

/-- Items check out if the first does and the rest do. -/
theorem checkItems_cons_eq_ok_iff {i : Nat} {v : Json} {rest : List Json} {cs : List Command} :
    checkItems source n i (v :: rest) = .ok cs ↔
      ∃ c cs', cs = c :: cs' ∧ check source n v = .ok c ∧
        checkItems source n (i + 1) rest = .ok cs' := by
  simp only [checkItems, map_eq_ok_iff, Checked.both_eq_ok_iff, Checked.within_eq_ok_iff]
  constructor
  · rintro ⟨⟨c, cs'⟩, ⟨hc, hcs⟩, rfl⟩
    exact ⟨c, cs', rfl, hc, hcs⟩
  · rintro ⟨c, cs', rfl, hc, hcs⟩
    exact ⟨(c, cs'), ⟨hc, hcs⟩, rfl⟩

/-- A count that was read is in range. -/
theorem count_le_of_checkCount {v : Json} {count : Option Nat} (h : checkCount v = .ok count) :
    ∀ k ∈ count, k ≤ maxLoopCount := by
  unfold checkCount at h
  split at h
  · obtain rfl := Except.ok.inj h
    exact forall_mem_none
  · obtain ⟨m, -, rfl⟩ := map_eq_ok_iff.mp h
    intro k hk
    obtain rfl := Option.some.inj hk
    exact capCount_le m

/-- A count that checks out is at most the largest allowed. -/
theorem count_le_of_checkCountField {count : Option Nat} (h : checkCountField fields = .ok count) :
    ∀ k ∈ count, k ≤ maxLoopCount := by
  unfold checkCountField at h
  split at h
  · obtain rfl := Except.ok.inj h
    exact forall_mem_none
  · unfold Checked.required at h
    rw [Checked.within_eq_ok_iff] at h
    split at h
    · cases h
    · exact count_le_of_checkCount h

/-- Only an array can be a body, and its items have to check out. -/
theorem checkBody_eq_ok_iff {v : Json} {cs : List Command} :
    checkBody source n v = .ok cs ↔
      ∃ items, v = .arr items ∧ checkItems source n 0 items = .ok cs := by
  cases v with
  | arr items => simp [checkBody]
  | null | bool | int | real | str | obj => simp [checkBody, Checked.complain]

mutual

/-- A command that was read is normal and has no more levels than are read. -/
theorem sound_of_check {source : Source} {n : Nat} {v : Json} : (c : Command) →
    check source n v = .ok c → c.Normal ∧ c.levels ≤ n
  | basic a, h => by
    obtain ⟨fields, -, hn, -⟩ := check_eq_ok_iff.mp h
    exact ⟨.basic a, Nat.one_le_iff_ne_zero.mpr hn⟩
  | loop count body, h => by
    obtain ⟨fields, -, hn, -, hcount, hbody⟩ := check_eq_ok_iff.mp h
    obtain ⟨items, -, hitems⟩ := checkBody_eq_ok_iff.mp hbody
    -- the body was read with one level less
    obtain ⟨hnormal, hlevels⟩ := sound_of_checkItems body hitems
    refine ⟨.loop (count_le_of_checkCountField hcount) hnormal, ?_⟩
    rw [levels]
    omega

/-- Items that check out are in normal form and not too deep. -/
theorem sound_of_checkItems {source : Source} {n i : Nat} {items : List Json} :
    (cs : List Command) → checkItems source n i items = .ok cs →
    (∀ c ∈ cs, c.Normal) ∧ levelsAll cs ≤ n
  | [], _ => ⟨List.forall_mem_nil _, Nat.zero_le n⟩
  | c :: cs, h => by
    cases items with
    | nil => cases h
    | cons v rest =>
      obtain ⟨c', cs', hcons, hc, hcs⟩ := checkItems_cons_eq_ok_iff.mp h
      obtain ⟨rfl, rfl⟩ := List.cons.inj hcons
      obtain ⟨hnormal, hlevels⟩ := sound_of_check c hc
      obtain ⟨hnormals, hlevelss⟩ := sound_of_checkItems cs hcs
      exact ⟨List.forall_mem_cons.mpr ⟨hnormal, hnormals⟩, Nat.max_le.mpr ⟨hlevels, hlevelss⟩⟩

end

/-! ## Records that are read back -/

/-- Every record that is written for a normal command names its kind, its count and its body. -/
def Faithful (write : Command → Json) : Prop :=
  ∀ c : Command, c.Normal → ∃ fields, write c = .obj fields ∧ checkKind fields = .ok c.kind ∧
    checkCountField fields = .ok c.count? ∧
    (Json.field? "children" fields).getD (.arr []) = .arr (c.children.map write)

/-- The children of a command in normal form are in normal form. -/
theorem Normal.inside {c : Command} (h : c.Normal) : ∀ b ∈ c.children, b.Normal := by
  cases h with
  | basic a => exact List.forall_mem_nil _
  | loop hcount hinside => exact hinside

/-- The count of a command in normal form is at most the largest allowed. -/
theorem Normal.count_le {c : Command} (h : c.Normal) : ∀ k ∈ c.count?, k ≤ maxLoopCount := by
  cases h with
  | basic a => exact forall_mem_none
  | loop hcount hinside => exact hcount

/-- A record of a normal command is read as far as its body is, and as nothing else. -/
theorem check_write_iff {write : Command → Json} (hwrite : Faithful write) (hc : c.Normal) :
    check source n (write c) = .ok d ↔
      n ≠ 0 ∧ c.kind = d.kind ∧ c.count? = d.count? ∧
        checkItems source (n - 1) 0 (c.children.map write) = .ok d.children := by
  obtain ⟨fields, hrecord, hkind, hcount, hbody⟩ := hwrite c hc
  rw [check_eq_ok_iff, hrecord]
  constructor
  · rintro ⟨_, hfields, hn, hkind', hcount', hbody'⟩
    obtain rfl := Json.obj.inj hfields
    -- what was written is all that can be read back from the record
    rw [hkind] at hkind'
    rw [hcount] at hcount'
    rw [hbody] at hbody'
    exact ⟨hn, Except.ok.inj hkind', Except.ok.inj hcount', hbody'⟩
  · rintro ⟨hn, hkind', hcount', hbody'⟩
    refine ⟨fields, rfl, hn, by rw [hkind, hkind'], by rw [hcount, hcount'], ?_⟩
    rw [hbody]
    exact hbody'

mutual

/-- The record of a normal command is read back if it has no more levels than are read, and
otherwise not at all. -/
theorem check_write {write : Command → Json} (hwrite : Faithful write) (source : Source) (n : Nat)
    {d : Command} : (c : Command) → c.Normal →
    (check source n (write c) = .ok d ↔ c.levels ≤ n ∧ d = c)
  | basic a, hc => by
    rw [check_write_iff hwrite hc]
    show n ≠ 0 ∧ a.kind = d.kind ∧ none = d.count? ∧ Except.ok [] = Except.ok d.children ↔
      1 ≤ n ∧ d = basic a
    constructor
    · rintro ⟨hn, hkind, hcount, hbody⟩
      refine ⟨Nat.one_le_iff_ne_zero.mpr hn, eq_of_parts hkind.symm hcount.symm ?_⟩
      exact (Except.ok.inj hbody).symm
    · rintro ⟨hn, rfl⟩
      exact ⟨Nat.one_le_iff_ne_zero.mp hn, rfl, rfl, rfl⟩
  | loop count body, hc => by
    -- with one level less, the body is read back up to the limit
    have hbody : checkItems source (n - 1) 0 (body.map write) = .ok d.children ↔
        levelsAll body ≤ n - 1 ∧ d.children = body :=
      checkItems_write hwrite source (n - 1) 0 body hc.inside
    rw [check_write_iff hwrite hc]
    show n ≠ 0 ∧ Kind.loop = d.kind ∧ count = d.count? ∧
      checkItems source (n - 1) 0 (body.map write) = .ok d.children ↔
        levelsAll body + 1 ≤ n ∧ d = loop count body
    rw [hbody]
    constructor
    · rintro ⟨hn, hkind, hcount, hlevels, hchildren⟩
      exact ⟨by omega, eq_of_parts hkind.symm hcount.symm hchildren⟩
    · rintro ⟨hlevels, rfl⟩
      exact ⟨by omega, rfl, rfl, by omega, rfl⟩

/-- Written commands check out as themselves, up to the depth that is allowed. -/
theorem checkItems_write {write : Command → Json} (hwrite : Faithful write) (source : Source)
    (n i : Nat) {ds : List Command} : (cs : List Command) → (∀ c ∈ cs, c.Normal) →
    (checkItems source n i (cs.map write) = .ok ds ↔ levelsAll cs ≤ n ∧ ds = cs)
  | [], _ => by
    show Except.ok [] = Except.ok ds ↔ 0 ≤ n ∧ ds = []
    simp [eq_comm]
  | c :: cs, h => by
    obtain ⟨hc, hcs⟩ := List.forall_mem_cons.mp h
    rw [List.map_cons, checkItems_cons_eq_ok_iff, levelsAll, Nat.max_le]
    constructor
    · rintro ⟨d, ds', rfl, hd, hds⟩
      obtain ⟨hlevels, rfl⟩ := (check_write hwrite source n c hc).mp hd
      obtain ⟨hlevelss, rfl⟩ := (checkItems_write hwrite source n (i + 1) cs hcs).mp hds
      exact ⟨⟨hlevels, hlevelss⟩, rfl⟩
    · rintro ⟨⟨hlevels, hlevelss⟩, rfl⟩
      exact ⟨c, cs, rfl, (check_write hwrite source n c hc).mpr ⟨hlevels, rfl⟩,
        (checkItems_write hwrite source n (i + 1) cs hcs).mpr ⟨hlevelss, rfl⟩⟩

end

/-! ## The two written forms -/

/-- A record with the name of a kind has that kind. -/
theorem checkKind_of_field {kind : Kind} (h : Json.field? "type" fields = some (.str kind.word)) :
    checkKind fields = .ok kind := by
  unfold checkKind
  rw [Checked.required_of_field h, Checked.within_eq_ok_iff]
  simp only [Checked.word, Checked.string, Text.string?_ofString, Except.bind, Kind.ofWord?_word]

/-- A count that is there and checks out is the count of the record. -/
theorem checkCountField_of_field {v : Json} {count : Option Nat}
    (h : Json.field? "loopCount" fields = some v) (hv : checkCount v = .ok count) :
    checkCountField fields = .ok count := by
  -- of the two names of the count this one is looked up first
  have hname : (countNames.find? fun (name : String) => (Json.field? name fields).isSome) =
      some "loopCount" := by
    show (match (Json.field? "loopCount" fields).isSome with
      | true => some "loopCount"
      | false => _) = _
    rw [h]
    rfl
  unfold checkCountField
  rw [hname]
  show Checked.required fields "loopCount" checkCount = _
  rw [Checked.required_of_field h, Checked.within_eq_ok_iff, hv]

/-- A count in range is left as it is. -/
theorem checkCount_of_le {k : Nat} (h : k ≤ maxLoopCount) :
    checkCount (.int k) = .ok (some k) := by
  have hcap : capCount k = k := by
    unfold capCount maxLoopCount at *
    omega
  show Except.ok (some (capCount k)) = _
  rw [hcap]

/-- Each command of a list is written in short form for itself. -/
theorem wireAll_eq_map (cs : List Command) : wireAll cs = cs.map wire := by
  induction cs with
  | nil => rfl
  | cons c cs ih => rw [wireAll, ih, List.map_cons]

/-- Each command of a list is written in full for itself. -/
theorem fullAll_eq_map (cs : List Command) : fullAll cs = cs.map full := by
  induction cs with
  | nil => rfl
  | cons c cs ih => rw [fullAll, ih, List.map_cons]

/-- The short form leaves out a count that is absent and a body that is empty, and nothing
else. -/
theorem exists_wire_eq (c : Command) : ∃ fields, c.wire = .obj fields ∧
    Json.field? "type" fields = some (.str c.kind.word) ∧
    Json.field? "loopCount" fields = c.count?.map (fun (k : Nat) => Json.int k) ∧
    Json.field? "loop_count" fields = none ∧
    Json.field? "children" fields =
      if c.children = [] then none else some (.arr (c.children.map wire)) := by
  cases c with
  | basic a => exact ⟨_, rfl, rfl, rfl, rfl, rfl⟩
  | loop count body =>
    refine ⟨_, rfl, ?_⟩
    rw [wireAll_eq_map]
    -- each of the two is left out or not, whatever becomes of the other
    cases count <;> cases body <;> exact ⟨rfl, rfl, rfl, rfl⟩

/-- The short form is checked back as the command. -/
theorem faithful_wire : Faithful wire := by
  intro c hc
  obtain ⟨fields, hwire, htype, hcount, hother, hchildren⟩ := exists_wire_eq c
  refine ⟨fields, hwire, checkKind_of_field htype, ?_, ?_⟩
  -- without a count the field is left out, and neither of its names is found
  · cases hc' : c.count? with
    | none =>
      rw [hc', Option.map_none] at hcount
      show checkCountField fields = _
      simp [checkCountField, countNames, hcount, hother]
    | some k =>
      rw [hc', Option.map_some] at hcount
      exact checkCountField_of_field hcount (checkCount_of_le (hc.count_le k hc'))
  · rw [hchildren]
    split
    · next hempty => rw [hempty]; rfl
    · rfl

/-- The full form is checked back as the command. -/
theorem faithful_full : Faithful full := by
  intro c hc
  cases c with
  | basic a =>
    exact ⟨_, rfl, checkKind_of_field rfl, checkCountField_of_field rfl rfl, rfl⟩
  | loop count body =>
    refine ⟨_, rfl, checkKind_of_field rfl, ?_, ?_⟩
    · cases count with
      | none => exact checkCountField_of_field rfl rfl
      | some k => exact checkCountField_of_field rfl (checkCount_of_le (hc.count_le k rfl))
    · rw [fullAll_eq_map]
      rfl

/-! ## The round trip -/

/-- A record is read if it checks out within the allowed levels. -/
theorem ofJson_eq_ok_iff {v : Json} : ofJson v = .ok c ↔ check .value maxLevels v = .ok c :=
  mapError_eq_ok_iff

/-- A written form of a normal command is read back up to the limit, and never as anything
else. -/
theorem ofJson_write {write : Command → Json} (hwrite : Faithful write) (hc : c.Normal) :
    ofJson (write c) = .ok d ↔ c.levels ≤ maxLevels ∧ d = c := by
  rw [ofJson_eq_ok_iff, check_write hwrite _ _ c hc]

/-- A command with too many levels is not read back. -/
theorem ofJson_write_ne {write : Command → Json} (hwrite : Faithful write) (hc : c.Normal)
    (hdeep : maxLevels < c.levels) : ofJson (write c) ≠ .ok d := by
  intro h
  obtain ⟨hle, -⟩ := (ofJson_write hwrite hc).mp h
  omega

/-- However deep normal commands are, their written forms tell them apart. -/
theorem eq_of_write_eq {write : Command → Json} (hwrite : Faithful write) (hc : c.Normal)
    (hd : d.Normal) (h : write c = write d) : c = d := by
  -- a reader that goes as deep as `c` reads it back
  have hread : check .value c.levels (write c) = .ok c :=
    (check_write hwrite .value c.levels c hc).mpr ⟨Nat.le_refl _, rfl⟩
  rw [h] at hread
  exact ((check_write hwrite .value c.levels d hd).mp hread).2

/-- A command with few enough levels is written. -/
theorem writtenBy_of_le (write : Command → Json) (h : c.levels ≤ maxLevels) :
    c.writtenBy write = .ok (write c) := if_pos h

/-- A command with too many levels is not written. -/
theorem writtenBy_of_lt (write : Command → Json) (h : maxLevels < c.levels) :
    c.writtenBy write = .error .writtenTooDeep := if_neg (Nat.not_le.mpr h)

/-- A normal command is written and read back unchanged, in either form, if it has at most
`maxLevels` levels; one with more is neither written nor read.  Whatever was read can be written,
and its short form is the fixed point of reading and writing; so the trace stays the same. -/
theorem ofJson_written :
    (∀ c : Command, c.Normal → c.levels ≤ maxLevels →
      c.written = .ok c.wire ∧ ofJson c.wire = .ok c ∧
        c.writtenFull = .ok c.full ∧ ofJson c.full = .ok c) ∧
    (∀ c : Command, c.Normal → maxLevels < c.levels →
      c.written = .error .writtenTooDeep ∧ (∀ d, ofJson c.wire ≠ .ok d) ∧
        c.writtenFull = .error .writtenTooDeep ∧ ∀ d, ofJson c.full ≠ .ok d) ∧
    ∀ (v : Json) (c : Command), ofJson v = .ok c →
      ∃ w d, c.written = .ok w ∧ ofJson w = .ok d ∧
        d = c ∧ d.written = .ok w ∧ d.unroll = c.unroll := by
  refine ⟨fun c hc hlevels => ?_, fun c hc hlevels => ?_, fun v c hv => ?_⟩
  · exact ⟨writtenBy_of_le wire hlevels, (ofJson_write faithful_wire hc).mpr ⟨hlevels, rfl⟩,
      writtenBy_of_le full hlevels, (ofJson_write faithful_full hc).mpr ⟨hlevels, rfl⟩⟩
  · exact ⟨writtenBy_of_lt wire hlevels, fun _ => ofJson_write_ne faithful_wire hc hlevels,
      writtenBy_of_lt full hlevels, fun _ => ofJson_write_ne faithful_full hc hlevels⟩
  · obtain ⟨hc, hlevels⟩ := sound_of_check c (ofJson_eq_ok_iff.mp hv)
    have hwritten : c.written = .ok c.wire := writtenBy_of_le wire hlevels
    exact ⟨c.wire, c, hwritten, (ofJson_write faithful_wire hc).mpr ⟨hlevels, rfl⟩, rfl,
      hwritten, rfl⟩

/-- A record with the other name of the count, which is out of range and written as a text, and
two loops of which one has the count zero and the other none. -/
theorem ofJson_written_mixed :
    let v : Json := .obj [("loop_count", .str " 012 "), ("type", .str "loop"), ("children", .arr
      [.obj [("type", .str "loop"), ("loopCount", .int 0)],
        .obj [("children", .arr [.obj [("type", .str "ifHole")]]), ("type", .str "loop")]])]
    let c : Command := .loop (some 10) [.loop (some 0) [], .loop none [.basic .ifHole]]
    ofJson v = .ok c ∧ c.Normal ∧ c.levels ≤ maxLevels ∧
      ofJson c.wire = .ok c ∧ ofJson c.full = .ok c ∧
      ∃ w d, c.written = .ok w ∧ ofJson w = .ok d ∧
        d = c ∧ d.written = .ok w ∧ d.unroll = c.unroll := by
  intro v c
  have hv : ofJson v = .ok c := rfl
  obtain ⟨hc, hlevels⟩ := sound_of_check c (ofJson_eq_ok_iff.mp hv)
  obtain ⟨hread, -, hfixed⟩ := ofJson_written
  obtain ⟨-, hwire, -, hfull⟩ := hread c hc hlevels
  exact ⟨hv, hc, hlevels, hwire, hfull, hfixed v c hv⟩

/-- Loops one inside the other, around a step. -/
def nested : Nat → Command
  | 0 => basic .forward
  | n + 1 => loop (some 1) [nested n]

/-- Nested loops are in normal form. -/
theorem normal_nested (n : Nat) : (nested n).Normal := by
  induction n with
  | zero => exact .basic .forward
  | succ n ih =>
    refine .loop (fun k hk => ?_) (List.forall_mem_singleton.mpr ih)
    obtain rfl := Option.some.inj hk
    decide

/-- Each loop around adds a level. -/
theorem levels_nested (n : Nat) : (nested n).levels = n + 1 := by
  induction n with
  | zero => rfl
  | succ n ih =>
    show max (nested n).levels 0 + 1 = n + 1 + 1
    omega

/-- Nested once more than is allowed, loops are too deep. -/
theorem deep_nested : maxLevels < (nested maxLevels).levels := by
  rw [levels_nested]
  exact Nat.lt_add_one maxLevels

/-- A normal command with one level too many is neither written nor read back. -/
theorem nested_not_read_back :
    (nested maxLevels).Normal ∧ (nested maxLevels).written = .error .writtenTooDeep ∧
      ofJson (nested maxLevels).wire ≠ .ok (nested maxLevels) ∧
      ofJson (nested maxLevels).full ≠ .ok (nested maxLevels) :=
  ⟨normal_nested _, writtenBy_of_lt wire deep_nested,
    ofJson_write_ne faithful_wire (normal_nested _) deep_nested,
    ofJson_write_ne faithful_full (normal_nested _) deep_nested⟩

end Command

end MazeRobot
