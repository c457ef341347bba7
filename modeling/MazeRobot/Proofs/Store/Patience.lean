import MazeRobot.Proofs.Store.Agreement
import MazeRobot.Store.Retry

/-!
# Reading a file while it is written

While a maze is saved, a read may find any part of its file from the start.  It then
gives no maze, and whether it is worth another attempt depends on where the file ends:
between two characters it is, inside a character it is not (`find?_torn`).  Attempts
that are worth another one cost nothing but time (`attempt_passing`).  So a load with
patience gives the maze if the whole file is there soon enough, unless the file is found
to end inside a character before (`load_torn`).
-/

namespace MazeRobot

namespace Retry

variable {outcome : Nat → Except Failure (Option Maze)} {id : Text} {attempts : Int}
  {chosen : Option Int} {configured : Int}

/-- A read that fails for a passing reason. -/
def Passing (r : Except Failure (Option Maze)) : Prop := ∃ e, r = .error e ∧ e.isTransient = true

/-- An answer is not a failure that may pass. -/
theorem not_passing_ok (found : Option Maze) : ¬ Passing (.ok found) := by
  rintro ⟨e, he, -⟩
  cases he

/-- A failure for good is not one that may pass. -/
theorem not_passing_of_not_transient {e : Failure} (h : e.isTransient = false) :
    ¬ Passing (.error e) := by
  rintro ⟨e, he, htransient⟩
  cases he
  exact absurd htransient (h ▸ Bool.false_ne_true)

/-- What is logged about `k` attempts in vain. -/
def announcements (id : Text) (attempts : Int) (call k : Nat) : List LogEntry :=
  (List.range' (call + 2) k).map (announcement id attempts)

/-- The first announcement comes before those of the later attempts. -/
theorem announcements_succ (id : Text) (attempts : Int) (call k : Nat) :
    announcements id attempts call (k + 1) =
      announcement id attempts (call + 2) :: announcements id attempts (call + 1) k := rfl

/-- After reads that fail for a passing reason it goes on with those that are left. -/
theorem attempt_passing {call left k : Nat} (hk : k ≤ left)
    (hpassing : ∀ i < k, Passing (outcome (call + i))) :
    attempt outcome id attempts call left =
      { attempt outcome id attempts (call + k) (left - k) with
        log := announcements id attempts call k ++
          (attempt outcome id attempts (call + k) (left - k)).log } := by
  induction k generalizing call left with
  | zero => rfl
  | succ k ih =>
    -- the first read fails, and the induction goes on at the next call
    obtain ⟨left, rfl⟩ : ∃ n, left = n + 1 := ⟨left - 1, by omega⟩
    obtain ⟨e, he, htransient⟩ := hpassing 0 (Nat.succ_pos k)
    have hlater := @ih (call + 1) left (by omega) fun i hi => by
      have hnext := hpassing (i + 1) (by omega)
      rwa [Nat.add_comm i 1, ← Nat.add_assoc] at hnext
    have hcall : call + 1 + k = call + (k + 1) := by omega
    have hleft : left + 1 - (k + 1) = left - k := by omega
    rw [Nat.add_zero] at he
    rw [attempt, he]
    simp only [htransient, if_true, hlater, hcall, hleft, announcements_succ, List.cons_append]

/-- The first outcome that is no passing failure decides, if there are attempts enough. -/
theorem load_passing {k : Nat} (hk : (k : Int) < max 1 (attemptsInForce chosen configured))
    (hpassing : ∀ i < k, Passing (outcome i)) (hdecides : ¬ Passing (outcome k)) :
    load outcome id chosen configured =
      ⟨(outcome k).bind (demand id), k + 1,
        announcements id (attemptsInForce chosen configured) 0 k⟩ := by
  have hlast (call left : Nat) (hcall : ¬ Passing (outcome call)) :
      attempt outcome id (attemptsInForce chosen configured) call left =
        ⟨(outcome call).bind (demand id), call + 1, []⟩ := by
    cases left with
    | zero => rfl
    | succ left =>
      rw [attempt]
      cases houtcome : outcome call with
      | ok found => rfl
      | error e =>
        have htransient : ¬ e.isTransient = true := fun h => hcall ⟨e, houtcome, h⟩
        simp only [htransient]
        rfl
  have hleft : k ≤ (attemptsInForce chosen configured - 1).toNat := by omega
  have hskipped : ∀ i < k, Passing (outcome (0 + i)) := fun i hi => by
    rw [Nat.zero_add]
    exact hpassing i hi
  rw [load, attempt_passing hleft hskipped, Nat.zero_add, hlast k _ hdecides, List.append_nil]

end Retry

namespace FolderStore

variable {s : FolderStore} {m : Maze} {p q : ByteArray}

/-- A part of the file for a maze from its start gives the maze if it is the whole file,
and no maze otherwise. -/
theorem find?_torn (hid : Legal m.id) (hm : m.Storable) (hcut : p ++ q = fileOf m)
    (hread : s.read? (m.id ++ extension) = some p) :
    s.find? m.id =
      if q.size = 0 then .ok (some m)
      else .error (if p.IsValidUTF8 then Maze.unreadable else .undecodable) := by
  have hfind : s.find? m.id = (readMaze p).map some := by
    unfold FolderStore.find?
    simp only [hid.fileName_eq, hid.lookUp_eq, hread]
  rw [hfind]
  split
  · next hq =>
    -- nothing was cut off, so the file is whole
    have hwhole : p = fileOf m := by
      rw [← hcut, ByteArray.size_eq_zero_iff.1 hq, ByteArray.append_empty]
    rw [hwhole, readMaze_fileOf hm]
    rfl
  · next hq =>
    rw [readMaze_cut hm hcut hq]
    rfl

/-- While the file for a maze is written, no read gives anything but the maze, and a load
with patience goes on as long as the file ends between two characters.  So it gives the
maze if the file is whole soon enough; but the first time the file ends inside a
character the load fails for good. -/
theorem load_torn (hid : Legal m.id) (hm : m.Storable) {seen : Nat → FolderStore}
    {part rest : Nat → ByteArray} (hcut : ∀ i, part i ++ rest i = fileOf m)
    (hread : ∀ i, (seen i).read? (m.id ++ extension) = some (part i))
    {chosen : Option Int} {configured : Int} {k : Nat}
    (hk : (k : Int) < max 1 (Retry.attemptsInForce chosen configured))
    (hbefore : ∀ i < k, (rest i).size ≠ 0 ∧ (part i).IsValidUTF8) :
    (∀ i, (rest i).size ≠ 0 → ∃ e, (seen i).find? m.id = .error e ∧
      (e.isTransient = true ↔ (part i).IsValidUTF8)) ∧
    ((rest k).size = 0 →
      Retry.load (fun i => (seen i).find? m.id) m.id chosen configured =
        ⟨.ok m, k + 1,
          Retry.announcements m.id (Retry.attemptsInForce chosen configured) 0 k⟩) ∧
    (¬ (part k).IsValidUTF8 →
      Retry.load (fun i => (seen i).find? m.id) m.id chosen configured =
        ⟨.error .undecodable, k + 1,
          Retry.announcements m.id (Retry.attemptsInForce chosen configured) 0 k⟩) := by
  have hfind (i : Nat) := find?_torn hid hm (hcut i) (hread i)
  have hpassing : ∀ i < k, Retry.Passing ((seen i).find? m.id) := by
    intro i hi
    obtain ⟨hrest, hvalid⟩ := hbefore i hi
    refine ⟨Maze.unreadable, ?_, rfl⟩
    rw [hfind, if_neg hrest, if_pos hvalid]
  -- every cut fails; the whole file ends the attempts, and so does a cut inside a character
  refine ⟨fun i hrest => ?_, fun hwhole => ?_, fun hinvalid => ?_⟩
  · rw [hfind, if_neg hrest]
    refine ⟨_, rfl, ?_⟩
    split
    · next hvalid => exact iff_of_true rfl hvalid
    · next hinvalid => exact iff_of_false Bool.false_ne_true hinvalid
  · have hlast : (seen k).find? m.id = .ok (some m) := by rw [hfind, if_pos hwhole]
    have hdecides : ¬ Retry.Passing ((seen k).find? m.id) := by
      rw [hlast]
      exact Retry.not_passing_ok (some m)
    rw [Retry.load_passing hk hpassing hdecides, hlast]
    rfl
  · have hrest : (rest k).size ≠ 0 := by
      intro hwhole
      have hfile : part k = fileOf m := by
        rw [← hcut k, ByteArray.size_eq_zero_iff.1 hwhole, ByteArray.append_empty]
      exact hinvalid (hfile ▸ (textOf m).lossy.isValidUTF8)
    have hlast : (seen k).find? m.id = .error .undecodable := by
      rw [hfind, if_neg hrest, if_neg hinvalid]
    have hdecides : ¬ Retry.Passing ((seen k).find? m.id) := by
      rw [hlast]
      exact Retry.not_passing_of_not_transient rfl
    rw [Retry.load_passing hk hpassing hdecides, hlast]
    rfl

/-! ## One file, read several times -/

/-- The one file of a folder is read under its name. -/
theorem Legal.read?_single {id : Text} (h : Legal id) (bytes : ByteArray) :
    (⟨some [(id ++ extension, bytes)]⟩ : FolderStore).read? (id ++ extension) = some bytes := by
  simp only [read?, h.settled, Option.bind_some, List.lookup_cons, beq_self_eq_true]

/-- The file is found empty, then without its end, then whole. -/
theorem load_torn_thrice :
    let m : Maze := ⟨"a", "\u00e9", 1, ⟨[[.start]]⟩⟩
    let front : ByteArray := "\x7b\n  \"id\"".toUTF8
    let back : ByteArray := (": \"a\",\n  \"name\": \"\u00e9\",\n  \"size\": 1,\n  \"grid\": " ++
      "[\n    [\n      \"start\"\n    ]\n  ]\n\x7d").toUTF8
    let part : Nat → ByteArray := fun | 0 => .empty | 1 => front | _ => fileOf m
    Legal m.id ∧ m.Storable ∧ front ++ back = fileOf m ∧
      Retry.load (fun i => (⟨some [("a.json", part i)]⟩ : FolderStore).find? m.id) m.id =
        ⟨.ok m, 3, Retry.announcements m.id 3 0 2⟩ := by
  intro m front back part
  have hid : Legal m.id := legal_ofString (by decide) rfl
  have hm : m.Storable := Maze.storable_cell "a" "\u00e9" .start
  have hfile : front ++ back = fileOf m := by decide +kernel
  have hback : back.size ≠ 0 := by decide +kernel
  have hwhole : (fileOf m).size ≠ 0 := by
    rw [← hfile, ByteArray.size_append]
    omega
  let rest : Nat → ByteArray := fun | 0 => fileOf m | 1 => back | _ => .empty
  have hcut : ∀ i, part i ++ rest i = fileOf m
    | 0 => ByteArray.empty_append
    | 1 => hfile
    | _ + 2 => ByteArray.append_empty
  have hbefore : ∀ i < 2, (rest i).size ≠ 0 ∧ (part i).IsValidUTF8
    | 0, _ => ⟨hwhole, String.isValidUTF8 ""⟩
    | 1, _ => ⟨hback, String.isValidUTF8 _⟩
  have hk : ((2 : Nat) : Int) < max 1 (Retry.attemptsInForce none Retry.standardAttempts) := by
    decide
  have hload := load_torn hid hm hcut (fun i => hid.read?_single (part i)) hk hbefore
  exact ⟨hid, hm, hfile, hload.2.1 rfl⟩

/-- A file that ends inside a character is not read a second time, although it is whole by
then. -/
theorem torn_character_not_retried :
    let m : Maze := ⟨"a", "\u00e9", 1, ⟨[[.start]]⟩⟩
    let front : ByteArray := "\x7b\n  \"id\": \"a\",\n  \"name\": \"".toUTF8.push 0xC3
    let back : ByteArray := ⟨#[0xA9]⟩ ++
      "\",\n  \"size\": 1,\n  \"grid\": [\n    [\n      \"start\"\n    ]\n  ]\n\x7d".toUTF8
    let part : Nat → ByteArray := fun | 0 => front | _ => fileOf m
    Legal m.id ∧ m.Storable ∧ front ++ back = fileOf m ∧ back.size ≠ 0 ∧
      Retry.load (fun i => (⟨some [("a.json", part i)]⟩ : FolderStore).find? m.id) m.id =
        ⟨.error .undecodable, 1, []⟩ := by
  intro m front back part
  have hid : Legal m.id := legal_ofString (by decide) rfl
  have hm : m.Storable := Maze.storable_cell "a" "\u00e9" .start
  have hfile : front ++ back = fileOf m := by decide +kernel
  have hback : back.size ≠ 0 := by decide +kernel
  -- the cut is inside the only letter of two bytes
  have hinvalid : ¬ front.IsValidUTF8 := by decide +kernel
  have hfind : (⟨some [("a.json", part 0)]⟩ : FolderStore).find? m.id = .error .undecodable := by
    have htorn := find?_torn hid hm hfile (hid.read?_single front)
    rwa [if_neg hback, if_neg hinvalid] at htorn
  -- bytes that are no text are no outage: the first attempt decides
  have hdecides : ¬ Retry.Passing
      ((⟨some [("a.json", part 0)]⟩ : FolderStore).find? m.id) := by
    rw [hfind]
    exact Retry.not_passing_of_not_transient rfl
  have hk : ((0 : Nat) : Int) < max 1 (Retry.attemptsInForce none Retry.standardAttempts) := by
    decide
  have hnone : ∀ i < 0, Retry.Passing
      ((⟨some [("a.json", part i)]⟩ : FolderStore).find? m.id) :=
    fun i hi => absurd hi (Nat.not_lt_zero i)
  rw [Retry.load_passing hk hnone hdecides, hfind]
  exact ⟨hid, hm, hfile, hback, rfl⟩

end FolderStore

end MazeRobot
