import MazeRobot.Proofs.Store.Files
import MazeRobot.Proofs.Store.History

/-!
# Folders and memory agree

A folder mirrors a store in memory if it has one file for each maze there and no others
(`Mirrors`).  Every request whose ids can name files and whose mazes can be stored
(`Fits`) gets the same answer from both and leaves them mirroring each other
(`Mirrors.serve`).  So from the start on both give the answers that follow from the
requests (`answers_agree`).  A maze whose name is no string is kept in memory only
(`torn_name_refused`).
-/

namespace MazeRobot

open MazeStore

namespace FolderStore

/-- An id that the store and the file system accept, and whose file keeps its name. -/
structure Legal (id : Text) : Prop where
  isFileId : isFileId id = true
  nameFault? : nameFault? (id ++ extension) = none
  settled : (id ++ extension).settled = id ++ extension

/-- A request whose ids can name files and whose maze can be stored. -/
def Fits : Request → Prop
  | .load id => Legal id
  | .save m => Legal m.id ∧ m.Storable
  | .delete id => Legal id
  | .list => True

/-- The file for a maze. -/
def entry (m : Maze) : Text × ByteArray := (m.id ++ extension, fileOf m)

/-- A folder with one file for each maze in memory, and no others. -/
structure Mirrors (s : FolderStore) (memory : MemoryStore) : Prop where
  legal : ∀ m ∈ memory.mazes, Legal m.id
  storable : ∀ m ∈ memory.mazes, m.Storable
  files : s.files.getD [] = memory.mazes.map entry

variable {s : FolderStore} {memory : MemoryStore} {id : Text} {m : Maze}

/-! ## Names of files -/

/-- Different ids have different file names. -/
theorem append_extension_inj {id id' : Text} : id ++ extension = id' ++ extension ↔ id = id' := by
  constructor
  · intro h
    obtain ⟨ps⟩ := id
    obtain ⟨qs⟩ := id'
    have hpoints : ps ++ extension.points = qs ++ extension.points := congrArg Text.points h
    exact congrArg Text.mk (List.append_cancel_right hpoints)
  · rintro rfl
    rfl

/-- A legal id names its file. -/
theorem Legal.fileName_eq (h : Legal id) : fileName id = .ok (id ++ extension) :=
  if_pos h.isFileId

/-- Looking up the file of a legal id is never refused. -/
theorem Legal.lookUp_eq (h : Legal id) (s : FolderStore) :
    s.lookUp (id ++ extension) = .ok (s.read? (id ++ extension)) := by
  have hname := h.nameFault?
  unfold FolderStore.nameFault? at hname
  split at hname
  · cases hname
  · next hrun =>
    split at hname
    · cases hname
    · next hnull =>
      split at hname
      · cases hname
      · next hlong =>
        have hvalid : isName (id ++ extension) = true := by
          simp only [isName, hrun, hnull]
          rfl
        simp only [lookUp, hvalid, hlong, Bool.not_true, Bool.false_eq_true, if_false,
          Bool.false_and]

/-- Writing the file of a legal id is never refused. -/
theorem Legal.store_eq (h : Legal id) (s : FolderStore) (bytes : ByteArray) :
    s.store (id ++ extension) bytes = (s.write (id ++ extension) bytes, .ok ()) := by
  rw [store, h.nameFault?]

/-- The file for a string keeps its name. -/
theorem legal_ofString {id : String} (hid : FolderStore.isFileId id = true)
    (hname : FolderStore.nameFault? (Text.ofString id ++ extension) = none) : Legal id := by
  refine ⟨hid, hname, ?_⟩
  have happend : Text.ofString id ++ extension = .ofString (id ++ ".json") := by
    rw [Text.ofString, Text.ofString, Text.ofChars, Text.ofChars, String.toList_append,
      List.map_append]
    rfl
  rw [happend, Text.settled_ofString]

/-! ## Single requests -/

/-- Dropping the file of an id drops the maze. -/
theorem filter_entry (id : Text) (mazes : List Maze) :
    (mazes.map entry).filter (fun f => f.1 != id ++ extension) =
      (mazes.filter fun m => m.id != id).map entry := by
  rw [List.filter_map]
  congr 1
  refine List.filter_congr fun m _ => ?_
  rw [Bool.eq_iff_iff]
  simp [entry, append_extension_inj]

/-- The file of an id is that of the maze. -/
theorem lookup_entry (id : Text) (mazes : List Maze) :
    (mazes.map entry).lookup (id ++ extension) =
      (mazes.find? fun m => m.id == id).map fileOf := by
  induction mazes with
  | nil => rfl
  | cons m mazes ih =>
    rw [List.map_cons, entry, List.lookup_cons, List.find?_cons]
    by_cases h : m.id = id
    · subst h
      simp
    -- the extension is the same for all, so two files have one name only for one id
    · have hname : (id ++ extension == m.id ++ extension) = false := by
        rw [beq_eq_false_iff_ne, ne_eq, append_extension_inj]
        exact fun e => h e.symm
      have hid : (m.id == id) = false := by rwa [beq_eq_false_iff_ne]
      rw [hname, hid, ih]

/-- In a folder that mirrors a memory the file of an id is that of the maze. -/
theorem Mirrors.read?_eq (h : s.Mirrors memory) (hid : Legal id) :
    s.read? (id ++ extension) = (memory.find? id).map fileOf := by
  have hfiles : s.read? (id ++ extension) = (s.files.getD []).lookup (id ++ extension) := by
    rw [read?, hid.settled]
    cases s.files <;> rfl
  rw [hfiles, h.files, lookup_entry]
  rfl

/-- In a folder that mirrors a memory the same mazes are found. -/
theorem Mirrors.find?_eq (h : s.Mirrors memory) (hid : Legal id) :
    s.find? id = .ok (memory.find? id) := by
  unfold FolderStore.find?
  rw [hid.fileName_eq]
  simp only [hid.lookUp_eq, h.read?_eq hid]
  cases hfind : memory.find? id with
  | none => rfl
  | some m =>
    have hm := h.storable m (List.mem_of_find?_eq_some hfind)
    simp only [Option.map_some, readMaze_fileOf hm]
    rfl

/-- Writing the file of a maze mirrors putting the maze. -/
theorem Mirrors.write (h : s.Mirrors memory) (hid : Legal m.id) (hm : m.Storable) :
    (s.write (m.id ++ extension) (fileOf m)).Mirrors (memory.put m) := by
  refine ⟨?_, ?_, ?_⟩
  · refine List.forall_mem_cons.2 ⟨hid, fun n hn => h.legal n (List.mem_filter.1 hn).1⟩
  · refine List.forall_mem_cons.2 ⟨hm, fun n hn => h.storable n (List.mem_filter.1 hn).1⟩
  · simp only [FolderStore.write, Option.getD_some, hid.settled, h.files, filter_entry]
    rfl

/-- Removing the file of an id mirrors erasing the maze. -/
theorem Mirrors.erase (h : s.Mirrors memory) (hid : Legal id) :
    (s.erase (id ++ extension)).Mirrors (memory.erase id) := by
  refine ⟨fun n hn => h.legal n (List.mem_filter.1 hn).1,
    fun n hn => h.storable n (List.mem_filter.1 hn).1, ?_⟩
  have hfiles : (s.erase (id ++ extension)).files.getD [] =
      (s.files.getD []).filter fun f => f.1 != id ++ extension := by
    simp only [FolderStore.erase, hid.settled]
    cases s.files <;> rfl
  rw [hfiles, h.files, filter_entry]
  rfl

/-- The files are those for the mazes in memory, in another order perhaps. -/
theorem Mirrors.mazeFiles_eq (h : s.Mirrors memory) :
    ∃ mazes : List Maze, mazes.Perm memory.mazes ∧ s.mazeFiles = mazes.map entry := by
  have hsuffix : (memory.mazes.map entry).filter
      (fun f => extension.points.isSuffixOf f.1.points) = memory.mazes.map entry := by
    refine List.filter_eq_self.2 fun f hf => ?_
    obtain ⟨m, -, rfl⟩ := List.mem_map.1 hf
    exact List.isSuffixOf_iff_suffix.2 (List.suffix_append m.id.points extension.points)
  refine ⟨memory.mazes.mergeSort fun a b => decide ((entry a).1 ≤ (entry b).1),
    List.mergeSort_perm _ _, ?_⟩
  rw [mazeFiles, h.files, hsuffix]
  exact (List.map_mergeSort (f := entry) fun _ _ _ _ => rfl).symm

/-- The mazes of all files, in the order of their ids. -/
theorem Mirrors.readAll_eq (h : s.Mirrors memory) (hdistinct : Maze.Distinct memory.mazes) :
    s.readAll = .ok memory.toList := by
  obtain ⟨mazes, hperm, hfiles⟩ := h.mazeFiles_eq
  have hstorable : ∀ m ∈ mazes, m.Storable := fun m hm => h.storable m (hperm.mem_iff.1 hm)
  have htexts : s.mazeFiles.mapM (fun f => decode f.2) =
      .ok (mazes.map fun m => (textOf m).lossy) := by
    rw [hfiles]
    exact mapM_map_eq_pure fun m hm => decode_fileOf (hstorable m hm)
  have hmazes : (mazes.map fun m => (textOf m).lossy).mapM (fun s : String => Maze.ofText s) =
      .ok (mazes.map id) :=
    mapM_map_eq_pure fun m hm => ofText_lossy (hstorable m hm)
  -- the folder lists the same mazes in another order, and sorting settles the order
  rw [readAll, htexts]
  simp only [bind, Except.bind, hmazes, List.map_id]
  exact congrArg Except.ok (Maze.sortById_eq_of_perm hdistinct hperm.symm).symm

/-- A request gets the same answer from both, and both stay alike. -/
theorem Mirrors.serve (h : s.Mirrors memory) (hdistinct : Maze.Distinct memory.mazes)
    {q : Request} (hq : Fits q) :
    (MazeStore.serve s q).1.Mirrors (MazeStore.serve memory q).1 ∧
      (MazeStore.serve s q).2 = (MazeStore.serve memory q).2 := by
  cases q with
  | load id => exact ⟨h, congrArg (Except.map Reply.found) (h.find?_eq hq)⟩
  | save m =>
    have hsave : MazeStore.save s m = (s.write (m.id ++ extension) (fileOf m), .ok ()) := by
      simp only [MazeStore.save, hq.1.fileName_eq, storeText, encode_textOf hq.2, hq.1.store_eq]
    simp only [MazeStore.serve, hsave]
    exact ⟨h.write hq.1 hq.2, rfl⟩
  | delete id =>
    have hdelete : MazeStore.delete s id = (s.erase (id ++ extension), .ok ()) := by
      have hid : Legal id := hq
      simp only [MazeStore.delete, hid.fileName_eq, remove, hid.lookUp_eq]
    simp only [MazeStore.serve, hdelete]
    exact ⟨h.erase hq, rfl⟩
  | list => exact ⟨h, congrArg (Except.map Reply.listed) (h.readAll_eq hdistinct)⟩

/-- From an empty folder and an empty memory the same requests keep the one a mirror of the
other. -/
theorem mirrors_serveAll (hempty : s.files.getD [] = []) {past : List Request}
    (hpast : ∀ q ∈ past, Fits q) :
    (serveAll s past).Mirrors (serveAll ({} : MemoryStore) past) := by
  -- both stores serve the last request after all others
  induction past using List.reverseRecOn with
  | nil =>
    exact ⟨fun m hm => absurd hm List.not_mem_nil, fun m hm => absurd hm List.not_mem_nil, hempty⟩
  | append_singleton past q ih =>
    obtain ⟨hbefore, hlast⟩ := List.forall_mem_append.1 hpast
    rw [serveAll_append, serveAll_append]
    exact ((ih hbefore).serve (MemoryStore.distinct_serveAll past)
      (hlast q List.mem_cons_self)).1

/-- Whatever has been asked before, a folder that was empty or missing at first and a store
in memory both give the right answer; and the text for a maze is read as the maze. -/
theorem answers_agree (hempty : s.files.getD [] = []) {past : List Request}
    (hpast : ∀ q ∈ past, Fits q) {q : Request} (hq : Fits q) :
    (∃ reply, Answers past q reply ∧
      (MazeStore.serve (serveAll ({} : MemoryStore) past) q).2 = .ok reply ∧
      (MazeStore.serve (serveAll s past) q).2 = .ok reply) ∧
    ∀ m : Maze, m.Storable → Maze.ofText (textOf m) = .ok m := by
  obtain ⟨reply, hanswer, hmemory⟩ := MemoryStore.answers_serve past q
  have hsame := ((mirrors_serveAll hempty hpast).serve (MemoryStore.distinct_serveAll past) hq).2
  exact ⟨⟨reply, hanswer, hmemory, hsame.trans hmemory⟩, fun m hm => hm.ofText_render .indented⟩

/-- The maze saved last under an id is there, whatever its name holds. -/
theorem answers_agree_quoted :
    let room (id name : Text) : Maze := ⟨id, name, 1, ⟨[[.start]]⟩⟩
    let past : List Request := [.save (room "a.b" "first"), .save (room "a-b" "other"),
      .delete "a-b", .save (room "a.b" "a \"b\"\n\u00e9")]
    (∀ q ∈ past, Fits q) ∧ Fits (.load "a.b") ∧
      (MazeStore.serve (serveAll ({} : FolderStore) past) (.load "a.b")).2 =
        .ok (.found (some (room "a.b" "a \"b\"\n\u00e9"))) := by
  intro room past
  have hdot : Legal "a.b" := legal_ofString (by decide) rfl
  have hdash : Legal "a-b" := legal_ofString (by decide) rfl
  have hroom (id name : String) : (room id name).Storable := Maze.storable_cell id name .start
  have hpast : ∀ q ∈ past, Fits q := by
    simp only [past, List.forall_mem_cons]
    exact ⟨⟨hdot, hroom _ _⟩, ⟨hdash, hroom _ _⟩, hdash, ⟨hdot, hroom _ _⟩,
      fun q hq => absurd hq List.not_mem_nil⟩
  have hload : Fits (.load "a.b") := hdot
  obtain ⟨⟨reply, hanswer, -, hfolder⟩, -⟩ := answers_agree (s := {}) rfl hpast hload
  -- the last save of the name counts; the deletion was of another
  have hkept : kept past "a.b" = some (room "a.b" "a \"b\"\n\u00e9") := by decide
  cases hanswer
  rw [hkept] at hfolder
  exact ⟨hpast, hload, hfolder⟩

/-- A maze whose name is half of a surrogate pair is kept in memory, but a folder refuses
it, and what it leaves behind is no maze. -/
theorem torn_name_refused :
    let m : Maze := ⟨"ok", ⟨[.half 0x3D]⟩, 1, ⟨[[.start]]⟩⟩
    m.WellFormed ∧ Legal m.id ∧
      (MazeStore.serve ({} : MemoryStore) (.save m)).2 = .ok .done ∧
      (MazeStore.serve ({} : FolderStore) (.save m)).2 =
        .error (.notEncodable ⟨27, 1, .half 0x3D⟩) ∧
      (MazeStore.serve (serveAll ({} : MemoryStore) [.save m]) (.load "ok")).2 =
        .ok (.found (some m)) ∧
      (MazeStore.serve (serveAll ({} : FolderStore) [.save m]) (.load "ok")).2 =
        .error Maze.unreadable := by
  intro m
  have hlegal : Legal "ok" := legal_ofString (by decide) rfl
  have hencode : (textOf m).encode = .error ⟨27, 1, .half 0x3D⟩ := by
    have hrun : (textOf m).halfRun? = some ⟨27, 1, .half 0x3D⟩ := by decide
    rw [Text.encode, hrun]
  -- the file is opened before the text is encoded: the refusal leaves it empty
  have hsave : MazeStore.save ({} : FolderStore) m =
      (({} : FolderStore).write ("ok" ++ extension) .empty,
        .error (.notEncodable ⟨27, 1, .half 0x3D⟩)) := by
    have hid : fileName m.id = .ok ("ok" ++ extension) := hlegal.fileName_eq
    simp only [MazeStore.save, hid, storeText, hencode, hlegal.store_eq]
  refine ⟨⟨by decide, rfl, by decide⟩, hlegal, rfl, ?_, ?_, ?_⟩
  · simp only [MazeStore.serve, hsave]
    rfl
  · rfl
  · have hfile : (({} : FolderStore).write ("ok" ++ extension) .empty).read? ("ok" ++ extension) =
        some .empty := by
      simp only [FolderStore.write, read?, hlegal.settled]
      rfl
    simp only [serveAll, List.foldl_cons, List.foldl_nil, MazeStore.serve, hsave, MazeStore.load,
      FolderStore.find?, hlegal.fileName_eq, hlegal.lookUp_eq, hfile, readMaze_empty]
    rfl

end FolderStore

end MazeRobot
