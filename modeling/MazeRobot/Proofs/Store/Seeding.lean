import MazeRobot.Proofs.Store.Agreement
import MazeRobot.Store.Seed

/-!
# Seeding a store

Seeding first lists what is there.  So a store that lists a maze is left alone, and so is one that
cannot be listed; the built-in mazes are saved only where nothing is listed (`Seeded`,
`seeded_seed`).

Saving them is not hindered by anything: their ids differ and can name files
(`Catalog.distinct_mazes`, `Catalog.legal_of_mem`), and the mazes can be stored
(`Catalog.storable_of_mem`).  In memory they end up in a store of their own
(`MemoryStore.builtIn`).  A folder that lists nothing may hold other files.  These do not matter to
mazes (`FolderStore.mazesOnly`), so the files of mazes mirror that store in memory afterwards.

A folder can be listed exactly if each file that should hold a maze does (`FolderStore.Readable`).
Every request keeps it that way, unless it saves a maze that cannot be written
(`FolderStore.Readable.serve`).

## Key results

- `MemoryStore.seeded`, `FolderStore.seeded`: what seeding comes to, whatever is there
- `FolderStore.exists_readAll_iff`: which folders can be listed
- `seed_never_overwrites`: seeding once and again, for both kinds of store
-/

namespace MazeRobot

open MazeStore

namespace MazeStore

variable {σ : Type} [MazeStore σ] {s s' : σ}

/-- A store lists exactly the given mazes, in the order of their ids, and loads each of them. -/
structure Holds (s : σ) (mazes : List Maze) : Prop where
  listed : ∃ ms : List Maze, (list s).2 = .ok ms ∧
    ms.Pairwise (fun a b => a.id ≤ b.id ∧ a.id ≠ b.id) ∧ ∀ m, m ∈ ms ↔ m ∈ mazes
  loaded : ∀ m ∈ mazes, (load s m.id).2 = .ok (some m)

/-- What seeding a store comes to. -/
inductive Seeded (s : σ) : σ × Except Failure Nat → Prop where
  /-- Some mazes are there. -/
  | occupied {mazes : List Maze} (listed : (list s).2 = .ok mazes) (nonempty : mazes ≠ []) :
    Seeded s (s, .ok 0)
  /-- The mazes that are there cannot be listed. -/
  | refused {e : Failure} (unlisted : (list s).2 = .error e) : Seeded s (s, .error e)
  /-- No maze is there before, and the built-in ones are afterwards. -/
  | filled {s' : σ} (empty : (list s).2 = .ok []) (holds : Holds s' Catalog.mazes) :
    Seeded s (s', .ok Catalog.mazes.length)

/-- A request that saves no maze, or one that can be stored. -/
def Request.Sound : Request → Prop
  | .save m => m.Storable
  | _ => True

/-- To save one more maze is one more request. -/
theorem serveAll_append_save (s : σ) (past : List Request) (m : Maze) :
    serveAll s (past ++ [.save m]) = (save (serveAll s past) m).1 := by
  rw [serveAll_append, serve]

/-- A store that cannot be listed is not seeded, and says why. -/
theorem seed_of_refused {e : Failure} (h : list s = (s, .error e)) : seed s = (s, .error e) := by
  rw [seed, h]

/-- A store that holds something is left as it is. -/
theorem seed_of_listed {mazes : List Maze} (h : list s = (s, .ok mazes)) (hne : mazes ≠ []) :
    seed s = (s, .ok 0) := by
  cases mazes with
  | nil => exact absurd rfl hne
  | cons m mazes => rw [seed, h]

/-- An empty store is given all of the built-in mazes. -/
theorem seed_of_empty (h : list s = (s, .ok [])) (hsaved : saveAll s Catalog.mazes = (s', .ok ())) :
    seed s = (s', .ok Catalog.mazes.length) := by
  rw [seed, h]
  simp only [hsaved, Except.map]

/-- Where listing changes nothing, all depends on what becomes of a store that lists nothing. -/
theorem seeded_seed (hlist : (list s).1 = s)
    (hfill : (list s).2 = .ok [] →
      ∃ s', saveAll s Catalog.mazes = (s', .ok ()) ∧ Holds s' Catalog.mazes) :
    Seeded s (seed s) := by
  have hpair {r} (h : (list s).2 = r) : list s = (s, r) := Prod.ext hlist h
  cases hlisted : (list s).2 with
  | error e =>
    rw [seed_of_refused (hpair hlisted)]
    exact .refused hlisted
  | ok mazes =>
    by_cases hne : mazes = []
    · subst hne
      obtain ⟨s', hsaved, hholds⟩ := hfill hlisted
      rw [seed_of_empty (hpair hlisted) hsaved]
      exact .filled hlisted hholds
    · rw [seed_of_listed (hpair hlisted) hne]
      exact .occupied hlisted hne

/-- A store that was seeded can be listed, and is not empty. -/
theorem Seeded.listed {r : σ × Except Failure Nat} {n : Nat} (h : Seeded s r) (hn : r.2 = .ok n) :
    (∃ mazes, (list r.1).2 = .ok mazes) ∧ (list r.1).2 ≠ .ok [] := by
  have hnonempty {mazes : List Maze} (hlisted : (list r.1).2 = .ok mazes) (hne : mazes ≠ []) :
      (∃ mazes, (list r.1).2 = .ok mazes) ∧ (list r.1).2 ≠ .ok [] := by
    refine ⟨⟨mazes, hlisted⟩, ?_⟩
    rw [hlisted, Ne, Except.ok.injEq]
    exact hne
  cases h with
  | occupied hlisted hne => exact hnonempty hlisted hne
  | refused _ => cases hn
  | filled _ hholds =>
    obtain ⟨mazes, hlisted, -, hmem⟩ := hholds.listed
    -- an empty list would have none of the built-in mazes
    have hsome : Catalog.mazes ≠ [] := List.cons_ne_nil _ _
    refine hnonempty hlisted fun hnil => hsome (List.eq_nil_iff_forall_not_mem.mpr fun m hm => ?_)
    rw [← hmem, hnil] at hm
    exact List.not_mem_nil hm

/-- Seeding fails exactly where listing does. -/
theorem Seeded.exists_error_iff {r : σ × Except Failure Nat} (h : Seeded s r) :
    (∃ e, r.2 = .error e) ↔ ∃ e, (list s).2 = .error e := by
  cases h with
  | occupied hlisted _ => simp [hlisted]
  | refused hlisted => simp [hlisted]
  | filled hempty _ => simp [hempty]

/-- A store that was seeded is left alone as long as it can be listed and is not empty. -/
theorem seed_of_nonempty (hlist : (list s).1 = s) (hlisted : ∃ mazes, (list s).2 = .ok mazes)
    (hne : (list s).2 ≠ .ok []) : seed s = (s, .ok 0) := by
  obtain ⟨mazes, hmazes⟩ := hlisted
  refine seed_of_listed (Prod.ext hlist hmazes) ?_
  rintro rfl
  exact hne hmazes

end MazeStore

/-! ## The built-in mazes -/

namespace Catalog

/-- The built-in mazes have different ids. -/
theorem distinct_mazes : Maze.Distinct mazes := by
  unfold Maze.Distinct
  decide +kernel

/-- The ids of the built-in mazes can name files. -/
theorem legal_of_mem {m : Maze} (h : m ∈ mazes) : FolderStore.Legal m.id := by
  have hids : ∀ m ∈ mazes, m.id.string?.isSome ∧ FolderStore.isFileId m.id ∧
      (FolderStore.nameFault? (m.id ++ FolderStore.extension)).isNone := by decide +kernel
  obtain ⟨hstring, hid, hname⟩ := hids m h
  obtain ⟨s, hs⟩ := Option.isSome_iff_exists.mp hstring
  rw [Text.string?_eq_some_iff] at hs
  rw [hs] at hid hname ⊢
  exact FolderStore.legal_ofString hid (Option.isNone_iff_eq_none.mp hname)

/-- The names of the built-in mazes can be written as bytes. -/
theorem storable_of_mem {m : Maze} (h : m ∈ mazes) : m.Storable := by
  have hsquare : ∀ m ∈ mazes, 1 ≤ m.size ∧ m.grid.rows.length = m.size ∧
      ∀ row ∈ m.grid.rows, row.length = m.size := by decide +kernel
  have hwritten : ∀ m ∈ mazes, m.id.string?.isSome ∧ m.name.string?.isSome ∧
      (Nat.toDigits 10 m.size).length ≤ Numeral.maxWholeDigits := by decide +kernel
  obtain ⟨hpos, hrows, hrow⟩ := hsquare m h
  obtain ⟨hid, hname, hsize⟩ := hwritten m h
  simp only [Option.isSome_iff_exists, Text.string?_eq_some_iff] at hid hname
  exact ⟨⟨hpos, hrows, hrow⟩, hid, hname, hsize⟩

end Catalog

/-! ## In memory -/

namespace MemoryStore

variable {s : MemoryStore} {ms : List Maze}

/-- Mazes with ids of their own do not overwrite each other, nor what is there. -/
theorem saveAll_of_distinct (h : Maze.Distinct (ms.reverse ++ s.mazes)) :
    saveAll s ms = (⟨ms.reverse ++ s.mazes⟩, .ok ()) := by
  induction ms generalizing s with
  | nil => rfl
  | cons m ms ih =>
    rw [List.reverse_cons, List.append_assoc, List.singleton_append] at h ⊢
    obtain ⟨hm, -⟩ := List.pairwise_cons.mp (List.pairwise_append.mp h).2.1
    have hput : s.put m = ⟨m :: s.mazes⟩ := by
      -- no maze before has this name, so nothing is replaced
      have herase : s.mazes.filter (fun n => n.id != m.id) = s.mazes :=
        List.filter_eq_self.mpr fun n hn => by simpa using (hm n hn).symm
      rw [put, erase, herase]
    show saveAll (s.put m) ms = _
    rw [hput]
    exact ih h

/-- A memory that lists nothing holds nothing. -/
theorem eq_empty_of_toList (h : s.toList = []) : s = {} := by
  have hperm : s.toList.Perm s.mazes := Maze.perm_sortById s.mazes
  rw [h] at hperm
  exact congrArg mk hperm.nil_eq.symm

/-- A store with the built-in mazes and no others. -/
def builtIn : MemoryStore := ⟨Catalog.mazes.reverse⟩

/-- The mazes of the seeded memory have different ids. -/
theorem distinct_builtIn : Maze.Distinct builtIn.mazes :=
  Catalog.distinct_mazes.perm (List.reverse_perm _).symm

/-- Saving the built-in mazes into an empty memory gives that memory. -/
theorem saveAll_mazes : saveAll ({} : MemoryStore) Catalog.mazes = (builtIn, .ok ()) := by
  have hdistinct : Maze.Distinct (Catalog.mazes.reverse ++ ({} : MemoryStore).mazes) := by
    rw [List.append_nil]
    exact distinct_builtIn
  rw [saveAll_of_distinct hdistinct, List.append_nil]
  rfl

/-- The seeded memory holds the built-in mazes. -/
theorem mem_builtIn {m : Maze} : m ∈ builtIn.mazes ↔ m ∈ Catalog.mazes := List.mem_reverse

/-- The seeded memory lists the built-in mazes in the order of their ids, each once. -/
theorem pairwise_toList_builtIn :
    builtIn.toList.Pairwise (fun a b => a.id ≤ b.id ∧ a.id ≠ b.id) ∧
      ∀ m, m ∈ builtIn.toList ↔ m ∈ Catalog.mazes :=
  ⟨Maze.pairwise_sortById distinct_builtIn, fun _ => Maze.mem_sortById.trans mem_builtIn⟩

/-- The seeded memory finds each of the built-in mazes. -/
theorem find?_builtIn {m : Maze} (h : m ∈ Catalog.mazes) : builtIn.find? m.id = some m :=
  (mem_iff_find? distinct_builtIn m).mp (mem_builtIn.mpr h)

/-- The seeded memory holds the built-in mazes and nothing else. -/
theorem holds_builtIn : Holds builtIn Catalog.mazes :=
  ⟨⟨_, rfl, pairwise_toList_builtIn⟩, fun _ hm => congrArg Except.ok (find?_builtIn hm)⟩

/-- Seeding a memory does what it should, whatever the memory holds. -/
theorem seeded (s : MemoryStore) : Seeded s (seed s) := by
  refine seeded_seed rfl fun hempty => ?_
  obtain rfl := eq_empty_of_toList (Except.ok.inj hempty)
  exact ⟨_, saveAll_mazes, holds_builtIn⟩

end MemoryStore

/-! ## In files -/

namespace FolderStore

variable {s : FolderStore} {memory : MemoryStore} {id name : Text} {bytes : ByteArray} {m : Maze}
  {ms : List Maze}

/-- Whether a file of that name should hold a maze. -/
def isMazeFile (name : Text) : Bool := extension.points.isSuffixOf name.points

/-- The folder without the files that have nothing to do with mazes. -/
def mazesOnly (s : FolderStore) : FolderStore :=
  ⟨s.files.map fun files => files.filter fun f => isMazeFile f.1⟩

/-- The file of an id is one of those that hold mazes. -/
theorem isMazeFile_append (id : Text) : isMazeFile (id ++ extension) = true :=
  List.isSuffixOf_iff_suffix.mpr (List.suffix_append id.points extension.points)

/-- Only files that hold mazes are kept. -/
theorem files_mazesOnly (s : FolderStore) :
    s.mazesOnly.files.getD [] = (s.files.getD []).filter fun f => isMazeFile f.1 := by
  rw [mazesOnly]
  cases s.files <;> rfl

/-- The files that hold mazes are told by their names. -/
theorem mem_mazeFiles {f : Text × ByteArray} :
    f ∈ s.mazeFiles ↔ f ∈ s.files.getD [] ∧ isMazeFile f.1 = true :=
  (List.mergeSort_perm _ _).mem_iff.trans List.mem_filter

/-! ### Other files do not matter -/

/-- Files that hold no mazes do not matter for a listing. -/
theorem readAll_mazesOnly (s : FolderStore) : s.mazesOnly.readAll = s.readAll := by
  have hfiles : s.mazesOnly.mazeFiles = s.mazeFiles := by
    rw [mazeFiles, files_mazesOnly, List.filter_filter]
    simp only [isMazeFile, Bool.and_self]
    rfl
  rw [readAll, hfiles, readAll]

/-- Other files do not matter for looking up one that holds a maze. -/
theorem lookup_filter_isMazeFile (h : isMazeFile name = true) (files : List (Text × ByteArray)) :
    (files.filter fun f => isMazeFile f.1).lookup name = files.lookup name := by
  induction files with
  | nil => rfl
  | cons f files ih =>
    rw [List.filter_cons]
    by_cases hf : isMazeFile f.1 = true
    · rw [if_pos hf, List.lookup_cons, List.lookup_cons, ih]
    · have hne : name ≠ f.1 := fun e => hf (e ▸ h)
      rw [if_neg hf, ih, List.lookup_cons, beq_false_of_ne hne]

/-- Other files do not matter for finding a maze. -/
theorem find?_mazesOnly (h : Legal id) (s : FolderStore) : s.mazesOnly.find? id = s.find? id := by
  have hread : s.mazesOnly.read? (id ++ extension) = s.read? (id ++ extension) := by
    rw [read?, read?, h.settled, mazesOnly]
    cases s.files with
    | none => rfl
    | some files => exact lookup_filter_isMazeFile (isMazeFile_append id) files
  rw [FolderStore.find?, FolderStore.find?]
  simp only [h.fileName_eq, h.lookUp_eq, hread]

/-- Other files do not matter for writing a maze. -/
theorem mazesOnly_write (h : isMazeFile name.settled = true) (s : FolderStore)
    (bytes : ByteArray) : (s.write name bytes).mazesOnly = s.mazesOnly.write name bytes := by
  rw [write, write, mazesOnly, files_mazesOnly, Option.map_some, List.filter_cons, if_pos h,
    List.filter_filter, List.filter_filter]
  simp only [Bool.and_comm]

/-- Writing a file leaves all others alone. -/
theorem mem_write_of_ne {f : Text × ByteArray} (h : f.1 ≠ name.settled) :
    f ∈ (s.write name bytes).files.getD [] ↔ f ∈ s.files.getD [] := by
  rw [write, Option.getD_some, List.mem_cons, List.mem_filter]
  constructor
  · rintro (rfl | ⟨hf, -⟩)
    · exact absurd rfl h
    · exact hf
  · exact fun hf => .inr ⟨hf, by simpa using h⟩

/-! ### Saving the built-in mazes -/

/-- A maze that can be stored is saved by writing its file. -/
theorem save_eq (hid : Legal m.id) (hm : m.Storable) (s : FolderStore) :
    save s m = (s.write (m.id ++ extension) (fileOf m), .ok ()) := by
  simp only [MazeStore.save, hid.fileName_eq, storeText, encode_textOf hm, hid.store_eq]

/-- Saving such mazes keeps the folder a mirror, and leaves all other files alone. -/
theorem saveAll_of_mirrors (h : s.mazesOnly.Mirrors memory)
    (hms : ∀ m ∈ ms, Legal m.id ∧ m.Storable) :
    ∃ s', saveAll s ms = (s', .ok ()) ∧ s'.mazesOnly.Mirrors (saveAll memory ms).1 ∧
      ∀ f, isMazeFile f.1 = false → (f ∈ s'.files.getD [] ↔ f ∈ s.files.getD []) := by
  -- what mirrors the mazes in memory is the folder without the other files, after each save
  induction ms generalizing s memory with
  | nil => exact ⟨s, rfl, h, fun _ _ => Iff.rfl⟩
  | cons m ms ih =>
    obtain ⟨⟨hid, hm⟩, hrest⟩ := List.forall_mem_cons.mp hms
    have hfile : isMazeFile (m.id ++ extension).settled = true := by
      rw [hid.settled]
      exact isMazeFile_append m.id
    have hwritten : (s.write (m.id ++ extension) (fileOf m)).mazesOnly.Mirrors (memory.put m) := by
      rw [mazesOnly_write hfile]
      exact h.write hid hm
    obtain ⟨s', hsaved, hmirrors, hothers⟩ := ih hwritten hrest
    refine ⟨s', ?_, hmirrors, fun f hf => (hothers f hf).trans (mem_write_of_ne ?_)⟩
    · rw [saveAll, save_eq hid hm]
      exact hsaved
    · intro e
      rw [e, hfile] at hf
      cases hf

/-! ### Folders that can be listed -/

/-- Every file that should hold a maze does. -/
def Readable (s : FolderStore) : Prop :=
  ∀ f ∈ s.files.getD [], isMazeFile f.1 = true → ∃ m, readMaze f.2 = .ok m

/-- A folder is listed if every file that holds a maze can be decoded and read. -/
theorem readAll_eq_ok_iff {mazes : List Maze} :
    s.readAll = .ok mazes ↔ ∃ texts, s.mazeFiles.mapM (fun f => decode f.2) = .ok texts ∧
      ∃ ms, texts.mapM (fun t : String => Maze.ofText t) = .ok ms ∧ Maze.sortById ms = mazes := by
  show Except.bind _ (fun texts => Except.bind _ fun ms => .ok (Maze.sortById ms)) = _ ↔ _
  simp only [bind_eq_ok_iff, Except.ok.injEq]

/-- In a folder that is listed, each file comes out as a maze of the list. -/
theorem exists_of_readAll {mazes : List Maze} (h : s.readAll = .ok mazes) :
    ∀ f ∈ s.mazeFiles, ∃ m ∈ mazes, readMaze f.2 = .ok m := by
  obtain ⟨texts, htexts, ms, hms, rfl⟩ := readAll_eq_ok_iff.mp h
  intro f hf
  obtain ⟨t, ht, hdecode⟩ := exists_of_mapM_eq_ok htexts f hf
  obtain ⟨m, hm, hread⟩ := exists_of_mapM_eq_ok hms t ht
  exact ⟨m, Maze.mem_sortById.mpr hm, bind_eq_ok_iff.mpr ⟨t, hdecode, hread⟩⟩

/-- A folder can be listed if each of the files that hold mazes is readable. -/
theorem exists_readAll_iff : (∃ mazes, s.readAll = .ok mazes) ↔ s.Readable := by
  constructor
  · rintro ⟨mazes, h⟩ f hf hname
    obtain ⟨m, -, hm⟩ := exists_of_readAll h f (mem_mazeFiles.mpr ⟨hf, hname⟩)
    exact ⟨m, hm⟩
  · intro h
    have hread : ∀ f ∈ s.mazeFiles,
        ∃ t, decode f.2 = .ok t ∧ ∃ m, Maze.ofText (t : String) = .ok m := fun f hf => by
      obtain ⟨hmem, hname⟩ := mem_mazeFiles.mp hf
      obtain ⟨m, hm⟩ := h f hmem hname
      obtain ⟨t, hdecode, hmaze⟩ := bind_eq_ok_iff.mp hm
      exact ⟨t, hdecode, m, hmaze⟩
    obtain ⟨texts, htexts, hdecoded⟩ :=
      exists_mapM_eq_ok fun f hf => (hread f hf).imp fun _ => And.left
    have hmazes : ∀ t ∈ texts, ∃ m, Maze.ofText (t : String) = .ok m := fun t ht => by
      -- the text comes from a file that holds a maze
      obtain ⟨f, hf, hdecode⟩ := hdecoded t ht
      obtain ⟨t', hdecode', hmaze⟩ := hread f hf
      rw [hdecode] at hdecode'
      rwa [Except.ok.inj hdecode']
    obtain ⟨ms, hms, -⟩ := exists_mapM_eq_ok hmazes
    exact ⟨_, readAll_eq_ok_iff.mpr ⟨texts, htexts, ms, hms, rfl⟩⟩

/-- A folder cannot be listed exactly if a file that should hold a maze does not. -/
theorem exists_readAll_error_iff : (∃ e, s.readAll = .error e) ↔
    ∃ f ∈ s.files.getD [], isMazeFile f.1 = true ∧ ∃ e, readMaze f.2 = .error e := by
  rw [exists_eq_error_iff, exists_readAll_iff, Readable]
  simp only [exists_eq_error_iff, not_forall, exists_prop]

/-- Writing a readable file keeps a folder readable. -/
theorem Readable.write (h : s.Readable) (hbytes : readMaze bytes = .ok m) :
    (s.write name bytes).Readable := by
  intro f hf hname
  rw [FolderStore.write, Option.getD_some, List.mem_cons, List.mem_filter] at hf
  obtain rfl | ⟨hf, -⟩ := hf
  · exact ⟨m, hbytes⟩
  · exact h f hf hname

/-- Removing a file keeps a folder readable. -/
theorem Readable.erase (h : s.Readable) (name : Text) : (s.erase name).Readable := by
  intro f hf hname
  rw [FolderStore.erase] at hf
  cases hfiles : s.files with
  | none => rw [hfiles] at hf; exact absurd hf List.not_mem_nil
  | some files =>
    rw [hfiles] at hf
    refine h f ?_ hname
    rw [hfiles]
    exact List.mem_of_mem_filter hf

/-- A maze that can be stored leaves a file that can be read, or none if its id is refused. -/
theorem Readable.save (h : s.Readable) (hm : m.Storable) : (save s m).1.Readable := by
  cases hname : fileName m.id with
  | error e =>
    -- nothing is written under an id that cannot name a file
    simp only [MazeStore.save, hname]
    exact h
  | ok name =>
    simp only [MazeStore.save, hname, storeText, encode_textOf hm, store]
    split
    · exact h
    · exact h.write (readMaze_fileOf hm)

/-- A request to delete keeps a folder readable. -/
theorem Readable.delete (h : s.Readable) (id : Text) : (delete s id).1.Readable := by
  cases hname : fileName id with
  | error e =>
    simp only [MazeStore.delete, hname]
    exact h
  | ok name =>
    simp only [MazeStore.delete, hname, remove]
    split
    · exact h
    · exact h.erase name

/-- A request whose maze can be written keeps a folder readable. -/
theorem Readable.serve (h : s.Readable) {q : Request} (hq : q.Sound) : (serve s q).1.Readable := by
  cases q with
  | load _ => exact h
  | list => exact h
  | save m => exact h.save hq
  | delete id => exact h.delete id

/-- Requests whose mazes can be written keep a folder readable. -/
theorem Readable.serveAll (h : s.Readable) {past : List Request} (hpast : ∀ q ∈ past, q.Sound) :
    (serveAll s past).Readable := by
  induction past using List.reverseRecOn with
  | nil => exact h
  | append_singleton past q ih =>
    obtain ⟨hbefore, hlast⟩ := List.forall_mem_append.mp hpast
    rw [serveAll_append]
    exact (ih hbefore).serve (hlast q List.mem_cons_self)

/-! ### Seeding a folder -/

/-- What is no maze does not count. -/
theorem mirrors_of_readAll (h : s.readAll = .ok []) : s.mazesOnly.Mirrors {} := by
  refine ⟨List.forall_mem_nil _, List.forall_mem_nil _, ?_⟩
  rw [files_mazesOnly, List.map_nil, List.filter_eq_nil_iff]
  intro f hf hname
  obtain ⟨m, hm, -⟩ := exists_of_readAll h f (mem_mazeFiles.mpr ⟨hf, hname⟩)
  exact List.not_mem_nil hm

/-- A folder that mirrors the seeded memory holds the built-in mazes. -/
theorem Mirrors.holds (h : s.mazesOnly.Mirrors .builtIn) : Holds s Catalog.mazes := by
  refine ⟨⟨_, ?_, MemoryStore.pairwise_toList_builtIn⟩, fun m hm => ?_⟩
  · show s.readAll = _
    rw [← readAll_mazesOnly]
    exact h.readAll_eq MemoryStore.distinct_builtIn
  · have hid := Catalog.legal_of_mem hm
    show s.find? m.id = _
    rw [← find?_mazesOnly hid, h.find?_eq hid, MemoryStore.find?_builtIn hm]

/-- Saving the built-in mazes into a folder without any succeeds, and touches no other file. -/
theorem saveAll_mazes (h : s.readAll = .ok []) :
    ∃ s', saveAll s Catalog.mazes = (s', .ok ()) ∧ Holds s' Catalog.mazes ∧
      ∀ f, isMazeFile f.1 = false → (f ∈ s'.files.getD [] ↔ f ∈ s.files.getD []) := by
  obtain ⟨s', hsaved, hmirrors, hothers⟩ := saveAll_of_mirrors (mirrors_of_readAll h)
    fun m hm => ⟨Catalog.legal_of_mem hm, Catalog.storable_of_mem hm⟩
  rw [MemoryStore.saveAll_mazes] at hmirrors
  exact ⟨s', hsaved, hmirrors.holds, hothers⟩

/-- Seeding a folder does what it should, whatever the folder holds. -/
theorem seeded (s : FolderStore) : Seeded s (seed s) :=
  seeded_seed rfl fun hempty => by
    obtain ⟨s', hsaved, hholds, -⟩ := saveAll_mazes hempty
    exact ⟨s', hsaved, hholds⟩

/-- Files that hold no mazes stay, and there are no more of them. -/
theorem mem_seed_iff {f : Text × ByteArray} (hf : isMazeFile f.1 = false) (s : FolderStore) :
    f ∈ (seed s).1.files.getD [] ↔ f ∈ s.files.getD [] := by
  cases hread : s.readAll with
  | error e => rw [seed_of_refused (congrArg (Prod.mk s) hread)]
  | ok mazes =>
    by_cases hne : mazes = []
    · subst hne
      obtain ⟨s', hsaved, -, hothers⟩ := saveAll_mazes hread
      rw [seed_of_empty (congrArg (Prod.mk s) hread) hsaved]
      exact hothers f hf
    · rw [seed_of_listed (congrArg (Prod.mk s) hread) hne]

/-- There is nothing to be listed in an empty folder. -/
theorem readAll_empty : ({} : FolderStore).readAll = .ok [] := by
  have hmirrors : ({} : FolderStore).Mirrors {} :=
    ⟨List.forall_mem_nil _, List.forall_mem_nil _, rfl⟩
  rw [hmirrors.readAll_eq List.Pairwise.nil, MemoryStore.toList, Maze.sortById, List.mergeSort_nil]

end FolderStore

/-- Whatever a store holds, seeding leaves it alone if mazes are there or cannot be listed, and
otherwise puts the built-in mazes there and nothing else.  In memory it never fails, and in a
folder exactly if a file that should hold a maze does not; other files stay as they are in any
case.  Once a store was seeded, seeding it again changes nothing, and so it is after any requests
that leave a maze there, if the mazes that were saved into a folder can be stored. -/
theorem seed_never_overwrites :
    (∀ s : MemoryStore, Seeded s (seed s) ∧ (¬ ∃ e, (seed s).2 = .error e) ∧
      ∀ n, (seed s).2 = .ok n → seed (seed s).1 = ((seed s).1, .ok 0) ∧
        ∀ past : List Request,
          let later := serveAll (seed s).1 past
          (list later).2 ≠ .ok [] → seed later = (later, .ok 0)) ∧
    ∀ s : FolderStore, Seeded s (seed s) ∧
      ((∃ e, (seed s).2 = .error e) ↔ ∃ f ∈ s.files.getD [],
        FolderStore.isMazeFile f.1 = true ∧ ∃ e, FolderStore.readMaze f.2 = .error e) ∧
      (∀ f, FolderStore.isMazeFile f.1 = false →
        (f ∈ (seed s).1.files.getD [] ↔ f ∈ s.files.getD [])) ∧
      ∀ n, (seed s).2 = .ok n → seed (seed s).1 = ((seed s).1, .ok 0) ∧
        ∀ past : List Request, (∀ q ∈ past, q.Sound) →
          let later := serveAll (seed s).1 past
          (list later).2 ≠ .ok [] → seed later = (later, .ok 0) := by
  refine ⟨fun s => ⟨s.seeded, ?_, fun n hn => ?_⟩,
    fun s => ⟨s.seeded, ?_, fun f hf => FolderStore.mem_seed_iff hf s, fun n hn => ?_⟩⟩
  · rw [s.seeded.exists_error_iff]
    rintro ⟨e, he⟩
    cases he
  · obtain ⟨hlisted, hne⟩ := s.seeded.listed hn
    exact ⟨seed_of_nonempty rfl hlisted hne, fun past => seed_of_nonempty rfl ⟨_, rfl⟩⟩
  · exact s.seeded.exists_error_iff.trans FolderStore.exists_readAll_error_iff
  · obtain ⟨hlisted, hne⟩ := s.seeded.listed hn
    -- a listing succeeds only over readable files, and sound requests keep them readable
    have hreadable : (seed s).1.Readable := FolderStore.exists_readAll_iff.mp hlisted
    exact ⟨seed_of_nonempty rfl hlisted hne, fun past hpast =>
      seed_of_nonempty rfl (FolderStore.exists_readAll_iff.mpr (hreadable.serveAll hpast))⟩

/-- A folder is filled; then a built-in maze is deleted and another maze is saved. -/
theorem seed_never_overwrites_edited :
    let room : Maze := ⟨"a", "M", 1, ⟨[[.start]]⟩⟩
    let past : List Request := [.delete "maze1", .save room]
    ∃ s : FolderStore, seed ({} : FolderStore) = (s, .ok 10) ∧ (∀ q ∈ past, q.Sound) ∧
      (list (serveAll s past)).2 ≠ .ok [] ∧ seed (serveAll s past) = (serveAll s past, .ok 0) := by
  intro room past
  obtain ⟨s, hsaved, -, -⟩ := FolderStore.saveAll_mazes FolderStore.readAll_empty
  have hseed : seed ({} : FolderStore) = (s, .ok 10) :=
    seed_of_empty (congrArg (Prod.mk _) FolderStore.readAll_empty) hsaved
  have hroom : room.Storable := Maze.storable_cell "a" "M" .start
  have hlegal : FolderStore.Legal room.id := FolderStore.legal_ofString (by decide) rfl
  have hsound : ∀ q ∈ past, q.Sound :=
    List.forall_mem_cons.mpr ⟨trivial, List.forall_mem_singleton.mpr hroom⟩
  have hne : (list (serveAll s past)).2 ≠ .ok [] := by
    intro hempty
    have hlast : serveAll s past = (save (serveAll s [.delete "maze1"]) room).1 :=
      serveAll_append_save s [.delete "maze1"] room
    -- the file that was written last is there
    have hfile : FolderStore.entry room ∈ (serveAll s past).mazeFiles := by
      rw [FolderStore.mem_mazeFiles, hlast, FolderStore.save_eq hlegal hroom, FolderStore.write,
        hlegal.settled]
      exact ⟨List.mem_cons_self, FolderStore.isMazeFile_append room.id⟩
    obtain ⟨m, hm, -⟩ := FolderStore.exists_of_readAll hempty _ hfile
    exact List.not_mem_nil hm
  obtain ⟨-, -, -, hagain⟩ := seed_never_overwrites.2 {}
  rw [hseed] at hagain
  exact ⟨s, hseed, hsound, hne, (hagain 10 rfl).2 past hsound hne⟩

/-- A maze whose name is half of a surrogate pair is refused, but leaves a file that is no maze.
With it a folder cannot be listed any more, so it cannot be seeded, though a maze is there. -/
theorem seed_refused_after_torn :
    let room : Maze := ⟨"a", "M", 1, ⟨[[.start]]⟩⟩
    let torn : Maze := ⟨"ok", ⟨[.half 0x3D]⟩, 1, ⟨[[.start]]⟩⟩
    let s : FolderStore := ⟨some [FolderStore.entry room]⟩
    let later := serveAll s [.save torn]
    seed s = (s, .ok 0) ∧ torn.WellFormed ∧ (load later room.id).2 = .ok (some room) ∧
      ∃ e, seed later = (later, .error e) := by
  intro room torn s later
  have hroom : room.Storable := Maze.storable_cell "a" "M" .start
  have hlegal : FolderStore.Legal room.id := FolderStore.legal_ofString (by decide) rfl
  have hok : FolderStore.Legal torn.id := FolderStore.legal_ofString (by decide) rfl
  have hmirrors : s.Mirrors ⟨[room]⟩ :=
    ⟨List.forall_mem_singleton.mpr hlegal, List.forall_mem_singleton.mpr hroom, rfl⟩
  have hseed : seed s = (s, .ok 0) := by
    have hlisted := hmirrors.readAll_eq (List.pairwise_singleton _ room)
    rw [MemoryStore.toList, Maze.sortById, List.mergeSort_singleton] at hlisted
    exact seed_of_listed (congrArg (Prod.mk s) hlisted) (List.cons_ne_nil room [])
  -- the name has a half on its own, so the text of the file has no bytes at all
  have hencode : (FolderStore.textOf torn).encode = .error ⟨27, 1, .half 0x3D⟩ := by
    have hrun : (FolderStore.textOf torn).halfRun? = some ⟨27, 1, .half 0x3D⟩ := by decide
    rw [Text.encode, hrun]
  -- the file is opened before it is written: what stays behind is empty
  have hlater : later = s.write (torn.id ++ FolderStore.extension) .empty := by
    simp only [later, serveAll, List.foldl_cons, List.foldl_nil, serve, MazeStore.save,
      hok.fileName_eq, FolderStore.storeText, hencode, hok.store_eq]
  clear_value later
  subst hlater
  refine ⟨hseed, ⟨by decide, rfl, by decide⟩, ?_, ?_⟩
  · have hread : (s.write (torn.id ++ FolderStore.extension) .empty).read?
        (room.id ++ FolderStore.extension) = some (FolderStore.fileOf room) := by
      rw [FolderStore.write, FolderStore.read?, hlegal.settled, hok.settled]
      rfl
    simp only [load, FolderStore.find?, hlegal.fileName_eq, hlegal.lookUp_eq, hread,
      FolderStore.readMaze_fileOf hroom]
    rfl
  -- were the folder listed, the empty file would hold a maze
  · cases hlisted : (s.write (torn.id ++ FolderStore.extension) .empty).readAll with
    | error e => exact ⟨e, seed_of_refused (congrArg (Prod.mk _) hlisted)⟩
    | ok mazes =>
      have hreadable := FolderStore.exists_readAll_iff.mp ⟨mazes, hlisted⟩
      obtain ⟨m, hm⟩ := hreadable _ List.mem_cons_self (by rw [hok.settled]; rfl)
      rw [FolderStore.readMaze_empty] at hm
      cases hm

end MazeRobot
