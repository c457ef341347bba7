import MazeRobot.Proofs.Json.CutOff
import MazeRobot.Proofs.Maze.Record
import MazeRobot.Store.Folder

/-!
# Files of mazes

The file for a maze that can be stored is read as that maze (`readMaze_fileOf`).  Any
proper part of it from its start is no maze: it holds no JSON text, or if it ends inside
a character, no text at all (`readMaze_cut`).
-/

namespace MazeRobot

namespace FolderStore

variable {m : Maze}

/-- The bytes of the file for a maze. -/
def fileOf (m : Maze) : ByteArray := (textOf m).lossy.toUTF8

/-- The text of a maze that can be stored has bytes. -/
theorem encode_textOf (h : m.Storable) : (textOf m).encode = .ok (fileOf m) := by
  obtain ⟨s, hs, -⟩ := h.exists_string .indented
  have hwhole : (textOf m).halfRun? = none := by
    rw [Text.halfRun?_eq_none_iff, textOf, hs, Text.string?_ofString]
    rfl
  rw [Text.encode, hwhole]
  rfl

/-! ## Whole files -/

/-- Without carriage returns there are no line ends to be unified. -/
theorem unifyLineEnds_eq_self {cs : List Char} (h : ∀ c ∈ cs, c ≠ '\r') :
    unifyLineEnds cs = cs := by
  induction cs with
  | nil => rfl
  | cons c cs ih =>
    obtain ⟨hc, hcs⟩ := List.forall_mem_cons.1 h
    unfold unifyLineEnds
    split
    · next heq => cases heq
    · next heq => cases heq; exact absurd rfl hc
    · next heq => cases heq; exact absurd rfl hc
    · next heq => cases heq; rw [ih hcs]

/-- The bytes of a string are read back as the string. -/
theorem fromUTF8?_toUTF8 (s : String) : String.fromUTF8? s.toUTF8 = some s :=
  dif_pos s.isValidUTF8

/-- The bytes of a string without carriage returns are decoded as the string. -/
theorem decode_of_fromUTF8? {bytes : ByteArray} {s : String}
    (hs : String.fromUTF8? bytes = some s) (h : ∀ c ∈ s.toList, c ≠ '\r') :
    decode bytes = .ok s := by
  rw [decode, contents, hs]
  simp only [Except.map, unifyLineEnds_eq_self h, String.ofList_toList]

/-- The file of a maze holds its text. -/
theorem decode_fileOf (h : m.Storable) : decode (fileOf m) = .ok (textOf m).lossy := by
  obtain ⟨s, hs, hlines⟩ := h.exists_string .indented
  have hlossy : (textOf m).lossy = s := by rw [textOf, hs, Text.lossy_ofString]
  rw [fileOf, hlossy]
  exact decode_of_fromUTF8? (fromUTF8?_toUTF8 s) hlines

/-- The text of a maze is read as the maze. -/
theorem ofText_lossy (h : m.Storable) : Maze.ofText (textOf m).lossy = .ok m := by
  obtain ⟨s, hs, -⟩ := h.exists_string .indented
  have htext := h.ofText_render .indented
  rw [textOf, hs, Text.lossy_ofString]
  rwa [hs] at htext

/-- The file for a maze is read as the maze. -/
theorem readMaze_fileOf (h : m.Storable) : readMaze (fileOf m) = .ok m := by
  rw [readMaze, decode_fileOf h]
  exact ofText_lossy h

/-! ## Files that are cut off -/

/-- What is a part of a string from its start byte by byte is one character by
character. -/
theorem exists_append_of_toUTF8 {s t : String} {q : ByteArray} (h : t.toUTF8 ++ q = s.toUTF8)
    (hq : q.size ≠ 0) : ∃ cs, cs ≠ [] ∧ s.toList = t.toList ++ cs := by
  have hencoded : t.toList.utf8Encode ++ q = s.toList.utf8Encode := by
    rw [String.utf8Encode_toList, String.utf8Encode_toList]
    exact h
  obtain ⟨cs, hcs⟩ := List.isPrefix_of_utf8Encode_append_eq_utf8Encode q hencoded
  refine ⟨cs, ?_, hcs.symm⟩
  rintro rfl
  rw [List.append_nil] at hcs
  rw [hcs] at hencoded
  have hsize := congrArg ByteArray.size hencoded
  rw [ByteArray.size_append] at hsize
  omega

/-- The text of a record lacks its last brace if anything is cut off. -/
theorem ofText_cut (h : m.Storable) {s t : String} (hs : textOf m = .ofString s)
    {cs : List Char} (hcs : cs ≠ []) (happend : s.toList = t.toList ++ cs) :
    Maze.ofText t = .error Maze.unreadable := by
  have hpoints : (textOf m).points = (Text.ofString t).points ++ cs.map .char := by
    rw [hs, Text.ofString, Text.ofChars, happend, List.map_append]
    rfl
  -- the text is one object: it opens with a brace, and only its last character closes it
  obtain ⟨ps, hbraces⟩ := Json.write_obj_braces .indented 0
    [("id", .str m.id), ("name", .str m.name), ("size", .int m.size), ("grid", m.grid.toJson)]
  have htext : (textOf m).points = .char '\x7b' :: (ps ++ [.char '\x7d']) := hbraces
  have hread : Json.read .strict Maze.maxNesting
      ⟨(Text.ofString t).points ++ cs.map .char⟩ = .ok m.toJson := by
    rw [← hpoints]
    exact Json.read_render .strict .indented (h.plain 197)
  obtain ⟨fault, hfault⟩ := Json.error_of_cut (by simpa using hcs)
    (by rw [← hpoints, htext, List.head?_cons])
    (by rw [← hpoints, htext, ← List.cons_append, List.getLast?_concat]) hread
  exact Maze.ofText_of_error hfault

/-- An empty file holds no maze. -/
theorem readMaze_empty : readMaze .empty = .error Maze.unreadable := by
  have hempty : String.fromUTF8? .empty = some "" := fromUTF8?_toUTF8 ""
  rw [readMaze, decode_of_fromUTF8? hempty (Json.ne_return_of_all rfl)]
  have hread : Json.read .strict Maze.maxNesting (Text.ofString "") = .error .malformed := rfl
  exact Maze.ofText_of_error hread

/-- A file that lacks its end holds no maze. -/
theorem readMaze_cut (h : m.Storable) {p q : ByteArray} (hcut : p ++ q = fileOf m)
    (hq : q.size ≠ 0) :
    readMaze p = .error (if p.IsValidUTF8 then Maze.unreadable else .undecodable) := by
  obtain ⟨s, hs, hlines⟩ := h.exists_string .indented
  split
  · next hvalid =>
    -- the file ends between two characters: what is there is a string, but no JSON text
    have hstring : String.fromUTF8? p = some (String.fromUTF8 p hvalid) := dif_pos hvalid
    have hbytes : (String.fromUTF8 p hvalid).toUTF8 ++ q = s.toUTF8 := by
      rw [fileOf, textOf, hs, Text.lossy_ofString] at hcut
      exact hcut
    obtain ⟨cs, hcs, happend⟩ := exists_append_of_toUTF8 hbytes hq
    have hclean : ∀ c ∈ (String.fromUTF8 p hvalid).toList, c ≠ '\r' := fun c hc =>
      hlines c (happend ▸ List.mem_append_left cs hc)
    rw [readMaze, decode_of_fromUTF8? hstring hclean]
    exact ofText_cut h hs hcs happend
  · next hinvalid =>
    have hnone : String.fromUTF8? p = none := dif_neg hinvalid
    rw [readMaze, decode, contents, hnone]
    rfl

end FolderStore

end MazeRobot
