import MazeRobot.Json.Writer
import MazeRobot.Maze.Record
import MazeRobot.Store.Basic

/-! # Mazes kept in files

A `FolderStore` keeps one JSON file for each maze, named by the maze's id.  The folder
does not exist until something is saved or the store is prepared.  Files are sequences
of bytes and may hold anything: a file that holds no text, or no maze, is a failure when
it is read.

Mazes are read with line ends in any of the three usual forms.

Not every id makes a file name.  An id with a slash, a backslash or a leading point is
refused by the store itself.  The file system refuses a name with the null character, a
name that cannot be written as bytes, and one with too many bytes: there is no such file,
and none can be written.  A file that is to hold what cannot be written as bytes is
created all the same and stays empty.  Names that are the same bytes name the same file
(`Text.settled`). -/

namespace MazeRobot

/-- A folder of files; none if the folder does not exist. -/
structure FolderStore where
  files : Option (List (Text × ByteArray)) := none
  deriving Inhabited

namespace FolderStore

/-- What the name of a maze file ends in. -/
def extension : Text := ".json"

/-- Whether an id can name a file. -/
def isFileId (id : Text) : Bool :=
  !id.isEmpty && id.points.head? != some (.char '.') && !id.holds '/' && !id.holds '\\'

/-- The name of the file for an id. -/
def fileName (id : Text) : Except Failure Text :=
  if isFileId id then .ok (id ++ extension) else .error (.badFileName id)

/-- Whether there can be a file of a name, however long it is. -/
def isName (name : Text) : Bool := name.nameRun?.isNone && !name.holds '\x00'

/-- The most bytes of a file name. -/
def maxNameBytes : Nat := 255

/-- The length of the folder's own path. -/
def folderPath : Nat := 22

/-- The most bytes of a path. -/
def maxPathBytes : Nat := 4095

/-- Whether a name has more bytes than the file system takes. -/
def isLong (name : Text) : Bool := decide (maxNameBytes < name.nameBytes.length)

/-- Whether a name makes a path of more bytes than the file system takes. -/
def isLongPath (name : Text) : Bool :=
  decide (maxPathBytes < folderPath + 1 + name.nameBytes.length)

/-- Line ends brought to the single form `\n`. -/
def unifyLineEnds : List Char → List Char
  | [] => []
  | '\r' :: '\n' :: rest => '\n' :: unifyLineEnds rest
  | '\r' :: rest => '\n' :: unifyLineEnds rest
  | c :: rest => c :: unifyLineEnds rest

/-- The text that a file holds, with its line ends as they are. -/
def contents (bytes : ByteArray) : Except Failure String :=
  match String.fromUTF8? bytes with
  | some s => .ok s
  | none => .error .undecodable

/-- The text that a file holds, with its line ends unified. -/
def decode (bytes : ByteArray) : Except Failure String :=
  (contents bytes).map fun s => String.ofList (unifyLineEnds s.toList)

/-- The maze that a file holds. -/
def readMaze (bytes : ByteArray) : Except Failure Maze := (decode bytes).bind fun s => Maze.ofText s

/-- The text of the file for a maze. -/
def textOf (m : Maze) : Text := m.toJson.render .indented

/-- The contents of a file. -/
def read? (s : FolderStore) (name : Text) : Option ByteArray :=
  s.files.bind fun files => files.lookup name.settled

/-- The folder with a file written; it is created if need be. -/
def write (s : FolderStore) (name : Text) (bytes : ByteArray) : FolderStore :=
  ⟨some ((name.settled, bytes) :: (s.files.getD []).filter fun f => f.1 != name.settled)⟩

/-- The folder without a file. -/
def erase (s : FolderStore) (name : Text) : FolderStore :=
  ⟨s.files.map fun files => files.filter fun f => f.1 != name.settled⟩

/-- Looks for a file.  A name that is too long is a failure as soon as there is a folder
to look in. -/
def lookUp (s : FolderStore) (name : Text) : Except Failure (Option ByteArray) :=
  if !isName name then .ok none
  else if isLong name && (s.files.isSome || isLongPath name) then .error .longFileName
  else .ok (s.read? name)

/-- Creates the folder if it does not exist. -/
def prepare (s : FolderStore) : FolderStore := ⟨some (s.files.getD [])⟩

/-- Why the file system refuses a name.  It is told where in the whole path the name
cannot be written. -/
def nameFault? (name : Text) : Option Failure :=
  match name.nameRun? with
  | some run => some (.notEncodable { run with start := folderPath + 1 + run.start })
  | none =>
    if name.holds '\x00' then some .nullCharacter
    else if isLong name then some .longFileName
    else none

/-- Writes a file unless the file system refuses its name; the folder is created in any
case. -/
def store (s : FolderStore) (name : Text) (bytes : ByteArray) :
    FolderStore × Except Failure Unit :=
  match nameFault? name with
  | some fault => (s.prepare, .error fault)
  | none => (s.write name bytes, .ok ())

/-- Writes a text into a file. -/
def storeText (s : FolderStore) (name text : Text) : FolderStore × Except Failure Unit :=
  match text.encode with
  | .ok bytes => s.store name bytes
  | .error run =>
    match s.store name .empty with
    | (s, .ok _) => (s, .error (.notEncodable run))
    | refused => refused

/-- Removes a file, if there is one. -/
def remove (s : FolderStore) (name : Text) : FolderStore × Except Failure Unit :=
  match s.lookUp name with
  | .error e => (s, .error e)
  | .ok _ => (s.erase name, .ok ())

/-- Removes the folder and everything in it. -/
def clear (_ : FolderStore) : FolderStore := ⟨none⟩

/-- The names of all files in order. -/
def names (s : FolderStore) : Option (List Text) :=
  s.files.map fun files => (files.map Prod.fst).mergeSort fun a b => decide (a ≤ b)

/-- The files that should hold mazes, in the order of their names. -/
def mazeFiles (s : FolderStore) : List (Text × ByteArray) :=
  ((s.files.getD []).filter fun f => extension.points.isSuffixOf f.1.points).mergeSort
    fun a b => decide (a.1 ≤ b.1)

/-- All mazes in the order of their ids.  Every file is decoded before any is checked. -/
def readAll (s : FolderStore) : Except Failure (List Maze) := do
  let texts ← s.mazeFiles.mapM fun f => decode f.2
  let mazes ← texts.mapM fun (s : String) => Maze.ofText s
  return Maze.sortById mazes

/-- The maze with the given id. -/
def find? (s : FolderStore) (id : Text) : Except Failure (Option Maze) :=
  match fileName id with
  | .error e => .error e
  | .ok name =>
    match s.lookUp name with
    | .error e => .error e
    | .ok none => .ok none
    | .ok (some bytes) => (readMaze bytes).map some

instance : MazeStore FolderStore where
  load s id := (s, s.find? id)
  save s m :=
    match fileName m.id with
    | .error e => (s, .error e)
    | .ok name => s.storeText name (textOf m)
  delete s id :=
    match fileName id with
    | .error e => (s, .error e)
    | .ok name => s.remove name
  list s := (s, s.readAll)

end FolderStore

end MazeRobot
