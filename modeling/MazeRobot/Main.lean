import MazeRobot.Demo
import MazeRobot.Store.Folder

/-! # The program

Performs the demonstration on the maze named on the command line, with the settings and
the kind of store that the environment asks for.  Everything is decided in
`MazeRobot.Demo`; what is left here is reading the environment and the folder of mazes,
writing new files, and printing. -/

namespace MazeRobot

namespace Main

/-- Milliseconds before every step of the run. -/
def stepPause : UInt32 := 200

/-- Prints pieces of output, with a pause before those that follow a tick. -/
def display (output : List Demo.Output) : IO Unit := do
  let stdout ← IO.getStdout
  for piece in output do
    if piece.ticked then IO.sleep stepPause
    stdout.putStr piece.text
    stdout.flush

/-- The exit code; a failure is told on the error stream. -/
def conclude (result : Except Failure Unit) : IO UInt32 := do
  match result with
  | .ok _ => return 0
  | .error failure =>
    IO.eprintln failure.message
    return 1

/-- The files in a folder, which is created if need be. -/
def readFolder (path : String) : IO FolderStore := do
  IO.FS.createDirAll path
  let mut files : List (Text × ByteArray) := []
  for entry in ← (← IO.FS.realPath path).readDir do
    if !(← entry.path.isDir) then
      files := (entry.fileName, ← IO.FS.readBinFile entry.path) :: files
  return ⟨some files⟩

/-- Writes the files that are new or changed. -/
def writeFolder (path : String) (before after : FolderStore) : IO Unit := do
  for (name, bytes) in after.files.getD [] do
    if before.read? name != some bytes then IO.FS.writeBinFile s!"{path}/{name}" bytes

/-- Prints what a demonstration has printed, and concludes. -/
def report (performance : Demo.Performance σ) : IO UInt32 := do
  display performance.output
  conclude performance.result

/-- The demonstration with mazes from the kind of store that the settings name. -/
def run (settings : Settings) (colors : Bool) (mazeId : Text) : IO UInt32 := do
  match StoreKind.choose none settings.store with
  | .error failure => conclude (.error failure)
  | .ok .files =>
    let before ← readFolder settings.folder
    let performance := Demo.perform settings colors before mazeId
    writeFolder settings.folder before performance.store
    report performance
  | .ok _ => report (Demo.perform settings colors ({} : MemoryStore) mazeId)

end Main

end MazeRobot

open MazeRobot in
/-- Performs the demonstration; the first argument names the maze. -/
def main (args : List String) : IO UInt32 := do
  let colors := colorsOn (← IO.getEnv noColorVariable)
  let value (name : String) : IO (Option Text) := return (← IO.getEnv name).map Text.ofString
  match Settings.read (← Settings.Variables.ofEnvironment value) with
  | .error failure => Main.conclude (.error failure)
  | .ok settings =>
    match Demo.opening settings with
    | .error failure => Main.conclude (.error failure)
    | .ok opened =>
      Main.display opened
      Main.run settings colors ((args.head?.map Text.ofString).getD Demo.standardMaze)
