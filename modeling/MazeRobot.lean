import MazeRobot.Catalog
import MazeRobot.Command.Basic
import MazeRobot.Command.Edit
import MazeRobot.Command.Levels
import MazeRobot.Command.Record
import MazeRobot.Command.Unroll
import MazeRobot.Decimal.Binary
import MazeRobot.Decimal.Fixed
import MazeRobot.Decimal.Nearest
import MazeRobot.Decimal.Quantity
import MazeRobot.Decimal.Shortest
import MazeRobot.Demo
import MazeRobot.Environment
import MazeRobot.Executor.Basic
import MazeRobot.Executor.World
import MazeRobot.Failure
import MazeRobot.Grid
import MazeRobot.Ingestion
import MazeRobot.Json.Basic
import MazeRobot.Json.Dialect
import MazeRobot.Json.Number
import MazeRobot.Json.Reader
import MazeRobot.Json.Shown
import MazeRobot.Json.Writer
import MazeRobot.Log
import MazeRobot.Main
import MazeRobot.Marker
import MazeRobot.Maze.Basic
import MazeRobot.Maze.Layout
import MazeRobot.Maze.Playable
import MazeRobot.Maze.Record
import MazeRobot.Maze.Sketch
import MazeRobot.Pose
import MazeRobot.Position
import MazeRobot.Program
import MazeRobot.Seconds
import MazeRobot.Session.Basic
import MazeRobot.Session.Tasks
import MazeRobot.Settings
import MazeRobot.Store.Basic
import MazeRobot.Store.Database
import MazeRobot.Store.Folder
import MazeRobot.Store.Kind
import MazeRobot.Store.Memory
import MazeRobot.Store.Retry
import MazeRobot.Store.Seed
import MazeRobot.Store.Sorting
import MazeRobot.Store.Sorting.Merge
import MazeRobot.Store.Sorting.Search
import MazeRobot.Store.Table
import MazeRobot.Text.Basic
import MazeRobot.Text.Blank
import MazeRobot.Text.Digit
import MazeRobot.Text.Encoding
import MazeRobot.Text.Numeral
import MazeRobot.Text.Path
import MazeRobot.Text.Printable
import MazeRobot.Text.Quoted
import MazeRobot.Tile
import MazeRobot.Validation
import MazeRobot.Proofs.CardSequences
import MazeRobot.Proofs.Cards
import MazeRobot.Proofs.Command.NormalForm
import MazeRobot.Proofs.Command.Record
import MazeRobot.Proofs.CommandStack
import MazeRobot.Proofs.Debouncing
import MazeRobot.Proofs.Detections
import MazeRobot.Proofs.Executor.Bookkeeping
import MazeRobot.Proofs.Executor.Calls
import MazeRobot.Proofs.Executor.DeadReckoning
import MazeRobot.Proofs.Executor.Easing
import MazeRobot.Proofs.Executor.Fields
import MazeRobot.Proofs.Executor.Footing
import MazeRobot.Proofs.Executor.Images
import MazeRobot.Proofs.Executor.LiveEdit
import MazeRobot.Proofs.Executor.Overlay
import MazeRobot.Proofs.Executor.Piecework
import MazeRobot.Proofs.Executor.Rewinding
import MazeRobot.Proofs.Executor.Run
import MazeRobot.Proofs.Executor.Shortening
import MazeRobot.Proofs.Executor.Step
import MazeRobot.Proofs.Executor.Walk
import MazeRobot.Proofs.Grid
import MazeRobot.Proofs.Ingestion
import MazeRobot.Proofs.Interpreter
import MazeRobot.Proofs.Json.Characters
import MazeRobot.Proofs.Json.CutOff
import MazeRobot.Proofs.Json.Numbers
import MazeRobot.Proofs.Json.RoundTrip
import MazeRobot.Proofs.Json.Strings
import MazeRobot.Proofs.Landmarks
import MazeRobot.Proofs.Maze.Layout
import MazeRobot.Proofs.Maze.Playable
import MazeRobot.Proofs.Maze.Record
import MazeRobot.Proofs.Maze.Sketch
import MazeRobot.Proofs.Multiplicity
import MazeRobot.Proofs.Notices
import MazeRobot.Proofs.Session.Completion
import MazeRobot.Proofs.Session.Dependable
import MazeRobot.Proofs.Session.Drivers
import MazeRobot.Proofs.Session.Growth
import MazeRobot.Proofs.Session.Interleaving
import MazeRobot.Proofs.Session.Journal
import MazeRobot.Proofs.Session.Loading
import MazeRobot.Proofs.Session.Moves
import MazeRobot.Proofs.Session.Past
import MazeRobot.Proofs.Session.Synchrony
import MazeRobot.Proofs.Session.Ticket
import MazeRobot.Proofs.Session.Transition
import MazeRobot.Proofs.Session.Views
import MazeRobot.Proofs.Store.Agreement
import MazeRobot.Proofs.Store.Attempts
import MazeRobot.Proofs.Store.Files
import MazeRobot.Proofs.Store.History
import MazeRobot.Proofs.Store.Order
import MazeRobot.Proofs.Store.Patience
import MazeRobot.Proofs.Store.Rows
import MazeRobot.Proofs.Store.Seeding
import MazeRobot.Proofs.Submissions
import MazeRobot.Proofs.Symmetry
import MazeRobot.Proofs.Validation
import MazeRobot.Proofs.World
