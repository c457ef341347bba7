import MazeRobot.Proofs.Session.Interleaving

/-!
# One trace for program and run

The trace of a program is kept in two places, the maze that was loaded in two as well: a
session holds them, and so does its executor.  `Session.InStep` says that the copies agree.
What a session does keeps them in agreement as long as no listener of the program fails
(`Session.Leads.inStep`), so they agree at every point of every history (`inStep_playAll`).
It does not matter whether an edit is refused, whether a run is executing meanwhile, and
whether there is a maze yet.
-/

namespace MazeRobot

/-- Before the first load only the program has to be looked after. -/
theorem Session.Fresh.inStep {s : Session} (h : s.Fresh) (hmaze : s.maze? = none)
    (hquiet : s.ingestion.program.Quiet) : s.InStep where
  quiet := hquiet
  synced := h.synced
  trace e he := by
    rw [h.executor] at he
    exact nomatch he
  maze := by rw [hmaze, h.executor, Option.map_none]

namespace Scene

/-- A load that finds a maze brings a new run about. -/
theorem mem_transitionsOf_of_load {m : { m : Maze // m.WellFormed }} {hs : List Happening}
    (hmem : .load (.ok m) ∈ hs) (sc : Scene) : .loaded ∈ sc.transitionsOf hs := by
  induction hs generalizing sc with
  | nil => exact nomatch hmem
  | cons h rest ih =>
    show _ ∈ sc.transitionsAt h ++ (sc.play h).transitionsOf rest
    rw [List.mem_append]
    cases hmem with
    | head =>
      left
      exact List.mem_cons_self
    | tail _ hrest =>
      right
      exact ih hrest (sc.play h)

/-- Whatever has happened to a session since it was made, the trace of its program is that
of the commands.  From the first load on there is a run, and it goes by this trace and by
the maze of the session. -/
theorem inStep_playAll {s : Session} (hfresh : s.Fresh) (hmaze : s.maze? = none)
    (hquiet : s.ingestion.program.Quiet) (hs : List Happening) :
    let now := (({ session := s } : Scene).playAll hs).session
    now.ingestion.program.trace = Command.unrollAll now.ingestion.program.commands ∧
      (∀ e, now.executor = some e →
        e.trace = now.ingestion.program.trace ∧ now.maze? = some e.maze) ∧
      ((∃ m, .load (.ok m) ∈ hs) → ∃ e, now.executor = some e) := by
  intro now
  have hleads := leads_playAll hs { session := s }
  have hnow : now.InStep := hleads.inStep (hfresh.inStep hmaze hquiet)
  refine ⟨hnow.synced, fun e he => ⟨hnow.trace e he, ?_⟩, ?_⟩
  · rw [hnow.maze, he, Option.map_some]
  · rintro ⟨m, hmem⟩
    have hloaded := mem_transitionsOf_of_load hmem { session := s }
    exact Option.isSome_iff_exists.mp (hleads.present (.inr hloaded))

/-- Edits before the load, during a run and during a pause, two of them refused: there is no
command at index 5, and a turn has no body.  The run ends up on what is in the program. -/
theorem inStep_playAll_trench :
    let s : Session :=
      { ingestion := { program := .ofCommands [.basic .turnLeft] [.quiet] } }
    let hs : List Happening :=
      [.edit (.append (.loop (some 2) [.basic .forward])), .capture 0,
        .load (.ok ⟨.trench, Maze.trench_wellFormed⟩), .deed .start, .edit (.remove 5),
        .edit (.addChild 1 (.basic .ifHole)), .deed .pause, .edit (.addChild 0 (.basic .ifHole)),
        .edit (.remove 0), .detect (.basic .turnRight)]
    let now := (({ session := s } : Scene).playAll hs).session
    s.Fresh ∧ s.maze? = none ∧ s.ingestion.program.Quiet ∧
      ∃ e, now.executor = some e ∧ e.trace = Command.unrollAll now.ingestion.program.commands ∧
        e.trace = [.basic .forward, .basic .ifHole, .basic .forward, .basic .ifHole,
          .basic .turnRight] ∧
        now.maze? = some .trench ∧ e.maze = .trench := by
  intro s hs now
  have hfresh : s.Fresh := ⟨rfl, Program.synced_ofCommands _ _⟩
  have hquiet : s.ingestion.program.Quiet := by
    intro l hl heard
    obtain rfl := List.mem_singleton.mp hl
    rfl
  have hmem : ∃ m, .load (.ok m) ∈ hs := ⟨⟨.trench, Maze.trench_wellFormed⟩, by simp [hs]⟩
  have hcommands : Command.unrollAll now.ingestion.program.commands =
      [.basic .forward, .basic .ifHole, .basic .forward, .basic .ifHole, .basic .turnRight] := by
    decide +kernel
  have hloaded : now.maze? = some .trench := by decide +kernel
  have hnow := inStep_playAll hfresh rfl hquiet hs
  -- from here on the facts above are all that has to be known of the history
  generalize hlast : (({ session := s } : Scene).playAll hs).session = last at hnow
  have hlast : now = last := hlast
  rw [hlast] at hcommands hloaded ⊢
  obtain ⟨hsynced, hrun, hload⟩ := hnow
  obtain ⟨e, he⟩ := hload hmem
  obtain ⟨htrace, hmaze⟩ := hrun e he
  refine ⟨hfresh, rfl, hquiet, e, he, htrace.trans hsynced, ?_, hloaded, ?_⟩
  · rw [htrace, hsynced, hcommands]
  · exact Option.some.inj (hmaze.symm.trans hloaded)

end Scene

end MazeRobot
