import StateAtlas.Provider.Basic
import StateAtlas.Search.Listener
import StateAtlas.Search.Tenure

set_option autoImplicit false

/-!
# Runs

A run explores a program with the label writers that a configuration asks for.

## Main definitions

* `StateAtlas.RunSetup` — the writers and the limits of a run.
* `StateAtlas.RunSetup.ofConfig` — the setup that a configuration asks for.
* `StateAtlas.RunSetup.explore` — explores a program.
* `StateAtlas.RunOutcome` — what is known after a run.
-/

namespace StateAtlas

/-- The writers and the limits of a run. -/
structure RunSetup where
  writers : List (Writer Provider)
  depthLimit : Option Int
  maxStates : Option Int
  /-- The reports of providers that could not be made. -/
  reports : List LogRecord

namespace RunSetup

/-- A writer of a format with the providers of a configuration, and the reports of those that
could not be made. -/
def writer (config : Config) (format : OutputFormat) :
    Except Fault (Writer Provider × List LogRecord) :=
  match Provider.createAll config with
  | .error f => .error f
  | .ok (providers, reports) =>
    match config.outputDir with
    | .error f => .error f
    | .ok dir => .ok (.new providers (.ofFormat format) dir, reports)

/-- Writers of some formats, in order, with all reports. -/
def writersOf (config : Config) :
    List OutputFormat → Except Fault (List (Writer Provider) × List LogRecord)
  | [] => .ok ([], [])
  | format :: rest =>
    match writer config format with
    | .error f => .error f
    | .ok (w, reports) =>
      match writersOf config rest with
      | .error f => .error f
      | .ok (ws, more) => .ok (w :: ws, reports ++ more)

/-- The setup that a configuration asks for. -/
def ofConfig (config : Config) : Except Fault RunSetup :=
  match config.formats with
  | .error f => .error f
  | .ok formats =>
    match writersOf config formats, config.depthLimit, config.maxStates with
    | .error f, _, _ => .error f
    | _, .error f, _ => .error f
    | _, _, .error f => .error f
    | .ok (writers, reports), .ok depthLimit, .ok maxStates =>
      .ok { writers, depthLimit, maxStates, reports }

end RunSetup

/-- What is known after a run. -/
structure RunOutcome where
  exit : Option Exit
  states : Nat
  paths : Nat
  terminated : Bool
  constraint : Option String
  writers : List (Writer Provider)
  recorder : Option Recorder
  surroundings : Surroundings
  /-- What can be seen after the run: modules of an interrupted program stay loaded. -/
  outside : Scene
  /-- What the program printed. -/
  printed : String

namespace RunSetup

/-- The search of a run before it has begun. -/
def search {κ : Type} (setup : RunSetup) (name : String) (recorder : Option Recorder)
    (outside : Scene) (e : Surroundings) : Search (Listeners Provider) κ :=
  let members := setup.writers.map Listener.writer ++ recorder.toList.map Listener.recorder
  .new name setup.depthLimit setup.maxStates outside ⟨members, e⟩

/-- Explores a program; `outside` are the modules that are loaded already. -/
def explore {σ κ : Type} [DecidableEq κ] (setup : RunSetup) (program : Program σ κ)
    (name : String) (recorder : Option Recorder) (outside : Scene) (files : FileStore) :
    RunOutcome :=
  let start := setup.search name recorder outside ⟨files, setup.reports.toArray⟩
  let (tenure, exit) := Tenure.run program Listeners.audience Exploration.fuelBound
    (.ofSearch name none start)
  let x := tenure.exploration
  { exit
    states := x.search.seen.size
    paths := x.search.paths
    terminated := x.search.terminated
    constraint := x.search.constraint
    writers := x.search.listeners.writers
    recorder := x.search.listeners.recorder?
    surroundings := x.search.listeners.surroundings
    outside := x.search.outside
    printed := String.join x.printed.toList }

end RunSetup

end StateAtlas
