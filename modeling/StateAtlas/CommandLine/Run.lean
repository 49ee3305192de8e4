import StateAtlas.Code.Program
import StateAtlas.CommandLine.Arguments
import StateAtlas.CommandLine.Help
import StateAtlas.Config.File
import StateAtlas.Run

set_option autoImplicit false

/-!
# Running a command line

A command line is carried out against a file store: the program and the configuration are read
from it, and the labelled states are written to it. How configurations are loaded can be left open.
The outcome has the exit status, what was printed, and the files and reports.

## Main definitions

* `StateAtlas.CommandOutcome` — what is known after a command line has been carried out.
* `StateAtlas.Workplace` — the files, the loaded modules and the compiler that are at hand.
* `StateAtlas.Workplace.runBy` — carries out a command line, given how configurations are loaded.
* `StateAtlas.Workplace.run` — carries out a command line.

## Design

Status 0 is given in one place only: after a run that was completed, was not terminated and met no
limit.
-/

namespace StateAtlas

/-- Why a command was left without a status. -/
inductive Crash where
  | fault (f : Fault)
  /-- A signal to the whole run left the program. -/
  | interrupted (type : ExceptionClass) (message : String)
  | inaccessible (e : FileError) (path : Path)
  /-- The search used up its moves. -/
  | unfinished
  deriving DecidableEq, Repr

/-- How a command ends. -/
inductive CommandStatus where
  | returned (status : Nat)
  /-- The command line itself asked for help or was refused. -/
  | stopped (status : Nat)
  | crashed (cause : Crash)
  deriving DecidableEq, Repr

/-- What is known after a command line has been carried out. -/
structure CommandOutcome where
  status : CommandStatus
  /-- What was printed. -/
  output : String
  /-- What was printed as an error. -/
  errors : String
  surroundings : Surroundings
  /-- The modules that stay loaded. -/
  outside : Scene

/-- What is at hand when a command line is carried out. -/
structure Workplace where
  files : FileStore
  outside : Scene
  /-- The code of the file at a place, if it can be compiled. -/
  compile : List String → String → Option (Array CodeObject)

/-- How a configuration was turned into a run. -/
structure RunPlan where
  setup : RunSetup
  outputDir : Path

namespace RunSetup

/-- The reports that are made before the limits of a run are looked at. -/
def reportsOf (config : Config) : List LogRecord :=
  match config.formats with
  | .error _ => []
  | .ok formats =>
    match writersOf config formats with
    | .ok (_, reports) => reports
    | .error _ => []

/-- The class names of the providers of the first writer. -/
def providerNames (setup : RunSetup) : List String :=
  match setup.writers with
  | [] => []
  | w :: _ => w.providers.map fun p => p.kind.name

end RunSetup

namespace CommandSettings

/-- The keys of a configuration that settings replace, with their values. -/
def overrides (s : CommandSettings) : List (String × Datum) :=
  [("label.output_dir", (s.outputDir.map fun p => Datum.str p.text).getD .null),
   ("label.format", (s.format.map Datum.str).getD .null),
   ("search.depth_limit", (s.depthLimit.map Datum.int).getD .null),
   ("search.max_states", (s.maxStates.map Datum.int).getD .null)]

end CommandSettings

/-- The summary of a run. -/
def RunOutcome.summary (o : RunOutcome) (outputDir : Path) : String :=
  "States: " ++ toString o.states ++ "\n" ++
  String.join (o.writers.map fun w =>
    "Labels (" ++ w.journal.suffix ++ "): " ++ toString w.tally.registry.count ++ "\n") ++
  "Output: " ++ outputDir.text ++ "\n"

/-- Why a run did not explore everything. -/
def RunOutcome.obstacle? (o : RunOutcome) : Option String :=
  match o.constraint with
  | some c => some c
  | none => if o.terminated then some "terminated" else none

namespace Workplace

variable (w : Workplace) (load : Path → Except Fault Config)

/-- The outcome of a command that ends before anything is explored. -/
def ending (status : CommandStatus) (output errors : String) (reports : List LogRecord) :
    CommandOutcome :=
  ⟨status, output, errors, ⟨w.files, reports.toArray⟩, w.outside⟩

/-- The outcome of a command that fails with a message. -/
def failing (output message : String) (reports : List LogRecord) : CommandOutcome :=
  w.ending (.returned 3) output ("Error: " ++ message ++ "\n") reports

/-- The outcome of a command that is left without a status. -/
def crashing (c : Crash) : CommandOutcome := w.ending (.crashed c) "" "" []

/-- Whether there is something at a path. -/
def exists? (p : Path) : Except FileError Bool :=
  if p.hasNull then .ok false
  else
    match w.files.locate p with
    | .error .nameTooLong => .error .nameTooLong
    | _ => .ok (w.files.find? p).isSome

/-- The first of some paths at which there is nothing. -/
def missing? : List Path → Except Crash (Option Path)
  | [] => .ok none
  | p :: rest =>
    match w.exists? p with
    | .error e => .error (.inaccessible e p)
    | .ok false => .ok (some p)
    | .ok true => missing? rest

/-- The configuration that settings ask for. -/
def config (s : CommandSettings) : Except Fault Config :=
  match s.config with
  | none => .ok (Config.default.override s.overrides)
  | some path => (load path).map fun c => c.override s.overrides

/-- The run that settings ask for; with a fault come the reports made before it. -/
def plan (s : CommandSettings) : Except (Fault × List LogRecord) RunPlan :=
  match config load s with
  | .error f => .error (f, [])
  | .ok c =>
    match RunSetup.ofConfig c, c.outputDir with
    | .ok setup, .ok outputDir => .ok ⟨setup, outputDir⟩
    | .error f, _ | _, .error f => .error (f, RunSetup.reportsOf c)

/-- What is printed before a run. -/
def announcement (target : Path) (setup : RunSetup) : String :=
  let names := setup.providerNames
  "Exploring: " ++ target.text ++ "\nProviders: " ++
    (if names.isEmpty then "(none)" else String.intercalate ", " names) ++ "\n"

/-- The outcome of a command after its run. A syntax error that leaves the run is taken for one in
the text of the program. -/
def conclude (target : Path) (before : String) (outputDir : Path) (o : RunOutcome) :
    CommandOutcome :=
  let outcome (status : CommandStatus) (after : String) : CommandOutcome :=
    ⟨status, before ++ o.printed ++ after, "", o.surroundings, o.outside⟩
  match o.exit with
  | none => outcome (.crashed .unfinished) ""
  | some (.failed f) => outcome (.crashed (.fault f)) ""
  | some (.interrupted type message) =>
    if type.isSyntaxError then
      ⟨.returned 3, before ++ o.printed,
        "Error: Cannot compile " ++ target.text ++ ": " ++ message ++ "\n", o.surroundings, o.outside⟩
    else outcome (.crashed (.interrupted type message)) ""
  | some .completed =>
    match o.obstacle? with
    | some reason =>
      outcome (.returned 2) (o.summary outputDir ++ "Search incomplete: " ++ reason ++ "\n")
    | none => outcome (.returned 0) (o.summary outputDir)

/-- Carries out a run. -/
def explore (target : Path) (before : String) (p : RunPlan) : CommandOutcome :=
  match w.files.locate target, w.files.read target with
  | .error e, _ | _, .error e => w.crashing (.inaccessible e target)
  | .ok place, .ok text =>
    match w.compile place text with
    | none =>
      w.failing before ("Cannot compile " ++ target.text ++ ": invalid syntax") p.setup.reports
    | some codes =>
      let name := Path.stemOf (place.getLast?.getD "")
      conclude target before p.outputDir
        (p.setup.explore (CodeProgram.mk name codes).program name none w.outside w.files)

/-- Carries out a request to explore a program. -/
def exploreTarget (target : Path) (s : CommandSettings) : CommandOutcome :=
  match w.missing? (target :: s.config.toList) with
  | .error c => w.crashing c
  | .ok (some p) => w.failing "" ("File not found: " ++ p.text) []
  | .ok none =>
    match plan load s with
    | .error (.config f, reports) => w.failing "" f.message reports
    | .error (f, _) => w.crashing (.fault f)
    | .ok p => w.explore target (if s.verbose then announcement target p.setup else "") p

/-- Carries out a command line, given how configurations are loaded. -/
def runBy (words : List String) : CommandOutcome :=
  match CommandRequest.parse words with
  | .error r =>
    w.ending (.stopped 2) "" (usageText ++ commandName ++ ": error: " ++ r.message ++ "\n") []
  | .ok .help => w.ending (.stopped 0) helpText "" []
  | .ok (.explore target s) => w.exploreTarget load target s

/-- Carries out a command line with the configurations of the file store. -/
def run (words : List String) : CommandOutcome := w.runBy (Config.load w.files) words

end Workplace

end StateAtlas
