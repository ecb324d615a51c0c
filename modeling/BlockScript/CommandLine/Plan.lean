import BlockScript.CommandLine.Arguments
import BlockScript.CommandLine.Output
import BlockScript.Run.Execute
import BlockScript.Simulation.Handlers

/-!
# Running a script from the command line

The options of a run come from the configuration, and the command line overrides them. The plan says
which files a run may ask for, so that they can be read before it starts.
-/
namespace BlockScript.CommandLine
set_option autoImplicit false

structure Plan where
  options : RunOptions
  json : Bool
  /-- The files of the stores, if there are stores. -/
  waypointFile : Option String
  functionFile : Option String
  journalDir : Option String
deriving DecidableEq, Inhabited

/-- A file in a directory. -/
def joinPath (directory file : String) : String :=
  if directory = "" ∨ directory.toList.getLast? = some '/' then directory ++ file
  else directory ++ "/" ++ file

def options (config : Config) (args : RunArgs) : RunOptions :=
  let standard := config.run
  { standard with
    opLimit := args.opLimit.getD standard.opLimit
    trace := standard.trace || args.trace
    stopOnFailure := standard.stopOnFailure || args.stopOnFailure
    autoScan := standard.autoScan && !args.noAutoScan
    actor := args.actor.getD standard.actor
    correlationId := args.correlationId.or standard.correlationId }

def plan (config : Config) (args : RunArgs) : Plan :=
  let options := options config args
  { options
    json := args.json
    waypointFile := (args.waypoints.or config.waypointDir).map fun directory =>
      joinPath directory (Store.waypointFile options.actor)
    functionFile := (args.functions.or config.functionDir).map fun directory =>
      joinPath directory (Store.functionFile options.actor)
    journalDir := args.journal }

/-- What has been read for a run, and when it starts. -/
structure Inputs where
  source : String
  waypoints : FileText
  functions : FileText
  runId : RunId
  startedAt : Timestamp
  /-- The time of day that stands in front of every line. -/
  clock : String
  /-- Whether a log can be written. -/
  logged : Bool

/-- The simulated world with the stores of a run. -/
def context (inputs : Inputs)
    (registry : Registry (CommandHandler (Live Simulation.World))
      (PredicateHandler (Live Simulation.World))) :
    Context (Live Simulation.World) where
  registry := registry
  probe := Simulation.World.probe
  waypoint actor name world := (Store.waypoint? (fun _ => inputs.waypoints) actor name, world)
  function actor name world := (Store.function? (fun _ => inputs.functions) actor name, world)

/-- The output of a run and the journal it leaves behind, unless an overflow stops the program. -/
def runScript (plan : Plan) (inputs : Inputs) : Except Overflow (Output × Journal) :=
  let journal := Journal.create inputs.runId inputs.startedAt plan.options.actor
    plan.options.correlationId inputs.logged
  match Simulation.registry with
  | .error error => .ok (⟨[], some (.setup error.message)⟩, journal)
  | .ok registry =>
    let (id, journal) := journal.subscribe
    let setup : Setup (Live Simulation.World) := ⟨context inputs registry, plan.options⟩
    let (report, state) := Run.source setup inputs.source journal (.ok Simulation.World.flat)
    let lines := (state.journal.inbox id).flatMap (printed plan.json inputs.clock)
    state.world.map fun _ => (⟨lines, report.exitError?⟩, state.journal)

/-- A script that could not be read. -/
def unreadable : FileText → Option ExitError
  | .text _ => none
  | .missing => some (.io "no such file or directory")
  | .unreadable reason => some (.io reason)

end BlockScript.CommandLine
