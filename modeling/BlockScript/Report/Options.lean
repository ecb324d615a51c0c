import BlockScript.Json.Printer
import BlockScript.Json.Reader
import BlockScript.Json.Record

/-!
# Options and configuration

Options bound one run. The configuration holds default options and directories; a file that is missing
or malformed counts as the default configuration.
-/
namespace BlockScript
set_option autoImplicit false

structure RunOptions where
  /-- How many commands a run may dispatch. -/
  opLimit : Nat := 10000
  /-- Radius of scans and of queries that are not pinned. -/
  defaultScanRadius : UInt32 := 2
  autoScan : Bool := true
  stopOnFailure : Bool := false
  maxCallDepth : Nat := 10
  /-- How many loop iterations all loops of a run may begin together. -/
  maxLoopIterations : Nat := 100000
  trace : Bool := false
  actor : String := "default"
  correlationId : Option String := none
deriving DecidableEq, Inhabited

namespace RunOptions

def toJson (options : RunOptions) : Json :=
  .object ([("opLimit", .int options.opLimit),
      ("defaultScanRadius", .int options.defaultScanRadius.toNat),
      ("autoScanBeforeOps", .bool options.autoScan),
      ("stopOnFailure", .bool options.stopOnFailure),
      ("maxCallDepth", .int options.maxCallDepth),
      ("maxLoopIterations", .int options.maxLoopIterations),
      ("trace", .bool options.trace),
      ("actor", .string options.actor)] ++
    Json.member? "correlationId" .string options.correlationId)

/-- A member that is missing has its default. -/
def ofJson? (json : Json) : Option RunOptions := do
  let standard : RunOptions := {}
  let fields ← json.record?
    ["opLimit", "defaultScanRadius", "autoScanBeforeOps", "stopOnFailure", "maxCallDepth",
      "maxLoopIterations", "trace", "actor", "correlationId"]
  let opLimit ← fields.optional? "opLimit" standard.opLimit Json.nat64?
  let radius ← fields.optional? "defaultScanRadius" standard.defaultScanRadius Json.uint32?
  let autoScan ← fields.optional? "autoScanBeforeOps" standard.autoScan Json.bool?
  let stopOnFailure ← fields.optional? "stopOnFailure" standard.stopOnFailure Json.bool?
  let maxCallDepth ← fields.optional? "maxCallDepth" standard.maxCallDepth Json.nat64?
  let maxLoops ← fields.optional? "maxLoopIterations" standard.maxLoopIterations Json.nat64?
  let trace ← fields.optional? "trace" standard.trace Json.bool?
  let actor ← fields.optional? "actor" standard.actor Json.string?
  let correlationId ← fields.optional? "correlationId" none (Json.nullable? Json.string?)
  return ⟨opLimit, radius, autoScan, stopOnFailure, maxCallDepth, maxLoops, trace, actor,
    correlationId⟩

end RunOptions

structure Config where
  run : RunOptions := {}
  waypointDir : Option String := none
  functionDir : Option String := none
  /-- Where journals go if not to the directory below the home directory. -/
  logDir : Option String := none
deriving DecidableEq, Inhabited

namespace Config

def toJson (config : Config) : Json :=
  .object ([("run", config.run.toJson)] ++
    Json.member? "waypointDir" .string config.waypointDir ++
    Json.member? "functionDir" .string config.functionDir ++
    Json.member? "logDir" .string config.logDir)

def ofJson? (json : Json) : Option Config := do
  let fields ← json.record? ["run", "waypointDir", "functionDir", "logDir"]
  let run ← fields.optional? "run" {} RunOptions.ofJson?
  let waypointDir ← fields.optional? "waypointDir" none (Json.nullable? Json.string?)
  let functionDir ← fields.optional? "functionDir" none (Json.nullable? Json.string?)
  let logDir ← fields.optional? "logDir" none (Json.nullable? Json.string?)
  return ⟨run, waypointDir, functionDir, logDir⟩

/-- The configuration in a text, if there is one. -/
def load (text : Option String) : Config :=
  ((text.bind Json.skim).bind ofJson?).getD {}

/-- The text that `load` reads back. -/
def save (config : Config) : String := config.toJson.renderPretty 0

def directory (home : String) : String := home ++ "/.craftscript"

def path (home : String) : String := directory home ++ "/config.json"

def logDirectory (config : Config) (home : String) : String :=
  config.logDir.getD (directory home ++ "/logs")

end Config

end BlockScript
