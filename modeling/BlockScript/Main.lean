import BlockScript.CommandLine.Plan
import Std.Time

/-!
# The command line

Reads the files that a command asks for, runs it, and prints what it answers.
-/
namespace BlockScript
set_option autoImplicit false

namespace Main

def readText (path : String) : IO FileText := do
  try
    return .text (← IO.FS.readFile path)
  catch
    | .noFileOrDirectory .. => return .missing
    | error => return .unreadable (toString error)

def readOptional (path : Option String) : IO FileText :=
  match path with
  | some path => readText path
  | none => return .missing

/-- The day number of the epoch. -/
def epochDay : Int := Calendar.dayNumber 1970 1 1

/-- The time of now, and the time of day in front of a line. -/
def now : IO (Timestamp × String) := do
  let stamp ← Std.Time.Timestamp.now
  let millis := stamp.toMillisecondsSinceUnixEpoch.val
  let seconds := millis.fdiv 1000
  let text := Timestamp.render (epochDay * 1440 + seconds.fdiv 60) (seconds.fmod 60).toNat
    ((millis.fmod 1000).toNat * 1000000)
  let ofDay := (seconds.fmod 86400).toNat
  let clock := Timestamp.pad 2 (ofDay / 3600) ++ ":" ++ Timestamp.pad 2 (ofDay / 60 % 60) ++ ":" ++
    Timestamp.pad 2 (ofDay % 60) ++ "." ++ Timestamp.pad 3 (millis.fmod 1000).toNat ++ "Z"
  return ((Timestamp.ofText? text).getD default, clock)

/-- A random identifier, marked as such by its version and variant. -/
def newRunId : IO RunId := do
  let bytes ← IO.getRandomBytes 16
  let marked := bytes.toList.zipIdx.map fun (b, i) =>
    if i = 6 then b.toNat % 16 + 64 else if i = 8 then b.toNat % 64 + 128 else b.toNat
  let digits := marked.flatMap fun n => [Json.hexDigit (n / 16), Json.hexDigit (n % 16)]
  return (RunId.ofText? (String.ofList digits)).getD default

/-- Creates the file of a log; nothing if that fails. -/
def openLog (directory : Option String) (name : String) : IO (Option IO.FS.Handle) := do
  match directory with
  | none => return none
  | some directory =>
    try
      IO.FS.createDirAll directory
    catch _ => pure ()
    try
      return some (← IO.FS.Handle.mk (CommandLine.joinPath directory name) .write)
    catch _ => return none

def emit (output : CommandLine.Output) : IO UInt32 := do
  for line in output.lines do
    IO.println line
  match output.errorLine? with
  | some line => IO.eprintln line
  | none => pure ()
  return UInt32.ofNat output.code

/-- Runs an action on the text of a script. -/
def withScript (path : String) (action : String → IO UInt32) : IO UInt32 := do
  match ← readText path with
  | .text source => action source
  | file => emit ⟨[], CommandLine.unreadable file⟩

/-- The exit code of a program that an overflow has stopped. -/
def stoppedCode : UInt32 := 101

def runScript (args : CommandLine.RunArgs) (source : String) : IO UInt32 := do
  let home := (← IO.getEnv "HOME").getD ""
  let config := match ← readText (Config.path home) with
    | .text text => Config.load (some text)
    | _ => {}
  let plan := CommandLine.plan config args
  let waypoints ← readOptional plan.waypointFile
  let functions ← readOptional plan.functionFile
  let (startedAt, clock) ← now
  let runId ← newRunId
  let name := (Journal.create runId startedAt plan.options.actor none false).logName
  let log ← openLog plan.journalDir name
  match CommandLine.runScript plan
    ⟨source, waypoints, functions, runId, startedAt, clock, log.isSome⟩ with
  | .error _ =>
    IO.eprintln "arithmetic overflow"
    return stoppedCode
  | .ok (output, journal) =>
    match log with
    | some handle =>
      for event in journal.logged do
        handle.putStrLn event.toJson.render
      handle.flush
    | none => pure ()
    emit output

def invoke : CommandLine.Invocation → IO UInt32
  | .check script => withScript script fun source => emit (CommandLine.checkScript script source)
  | .key selector => emit (CommandLine.describeKey selector)
  | .run args => withScript args.script (runScript args)

end Main

end BlockScript

def main (args : List String) : IO UInt32 := do
  let actor ← IO.getEnv BlockScript.CommandLine.actorVariable
  let environment (name : String) : Option String :=
    if name = BlockScript.CommandLine.actorVariable then actor else none
  match BlockScript.CommandLine.parse environment args with
  | .ok invocation => BlockScript.Main.invoke invocation
  | .error error =>
    IO.eprintln ("error: " ++ error.message)
    return 2
