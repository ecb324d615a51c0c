import BlockScript.Json.Printer
import BlockScript.Report.Exit
import BlockScript.Script.Calls
import BlockScript.Script.Parser
import BlockScript.Wire.Report

/-!
# What the command line prints
-/
namespace BlockScript.CommandLine
set_option autoImplicit false

/-- Lines for the reader and, if it did not end well, why. -/
structure Output where
  lines : List String
  error : Option ExitError
deriving Inhabited

def Output.code (output : Output) : Nat :=
  match output.error with
  | none => 0
  | some error => error.code

/-- The line for the channel of errors. -/
def Output.errorLine? (output : Output) : Option String :=
  output.error.map fun error => "Error: " ++ error.message

/-- Counts the calls of a script that can be read. -/
def checkScript (path source : String) : Output :=
  match BlockScript.parse source with
  | .error error => ⟨[], some (.malformed error)⟩
  | .ok program =>
    let predicates := (Program.calls program).countP Call.isPredicate
    let commands := (Program.calls program).length - predicates
    ⟨[path ++ ": ok (" ++ toString program.length ++ " statements, " ++ toString commands ++
      " command calls, " ++ toString predicates ++ " predicate calls)"], none⟩

/-- A text with blanks after it up to a width. -/
def padRight (width : Nat) (text : String) : String :=
  text ++ String.ofList (List.replicate (width - text.length) ' ')

def offsetLine (selector : Selector) (heading : Heading) : String :=
  let offset := match selector.offset? heading with
    | some offset => offset.render
    | none => "out of range"
  "  " ++ padRight 6 heading.name ++ " " ++ offset

/-- The key of a selector and its offset under each heading. -/
def describeKey (text : String) : Output :=
  match parseSelector text with
  | .error error => ⟨[], some (.malformed error)⟩
  | .ok selector => ⟨selector.key :: Heading.all.map (offsetLine selector), none⟩

/-- The lines of an event at a time of day. -/
def eventLines (clock : String) : Event → List String
  | .started runId _ actor => ["[" ++ clock ++ "] run " ++ runId.text ++ " started for " ++ actor]
  | .step result => ("[" ++ clock ++ "] " ++ result.render) :: result.notes.map ("    " ++ ·)
  | .trace t => ["[" ++ clock ++ "] trace " ++ t.loc.render ++ " " ++ t.kind.toJson.render]
  | .finished report =>
    ["[" ++ clock ++ "] run finished: " ++ report.state.name ++ ", " ++ toString report.ops ++
      " ops, " ++ toString report.failures.length ++ " failed"]

def printed (json : Bool) (clock : String) (event : Event) : List String :=
  if json then [event.toJson.render] else eventLines clock event

end BlockScript.CommandLine
