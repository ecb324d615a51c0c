import BlockScript.Report.Basic
import BlockScript.Token.SyntaxError

/-!
# Exit codes

Why a program that ran a script does not end well, with the code and the line it leaves behind.
-/
namespace BlockScript
set_option autoImplicit false

inductive ExitError where
  | malformed (error : SyntaxError)
  | terminated (termination : Termination)
  /-- The script came to its end but some commands failed. -/
  | commandsFailed (count : Nat)
  | setup (reason : String)
  | io (reason : String)
deriving DecidableEq, Inhabited

namespace ExitError

def kindCode : ErrorKind → Nat
  | .malformed => 2
  | .assertion => 1
  | .command => 1
  | .absoluteLookup => 1
  | _ => 3

def code : ExitError → Nat
  | malformed _ => 2
  | terminated termination => kindCode termination.kind
  | commandsFailed _ => 1
  | setup _ => 3
  | io _ => 4

def message : ExitError → String
  | malformed error => error.render
  | terminated termination => "Run terminated: " ++ termination.render
  | commandsFailed count => toString count ++ " command(s) failed"
  | setup reason => "Setup error: " ++ reason
  | io reason => "IO error: " ++ reason

end ExitError

/-- Nothing if the run is complete. -/
def RunReport.exitError? (report : RunReport) : Option ExitError :=
  match report.outcome with
  | .terminated termination => some (.terminated termination)
  | .completed =>
    if report.failures.isEmpty then none else some (.commandsFailed report.failures.length)

end BlockScript
