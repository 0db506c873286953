import NodeCoverage.Text.Blank
import NodeCoverage.Text.Integer
import NodeCoverage.Time.Calendar
/-!
# The reporting environment

Whoever starts the check tells it through variables where to report, under which run, and until
when. A variable that is blank counts as missing.
-/

namespace NodeCoverage

/-- Variables that are set. -/
abbrev Environment := String → Option String

inductive VariableFault where
  | blank
  | unreadable (text : String) (fault : Text.IntegerFault)
  | outOfRange (seconds : Int)
deriving DecidableEq

namespace VariableFault

def message : VariableFault → String
  | blank => "variable is blank"
  | unreadable text fault => "unable to parse '" ++ text ++ "': " ++ fault.message
  | outOfRange seconds => s!"{seconds} is out of range"

end VariableFault

inductive ReportError where
  /-- No answer came back. -/
  | transport
  | badStatus (status : Nat) (body : String)
  /-- The receiver understood the report and refused it. -/
  | rejected (body : String)
  | environment (name : String) (fault : VariableFault)
deriving DecidableEq

namespace ReportError

def message : ReportError → String
  | transport => "HTTP error"
  | badStatus status body => s!"Bad status code from reporting URL: [{status}] {body}"
  | rejected body => s!"Report rejected by aggregator: {body}"
  | environment name fault =>
    s!"Environment variable {name} is not usable: {fault.message}"

end ReportError

namespace Environment

def urlVariable : String := "KH_REPORTING_URL"

def uuidVariable : String := "KH_RUN_UUID"

/-- The second by which the check must have reported. -/
def deadlineVariable : String := "KH_CHECK_RUN_DEADLINE"

/-- The value of a variable that must not be blank. -/
def required (env : Environment) (name : String) : Except ReportError String :=
  match env name with
  | some value => if Text.blank value then .error (.environment name .blank) else .ok value
  | none => .error (.environment name .blank)

def reportingUrl (env : Environment) : Except ReportError String :=
  env.required urlVariable

def runUuid (env : Environment) : Except ReportError String :=
  env.required uuidVariable

/-- Reads a deadline in seconds since 1970 began, with blanks around it. -/
def parseDeadline (text : String) : Except ReportError WorldTime :=
  match Text.readInt64 (Text.trim text) with
  | .error fault => .error (.environment deadlineVariable (.unreadable text fault))
  | .ok seconds =>
    match WorldTime.ofSeconds? seconds with
    | some t => .ok t
    | none => .error (.environment deadlineVariable (.outOfRange seconds))

end Environment
end NodeCoverage
