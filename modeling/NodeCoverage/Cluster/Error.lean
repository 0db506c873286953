import NodeCoverage.Text.Quoted
/-!
# What can go wrong in a run

An error says what was refused or given up, and by whom. Only throttling, failures of the API
server itself and failures without any answer may go away when a call is repeated; every other
answer is definitive.
-/

namespace NodeCoverage

/-- An answer of the API server that refuses a request. -/
structure ApiStatus where
  status : String
  message : String
  reason : String
  code : Nat
deriving DecidableEq

inductive ClusterError where
  | api (answer : ApiStatus)
  /-- The request did not reach the server, or its answer got lost. -/
  | service (message : String)
  | tlsRequired
  | unreadable
  | unwritable
  | other
deriving DecidableEq

namespace ClusterError

def message : ClusterError → String
  | api a => s!"ApiError: {a.message}: {a.reason} (ErrorResponse \x7b status: " ++
      Text.quoted a.status ++ ", message: " ++ Text.quoted a.message ++ ", reason: " ++
      Text.quoted a.reason ++ s!", code: {a.code} \x7d)"
  | service m => s!"ServiceError: {m}"
  | tlsRequired => "TLS required but no TLS stack selected"
  | unreadable => "Error deserializing response"
  | unwritable => "Failed to build request"
  | other => "Unexpected error"

end ClusterError

inductive CheckError where
  | cluster (cause : ClusterError)
  /-- The API server understood the request and refused it. -/
  | rejected (operation message : String)
  | timeout (phase detail : String)
  /-- The phase was abandoned because a signal fired. -/
  | cancelled (phase : String)
  /-- The name of the workload is held by an object of another run. -/
  | nameTaken (name : String)
  | config (message : String)
deriving DecidableEq

namespace CheckError

def message : CheckError → String
  | cluster cause => s!"Kubernetes API error: {cause.message}"
  | rejected operation m => s!"{operation} rejected by the API server: {m}"
  | timeout phase detail => s!"Reached timeout during {phase}: {detail}"
  | cancelled phase =>
    s!"{phase} aborted: run was cancelled by an interrupt signal or the run deadline"
  | nameTaken name => s!"workload {name} already exists and belongs to another run"
  | config m => s!"Configuration error: {m}"

def isTransientCode (code : Nat) : Bool :=
  code == 429 || 500 ≤ code

/-- The same call may succeed when it is repeated. -/
def isTransient : CheckError → Bool
  | cluster (.api a) => isTransientCode a.code
  | cluster _ => true
  | _ => false

def apiCode? : CheckError → Option Nat
  | cluster (.api a) => some a.code
  | _ => none

def isNotFound (e : CheckError) : Bool :=
  e.apiCode? == some 404

def isConflict (e : CheckError) : Bool :=
  e.apiCode? == some 409

def isNameTaken : CheckError → Bool
  | nameTaken _ => true
  | _ => false

def isCancelled : CheckError → Bool
  | cancelled _ => true
  | _ => false

end CheckError
end NodeCoverage
