import NodeCoverage.Check.Lifecycle
import NodeCoverage.Http.Basic
import NodeCoverage.Process.Retry
/-!
# Delivery of reports

A report is posted under the identifier of its run. The receiver accepts it with the status 200 and
refuses it for good with 400. After any other answer, or none, it is posted again until the policy
says that it is enough.
-/

namespace NodeCoverage

structure Posting where
  url : String
  runUuid : String
  report : Report
deriving DecidableEq

/-- The receiver of reports. A posting gets a response, or nothing at all. -/
def Aggregator : Service where
  Request := Posting
  Reply _ := Option Http.Response
  Entry := Empty

namespace Aggregator

def verdict : Option Http.Response → Except ReportError Unit
  | none => .error .transport
  | some r =>
    if r.status = 200 then .ok ()
    else if r.status = 400 then .error (.rejected r.body)
    else .error (.badStatus r.status r.body)

def unreachable : Behaviour Aggregator where
  State := Unit
  Ticket := Unit
  start _ _ _ := (.zero, (), ())
  answer _ _ _ _ := (none, ())

end Aggregator

/-- A refusal is definitive. -/
def ReportError.isPermanent : ReportError → Bool
  | .rejected _ => true
  | _ => false

namespace Posting

def runUuidHeader : String := "kh-run-uuid"

/-- The policy unless there is another one: half a minute in all. -/
def policy : Backoff := .withMaxElapsed (.ofSeconds 30)

def attempt (p : Posting) : Process Aggregator (Except ReportError Unit) := do
  pure (Aggregator.verdict (← Process.call (S := Aggregator) p))

def send (policy : Backoff) (p : Posting) : Process Aggregator (Except ReportError Unit) :=
  Process.retry policy ReportError.isPermanent p.attempt

def world {B : Behaviour Aggregator} (now : Nat) (state : B.State) : World B :=
  { World.initial state with now := now }

def run {B : Behaviour Aggregator} (fuel : Nat) (policy : Backoff) (now : Nat) (state : B.State)
    (p : Posting) : Status B (Except ReportError Unit) × World B :=
  Suspended.runWith fuel fuel [] (.ready (p.send policy)) (world now state)

end Posting

def Reporter.posting {B : Behaviour Aggregator} (fuel : Nat) (policy : Backoff)
    (url runUuid : String) (state : B.State) : Reporter where
  deliver now report :=
    match Posting.run fuel policy now state ⟨url, runUuid, report⟩ with
    | (.finished result, w) => some (result, w.now)
    | _ => none

end NodeCoverage
