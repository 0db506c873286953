import NodeCoverage.Check.Lifecycle
import NodeCoverage.Simulation.Script
/-!
# Sessions on a simulated cluster

A session carries out steps one after the other on a simulated cluster: parts of the check, whole
runs, and changes from outside. For each step it is recorded what the step gave, which requests it
made, and what it left in the log.

A step may be cancelled at a given time after its beginning. At that instant the step itself is
resumed before it is cancelled. A session breaks off at a step that cannot go on.
-/

namespace NodeCoverage
namespace Simulation

inductive Task where
  /-- A single request, under this name. -/
  | call (operation : String) (r : Cluster.Request)
  /-- Finds the tolerances of the nodes, which are then kept. -/
  | discover
  | deploy (w : Option Workload)
  | verify
  | remove
  | awaitPods
  | awaitParent
  | teardown
  | sweepWorkloads
  | sweepPods
  | sweep
  | reap
deriving Inhabited

/-- A task with its circumstances; the times are counted from the beginning of the step. -/
structure Order where
  task : Task
  /-- The workload that the task is about; that of the run unless it is given. -/
  workloadName : Option String
  deadline : Duration
  cancelAt : Option Duration
  interruptAt : Option Duration

/-- What a report to the reporter of a session meets. -/
structure Reception where
  delay : Duration
  fails : Bool

inductive Step where
  | inventory
  | advance (d : Duration)
  | change (c : Change)
  | order (o : Order)
  /-- A whole run, with the times of interrupts and what reports meet. -/
  | run (r : Run) (interrupts : List Duration) (reception : Reception)

structure PodEntry where
  name : String
  phase : Option String
  nodeName : Option String

inductive StepResult where
  | done
  | failed (e : CheckError)
  | reply (r : Cluster.Request) (value : r.Result)
  | tolerances (set : ToleranceSet)
  | verdict (v : Verdict)
  | swept (report : SweepReport)
  | inventory (workloads : List String) (pods : List PodEntry)
  /-- The summary of a run, whether the sweep after it came to its end if there was one, and all
  workloads that were created so far. -/
  | run (summary : RunSummary) (swept : Option Bool) (created : List Workload)

/-- How a request went, in short. -/
inductive CallOutcome where
  /-- The answer is a list of so many objects. -/
  | items (n : Nat)
  | page (n : Nat) (next : Option String)
  | found (isThere : Bool)
  | done
  | refused (code : Nat)
  | failed
  /-- There was no answer as long as the step went on. -/
  | pending

structure CallRecord where
  time : Nat
  request : Cluster.Request
  outcome : CallOutcome

structure StepRecord where
  start : Nat
  finish : Nat
  result : StepResult
  calls : List CallRecord
  log : List (Nat × Cluster.Entry)

inductive Breakdown where
  | crashed (f : Fault)
  /-- A step took more fuel than there is. -/
  | exhausted
deriving DecidableEq

structure Session where
  config : Config
  run : Run
  tolerances : ToleranceSet
  world : World behaviour

/-- The answer to a request, in short. -/
def CallOutcome.ofReply : (r : Cluster.Request) → Except CheckError r.Result → CallOutcome
  | _, .error e => match e.apiCode? with
    | some code => .refused code
    | none => .failed
  | .listNodes, .ok nodes => .items nodes.length
  | .listPods _, .ok pods => .items pods.length
  | .listWorkloads _ _, .ok p => .page p.items.length p.next
  | .createWorkload _, .ok _ => .done
  | .deleteWorkload _, .ok _ => .done
  | .deletePods _, .ok _ => .done
  | .deletePod _, .ok _ => .done
  | .getPod _, .ok pod => .found pod.isSome
  | .getWorkload _, .ok w => .found w.isSome

namespace Trace

def outcome (number : Nat) (events : List (Event Cluster)) : CallOutcome :=
  (events.findSome? fun
    | .answered _ n r reply => if n = number then some (.ofReply r reply) else none
    | _ => none).getD .pending

def calls : List (Event Cluster) → List CallRecord
  | [] => []
  | .called t number r :: later => ⟨t, r, outcome number later⟩ :: calls later
  | _ :: later => calls later

def log (events : List (Event Cluster)) : List (Nat × Cluster.Entry) :=
  events.filterMap fun
    | .noted t entry => some (t, entry)
    | _ => none

end Trace

namespace Session

/-- More steps than a process of a session is ever given. -/
def fuel : Nat := 1000000000000000

def workloadName (s : Session) (o : Order) : String :=
  o.workloadName.getD s.run.workloadName

/-- The workload of the run, without an owner. -/
def workload (s : Session) : Workload :=
  (Blueprint.ofConfig s.config none).build s.run s.tolerances

def process (s : Session) (o : Order) (deadline : Nat) : Process Cluster StepResult :=
  let config := s.config
  let name := s.workloadName o
  match o.task with
  | .call operation r => outcome (.reply r) (Cluster.callAs .run config.apiBackoff operation r)
  | .discover =>
    outcome .tolerances (ToleranceSet.discover .run config.apiBackoff config.allowedTaints)
  | .deploy w => outcome done (Deployment.run .run config.apiBackoff (w.getD s.workload))
  | .verify =>
    outcome .verdict (Verification.run config .run deadline s.tolerances name)
  | .remove => outcome done (Teardown.remove config .run name)
  | .awaitPods => outcome done (Teardown.awaitPods config .run deadline name)
  | .awaitParent => outcome done (Teardown.awaitParent config .run deadline name)
  | .teardown => outcome done (Teardown.run config .run deadline name)
  | .sweepWorkloads => outcome .swept (Sweep.workloads config .run s.run)
  | .sweepPods => outcome .swept (Sweep.pods config .run s.run)
  | .sweep => outcome .swept (Sweep.once config .run s.run)
  | .reap => outcome done (Sweep.untilClear config .run deadline s.run)
where
  /-- Nothing but success. -/
  done (_ : Unit) : StepResult := .done
  /-- The result of a process that may fail. -/
  outcome {α : Type} (ok : α → StepResult) (p : Process Cluster (Except CheckError α)) :
      Process Cluster StepResult := do
    match ← p with
    | .ok a => pure (ok a)
    | .error e => pure (.failed e)

/-- The signals that fire in an order which begins at `now`, by their instants. -/
def signals (now : Nat) (o : Order) : List (Nat × Signal) :=
  let fires (s : Signal) (d : Duration) := (Clock.timer (Clock.after now d), s)
  ((o.cancelAt.map (fires .run)).toList ++ (o.interruptAt.map (fires .shutdown)).toList).mergeSort
    fun a b => a.1 ≤ b.1

/-- Fires the signals that are due at once; the others are left. -/
def fireDue {B : Behaviour Cluster} (w : World B) (signals : List (Nat × Signal)) :
    World B × List (Nat × Signal) :=
  (signals.foldl (fun w (t, s) => if t ≤ w.now then w.fire s else w) w,
    signals.filter fun (t, _) => w.now < t)

def carryOut (s : Session) (o : Order) : Except Breakdown (StepResult × Session) :=
  let now := s.world.now
  let (w, later) := fireDue s.world.reset (signals now o)
  match Suspended.runWith fuel fuel later (.ready (s.process o (now + o.deadline.nanos))) w with
  | (.finished (.tolerances set), w) =>
    .ok (.tolerances set, { s with tolerances := set, world := w })
  | (.finished result, w) => .ok (result, { s with world := w })
  | (.crashed f, _) => .error (.crashed f)
  | (.suspended _, _) => .error .exhausted
  | (.exhausted, _) => .error .exhausted

def reporter (r : Reception) : Reporter where
  deliver now _ :=
    some (if r.fails then .error .transport else .ok (), Clock.timer (Clock.after now r.delay))

def carryOutRun (s : Session) (r : Run) (interrupts : List Duration) (reception : Reception) :
    Except Breakdown (StepResult × Session) :=
  let w := s.world.reset
  match Lifecycle.run fuel .simulated s.config r (interrupts.map fun d => w.now + d.nanos)
    (reporter reception) w with
  | none => .error .exhausted
  | some a =>
    let a := a.settle fuel
    .ok (.run a.summary a.swept a.world.state.store.created, { s with world := a.world })

/-- The store brought up to the present. -/
def upToNow (s : Session) : Session :=
  let w := s.world
  { s with world := { w with state := { w.state with store := w.state.store.upTo w.now } } }

def inventory (store : Store) : StepResult :=
  .inventory (store.workloads.toList.map Prod.fst)
    (store.pods.toList.map fun (name, p) =>
      ⟨name, p.object.status.bind PodStatus.phase, p.object.spec.bind PodSpec.nodeName⟩)

/-- Carries out a step. A change is made at once, before others that are due. -/
def perform (s : Session) : Step → Except Breakdown (StepResult × Session)
  | .inventory =>
    let s := s.upToNow
    .ok (inventory s.world.state.store, s)
  | .advance d =>
    .ok (.done, { s with world := s.world.advance (Clock.timer (Clock.after s.world.now d)) })
  | .change c =>
    let w := s.world
    .ok (.done,
      { s with world := { w with state := { w.state with store := w.state.store.change c } } })
  | .order o => s.carryOut o
  | .run r interrupts reception => s.carryOutRun r interrupts reception

def step (s : Session) (step : Step) : Except Breakdown (StepRecord × Session) := do
  let (result, s') ← s.perform step
  let events := (s'.world.trace.extract s.world.trace.size).toList
  pure (⟨s.world.now, s'.world.now, result, Trace.calls events, Trace.log events⟩, s')

def steps (s : Session) : List Step → Except Breakdown (List StepRecord)
  | [] => .ok []
  | first :: rest => do
    let (record, s) ← s.step first
    pure (record :: (← s.steps rest))

/-- A session on a cluster. Until the first discovery no tolerances are kept, also where the
configuration has some. -/
def start (config : Config) (run : Run) (state : State) : Session where
  config := config
  run := run
  tolerances := ∅
  world := .initial state

end Session
end Simulation
end NodeCoverage
