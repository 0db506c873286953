import NodeCoverage.Check.Blueprint
import NodeCoverage.Check.Deployment
import NodeCoverage.Check.Discovery
import NodeCoverage.Check.Failure
import NodeCoverage.Check.Sweep
import NodeCoverage.Check.Teardown
import NodeCoverage.Check.Verification
/-!
# The worker

The worker does the work of a run: it sweeps up what earlier runs have left, deploys the workload,
verifies that it covers the nodes, and tears it down. Teardown goes on when the run is stopped; it
is left out only if nothing was deployed, or if the name of the workload is held by another run.
-/

namespace NodeCoverage

/-- What a worker is to do, and until when. -/
structure Assignment where
  config : Config
  run : Run
  /-- The instant at which the budget of the run is used up. -/
  deadline : Nat

namespace Worker

def enter (phase : Cluster.Phase) : Process Cluster Unit :=
  Process.note (S := Cluster) (.entered phase)

/-- The worker's own pod as the owner of what it creates; none if it cannot be looked up. -/
def owner (a : Assignment) : Process Cluster (Option OwnerReference) := do
  match ← Cluster.call .run a.config.apiBackoff (.getPod a.run.host) with
  | .ok (some pod) => pure (OwnerReference.ofPod? pod)
  | .ok none => pure none
  | .error _ => pure none

/-- The tolerances that were given, else those of the nodes; none if these cannot be found. -/
def tolerances (a : Assignment) : Process Cluster ToleranceSet :=
  match a.config.tolerationsOverride with
  | some set => pure set
  | none => do
    match ← ToleranceSet.discover .run a.config.apiBackoff a.config.allowedTaints with
    | .ok set => pure set
    | .error _ => pure ∅

/-- The failure that an error is; what was cancelled by an interrupt is not one of its own. -/
def record (phase : Cluster.Phase) (e : CheckError) : Process Cluster (List Failure) := do
  let interrupted ← Process.fired .shutdown
  pure (if e.isCancelled && interrupted then [] else [.during phase e])

/-- Removes the run from the cluster. The time for it is counted from the deadline, or from now if
the run has been stopped. -/
def teardown (a : Assignment) : Process Cluster (List Failure) := do
  enter .tearingDown
  let stopped ← Process.fired .run
  let now ← Process.clock
  let since := if stopped then now else a.deadline
  match ← Teardown.run a.config .hardStop (since + a.config.shutdownGracePeriod.nanos)
    a.run.workloadName with
  | .ok () => pure []
  | .error e => pure [.during .tearingDown e]

def verify (a : Assignment) (set : ToleranceSet) : Process Cluster (List Failure) := do
  enter .verifying
  match ← Verification.run a.config .run a.deadline set a.run.workloadName with
  | .ok _ => pure []
  | .error e => record .verifying e

def probe (a : Assignment) (set : ToleranceSet) (w : Workload) :
    Process Cluster (List Failure) := do
  enter .deploying
  match ← Deployment.run .run a.config.apiBackoff w with
  | .ok () =>
    let failures ← verify a set
    pure (failures ++ (← teardown a))
  | .error e =>
    let failures ← record .deploying e
    if e.isNameTaken then pure failures else pure (failures ++ (← teardown a))

/-- Sweeps up beforehand. If that fails the run goes on all the same, unless it was cancelled. -/
def work (a : Assignment) : Process Cluster (List Failure) := do
  enter .init
  let owner ← owner a
  let set ← tolerances a
  let w := (Blueprint.ofConfig a.config owner).build a.run set
  enter .preCleanup
  let now ← Process.clock
  match ← Sweep.untilClear a.config .run
    (min a.deadline (now + a.config.preCleanupTimeout.nanos)) a.run with
  | .ok () => probe a set w
  | .error e =>
    if e.isCancelled then record .preCleanup e
    else
      let failures ← probe a set w
      pure (.during .preCleanup e :: failures)

def run (a : Assignment) : Process Cluster (List Failure) := do
  let failures ← work a
  enter .postCleanup
  pure failures

end Worker
end NodeCoverage
