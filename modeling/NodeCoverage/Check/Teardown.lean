import NodeCoverage.Check.Config
import NodeCoverage.Check.Labels
import NodeCoverage.Cluster.Api
import NodeCoverage.Process.Pause
/-!
# Teardown

The workload is deleted, then the pods of the run. After that the cluster is asked until it lists
none of the pods, and then until it does not list the workload. As long as pods linger their
deletion is repeated from time to time, since a pod may come back after it was deleted. A listing
that fails proves nothing.
-/

namespace NodeCoverage

namespace Pod

/-- The pod in words: its name, and the node it is on. -/
def describe (p : Pod) : String :=
  let name := p.metadata.name.getD "<unnamed>"
  match p.spec.bind PodSpec.nodeName with
  | some node => name ++ " on " ++ node
  | none => name

/-- Some pods in words; before any listing it is not known which they are. -/
def describeAll (pods : List Pod) : String :=
  if pods.isEmpty then "unknown" else String.intercalate ", " (pods.map describe)

end Pod

namespace Teardown

def deletePods (config : Config) (stop : Signal) (workloadName : String) :
    Process Cluster (Except CheckError Unit) :=
  Cluster.call stop config.apiBackoff (.deletePods (Labels.runSelector workloadName))

def remove (config : Config) (stop : Signal) (workloadName : String) :
    Process Cluster (Except CheckError Unit) := do
  match ← Cluster.call stop config.apiBackoff (.deleteWorkload workloadName) with
  | .error e => pure (.error e)
  | .ok () => deletePods config stop workloadName

/-- Pauses between two listings; `outstanding` says in words what is still there. -/
def pause (config : Config) (stop : Signal) (deadline : Nat) (outstanding : String) :
    Process Cluster (Except CheckError Unit) := do
  match ← Process.pause stop deadline config.removalPollInterval with
  | .stopped => pure (.error (.cancelled ("teardown (" ++ outstanding ++ ")")))
  | .overdue => pure (.error (.timeout "teardown" outstanding))
  | .over => pure (.ok ())

/-- How far waiting for the pods has come. -/
structure Lingering where
  lastDelete : Nat
  /-- The pods of the last listing that succeeded. -/
  remaining : List Pod

/-- Deletes the pods again if it is time to. A deletion that fails is not an error. -/
def deleteAgain (config : Config) (stop : Signal) (workloadName : String) (l : Lingering) :
    Process Cluster Lingering := do
  if config.podRedeleteInterval.nanos ≤ (← Process.clock) - l.lastDelete then
    let _ ← deletePods config stop workloadName
    pure { l with lastDelete := ← Process.clock }
  else pure l

/-- What a listing of the pods makes of it: waiting is over, or it goes on. -/
def afterListing (l : Lingering) : Except CheckError (List Pod) →
    Lingering ⊕ Except CheckError Unit
  | .ok [] => .inr (.ok ())
  | .ok pods => .inl { l with remaining := pods }
  | .error e =>
    if e.isCancelled then
      .inr (.error (.cancelled ("pod removal (" ++ Pod.describeAll l.remaining ++ ")")))
    else .inl l

def podRound (config : Config) (stop : Signal) (deadline : Nat) (workloadName : String)
    (l : Lingering) : Process Cluster (Lingering ⊕ Except CheckError Unit) := do
  let listing ← Cluster.call stop config.apiBackoff (.listPods (Labels.runSelector workloadName))
  match afterListing l listing with
  | .inr outcome => pure (.inr outcome)
  | .inl l =>
    let l ← deleteAgain config stop workloadName l
    match ← pause config stop deadline
      ("pods still present: " ++ Pod.describeAll l.remaining) with
    | .error e => pure (.inr (.error e))
    | .ok () => pure (.inl l)

def awaitPods (config : Config) (stop : Signal) (deadline : Nat) (workloadName : String) :
    Process Cluster (Except CheckError Unit) := do
  let started ← Process.clock
  .iterate (podRound config stop deadline workloadName) ⟨started, []⟩

/-- Looks for the workload on one page; the state is the token of the page. -/
def presencePage (config : Config) (stop : Signal) (workloadName : String)
    (token : Option String) : Process Cluster (Option String ⊕ Except CheckError Bool) := do
  match ← Cluster.call stop config.apiBackoff
    (.listWorkloads (Labels.runSelector workloadName) token) with
  | .error e => pure (.inr (.error e))
  | .ok page =>
    if page.items.any fun w => w.metadata.name == some workloadName then pure (.inr (.ok true))
    else
      match page.next with
      | some next => pure (.inl (some next))
      | none => pure (.inr (.ok false))

/-- Whether the workload is listed, on any page. -/
def present (config : Config) (stop : Signal) (workloadName : String) :
    Process Cluster (Except CheckError Bool) :=
  .iterate (presencePage config stop workloadName) none

/-- One listing of the workloads and the pause after it. -/
def parentRound (config : Config) (stop : Signal) (deadline : Nat) (workloadName : String)
    (_ : Unit) : Process Cluster (Unit ⊕ Except CheckError Unit) := do
  match ← present config stop workloadName with
  | .ok false => pure (.inr (.ok ()))
  | .ok true => wait
  | .error e => if e.isCancelled then pure (.inr (.error e)) else wait
where
  /-- The pause, after which it goes on. -/
  wait : Process Cluster (Unit ⊕ Except CheckError Unit) := do
    match ← pause config stop deadline ("workload " ++ workloadName ++ " still present") with
    | .error e => pure (.inr (.error e))
    | .ok () => pure (.inl ())

def awaitParent (config : Config) (stop : Signal) (deadline : Nat) (workloadName : String) :
    Process Cluster (Except CheckError Unit) :=
  .iterate (parentRound config stop deadline workloadName) ()

/-- Removes the run from the cluster and waits until it is gone. -/
def run (config : Config) (stop : Signal) (deadline : Nat) (workloadName : String) :
    Process Cluster (Except CheckError Unit) := do
  match ← remove config stop workloadName with
  | .error e => pure (.error e)
  | .ok () =>
    match ← awaitPods config stop deadline workloadName with
    | .error e => pure (.error e)
    | .ok () => awaitParent config stop deadline workloadName

end Teardown
end NodeCoverage
