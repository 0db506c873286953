import NodeCoverage.Check.Config
import NodeCoverage.Check.Coverage
import NodeCoverage.Check.Labels
import NodeCoverage.Cluster.Api
import NodeCoverage.Process.Pause
/-!
# Verification

The nodes are looked at again and again, each time after a pause. Only a number of clean looks
counts as coverage; a look that finds a node missing starts the count anew, while a look that
fails neither adds to the count nor starts it anew. A pod that runs for a moment only is therefore
not enough.
-/

namespace NodeCoverage

/-- How verification ended when it did not fail. -/
inductive Verdict where
  /-- Every required node was covered for the whole window. -/
  | covered
  /-- An interrupt was received; nothing was concluded. -/
  | aborted
deriving DecidableEq

/-- What the looks have shown so far. -/
structure Looks where
  /-- Clean looks since a node was missing. -/
  clean : Nat
  /-- The nodes that were missing when some were missing last. -/
  missing : List String
deriving DecidableEq

namespace Looks

def none : Looks := ⟨0, []⟩

def describe (l : Looks) : String :=
  if l.missing.isEmpty then "coverage never stayed complete for the full stability window"
  else "nodes still missing a running probe pod: " ++ String.intercalate ", " l.missing

/-- What one more look makes of it: it goes on, or it ends. -/
def after (required : Nat) (l : Looks) : Except CheckError (List String) →
    Looks ⊕ Except CheckError Verdict
  | .ok [] =>
    if required ≤ l.clean + 1 then .inr (.ok .covered) else .inl ⟨l.clean + 1, l.missing⟩
  | .ok missing => .inl ⟨0, missing⟩
  | .error e => if e.isCancelled then .inr (.error e) else .inl l

end Looks

namespace Verification

/-- Names of the required nodes that have no running pod of the run just now. -/
def look (config : Config) (stop : Signal) (tolerances : ToleranceSet) (workloadName : String) :
    Process Cluster (Except CheckError (List String)) := do
  match ← Cluster.call stop config.apiBackoff .listNodes with
  | .error e => pure (.error e)
  | .ok nodes =>
    match ← Cluster.call stop config.apiBackoff (.listPods (Labels.runSelector workloadName)) with
    | .error e => pure (.error e)
    | .ok pods =>
      pure (.ok (NodeRecord.missing
        (NodeRecord.ofCluster nodes pods tolerances config.nodeSelector)))

def round (config : Config) (stop : Signal) (deadline : Nat) (tolerances : ToleranceSet)
    (workloadName : String) (l : Looks) :
    Process Cluster (Looks ⊕ Except CheckError Verdict) := do
  match ← Process.pause stop deadline config.pollInterval with
  | .stopped => pure (.inr (.error (.cancelled "verify")))
  | .overdue => pure (.inr (.error (.timeout "verify" l.describe)))
  | .over =>
    if ← Process.fired .shutdown then pure (.inr (.ok .aborted))
    else pure (l.after config.stabilityTicks (← look config stop tolerances workloadName))

/-- Looks at the nodes until they have been covered for long enough, until an interrupt, or until
the deadline. -/
def run (config : Config) (stop : Signal) (deadline : Nat) (tolerances : ToleranceSet)
    (workloadName : String) : Process Cluster (Except CheckError Verdict) :=
  .iterate (round config stop deadline tolerances workloadName) .none

end Verification
end NodeCoverage
