import NodeCoverage.Cluster.Api
/-!
# Deployment

The workload is created once. An attempt whose answer was lost may have succeeded, so an object
that holds the name already counts as deployed if it has exactly the labels of the workload, which
name the run. Any other object of that name belongs to another run and is left alone.
-/

namespace NodeCoverage
namespace Deployment

/-- A definitive answer is a refusal of the workload. -/
def refusal (e : CheckError) : CheckError :=
  match e with
  | .cluster (.api a) =>
    if CheckError.isTransientCode a.code then e else .rejected "create workload" a.message
  | _ => e

/-- What an object that holds the name of the workload means, where `conflict` was the answer to
its creation. -/
def adoption (w : Workload) (conflict : CheckError) :
    Option Workload → Except CheckError Unit
  | none => .error conflict
  | some existing =>
    if existing.metadata.labels = w.metadata.labels then .ok ()
    else .error (.nameTaken (w.metadata.name.getD ""))

def adopt (stop : Signal) (policy : Backoff) (w : Workload) (conflict : CheckError) :
    Process Cluster (Except CheckError Unit) := do
  match ← Cluster.call stop policy (.getWorkload (w.metadata.name.getD "")) with
  | .error e => pure (.error e)
  | .ok existing => pure (adoption w conflict existing)

def run (stop : Signal) (policy : Backoff) (w : Workload) :
    Process Cluster (Except CheckError Unit) := do
  match ← Cluster.call stop policy (.createWorkload w) with
  | .ok () => pure (.ok ())
  | .error e => if e.isConflict then adopt stop policy w e else pure (.error (refusal e))

end Deployment
end NodeCoverage
