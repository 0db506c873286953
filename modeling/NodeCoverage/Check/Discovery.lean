import NodeCoverage.Check.Tolerance
import NodeCoverage.Cluster.Api
/-!
# Discovery of tolerances

Unless they were given, the tolerances of a run are those that the taints of the nodes need, less
the taints that are never tolerated.
-/

namespace NodeCoverage
namespace ToleranceSet

def discover (stop : Signal) (policy : Backoff) (excluded : List AllowedTaint) :
    Process Cluster (Except CheckError ToleranceSet) := do
  match ← Cluster.call stop policy .listNodes with
  | .error e => pure (.error e)
  | .ok nodes => pure (.ok (ofNodes nodes excluded))

end ToleranceSet
end NodeCoverage
