import NodeCoverage.Check.Run
import NodeCoverage.Cluster.Object
/-!
# Labels

Labels are the only state that is carried from one run to the next. Everything a run creates has
the same five labels, which name the workload, the check, the creating process and the second at
which the run began. Two selectors pick out objects by their labels: one for the objects of a
single run and one for everything that any run of the check has created.
-/

namespace NodeCoverage
namespace Labels

/-- Names the workload an object belongs to. -/
def appKey : String := "kh-app"

def sourceKey : String := "source"

def checkKey : String := "khcheck"

def instanceKey : String := "creatingInstance"

/-- The second at which the creating run began. -/
def runTimeKey : String := "checkRunTime"

def sourceValue : String := "kuberhealthy"

def checkValue : String := "daemonset"

/-- Allows the autoscaler of the cluster to evict a pod. -/
def safeToEvictKey : String := "cluster-autoscaler.kubernetes.io/safe-to-evict"

def ofRun (r : Run) : Labels :=
  Std.ExtTreeMap.ofList
    [(appKey, r.workloadName), (sourceKey, sourceValue), (checkKey, checkValue),
      (instanceKey, r.host), (runTimeKey, toString r.timestamp)]

def systemSelector : String :=
  sourceKey ++ "=" ++ sourceValue ++ "," ++ checkKey ++ "=" ++ checkValue

def runSelector (workloadName : String) : String :=
  appKey ++ "=" ++ workloadName ++ "," ++ systemSelector

end Labels

/-- The value of a label; an empty one counts as missing. -/
def Metadata.label? (m : Metadata) (key : String) : Option String :=
  (m.labels.bind (·[key]?)).filter fun v => !v.isEmpty

end NodeCoverage
