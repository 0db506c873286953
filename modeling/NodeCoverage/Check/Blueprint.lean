import NodeCoverage.Check.Config
import NodeCoverage.Check.Labels
/-!
# The workload of a run

The workload puts one small pod on every node that it may run on. Everything about it that does
not change from run to run is its blueprint; the run adds its name and labels, which the workload,
its selector and its pods have in common, and the tolerances.
-/

namespace NodeCoverage

/-- Everything about the workload that does not change from run to run. -/
structure Blueprint where
  nameSpace : String := ""
  image : String := ""
  cpu : String := "0"
  memory : String := "0"
  runAsUser : Int := 0
  nodeSelector : Labels := ∅
  priorityClass : Option String := none
  /-- The pod of the check itself; the workload goes when it goes. -/
  owner : Option OwnerReference := none

namespace Blueprint

def ofConfig (config : Config) (owner : Option OwnerReference) : Blueprint where
  nameSpace := config.nameSpace
  image := config.image
  runAsUser := config.runAsUser
  nodeSelector := config.nodeSelector
  priorityClass := config.priorityClass
  owner := owner

def owners (b : Blueprint) : Option (List OwnerReference) :=
  b.owner.map fun o => [o]

/-- The only container of a pod; it does nothing. -/
def container (b : Blueprint) : Container where
  name := "sleep"
  image := some b.image
  resources := some ⟨some (Std.ExtTreeMap.ofList [("cpu", b.cpu), ("memory", b.memory)])⟩
  securityContext := some ⟨some b.runAsUser⟩

def podSpec (b : Blueprint) (tolerances : ToleranceSet) : PodSpec where
  containers := [b.container]
  nodeSelector := if b.nodeSelector.isEmpty then none else some b.nodeSelector
  priorityClassName := b.priorityClass
  securityContext := some {}
  terminationGracePeriodSeconds := some 1
  tolerations := if tolerances.isEmpty then none else some tolerances.tolerations

def build (b : Blueprint) (run : Run) (tolerances : ToleranceSet) : Workload where
  metadata :=
    { name := some run.workloadName
      nameSpace := some b.nameSpace
      labels := some (Labels.ofRun run)
      owners := b.owners }
  spec := some
    { minReadySeconds := some 2
      selector := ⟨some (Labels.ofRun run)⟩
      template :=
        { metadata := some
            { labels := some (Labels.ofRun run)
              annotations := some (Std.ExtTreeMap.ofList [(Labels.safeToEvictKey, "true")])
              owners := b.owners }
          spec := some (b.podSpec tolerances) } }

end Blueprint

/-- A reference to the pod as an owner, once the cluster has given it a name and an identity. -/
def OwnerReference.ofPod? (p : Pod) : Option OwnerReference := do
  pure { apiVersion := "v1", kind := "Pod", name := ← p.metadata.name, uid := ← p.metadata.uid }

end NodeCoverage
