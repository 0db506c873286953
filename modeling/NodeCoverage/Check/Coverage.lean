import NodeCoverage.Check.Tolerance
/-!
# Coverage of the nodes

A node is required if the selector picks it and its taints are tolerated. It is covered if a
running pod is on one of its internal addresses. What is missing are the names of the nodes that
are required and not covered, in order.
-/

namespace NodeCoverage

/-- What one look at the cluster says about a node. -/
structure NodeRecord where
  name : String
  taints : List Taint
  /-- A pod of the run is expected here. -/
  schedulable : Bool
  /-- A running pod of the run is here. -/
  covered : Bool

namespace Pod

def runningHost? (p : Pod) : Option String :=
  p.status.bind fun s => if s.phase = some "Running" then s.hostIP else none

end Pod

namespace Node

def isSelected (n : Node) (selector : Labels) : Bool :=
  selector.toList.all fun (key, value) => n.metadata.labels.bind (·[key]?) == some value

/-- One of the hosts is an internal address of the node. -/
def isCovered (n : Node) (hosts : List String) : Bool :=
  n.addresses.any fun a => a.kind == "InternalIP" && hosts.contains a.address

def record (n : Node) (hosts : List String) (tolerances : ToleranceSet) (selector : Labels) :
    NodeRecord where
  name := n.metadata.name.getD ""
  taints := n.taints
  schedulable := n.isSelected selector && tolerances.toleratesAll n.taints
  covered := n.isCovered hosts

end Node

namespace NodeRecord

def ofCluster (nodes : List Node) (pods : List Pod) (tolerances : ToleranceSet)
    (selector : Labels) : List NodeRecord :=
  let hosts := pods.filterMap Pod.runningHost?
  nodes.map (·.record hosts tolerances selector)

/-- The names of the nodes that are required and not covered, in order. -/
def missing (records : List NodeRecord) : List String :=
  ((records.filter fun r => r.schedulable && !r.covered).map name).mergeSort
    fun a b => decide (a ≤ b)

end NodeRecord
end NodeCoverage
