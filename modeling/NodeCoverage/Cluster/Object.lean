import NodeCoverage.Time.Calendar
import Std.Data.ExtTreeMap
/-!
# Objects of the cluster

Nodes, pods and workloads, as far as the check reads or writes them. A field that the cluster may
leave out is optional here, and an empty list or map differs from an absent one. The fields that
the cluster always has are empty when they are not given.
-/

namespace NodeCoverage

/-- Labels by key. Two maps with the same labels are equal, and they are listed in the order of
their keys. -/
abbrev Labels := Std.ExtTreeMap String String

structure OwnerReference where
  apiVersion : String
  kind : String
  name : String
  uid : String
  /-- The owner is what controls the object. -/
  controller : Option Bool := none
  /-- The owner stays until the object is gone. -/
  blockOwnerDeletion : Option Bool := none
deriving DecidableEq, Inhabited

structure Metadata where
  name : Option String := none
  nameSpace : Option String := none
  uid : Option String := none
  labels : Option Labels := none
  annotations : Option Labels := none
  owners : Option (List OwnerReference) := none
  /-- Set once the object is being deleted. -/
  deletionTimestamp : Option WorldTime := none
deriving DecidableEq

instance : Inhabited Metadata := ⟨{}⟩

structure Taint where
  key : String
  value : Option String
  effect : String
  timeAdded : Option WorldTime := none
deriving DecidableEq

structure Toleration where
  key : Option String
  operator : Option String
  value : Option String
  effect : Option String
  seconds : Option Int := none
deriving DecidableEq

structure Address where
  kind : String
  address : String
deriving DecidableEq

structure NodeSpec where
  taints : Option (List Taint)
deriving DecidableEq

structure NodeStatus where
  addresses : Option (List Address)
deriving DecidableEq

structure Node where
  metadata : Metadata := {}
  spec : Option NodeSpec := none
  status : Option NodeStatus := none
deriving DecidableEq

structure Resources where
  requests : Option Labels
deriving DecidableEq

structure SecurityContext where
  runAsUser : Option Int := none
deriving DecidableEq

structure Container where
  name : String
  image : Option String := none
  resources : Option Resources := none
  securityContext : Option SecurityContext := none
deriving DecidableEq

structure PodSpec where
  containers : List Container := []
  nodeName : Option String := none
  nodeSelector : Option Labels := none
  priorityClassName : Option String := none
  securityContext : Option SecurityContext := none
  terminationGracePeriodSeconds : Option Int := none
  tolerations : Option (List Toleration) := none
deriving DecidableEq

structure PodStatus where
  phase : Option String := none
  hostIP : Option String := none
deriving DecidableEq

structure Pod where
  metadata : Metadata := {}
  spec : Option PodSpec := none
  status : Option PodStatus := none
deriving DecidableEq

instance : Inhabited Pod := ⟨{}⟩

structure LabelSelector where
  matchLabels : Option Labels := none
deriving DecidableEq

structure PodTemplate where
  metadata : Option Metadata := none
  spec : Option PodSpec := none
deriving DecidableEq

structure WorkloadSpec where
  minReadySeconds : Option Int := none
  selector : LabelSelector := {}
  template : PodTemplate := {}
deriving DecidableEq

/-- A workload with one pod on every node that it may run on. -/
structure Workload where
  metadata : Metadata := {}
  spec : Option WorkloadSpec := none
deriving DecidableEq

instance : Inhabited Workload := ⟨{}⟩

namespace Node

def taints (n : Node) : List Taint :=
  ((n.spec.bind NodeSpec.taints).getD [])

def addresses (n : Node) : List Address :=
  ((n.status.bind NodeStatus.addresses).getD [])

end Node

end NodeCoverage
