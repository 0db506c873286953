import NodeCoverage.Cluster.Object
import NodeCoverage.Json.Basic
/-!
# Objects as JSON

Writing leaves out absent fields and keeps empty lists and maps. Reading ignores fields that are
not known and refuses values of the wrong kind. A text field that every object must have is empty
when it is missing. An object that says which version and kind it is must say the right ones.
-/

namespace NodeCoverage

namespace Json

/-- A text that is empty when it is missing. -/
def text? (key : String) (j : Json) : Option String :=
  (·.getD "") <$> j.optional? key string?

/-- An object's member, read by `value` as if it were empty when it is missing or `null`. -/
def part? (key : String) (value : Json → Option α) (j : Json) : Option α := do
  match ← j.optional? key value with
  | some a => some a
  | none => value (.object [])

/-- Only an object is read. -/
def record? (value : Json → Option α) : Json → Option α
  | .object ms => value (.object ms)
  | _ => none

/-- A signed integer of so many bits. -/
def signed? (bits : Nat) (j : Json) : Option Int := do
  let i ← j.integer?
  let beyond := Int.ofNat (Nat.pow 2 (bits - 1))
  if -beyond ≤ i ∧ i < beyond then some i else none

end Json

open Json

namespace Labels

def toJson (m : Labels) : Json :=
  .object (m.toList.map fun (k, v) => (k, .string v))

def ofJson? (j : Json) : Option Labels :=
  (Std.ExtTreeMap.ofList ·) <$> j.dictionary? string?

end Labels

namespace WorldTime

def ofJson? (j : Json) : Option WorldTime :=
  j.string?.bind ofTimestamp?

end WorldTime

namespace OwnerReference

def toJson (o : OwnerReference) : Json :=
  ofPresent [("apiVersion", some (.string o.apiVersion)),
    ("blockOwnerDeletion", o.blockOwnerDeletion.map .bool),
    ("controller", o.controller.map .bool), ("kind", some (.string o.kind)),
    ("name", some (.string o.name)), ("uid", some (.string o.uid))]

def ofJson? : Json → Option OwnerReference :=
  record? fun j => do
    pure
      { apiVersion := ← j.text? "apiVersion"
        kind := ← j.text? "kind"
        name := ← j.text? "name"
        uid := ← j.text? "uid"
        controller := ← j.optional? "controller" bool?
        blockOwnerDeletion := ← j.optional? "blockOwnerDeletion" bool? }

end OwnerReference

namespace Metadata

def toJson (m : Metadata) : Json :=
  ofPresent [("annotations", m.annotations.map Labels.toJson),
    ("deletionTimestamp", m.deletionTimestamp.map fun t => .string t.timestamp),
    ("labels", m.labels.map Labels.toJson), ("name", m.name.map .string),
    ("namespace", m.nameSpace.map .string),
    ("ownerReferences", m.owners.map fun os => .array (os.map OwnerReference.toJson)),
    ("uid", m.uid.map .string)]

def ofJson? : Json → Option Metadata :=
  record? fun j => do
    pure
      { name := ← j.optional? "name" string?
        nameSpace := ← j.optional? "namespace" string?
        uid := ← j.optional? "uid" string?
        labels := ← j.optional? "labels" Labels.ofJson?
        annotations := ← j.optional? "annotations" Labels.ofJson?
        owners := ← j.optional? "ownerReferences" (list? OwnerReference.ofJson?)
        deletionTimestamp := ← j.optional? "deletionTimestamp" WorldTime.ofJson? }

end Metadata

namespace Taint

def toJson (t : Taint) : Json :=
  ofPresent [("effect", some (.string t.effect)), ("key", some (.string t.key)),
    ("timeAdded", t.timeAdded.map fun t => .string t.timestamp), ("value", t.value.map .string)]

def ofJson? : Json → Option Taint :=
  record? fun j => do
    pure
      { key := ← j.text? "key"
        value := ← j.optional? "value" string?
        effect := ← j.text? "effect"
        timeAdded := ← j.optional? "timeAdded" WorldTime.ofJson? }

end Taint

namespace Toleration

def toJson (t : Toleration) : Json :=
  ofPresent [("effect", t.effect.map .string), ("key", t.key.map .string),
    ("operator", t.operator.map .string), ("tolerationSeconds", t.seconds.map .integer),
    ("value", t.value.map .string)]

def ofJson? : Json → Option Toleration :=
  record? fun j => do
    pure
      { key := ← j.optional? "key" string?
        operator := ← j.optional? "operator" string?
        value := ← j.optional? "value" string?
        effect := ← j.optional? "effect" string?
        seconds := ← j.optional? "tolerationSeconds" (signed? 64) }

end Toleration

namespace Address

def toJson (a : Address) : Json :=
  .object [("address", .string a.address), ("type", .string a.kind)]

def ofJson? : Json → Option Address :=
  record? fun j => do pure ⟨← j.text? "type", ← j.text? "address"⟩

end Address

namespace SecurityContext

def toJson (c : SecurityContext) : Json :=
  ofPresent [("runAsUser", c.runAsUser.map .integer)]

def ofJson? : Json → Option SecurityContext :=
  record? fun j => do pure ⟨← j.optional? "runAsUser" (signed? 64)⟩

end SecurityContext

namespace Resources

def toJson (r : Resources) : Json :=
  ofPresent [("requests", r.requests.map Labels.toJson)]

def ofJson? : Json → Option Resources :=
  record? fun j => do pure ⟨← j.optional? "requests" Labels.ofJson?⟩

end Resources

namespace Container

def toJson (c : Container) : Json :=
  ofPresent [("image", c.image.map .string), ("name", some (.string c.name)),
    ("resources", c.resources.map Resources.toJson),
    ("securityContext", c.securityContext.map SecurityContext.toJson)]

def ofJson? : Json → Option Container :=
  record? fun j => do
    pure
      { name := ← j.text? "name"
        image := ← j.optional? "image" string?
        resources := ← j.optional? "resources" Resources.ofJson?
        securityContext := ← j.optional? "securityContext" SecurityContext.ofJson? }

end Container

namespace PodSpec

def toJson (s : PodSpec) : Json :=
  ofPresent [("containers", some (.array (s.containers.map Container.toJson))),
    ("nodeName", s.nodeName.map .string), ("nodeSelector", s.nodeSelector.map Labels.toJson),
    ("priorityClassName", s.priorityClassName.map .string),
    ("securityContext", s.securityContext.map SecurityContext.toJson),
    ("terminationGracePeriodSeconds", s.terminationGracePeriodSeconds.map .integer),
    ("tolerations", s.tolerations.map fun ts => .array (ts.map Toleration.toJson))]

def ofJson? : Json → Option PodSpec :=
  record? fun j => do
    pure
      { containers := (← j.optional? "containers" (list? Container.ofJson?)).getD []
        nodeName := ← j.optional? "nodeName" string?
        nodeSelector := ← j.optional? "nodeSelector" Labels.ofJson?
        priorityClassName := ← j.optional? "priorityClassName" string?
        securityContext := ← j.optional? "securityContext" SecurityContext.ofJson?
        terminationGracePeriodSeconds :=
          ← j.optional? "terminationGracePeriodSeconds" (signed? 64)
        tolerations := ← j.optional? "tolerations" (list? Toleration.ofJson?) }

end PodSpec

/-- Which version of the interface an object belongs to, and what it is. -/
structure ObjectKind where
  apiVersion : String
  kind : String

namespace ObjectKind

def node : ObjectKind := ⟨"v1", "Node"⟩

def pod : ObjectKind := ⟨"v1", "Pod"⟩

def workload : ObjectKind := ⟨"apps/v1", "DaemonSet"⟩

def toMembers (k : ObjectKind) : List (String × Option Json) :=
  [("apiVersion", some (.string k.apiVersion)), ("kind", some (.string k.kind))]

/-- Nothing in the object says that it is something else. -/
def admits (k : ObjectKind) (j : Json) : Bool :=
  (j.members "apiVersion").all (fun v => v.string? == some k.apiVersion) &&
    (j.members "kind").all fun v => v.string? == some k.kind

def read? (k : ObjectKind) (value : Json → Option α) : Json → Option α :=
  record? fun j => if k.admits j then value j else none

end ObjectKind

namespace Node

def toJson (n : Node) : Json :=
  ofPresent (ObjectKind.node.toMembers ++ [("metadata", some n.metadata.toJson),
    ("spec", n.spec.map fun s =>
      ofPresent [("taints", s.taints.map fun ts => .array (ts.map Taint.toJson))]),
    ("status", n.status.map fun s =>
      ofPresent [("addresses", s.addresses.map fun xs => .array (xs.map Address.toJson))])])

def ofJson? : Json → Option Node :=
  ObjectKind.node.read? fun j => do
    pure
      { metadata := ← j.part? "metadata" Metadata.ofJson?
        spec := ← j.optional? "spec" (record? fun j => do
          pure ⟨← j.optional? "taints" (list? Taint.ofJson?)⟩)
        status := ← j.optional? "status" (record? fun j => do
          pure ⟨← j.optional? "addresses" (list? Address.ofJson?)⟩) }

end Node

namespace Pod

def toJson (p : Pod) : Json :=
  ofPresent (ObjectKind.pod.toMembers ++ [("metadata", some p.metadata.toJson),
    ("spec", p.spec.map PodSpec.toJson),
    ("status", p.status.map fun s =>
      ofPresent [("hostIP", s.hostIP.map .string), ("phase", s.phase.map .string)])])

def ofJson? : Json → Option Pod :=
  ObjectKind.pod.read? fun j => do
    pure
      { metadata := ← j.part? "metadata" Metadata.ofJson?
        spec := ← j.optional? "spec" PodSpec.ofJson?
        status := ← j.optional? "status" (record? fun j => do
          pure ⟨← j.optional? "phase" string?, ← j.optional? "hostIP" string?⟩) }

end Pod

namespace WorkloadSpec

def toJson (s : WorkloadSpec) : Json :=
  ofPresent [("minReadySeconds", s.minReadySeconds.map .integer),
    ("selector", some (ofPresent [("matchLabels", s.selector.matchLabels.map Labels.toJson)])),
    ("template", some (ofPresent [("metadata", s.template.metadata.map Metadata.toJson),
      ("spec", s.template.spec.map PodSpec.toJson)]))]

def ofJson? : Json → Option WorkloadSpec :=
  record? fun j => do
    pure
      { minReadySeconds := ← j.optional? "minReadySeconds" (signed? 32)
        selector := ← j.part? "selector" (record? fun j => do
          pure ⟨← j.optional? "matchLabels" Labels.ofJson?⟩)
        template := ← j.part? "template" (record? fun j => do
          pure ⟨← j.optional? "metadata" Metadata.ofJson?, ← j.optional? "spec" PodSpec.ofJson?⟩) }

end WorkloadSpec

namespace Workload

def toJson (w : Workload) : Json :=
  ofPresent (ObjectKind.workload.toMembers ++ [("metadata", some w.metadata.toJson),
    ("spec", w.spec.map WorkloadSpec.toJson)])

def ofJson? : Json → Option Workload :=
  ObjectKind.workload.read? fun j => do
    pure
      { metadata := ← j.part? "metadata" Metadata.ofJson?
        spec := ← j.optional? "spec" WorkloadSpec.ofJson? }

end Workload
end NodeCoverage
