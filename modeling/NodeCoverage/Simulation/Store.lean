import NodeCoverage.Cluster.Api
import NodeCoverage.Cluster.Selector
import NodeCoverage.Text.Integer
/-!
# A simulated cluster

The store keeps nodes, pods and workloads, the latter two by name. Creating a workload places a pod
on each node whose taints its pods tolerate. Deleting a workload leaves its pods alone. A deleted
object is gone at once, or some time later, or never, as the rules of the cluster say. Changes from
outside happen at given instants.

The store is brought up to an instant in a fixed order: changes from outside, then objects that are
gone, then pods that begin to run.
-/

namespace NodeCoverage
namespace Simulation

/-- What becomes of an object that is deleted. -/
inductive Linger where
  | gone
  /-- It is being deleted, and gone after a while. -/
  | brief (d : Duration)
  /-- It is being deleted for ever. -/
  | forever
deriving DecidableEq

structure Rules where
  /-- Workloads on one page of a listing. -/
  pageSize : Nat
  /-- Pods are placed for a new workload. -/
  schedules : Bool
  podLinger : Linger
  workloadLinger : Linger
  /-- Time from the creation of a pod until it runs. -/
  readyAfter : Duration
  /-- Names of the nodes on which no pod ever runs. -/
  neverReady : List String

inductive Change where
  | setNodes (nodes : List Node)
  | putPod (pod : Pod)
  | putWorkload (workload : Workload)
  | removePod (name : String)
  | removeWorkload (name : String)
  | setPhase (name phase : String)

structure Stored (α : Type) where
  object : α
  /-- When it will be gone, once it is being deleted. -/
  goneAt : Option Nat := none
  /-- When it will run, if it is a pod that waits for that. -/
  readyAt : Option Nat := none

abbrev Objects (α : Type) := Std.ExtTreeMap String (Stored α)

structure Store where
  rules : Rules
  nodes : List Node
  pods : Objects Pod
  workloads : Objects Workload
  /-- Changes to come, in order. One that comes late holds up those behind it. -/
  changes : List (Nat × Change)
  /-- The workloads that were created, in order. -/
  created : List Workload

namespace Objects

variable {α : Type}

/-- Puts an object in the place of any other of its name. -/
def put (objects : Objects α) (metadata : α → Metadata) (a : α) : Objects α :=
  objects.insert ((metadata a).name.getD "") { object := a }

def ofObjects (metadata : α → Metadata) (as : List α) : Objects α :=
  as.foldl (fun objects a => put objects metadata a) ∅

def list (objects : Objects α) : List α :=
  objects.toList.map fun (_, s) => s.object

/-- The objects that the selector picks, in the order of their names. -/
def select (objects : Objects α) (metadata : α → Metadata) (selector : String) : List α :=
  (list objects).filter fun a => (metadata a).isPicked selector

def modify (objects : Objects α) (name : String) (f : Stored α → Stored α) : Objects α :=
  match objects[name]? with
  | some s => objects.insert name (f s)
  | none => objects

/-- The objects that are not gone at `now`. -/
def present (objects : Objects α) (now : Nat) : Objects α :=
  objects.filter fun _ s => match s.goneAt with
    | some t => now < t
    | none => true

end Objects

namespace Stored

variable {α : Type}

/-- The object is being deleted from `now` on, if it was not before. -/
def markDeleted (metadata : α → Metadata) (setMetadata : α → Metadata → α) (now : Nat)
    (goneAt : Option Nat) (s : Stored α) : Stored α :=
  let m := metadata s.object
  if m.deletionTimestamp.isSome then s
  else
    { s with
      object := setMetadata s.object
        { m with deletionTimestamp := WorldTime.ofSeconds? (Clock.millis now / 1000) }
      goneAt := goneAt }

end Stored

def deleteObject {α : Type} (metadata : α → Metadata) (setMetadata : α → Metadata → α)
    (linger : Linger) (now : Nat) (name : String) (objects : Objects α) : Objects α :=
  match linger with
  | .gone => objects.erase name
  | .brief d =>
    Objects.modify objects name (.markDeleted metadata setMetadata now (some (now + d.nanos)))
  | .forever => Objects.modify objects name (.markDeleted metadata setMetadata now none)

def setPodPhase (phase : String) (p : Pod) : Pod :=
  { p with status := p.status.map fun s => { s with phase := some phase } }

/-- A pod that waits to run no longer waits once the time has come. It runs unless it has left the
phase in which it waited. -/
def startPod (now : Nat) (s : Stored Pod) : Stored Pod :=
  match s.readyAt with
  | some t =>
    if now < t then s
    else if s.object.status.bind PodStatus.phase = some "Pending" then
      { s with object := setPodPhase "Running" s.object, readyAt := none }
    else { s with readyAt := none }
  | none => s

/-- A toleration of the list matches the taint in key and value. -/
def isTolerated (tolerations : List Toleration) (t : Taint) : Bool :=
  tolerations.any fun o => o.key == some t.key && o.value.getD "" == t.value.getD ""

def tolerationsOf (w : Workload) : List Toleration :=
  ((w.spec.bind fun s => s.template.spec).bind PodSpec.tolerations).getD []

def internalAddress? (n : Node) : Option String :=
  (n.addresses.find? fun a => a.kind = "InternalIP").map Address.address

namespace Store

/-- The pod of the workload on the node, which is the one with this index. -/
def podOn (s : Store) (now : Nat) (w : Workload) (index : Nat) (n : Node) : Stored Pod :=
  let never := (n.metadata.name.map s.rules.neverReady.contains).getD false
  let later := never || s.rules.readyAfter.nanos != 0
  { object :=
      { metadata :=
          { name := some (w.metadata.name.getD "" ++ "-" ++ toString index)
            labels := (w.spec.bind fun s => s.template.metadata).bind Metadata.labels }
        spec := some { nodeName := n.metadata.name }
        status := some
          { phase := some (if later then "Pending" else "Running"), hostIP := internalAddress? n } }
    readyAt := if later && !never then some (now + s.rules.readyAfter.nanos) else none }

/-- Places the pods of a workload that was created at `now`. -/
def place (s : Store) (now : Nat) (w : Workload) : Objects Pod :=
  (s.nodes.zipIdx.filter fun (n, _) => n.taints.all (isTolerated (tolerationsOf w))).foldl
    (fun pods (n, index) =>
      let p := s.podOn now w index n
      pods.insert (p.object.metadata.name.getD "") p)
    s.pods

def change (s : Store) : Change → Store
  | .setNodes nodes => { s with nodes := nodes }
  | .putPod p => { s with pods := Objects.put s.pods Pod.metadata p }
  | .putWorkload w => { s with workloads := Objects.put s.workloads Workload.metadata w }
  | .removePod name => { s with pods := s.pods.erase name }
  | .removeWorkload name => { s with workloads := s.workloads.erase name }
  | .setPhase name phase =>
    { s with
      pods := Objects.modify s.pods name fun p => { p with object := setPodPhase phase p.object } }

def upTo (s : Store) (now : Nat) : Store :=
  let (due, changes) := s.changes.span fun (t, _) => t ≤ now
  let s := due.foldl (fun s (_, c) => s.change c) { s with changes := changes }
  { s with
    pods := (Objects.present s.pods now).map fun _ p => startPod now p
    workloads := Objects.present s.workloads now }

/-- The answer to the creation of a workload whose name is held already. -/
def alreadyExists (name : String) : CheckError :=
  .cluster (.api ⟨"Failure", "daemonsets.apps \"" ++ name ++ "\" already exists",
    "AlreadyExists", 409⟩)

def create (s : Store) (now : Nat) (w : Workload) : Except CheckError Unit × Store :=
  let name := w.metadata.name.getD ""
  if s.workloads.contains name then (.error (alreadyExists name), s)
  else
    (.ok (),
      { s with
        workloads := Objects.put s.workloads Workload.metadata w
        pods := if s.rules.schedules then s.place now w else s.pods
        created := s.created ++ [w] })

def deletePod (s : Store) (now : Nat) (name : String) : Store :=
  { s with
    pods := deleteObject Pod.metadata (fun p m => { p with metadata := m }) s.rules.podLinger now
      name s.pods }

def deleteWorkload (s : Store) (now : Nat) (name : String) : Store :=
  { s with
    workloads := deleteObject Workload.metadata (fun w m => { w with metadata := m })
      s.rules.workloadLinger now name s.workloads }

def podNames (s : Store) (selector : String) : List String :=
  (s.pods.toList.filter fun (_, p) => p.object.metadata.isPicked selector).map Prod.fst

/-- The index that a token stands for; a token that is no number stands for the beginning. -/
def firstOfToken (token : String) : Nat :=
  match Text.readInteger 0 (Nat.pow 2 64 - 1) token.toList with
  | .ok i => i.toNat
  | .error _ => 0

/-- One page of the workloads that the selector picks. The token of a page is the index of its
first workload. -/
def page (s : Store) (selector : String) (token : Option String) : Cluster.Page :=
  let all := Objects.select s.workloads Workload.metadata selector
  let first := (token.map firstOfToken).getD 0
  let last := first + s.rules.pageSize
  ⟨(all.drop first).take s.rules.pageSize,
    if last < all.length then some (toString last) else none⟩

def answer (s : Store) (now : Nat) :
    (r : Cluster.Request) → Except CheckError r.Result × Store
  | .listNodes => (.ok s.nodes, s)
  | .listPods selector => (.ok (Objects.select s.pods Pod.metadata selector), s)
  | .listWorkloads selector token => (.ok (s.page selector token), s)
  | .createWorkload w => s.create now w
  | .deleteWorkload name => (.ok (), s.deleteWorkload now name)
  | .deletePods selector =>
    (.ok (), (s.podNames selector).foldl (fun s name => s.deletePod now name) s)
  | .deletePod name => (.ok (), s.deletePod now name)
  | .getPod name => (.ok (s.pods[name]?.map Stored.object), s)
  | .getWorkload name => (.ok (s.workloads[name]?.map Stored.object), s)

end Store
end Simulation
end NodeCoverage
