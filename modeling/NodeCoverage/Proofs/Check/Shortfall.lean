import Mathlib.Data.List.Sort
import NodeCoverage.Proofs.Check.Coverage
/-!
# Which nodes are missing

What is missing in a look at the cluster are the names of the nodes that have all labels of the
selector, whose taints are all tolerated, and on none of whose internal addresses a pod runs. They
are in order, and every node counts. In which order the nodes are listed does not matter, nor in
which order or how often the pods are. One more pod can only take names away, and one more
tolerance can only add some.
-/

namespace NodeCoverage

/-! ### Nodes -/

namespace Node

variable {n : Node} {selector : Labels}

def Carries (n : Node) (selector : Labels) : Prop :=
  ∀ key value : String, selector[key]? = some value →
    ∃ labels : Labels, n.metadata.labels = some labels ∧ labels[key]? = some value

theorem isSelected_iff_carries : n.isSelected selector = true ↔ n.Carries selector := by
  simp only [isSelected, List.all_eq_true, beq_iff_eq, Option.bind_eq_some_iff, Carries,
    Prod.forall, Std.ExtTreeMap.mem_toList_iff_getElem?_eq_some]

instance : Decidable (n.Carries selector) :=
  decidable_of_iff _ isSelected_iff_carries

theorem mem_taints_iff {t : Taint} : t ∈ n.taints ↔
    ∃ spec listed, n.spec = some spec ∧ spec.taints = some listed ∧ t ∈ listed := by
  obtain ⟨_, _ | ⟨_ | listed⟩, _⟩ := n <;> simp [taints]

theorem mem_addresses_iff {a : Address} : a ∈ n.addresses ↔
    ∃ status listed, n.status = some status ∧ status.addresses = some listed ∧ a ∈ listed := by
  obtain ⟨_, _, _ | ⟨_ | listed⟩⟩ := n <;> simp [addresses]

def nameOrEmpty (n : Node) : String :=
  n.metadata.name.getD ""

end Node

namespace Sample

variable {s : Sample} {set : ToleranceSet} {selector : Labels} {n : Node}

/-- The node should have a running pod and has none. What is not stated of a node is empty: it then
has no labels, no taints or no addresses. -/
structure Lacks (s : Sample) (set : ToleranceSet) (selector : Labels) (n : Node) : Prop where
  carries : n.Carries selector
  tolerated : ∀ spec taints, n.spec = some spec → spec.taints = some taints → ∀ t ∈ taints,
    ∃ x ∈ set, x.key = t.key ∧ x.value = t.value.getD ""
  uncovered : ¬ ∃ status addresses, n.status = some status ∧ status.addresses = some addresses ∧
    ∃ a ∈ addresses, a.kind = "InternalIP" ∧ ∃ p ∈ s.pods, ∃ running, p.status = some running ∧
      running.phase = some "Running" ∧ running.hostIP = some a.address

theorem lacks_iff : s.Lacks set selector n ↔
    n.isSelected selector = true ∧ set.toleratesAll n.taints = true ∧ ¬ s.Covers n := by
  have htolerated : set.toleratesAll n.taints = true ↔ ∀ spec taints, n.spec = some spec →
      spec.taints = some taints → ∀ t ∈ taints,
        ∃ x ∈ set, x.key = t.key ∧ x.value = t.value.getD "" := by
    simp only [ToleranceSet.toleratesAll, List.all_eq_true, ToleranceSet.tolerates_iff,
      Node.mem_taints_iff]
    constructor
    · exact fun h spec taints hspec htaints t ht => h t ⟨spec, taints, hspec, htaints, ht⟩
    · rintro h t ⟨spec, taints, hspec, htaints, ht⟩
      exact h spec taints hspec htaints t ht
  have hcovers : s.Covers n ↔ ∃ status addresses, n.status = some status ∧
      status.addresses = some addresses ∧ ∃ a ∈ addresses, a.kind = "InternalIP" ∧ ∃ p ∈ s.pods,
        ∃ running, p.status = some running ∧ running.phase = some "Running" ∧
          running.hostIP = some a.address := by
    simp only [Covers, Node.mem_addresses_iff]
    constructor
    · rintro ⟨p, hp, running, hr, hphase, a, ⟨status, addresses, hs, hlisted, ha⟩, hkind, hhost⟩
      exact ⟨status, addresses, hs, hlisted, a, ha, hkind, p, hp, running, hr, hphase, hhost⟩
    · rintro ⟨status, addresses, hs, hlisted, a, ha, hkind, p, hp, running, hr, hphase, hhost⟩
      exact ⟨p, hp, running, hr, hphase, a, ⟨status, addresses, hs, hlisted, ha⟩, hkind, hhost⟩
  rw [Node.isSelected_iff_carries, htolerated, hcovers]
  constructor
  · exact fun h => ⟨h.carries, h.tolerated, h.uncovered⟩
  · rintro ⟨hcarries, htaints, huncovered⟩
    exact ⟨hcarries, htaints, huncovered⟩

instance : Decidable (s.Covers n) :=
  decidable_of_iff _ covers_iff.symm

instance : DecidablePred (s.Lacks set selector) :=
  fun _ => decidable_of_iff _ lacks_iff.symm

/-! ### Their names -/

/-- The names in order of those nodes that lack a pod. -/
theorem missing_eq_mergeSort (s : Sample) (set : ToleranceSet) (selector : Labels) :
    s.missing set selector =
      ((s.nodes.filter (s.Lacks set selector ·)).map Node.nameOrEmpty).mergeSort
        fun a b => decide (a ≤ b) := by
  have hlacks : ∀ n ∈ s.nodes,
      ((fun r => r.schedulable && !r.covered) ∘
        (Node.record · (s.pods.filterMap Pod.runningHost?) set selector)) n =
          decide (s.Lacks set selector n) := by
    intro n _
    rw [Bool.eq_iff_iff, decide_eq_true_iff, lacks_iff, covers_iff]
    simp [Node.record, and_assoc]
  simp only [missing, NodeRecord.missing, NodeRecord.ofCluster, List.filter_map, List.map_map]
  rw [List.filter_congr hlacks]
  rfl

theorem pairwise_missing : (s.missing set selector).Pairwise fun a b => a ≤ b := by
  have htrans (a b c : String) (hab : decide (a ≤ b) = true) (hbc : decide (b ≤ c) = true) :
      decide (a ≤ c) = true := by
    rw [decide_eq_true_iff] at *
    exact String.le_trans hab hbc
  have htotal (a b : String) : (decide (a ≤ b) || decide (b ≤ a)) = true := by
    simpa using String.le_total a b
  have hsorted := List.pairwise_mergeSort htrans htotal
    ((s.nodes.filter (s.Lacks set selector ·)).map Node.nameOrEmpty)
  rw [missing_eq_mergeSort]
  simpa using hsorted

theorem missing_perm : (s.missing set selector).Perm
    ((s.nodes.filter (s.Lacks set selector ·)).map Node.nameOrEmpty) := by
  rw [missing_eq_mergeSort]
  exact List.mergeSort_perm ..

theorem missing_of_nodes_perm (s s' : Sample) (hnodes : s'.nodes.Perm s.nodes)
    (h : ∀ n, s'.Lacks set selector n ↔ s.Lacks set selector n) :
    s'.missing set selector = s.missing set selector := by
  have hperm : (s'.missing set selector).Perm (s.missing set selector) := by
    refine missing_perm.trans (.trans ?_ missing_perm.symm)
    simp only [h]
    exact (hnodes.filter _).map Node.nameOrEmpty
  exact hperm.eq_of_pairwise' pairwise_missing pairwise_missing

/-- If every node that lacks a pod in one sample does so in another one too, then all names that are
missing there are missing here, and at least as often. -/
theorem missing_sublist (s s' : Sample) {set' : ToleranceSet} (hnodes : s'.nodes = s.nodes)
    (h : ∀ n, s.Lacks set selector n → s'.Lacks set' selector n) :
    (s.missing set selector).Sublist (s'.missing set' selector) := by
  have hfilter : (s.nodes.filter (s.Lacks set selector ·)).Sublist
      (s'.nodes.filter (s'.Lacks set' selector ·)) := by
    rw [hnodes]
    exact List.monotone_filter_right _ fun n hn => by simpa using h n (by simpa using hn)
  have hsubperm : (s.missing set selector).Subperm (s'.missing set' selector) :=
    (missing_perm.subperm.trans (hfilter.map Node.nameOrEmpty).subperm).trans
      missing_perm.symm.subperm
  exact List.sublist_of_subperm_of_pairwise hsubperm pairwise_missing pairwise_missing

theorem Lacks.of_pods {s' : Sample} (h : s.Lacks set selector n) (hpods : s'.pods ⊆ s.pods) :
    s'.Lacks set selector n where
  carries := h.carries
  tolerated := h.tolerated
  uncovered := by
    rintro ⟨status, addresses, hs, hlisted, a, ha, hkind, p, hp, hrunning⟩
    exact h.uncovered ⟨status, addresses, hs, hlisted, a, ha, hkind, p, hpods hp, hrunning⟩

end Sample

namespace ToleranceSet

variable {set : ToleranceSet} {x : Tolerance}

theorem tolerates_insert {t : Taint} (h : set.tolerates t = true) :
    tolerates (set.insert x) t = true := by
  obtain ⟨y, hy, hkey, hvalue⟩ := tolerates_iff.mp h
  exact tolerates_iff.mpr ⟨y, Std.ExtTreeSet.mem_insert.mpr (.inr hy), hkey, hvalue⟩

/-- One more tolerance never makes taints that are tolerated into taints that are not. -/
theorem toleratesAll_insert {taints : List Taint} (h : set.toleratesAll taints = true) :
    toleratesAll (set.insert x) taints = true :=
  List.all_eq_true.mpr fun t ht => tolerates_insert (List.all_eq_true.mp h t ht)

end ToleranceSet

theorem Sample.Lacks.insert {s : Sample} {set : ToleranceSet} {selector : Labels} {n : Node}
    (h : s.Lacks set selector n) (x : Tolerance) : s.Lacks (set.insert x) selector n := by
  obtain ⟨hselected, htolerated, hcovered⟩ := Sample.lacks_iff.mp h
  exact Sample.lacks_iff.mpr ⟨hselected, ToleranceSet.toleratesAll_insert htolerated, hcovered⟩

/-- What is missing are, in order and with repetitions, the names of exactly the nodes that should
have a running pod and have none. Neither the order of the nodes matters nor the order of the pods
or how often they are listed. One more pod only takes names away, and one more tolerance only adds
some, because taints that are tolerated stay so. -/
theorem missing_names_exactly (nodes : List Node) (pods : List Pod) (set : ToleranceSet)
    (selector : Labels) :
    let missing (nodes : List Node) (pods : List Pod) (set : ToleranceSet) :=
      NodeRecord.missing (NodeRecord.ofCluster nodes pods set selector)
    ((missing nodes pods set).Pairwise fun a b => a ≤ b) ∧
      (missing nodes pods set).Perm
        ((nodes.filter ((Sample.mk nodes pods).Lacks set selector ·)).map Node.nameOrEmpty) ∧
      (∀ nodes' : List Node, nodes'.Perm nodes →
        missing nodes' pods set = missing nodes pods set) ∧
      (∀ pods' : List Pod, (∀ p, p ∈ pods' ↔ p ∈ pods) →
        missing nodes pods' set = missing nodes pods set) ∧
      (∀ p, (missing nodes (p :: pods) set).Sublist (missing nodes pods set)) ∧
      (∀ x, (missing nodes pods set).Sublist (missing nodes pods (set.insert x))) ∧
      ∀ x taints, set.toleratesAll taints = true →
        ToleranceSet.toleratesAll (set.insert x) taints = true := by
  intro missing
  let s : Sample := ⟨nodes, pods⟩
  refine ⟨Sample.pairwise_missing (s := s), Sample.missing_perm (s := s), fun nodes' hnodes => ?_,
    fun pods' hpods => ?_, fun p => ?_, fun x => ?_,
    fun x taints => ToleranceSet.toleratesAll_insert⟩
  · refine Sample.missing_of_nodes_perm s ⟨nodes', pods⟩ hnodes fun n => ?_
    exact ⟨(·.of_pods (List.Subset.refl pods)), (·.of_pods (List.Subset.refl pods))⟩
  · refine Sample.missing_of_nodes_perm s ⟨nodes, pods'⟩ (.refl _) fun n => ?_
    exact ⟨(·.of_pods fun p => (hpods p).mpr), (·.of_pods fun p => (hpods p).mp)⟩
  · exact Sample.missing_sublist ⟨nodes, p :: pods⟩ s rfl
      fun n h => h.of_pods (List.subset_cons_self ..)
  · exact Sample.missing_sublist s s rfl fun n h => h.insert x

/-! ### Nodes of all kinds -/

namespace Shortfall

def bare (name : String) : Node where
  metadata := { name := some name }

def reserved : Node where
  metadata := { name := some "gpu" }
  spec := some ⟨some [⟨"dedicated", some "gpu", "NoSchedule", none⟩]⟩

def addressed : Node where
  metadata := { name := some "a" }
  status := some ⟨some [⟨"Hostname", "a"⟩, ⟨"InternalIP", "10.0.0.1"⟩]⟩

def running : Pod where
  status := some ⟨some "Running", some "10.0.0.1"⟩

end Shortfall

open Shortfall in
/-- The theorem for two nodes of one name, one that is covered and one whose taint is not tolerated:
the first two are missing, in every order of the nodes and with every repetition of the pod. -/
theorem missing_names_exactly_mixed :
    let missing (nodes : List Node) (pods : List Pod) (set : ToleranceSet) :=
      NodeRecord.missing (NodeRecord.ofCluster nodes pods set ∅)
    let nodes := [bare "b", addressed, reserved, bare "b"]
    let gpu : Tolerance := ⟨"dedicated", "gpu", "NoExecute"⟩
    nodes.reverse.Perm nodes ∧ missing nodes.reverse [running] ∅ = missing nodes [running] ∅ ∧
      (∀ p, p ∈ [running, running] ↔ p ∈ [running]) ∧
      missing nodes [running, running] ∅ = missing nodes [running] ∅ ∧
      ToleranceSet.toleratesAll ∅ (bare "b").taints = true ∧
      ToleranceSet.toleratesAll (Std.ExtTreeSet.insert ∅ gpu) (bare "b").taints = true ∧
      missing nodes [running] ∅ = ["b", "b"] := by
  intro missing nodes gpu
  obtain ⟨-, hnames, hnodes, hpods, -, -, htolerated⟩ := missing_names_exactly nodes [running] ∅ ∅
  have hrepeated : ∀ p, p ∈ [running, running] ↔ p ∈ [running] := by simp
  have htwice : missing nodes [running] ∅ = List.replicate 2 "b" := by
    refine List.perm_replicate.mp (hnames.trans (.of_eq ?_))
    decide +kernel
  have hbare : ToleranceSet.toleratesAll ∅ (bare "b").taints = true := by decide
  exact ⟨List.reverse_perm nodes, hnodes _ (List.reverse_perm nodes), hrepeated,
    hpods _ hrepeated, hbare, htolerated gpu _ hbare, htwice⟩

end NodeCoverage
