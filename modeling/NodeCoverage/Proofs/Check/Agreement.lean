import NodeCoverage.Check.Blueprint
import NodeCoverage.Check.Discovery
import NodeCoverage.Proofs.Check.Exclusion
import NodeCoverage.Proofs.Check.Shortfall
import NodeCoverage.Proofs.Process.Finishes
/-!
# Discovery, the pods and the looks agree

The tolerances of a run reach the cluster as tolerations of the pods, where the scheduler matches
them with the taints, and they decide in the looks which nodes are required. The two readings are
not the same: the scheduler heeds the effect of a taint, a look does not. But on the nodes that the
tolerances were found on, the pods tolerate every taint, and a look requires every node that the
selector picks. The tolerances, and the whole workload made from them, tell neither in which order
nor how often a node or a taint was listed.
-/

namespace NodeCoverage

/-! ### Tolerations of the pods -/

namespace Toleration

/-- The scheduler's rule for equality. An absent value is empty, and an absent effect stands for all
effects. -/
structure Matches (x : Toleration) (t : Taint) : Prop where
  operator : x.operator = some "Equal"
  key : x.key = some t.key
  value : x.value.getD "" = t.value.getD ""
  effect : ∀ effect, x.effect = some effect → effect = t.effect

end Toleration

namespace Tolerance

theorem matches_iff {x : Tolerance} {t : Taint} : x.toToleration.Matches t ↔
    x.key = t.key ∧ x.value = t.value.getD "" ∧ (x.effect = "" ∨ x.effect = t.effect) := by
  have hvalue : x.toToleration.value.getD "" = x.value := by
    by_cases h : x.value = "" <;> simp [toToleration, h]
  have heffect : (∀ effect, x.toToleration.effect = some effect → effect = t.effect) ↔
      x.effect = "" ∨ x.effect = t.effect := by
    by_cases h : x.effect = "" <;> simp [toToleration, h]
  constructor
  · rintro ⟨-, hkey, hv, he⟩
    exact ⟨Option.some.inj hkey, hvalue ▸ hv, heffect.mp he⟩
  · rintro ⟨hkey, hv, he⟩
    exact ⟨rfl, congrArg some hkey, hvalue.trans hv, heffect.mpr he⟩

theorem ofTaint_matches (t : Taint) : (ofTaint t).toToleration.Matches t :=
  matches_iff.mpr ⟨rfl, rfl, .inr rfl⟩

end Tolerance

def Workload.tolerations (w : Workload) : List Toleration :=
  (w.spec.bind fun s => s.template.spec.bind PodSpec.tolerations).getD []

namespace ToleranceSet

variable {set : ToleranceSet} {nodes nodes' : List Node} {t : Taint}

theorem mem_tolerations_iff {x : Toleration} :
    x ∈ set.tolerations ↔ ∃ y ∈ set, y.toToleration = x := by
  simp [tolerations]

theorem exists_matches_iff : (∃ x ∈ set.tolerations, x.Matches t) ↔
    ∃ y ∈ set, y.key = t.key ∧ y.value = t.value.getD "" ∧
      (y.effect = "" ∨ y.effect = t.effect) := by
  simp only [mem_tolerations_iff, ← Tolerance.matches_iff]
  constructor
  · rintro ⟨_, ⟨y, hy, rfl⟩, hmatches⟩
    exact ⟨y, hy, hmatches⟩
  · rintro ⟨y, hy, hmatches⟩
    exact ⟨_, ⟨y, hy, rfl⟩, hmatches⟩

/-- A look tolerates what the pods tolerate, and more: the effect does not matter to it. -/
theorem tolerates_of_matches (h : ∃ x ∈ set.tolerations, x.Matches t) :
    set.tolerates t = true := by
  obtain ⟨y, hy, hkey, hvalue, -⟩ := exists_matches_iff.mp h
  exact tolerates_iff.mpr ⟨y, hy, hkey, hvalue⟩

theorem tolerations_build (b : Blueprint) (r : Run) :
    (b.build r set).tolerations = set.tolerations := by
  have hempty : set.isEmpty = true → set.tolerations = [] := by
    rintro h
    rw [tolerations, Std.ExtTreeSet.isEmpty_iff.mp h]
    rfl
  by_cases h : set.isEmpty = true <;>
    simp [Workload.tolerations, Blueprint.build, Blueprint.podSpec, h, hempty]

/-! ### What is discovered -/

theorem mem_ofNodes_iff {x : Tolerance} :
    x ∈ ofNodes nodes [] ↔ ∃ n ∈ nodes, ∃ t ∈ n.taints, x = ⟨t.key, t.value.getD "", t.effect⟩ := by
  simp only [ofNodes, ofTaints, List.any_nil, Bool.not_false, List.filter_true,
    Std.ExtTreeSet.mem_ofList, List.contains_iff_mem, List.mem_map, List.mem_flatMap]
  constructor
  · rintro ⟨t, ⟨n, hn, ht⟩, rfl⟩
    exact ⟨n, hn, t, ht, rfl⟩
  · rintro ⟨n, hn, t, ht, rfl⟩
    exact ⟨t, ⟨n, hn, ht⟩, rfl⟩

theorem ofNodes_matches {n : Node} (hn : n ∈ nodes) (ht : t ∈ n.taints) :
    ∃ x ∈ (ofNodes nodes []).tolerations, x.Matches t := by
  have hmem : Tolerance.ofTaint t ∈ ofNodes nodes [] := mem_ofNodes_iff.mpr ⟨n, hn, t, ht, rfl⟩
  exact ⟨_, mem_tolerations_iff.mpr ⟨_, hmem, rfl⟩, Tolerance.ofTaint_matches t⟩

theorem toleratesAll_ofNodes {n : Node} (hn : n ∈ nodes) :
    (ofNodes nodes []).toleratesAll n.taints = true :=
  List.all_eq_true.mpr fun _ ht => tolerates_of_matches (ofNodes_matches hn ht)

theorem map_schedulable_ofNodes (nodes : List Node) (pods : List Pod) (selector : Labels) :
    (NodeRecord.ofCluster nodes pods (ofNodes nodes []) selector).map NodeRecord.schedulable =
      nodes.map fun n => decide (n.Carries selector) := by
  simp only [NodeRecord.ofCluster, List.map_map]
  refine List.map_congr_left fun n hn => ?_
  rw [Bool.eq_iff_iff, decide_eq_true_iff, ← Node.isSelected_iff_carries]
  simp [Node.record, toleratesAll_ofNodes hn]

/-- The nodes have the same taints, whatever their order and however often they are listed. -/
def SameTaints (nodes nodes' : List Node) : Prop :=
  ∀ t, (∃ n ∈ nodes, t ∈ n.taints) ↔ ∃ n ∈ nodes', t ∈ n.taints

theorem SameTaints.ofNodes_eq (h : SameTaints nodes nodes') :
    ofNodes nodes [] = ofNodes nodes' [] := by
  have hmem (nodes : List Node) (x : Tolerance) :
      x ∈ ofNodes nodes [] ↔ ∃ t, (∃ n ∈ nodes, t ∈ n.taints) ∧ x = Tolerance.ofTaint t := by
    rw [mem_ofNodes_iff]
    constructor
    · rintro ⟨n, hn, t, ht, rfl⟩
      exact ⟨t, ⟨n, hn, ht⟩, rfl⟩
    · rintro ⟨t, ⟨n, hn, ht⟩, rfl⟩
      exact ⟨n, hn, t, ht, rfl⟩
  refine Std.ExtTreeSet.ext_mem fun x => ?_
  simp only [hmem, h _]

theorem finishes_discover_iff {B : Behaviour Cluster} {E : Surroundings B} {stop : Signal}
    {policy : Backoff} {excluded : List AllowedTaint} {w w' : World B}
    {found : Except CheckError ToleranceSet} :
    Process.Finishes E (discover stop policy excluded) w found w' ↔
      ∃ listing, Process.Finishes E (Cluster.call stop policy .listNodes) w listing w' ∧
        found = listing.map (ofNodes · excluded) := by
  rw [discover, Process.Finishes.bind_iff]
  constructor
  · rintro ⟨e | nodes, w₁, hcall, h⟩
    all_goals
      obtain ⟨rfl, rfl⟩ := Process.Finishes.pure_iff.mp h
      exact ⟨_, hcall, rfl⟩
  · rintro ⟨e | nodes, hcall, rfl⟩
    all_goals exact ⟨_, _, hcall, Process.Finishes.pure_iff.mpr ⟨rfl, rfl⟩⟩

end ToleranceSet

/-- Discovery gives, unless the listing of the nodes failed, exactly the keys, values and effects of
the taints of all nodes. The pods of the workload made for them tolerate every taint of every node,
and of these nodes a look requires exactly those that the selector picks. If the nodes or their
taints are listed in another order, or some of them again, then neither the tolerances change, nor
the tolerations, nor anything else about the workload. -/
theorem discovered_tolerances_agree {B : Behaviour Cluster} (E : Surroundings B) (stop : Signal)
    (policy : Backoff) (w w' : World B) (found : Except CheckError ToleranceSet) :
    (Process.Finishes E (ToleranceSet.discover stop policy []) w found w' ↔
      ∃ listing, Process.Finishes E (Cluster.call stop policy .listNodes) w listing w' ∧
        found = listing.map (ToleranceSet.ofNodes · [])) ∧
    ∀ nodes : List Node,
      (∀ x, x ∈ ToleranceSet.ofNodes nodes [] ↔
        ∃ n ∈ nodes, ∃ t ∈ n.taints, x = ⟨t.key, t.value.getD "", t.effect⟩) ∧
      (∀ (b : Blueprint) (r : Run), ∀ n ∈ nodes, ∀ t ∈ n.taints,
        ∃ x ∈ (b.build r (.ofNodes nodes [])).tolerations, x.Matches t) ∧
      (∀ (pods : List Pod) (selector : Labels),
        (NodeRecord.ofCluster nodes pods (.ofNodes nodes []) selector).map
          NodeRecord.schedulable = nodes.map fun n => decide (n.Carries selector)) ∧
      ∀ nodes', ToleranceSet.SameTaints nodes nodes' →
        ToleranceSet.ofNodes nodes [] = ToleranceSet.ofNodes nodes' [] ∧
        (ToleranceSet.ofNodes nodes []).tolerations = (ToleranceSet.ofNodes nodes' []).tolerations ∧
        ∀ (b : Blueprint) (r : Run),
          b.build r (.ofNodes nodes []) = b.build r (.ofNodes nodes' []) := by
  refine ⟨ToleranceSet.finishes_discover_iff, fun nodes => ⟨fun x => ToleranceSet.mem_ofNodes_iff,
    fun b r n hn t ht => ?_, ToleranceSet.map_schedulable_ofNodes nodes, fun nodes' h => ?_⟩⟩
  · rw [ToleranceSet.tolerations_build]
    exact ToleranceSet.ofNodes_matches hn ht
  · have heq := h.ofNodes_eq
    exact ⟨heq, congrArg _ heq, fun b r => congrArg _ heq⟩

namespace Agreement

/-- A taint whose effect is not stated is one for all effects. -/
def unstated : Taint :=
  ⟨"dedicated", none, "", none⟩

def nodes : List Node :=
  [Exclusion.node "a" [Exclusion.cordoned, unstated],
    Exclusion.node "b" [Exclusion.gpu "NoExecute"]]

def relisted : List Node :=
  [Exclusion.node "b" [Exclusion.gpu "NoExecute", unstated, Exclusion.gpu "NoExecute"],
    Exclusion.node "a" [unstated, Exclusion.cordoned]]

end Agreement

open Agreement in
/-- The theorem for two nodes that are listed again in another order, and for a discovery on another
one that ends. The pods tolerate a taint whose effect is not stated, too. -/
theorem discovered_tolerances_agree_relisted :
    (∃ w', Process.Finishes .alone (ToleranceSet.discover .run Config.standard.apiBackoff [])
      (.initial ⟨0, none⟩ : World (Coverage.site [])) (.ok (.ofNodes [Coverage.reserved] [])) w') ∧
    ToleranceSet.SameTaints nodes relisted ∧
    ⟨"dedicated", "", ""⟩ ∈ ToleranceSet.ofNodes nodes [] ∧
    (∀ (b : Blueprint) (r : Run),
      (∃ x ∈ (b.build r (.ofNodes nodes [])).tolerations, x.Matches unstated) ∧
        b.build r (.ofNodes nodes []) = b.build r (.ofNodes relisted [])) ∧
    (NodeRecord.ofCluster nodes [] (.ofNodes nodes []) ∅).map NodeRecord.schedulable =
      [true, true] := by
  have hlisting : Process.Finishes .alone
      (Cluster.call .run Config.standard.apiBackoff .listNodes)
      (.initial ⟨0, none⟩ : World (Coverage.site [])) (.ok [Coverage.reserved]) _ :=
    Process.Yields.of_endsWith 200 20 (by decide +kernel)
  obtain ⟨hdiscover, hnodes⟩ := discovered_tolerances_agree .alone .run Config.standard.apiBackoff
    (.initial ⟨0, none⟩ : World (Coverage.site [])) _ (.ok (.ofNodes [Coverage.reserved] []))
  obtain ⟨hmem, hmatches, hrequired, hagain⟩ := hnodes nodes
  have hnode : Exclusion.node "a" [Exclusion.cordoned, unstated] ∈ nodes := List.mem_cons_self ..
  have htaint : unstated ∈ (Exclusion.node "a" [Exclusion.cordoned, unstated]).taints :=
    List.mem_cons_of_mem _ (List.mem_singleton_self _)
  have hsame : ToleranceSet.SameTaints nodes relisted := by
    intro t
    simp [nodes, relisted, Exclusion.node, Node.taints, or_comm, or_left_comm, or_assoc]
  refine ⟨⟨_, hdiscover.mpr ⟨_, hlisting, rfl⟩⟩, hsame,
    (hmem _).mpr ⟨_, hnode, _, htaint, rfl⟩,
    fun b r => ⟨hmatches b r _ hnode _ htaint, (hagain relisted hsame).2.2 b r⟩, ?_⟩
  exact hrequired [] ∅

end NodeCoverage
