import NodeCoverage.Proofs.Check.Coverage
/-!
# Nodes with taints that are never tolerated

A taint that is excluded gives rise to no tolerance. But tolerances are matched by key and value,
and the taints of all nodes make one set of them: if any of the nodes has a taint of the same key
and value and of an effect that is not excluded, then its tolerance is matched by the excluded
taint as well. A node with an excluded taint is left out where no such taint was listed, and only
there.
-/

namespace NodeCoverage

/-- The node has an excluded taint which no taint of the nodes readmits. -/
def Node.Barred (nodes : List Node) (excluded : List AllowedTaint) (n : Node) : Prop :=
  ∃ t ∈ n.taints, (∃ a ∈ excluded, a.covers t = true) ∧
    ¬ t.Readmitted (nodes.flatMap Node.taints) excluded

namespace ToleranceSet

variable {excluded : List AllowedTaint} {nodes : List Node} {n : Node}

/-- The taints of a node that was listed are tolerated unless the node is barred: a taint that is
not excluded readmits itself. -/
theorem toleratesAll_ofNodes_iff (hn : n ∈ nodes) :
    (ofNodes nodes excluded).toleratesAll n.taints = true ↔ ¬ n.Barred nodes excluded := by
  simp only [toleratesAll, List.all_eq_true, ofNodes, tolerates_ofTaints_iff, Node.Barred]
  constructor
  · rintro h ⟨t, ht, -, hbarred⟩
    exact hbarred (h t ht)
  · intro h t ht
    by_cases hexcluded : ∃ a ∈ excluded, a.covers t = true
    · exact Classical.byContradiction fun hbarred => h ⟨t, ht, hexcluded, hbarred⟩
    · have hlisted : t ∈ nodes.flatMap Node.taints := List.mem_flatMap.mpr ⟨n, hn, ht⟩
      exact ⟨t, hlisted, fun a ha => by simpa using fun hc => hexcluded ⟨a, ha, hc⟩, rfl, rfl⟩

end ToleranceSet

/-- With the tolerances that these very nodes give rise to, a node is required if and only if the
selector picks it and it is not barred; so a barred node is never missing. -/
theorem required_iff_not_barred (nodes : List Node) (pods : List Pod)
    (excluded : List AllowedTaint) (selector : Labels) :
    (∀ n ∈ nodes, ∀ hosts,
      (n.record hosts (.ofNodes nodes excluded) selector).schedulable = true ↔
        n.isSelected selector = true ∧ ¬ n.Barred nodes excluded) ∧
    ∀ name, name ∈ (Sample.mk nodes pods).missing (.ofNodes nodes excluded) selector ↔
      ∃ n ∈ nodes, n.metadata.name.getD "" = name ∧ n.isSelected selector = true ∧
        ¬ n.Barred nodes excluded ∧ ¬ (Sample.mk nodes pods).Covers n := by
  constructor
  · intro n hn hosts
    rw [Node.record, Bool.and_eq_true, ToleranceSet.toleratesAll_ofNodes_iff hn]
  · intro name
    rw [Sample.mem_missing_iff]
    constructor
    · rintro ⟨n, hn, hname, hselected, htolerated, hcovered⟩
      exact ⟨n, hn, hname, hselected, (ToleranceSet.toleratesAll_ofNodes_iff hn).mp htolerated,
        hcovered⟩
    · rintro ⟨n, hn, hname, hselected, hbarred, hcovered⟩
      exact ⟨n, hn, hname, hselected, (ToleranceSet.toleratesAll_ofNodes_iff hn).mpr hbarred,
        hcovered⟩

namespace Exclusion

def node (name : String) (taints : List Taint) : Node where
  metadata := { name := some name }
  spec := some ⟨some taints⟩

def cordoned : Taint :=
  ⟨"node.kubernetes.io/unschedulable", none, "NoSchedule", none⟩

def gpu (effect : String) : Taint :=
  ⟨"dedicated", some "gpu", effect, none⟩

end Exclusion

open Exclusion in
/-- The theorem for a node that is cordoned, among others that are not: it is not required. -/
theorem required_iff_not_barred_cordoned :
    let nodes := [node "a" [cordoned], node "b" [gpu "NoSchedule"]]
    let excluded := [⟨cordoned.key, cordoned.effect⟩]
    (node "a" [cordoned]).Barred nodes excluded ∧
      ((node "a" [cordoned]).record [] (.ofNodes nodes excluded) ∅).schedulable = false ∧
      ((node "b" [gpu "NoSchedule"]).record [] (.ofNodes nodes excluded) ∅).schedulable = true := by
  intro nodes excluded
  have hbarred : (node "a" [cordoned]).Barred nodes excluded := by
    refine ⟨cordoned, List.mem_singleton_self _, ⟨_, List.mem_singleton_self _, by decide⟩, ?_⟩
    rintro ⟨u, hu, hexcluded, hkey, -⟩
    have hu : u = cordoned ∨ u = gpu "NoSchedule" := by simpa [nodes, node, Node.taints] using hu
    rcases hu with rfl | rfl
    · exact absurd (hexcluded _ (List.mem_singleton_self _)) (by decide)
    · exact absurd hkey (by decide)
  have hrequired := (required_iff_not_barred nodes [] excluded ∅).1
  refine ⟨hbarred, ?_, ?_⟩
  · rw [← Bool.not_eq_true, hrequired _ (List.mem_cons_self ..)]
    exact fun h => h.2 hbarred
  · refine (hrequired _ (List.mem_cons_of_mem _ (List.mem_singleton_self _)) []).mpr ⟨rfl, ?_⟩
    rintro ⟨t, ht, ⟨a, ha, hcovers⟩, -⟩
    cases List.mem_singleton.mp ht
    cases List.mem_singleton.mp ha
    exact absurd hcovers (by decide)

open Exclusion in
/-- A node is required, and missing, although it has an excluded taint: another taint of it, of the
same key and value, has another effect. -/
theorem not_always_excluded : ¬ ∀ (nodes : List Node) (pods : List Pod)
    (excluded : List AllowedTaint) (selector : Labels), ∀ n ∈ nodes,
    (∃ t ∈ n.taints, ∃ a ∈ excluded, a.covers t = true) →
    (∀ hosts, (n.record hosts (.ofNodes nodes excluded) selector).schedulable = false) ∧
      n.metadata.name.getD "" ∉
        (Sample.mk nodes pods).missing (.ofNodes nodes excluded) selector := by
  intro h
  have h := (h [node "a" [gpu "NoSchedule", gpu "NoExecute"]] [] [⟨"dedicated", "NoSchedule"⟩] ∅ _
    (List.mem_singleton_self _)
    ⟨_, List.mem_cons_self .., _, List.mem_singleton_self _, by decide⟩).1 []
  exact absurd h (by decide +kernel)

end NodeCoverage
