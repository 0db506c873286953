import NodeCoverage.Check.Labels
import NodeCoverage.Cluster.Selector
/-!
# What the selectors pick

The selector of a run picks exactly what carries its three labels, as long as the name of its
workload has no comma. Labels are values without one.
-/

namespace NodeCoverage

namespace Selector

theorem termHolds_iff {labels : Labels} {key value : String} (h : '=' ∉ key.toList) :
    termHolds labels (key.toList ++ '=' :: value.toList) = true ↔ labels[key]? = some value := by
  simp [termHolds, Text.cutAtFirst_append h]

end Selector

namespace Labels

/-- The labels say that the object belongs to the check. -/
def OfCheck (labels : Labels) : Prop :=
  labels[sourceKey]? = some sourceValue ∧ labels[checkKey]? = some checkValue

theorem picks_systemSelector {labels : Labels} :
    Selector.picks systemSelector labels = true ↔ labels.OfCheck := by
  have hsource : ',' ∉ sourceKey.toList ++ '=' :: sourceValue.toList := by
    simp [sourceKey, sourceValue]
  have hcheck : ',' ∉ checkKey.toList ++ '=' :: checkValue.toList := by
    simp [checkKey, checkValue]
  have hlist : systemSelector.toList = (sourceKey.toList ++ '=' :: sourceValue.toList) ++ ',' ::
      (checkKey.toList ++ '=' :: checkValue.toList) := by
    simp [systemSelector]
  rw [Selector.picks, hlist, Text.pieces_append hsource, Text.pieces_of_not_mem hcheck]
  simp only [List.all_cons, List.all_nil, Bool.and_eq_true, and_true, OfCheck]
  rw [Selector.termHolds_iff (by simp [sourceKey]), Selector.termHolds_iff (by simp [checkKey])]

theorem picks_runSelector {workloadName : String} {labels : Labels}
    (h : ',' ∉ workloadName.toList) :
    Selector.picks (runSelector workloadName) labels = true ↔
      labels[appKey]? = some workloadName ∧ labels.OfCheck := by
  have happ : ',' ∉ appKey.toList ++ '=' :: workloadName.toList := by
    simpa [appKey] using h
  have hsource : ',' ∉ sourceKey.toList ++ '=' :: sourceValue.toList := by
    simp [sourceKey, sourceValue]
  have hcheck : ',' ∉ checkKey.toList ++ '=' :: checkValue.toList := by
    simp [checkKey, checkValue]
  have hlist : (runSelector workloadName).toList =
      (appKey.toList ++ '=' :: workloadName.toList) ++ ',' ::
        ((sourceKey.toList ++ '=' :: sourceValue.toList) ++ ',' ::
          (checkKey.toList ++ '=' :: checkValue.toList)) := by
    simp [runSelector, systemSelector]
  rw [Selector.picks, hlist, Text.pieces_append happ, Text.pieces_append hsource,
    Text.pieces_of_not_mem hcheck]
  simp only [List.all_cons, List.all_nil, Bool.and_eq_true, and_true, OfCheck]
  rw [Selector.termHolds_iff (by simp [appKey]), Selector.termHolds_iff (by simp [sourceKey]),
    Selector.termHolds_iff (by simp [checkKey])]

theorem getElem?_ofRun {r : Run} {key value : String}
    (h : (key, value) ∈ [(appKey, r.workloadName), (sourceKey, sourceValue),
      (checkKey, checkValue), (instanceKey, r.host), (runTimeKey, toString r.timestamp)]) :
    (ofRun r)[key]? = some value := by
  refine Std.ExtTreeMap.getElem?_ofList_of_mem Std.ReflCmp.compare_self ?_ h
  simp [appKey, sourceKey, checkKey, instanceKey, runTimeKey]

end Labels
end NodeCoverage
