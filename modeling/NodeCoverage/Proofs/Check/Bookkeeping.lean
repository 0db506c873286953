import NodeCoverage.Check.Blueprint
import NodeCoverage.Check.Deployment
import NodeCoverage.Proofs.Check.Sparing
/-!
# What labels carry from run to run

A run writes its labels on the workload, on its pods and into the selector that ties them together.
Later runs read them back: a sweep learns from them who created an object, and when, whatever the
name of the run and however early or late it began; the selector of the check picks them, and that
of a single run picks them only for this run. A deployment takes the workload for its own by the
same labels.
-/

namespace NodeCoverage

variable {m : Metadata} {r : Run}

theorem Metadata.ofRun_of_labels (h : m.labels = some (Labels.ofRun r)) : m.OfRun r := by
  intro key value hkey
  rw [h]
  exact hkey

/-- The selector of a workload picks the objects of the run if and only if it is the workload of the
run. -/
theorem Metadata.OfRun.isPicked_runSelector_iff {workloadName : String} (h : m.OfRun r)
    (hcomma : ',' ∉ workloadName.toList) :
    m.isPicked (Labels.runSelector workloadName) = true ↔ workloadName = r.workloadName := by
  constructor
  · exact fun hpicked => (h.workloadName_eq_of_isPicked hcomma hpicked).symm
  · rintro rfl
    have happ := h _ _ (Labels.getElem?_ofRun (r := r) (List.mem_cons_self ..))
    exact (Labels.picks_runSelector hcomma).mpr
      ⟨happ, h _ _ (Labels.getElem?_ofRun (by simp)), h _ _ (Labels.getElem?_ofRun (by simp))⟩

namespace Deployment

theorem adoption_eq_ok_iff {w existing : Workload} {conflict : CheckError} :
    adoption w conflict (some existing) = .ok () ↔
      existing.metadata.labels = w.metadata.labels := by
  simp only [adoption]
  split <;> simp [*]

end Deployment

namespace Blueprint

/-- The labels of the run are those of its workload, of the pods and of the selector between them.
Whatever has these labels is stale for a run that began later, and else belongs to the host; it is
picked by the selector of the check, and by that of a workload exactly if this is the workload of
the run. What holds the name of the workload is adopted exactly if it has these labels. -/
theorem bookkeeping_consistent (b : Blueprint) (r : Run) (set : ToleranceSet) (hhost : r.host ≠ "")
    (hl : -(Nat.pow 2 63 : Nat) ≤ r.timestamp) (hu : r.timestamp < (Nat.pow 2 63 : Nat)) :
    (b.build r set).metadata.labels = some (Labels.ofRun r) ∧
      ((b.build r set).spec.bind fun s => s.selector.matchLabels) = some (Labels.ofRun r) ∧
      ((b.build r set).spec.bind fun s => s.template.metadata.bind Metadata.labels) =
        some (Labels.ofRun r) ∧
      (∀ m : Metadata, m.labels = some (Labels.ofRun r) →
        (∀ current, Triage.ofMetadata m current =
          if r.timestamp < current then .orphan (.stale r.timestamp) else .checkOwner r.host) ∧
        m.isPicked Labels.systemSelector = true ∧
        ∀ name : String, ',' ∉ name.toList →
          (m.isPicked (Labels.runSelector name) = true ↔ name = r.workloadName)) ∧
      ∀ conflict existing, Deployment.adoption (b.build r set) conflict (some existing) = .ok () ↔
        existing.metadata.labels = some (Labels.ofRun r) := by
  refine ⟨rfl, rfl, rfl, fun m hm => ?_, fun conflict existing => Deployment.adoption_eq_ok_iff⟩
  have hm : m.OfRun r := Metadata.ofRun_of_labels hm
  exact ⟨fun current => hm.triage_eq hhost hl hu, hm.isPicked, fun name hname =>
    hm.isPicked_runSelector_iff hname⟩

/-- The theorem for the earliest run that there can be, which is stale for a run at the second zero
and not of the workload of the run after it. -/
theorem bookkeeping_consistent_earliest :
    let r : Run := ⟨"daemonset", "probe-0", -9223372036854775808⟩
    let w := Blueprint.build {} r ∅
    r.host ≠ "" ∧ -(Nat.pow 2 63 : Nat) ≤ r.timestamp ∧ r.timestamp < (Nat.pow 2 63 : Nat) ∧
      Triage.ofMetadata w.metadata 0 = .orphan (.stale (-9223372036854775808)) ∧
      w.metadata.isPicked (Labels.runSelector "daemonset-probe-0--9223372036854775808") = true ∧
      ¬ w.metadata.isPicked (Labels.runSelector "daemonset-probe-0--9223372036854775807") =
        true := by
  intro r w
  have hhost : r.host ≠ "" := by decide
  have hl : -(Nat.pow 2 63 : Nat) ≤ r.timestamp := by decide
  have hu : r.timestamp < (Nat.pow 2 63 : Nat) := by decide
  have hname : r.workloadName = "daemonset-probe-0--9223372036854775808" := by decide +kernel
  obtain ⟨hlabels, -, -, hread, -⟩ := bookkeeping_consistent {} r ∅ hhost hl hu
  obtain ⟨htriage, -, hpicked⟩ := hread w.metadata hlabels
  refine ⟨hhost, hl, hu, htriage 0, (hpicked _ (by decide)).mpr hname.symm, ?_⟩
  rw [hpicked _ (by decide), hname]
  decide

end Blueprint
end NodeCoverage
