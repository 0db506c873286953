import NodeCoverage.Proofs.Check.Success
import NodeCoverage.Proofs.Cluster.Call
/-!
# What a success says of the nodes

A look of verification takes a sample of the cluster: a listing of the nodes and one of the pods of
the run. Which nodes are required in a sample depends on the tolerances that were settled at the
beginning. If the nodes were listed then, every node is required that the selector picks and that
has no taint which is never tolerated, and a success says that all of them were covered. But if that
listing failed then nothing is tolerated, so no node with a taint is required, and a success says
nothing of such nodes.
-/

namespace NodeCoverage

open Process (Meets Reaches Yields)

variable {B : Behaviour Cluster}

/-! ### Nodes and tolerances -/

/-- The same labels, taints and addresses; all else may differ. -/
def Node.Resembles (n m : Node) : Prop :=
  n.metadata.labels = m.metadata.labels ∧ n.taints = m.taints ∧ n.addresses = m.addresses

/-- The selector picks the node, and none of its taints is one that is never tolerated. -/
def Config.Expects (config : Config) (n : Node) : Prop :=
  n.isSelected config.nodeSelector = true ∧
    ∀ t ∈ n.taints, ∀ a ∈ config.allowedTaints, a.covers t = false

/-- One of the taints is not excluded, and has the key and the value of this one. -/
def Taint.Readmitted (taints : List Taint) (excluded : List AllowedTaint) (t : Taint) : Prop :=
  ∃ u ∈ taints, (∀ a ∈ excluded, a.covers u = false) ∧
    u.key = t.key ∧ u.value.getD "" = t.value.getD ""

namespace ToleranceSet

variable {taints : List Taint} {excluded : List AllowedTaint} {t : Taint}

theorem tolerates_iff {set : ToleranceSet} :
    set.tolerates t = true ↔ ∃ x ∈ set, x.key = t.key ∧ x.value = t.value.getD "" := by
  simp [tolerates]

theorem tolerates_ofTaints_iff :
    (ofTaints taints excluded).tolerates t = true ↔ t.Readmitted taints excluded := by
  simp only [tolerates_iff, ofTaints, Std.ExtTreeSet.mem_ofList, List.contains_iff_mem,
    List.mem_map, List.mem_filter, Bool.not_eq_true', List.any_eq_false, Taint.Readmitted]
  constructor
  · rintro ⟨_, ⟨u, ⟨hu, hexcluded⟩, rfl⟩, hkey, hvalue⟩
    exact ⟨u, hu, fun a ha => by simpa using hexcluded a ha, hkey, hvalue⟩
  · rintro ⟨u, hu, hexcluded, hkey, hvalue⟩
    exact ⟨.ofTaint u, ⟨u, ⟨hu, fun a ha => by simp [hexcluded a ha]⟩, rfl⟩, hkey, hvalue⟩

/-- A taint that was collected is tolerated, unless it is never tolerated. -/
theorem tolerates_ofTaints (ht : t ∈ taints) (hexcluded : ∀ a ∈ excluded, a.covers t = false) :
    (ofTaints taints excluded).tolerates t = true :=
  tolerates_ofTaints_iff.mpr ⟨t, ht, hexcluded, rfl, rfl⟩

/-- The tolerances that a listing of the nodes settles; none if it failed. -/
def settled (excluded : List AllowedTaint) : Except CheckError (List Node) → ToleranceSet
  | .ok nodes => ofNodes nodes excluded
  | .error _ => ∅

/-- The taints of a node that was listed are tolerated, and so are those of a node without any. -/
theorem toleratesAll_settled {n : Node} {listing : Except CheckError (List Node)}
    (hexcluded : ∀ t ∈ n.taints, ∀ a ∈ excluded, a.covers t = false)
    (hshown : n.taints = [] ∨ ∃ shown, listing = .ok shown ∧ ∃ m ∈ shown, m.Resembles n) :
    (settled excluded listing).toleratesAll n.taints = true := by
  rcases hshown with hnone | ⟨shown, rfl, m, hm, -, htaints, -⟩
  · simp [toleratesAll, hnone]
  · refine List.all_eq_true.mpr fun t ht => tolerates_ofTaints ?_ (hexcluded t ht)
    exact List.mem_flatMap.mpr ⟨m, hm, htaints ▸ ht⟩

end ToleranceSet

/-! ### Samples -/

/-- What a look is shown of the cluster. -/
structure Sample where
  nodes : List Node
  pods : List Pod

namespace Sample

variable {s : Sample} {set : ToleranceSet} {selector : Labels} {n m : Node}

/-- A running pod is on an internal address of the node. -/
def Covers (s : Sample) (n : Node) : Prop :=
  ∃ p ∈ s.pods, ∃ status, p.status = some status ∧ status.phase = some "Running" ∧
    ∃ a ∈ n.addresses, a.kind = "InternalIP" ∧ status.hostIP = some a.address

def missing (s : Sample) (set : ToleranceSet) (selector : Labels) : List String :=
  NodeRecord.missing (NodeRecord.ofCluster s.nodes s.pods set selector)

theorem runningHost?_eq_some_iff {p : Pod} {host : String} :
    p.runningHost? = some host ↔
      ∃ status, p.status = some status ∧ status.phase = some "Running" ∧
        status.hostIP = some host := by
  simp [Pod.runningHost?, Option.bind_eq_some_iff]

theorem covers_iff : s.Covers n ↔ n.isCovered (s.pods.filterMap Pod.runningHost?) = true := by
  simp only [Covers, Node.isCovered, List.any_eq_true, Bool.and_eq_true, beq_iff_eq,
    List.contains_iff_mem, List.mem_filterMap, runningHost?_eq_some_iff]
  constructor
  · rintro ⟨p, hp, status, hs, hphase, a, ha, hkind, hhost⟩
    exact ⟨a, ha, hkind, p, hp, status, hs, hphase, hhost⟩
  · rintro ⟨a, ha, hkind, p, hp, status, hs, hphase, hhost⟩
    exact ⟨p, hp, status, hs, hphase, a, ha, hkind, hhost⟩

theorem Covers.resembling (h : s.Covers m) (hm : m.Resembles n) : s.Covers n := by
  obtain ⟨p, hp, status, hs, hphase, a, ha, hkind, hhost⟩ := h
  exact ⟨p, hp, status, hs, hphase, a, hm.2.2 ▸ ha, hkind, hhost⟩

theorem mem_missing_iff {name : String} : name ∈ s.missing set selector ↔
    ∃ n ∈ s.nodes, n.metadata.name.getD "" = name ∧ n.isSelected selector = true ∧
      set.toleratesAll n.taints = true ∧ ¬ s.Covers n := by
  simp only [missing, NodeRecord.missing, NodeRecord.ofCluster, List.mem_mergeSort, List.mem_map,
    List.mem_filter, covers_iff, Bool.and_eq_true]
  constructor
  · rintro ⟨_, ⟨⟨n, hn, rfl⟩, hschedulable, hcovered⟩, rfl⟩
    obtain ⟨hselected, htolerated⟩ := Bool.and_eq_true_iff.mp hschedulable
    exact ⟨n, hn, rfl, hselected, htolerated, by simpa [Node.record] using hcovered⟩
  · rintro ⟨n, hn, rfl, hselected, htolerated, hcovered⟩
    refine ⟨_, ⟨⟨n, hn, rfl⟩, Bool.and_eq_true_iff.mpr ⟨hselected, htolerated⟩, ?_⟩, rfl⟩
    simpa [Node.record] using hcovered

theorem missing_eq_nil_iff : s.missing set selector = [] ↔
    ∀ n ∈ s.nodes, n.isSelected selector = true → set.toleratesAll n.taints = true →
      s.Covers n := by
  simp only [List.eq_nil_iff_forall_not_mem, mem_missing_iff]
  constructor
  · intro h n hn hselected htolerated
    exact Classical.byContradiction fun hcovered =>
      h _ ⟨n, hn, rfl, hselected, htolerated, hcovered⟩
  · rintro h _ ⟨n, hn, -, hselected, htolerated, hcovered⟩
    exact hcovered (h n hn hselected htolerated)

end Sample

/-! ### A cluster whose nodes stay as they are -/

/-- Whatever happens, as long as `Kept` a listing shows all of these nodes, with their labels,
taints and addresses; and all that happens keeps it. Listings may fail. -/
structure Unchanging (B : Behaviour Cluster) (nodes : List Node)
    (Kept : Nat → B.State → Prop) : Prop where
  passes : ∀ {t t' s}, Kept t s → t ≤ t' → Kept t' s
  start : ∀ {t r s}, Kept t s → Kept t (B.start t r s).2.2
  answer : ∀ {t r k s}, Kept t s → Kept t (B.answer t r k s).2
  listed : ∀ {t k s shown}, Kept t s → (B.answer t .listNodes k s).1 = .ok shown →
    ∀ n ∈ nodes, ∃ m ∈ shown, m.Resembles n

theorem answered_of_yields {I : World B → Prop} {stop : Signal} {policy : Backoff}
    {r : Cluster.Request} {a : r.Result} {w w' : World B}
    (hI : Keeps (S := Cluster) (fun _ => True) (fun _ => True) I)
    (hpasses : ∀ w₁ w₂, I w₁ → w₁.Passes w₂ → I w₂) (hw : I w)
    (h : Yields (Cluster.call stop policy r) w (.ok a) w') :
    ∃ w₁ n k, I w₁ ∧ w₁.answer n r k = (.ok a, w') := by
  have hcall : Meets Lifecycle.passing I (Cluster.call stop policy r) w fun o w' => I w' ∧
      ∀ a, o = .ok a → ∃ w₁ n k, I w₁ ∧ w₁.answer n r k = (o, w') :=
    Cluster.meets_answer Lifecycle.passing_transitive hw (fun _ hw => hI.call trivial hw)
      fun _ _ _ hw => hI.answer trivial hw
  exact (hcall.of_reaches (fun _ w₁ w₂ => hpasses w₁ w₂) (Lifecycle.passing_of_yields h)).2 a rfl

namespace Unchanging

variable {nodes : List Node} {Kept : Nat → B.State → Prop} {w w' : World B} {α : Type} {a : α}
  (h : Unchanging B nodes Kept)
include h

theorem keeps : Keeps (S := Cluster) (fun _ => True) (fun _ => True)
    fun w : World B => Kept w.now w.state where
  call _ hw := h.start hw
  answer _ hw := h.answer hw
  note _ hw := hw

theorem kept_of_passes {w₁ w₂ : World B} (hw : Kept w₁.now w₁.state) (hp : w₁.Passes w₂) :
    Kept w₂.now w₂.state :=
  hp.state_eq ▸ h.passes hw hp.now_le

theorem kept_of_yields {p : Process Cluster α} (hw : Kept w.now w.state) (hy : Yields p w a w') :
    Kept w'.now w'.state :=
  (Meets.of_uses hw h.keeps p.uses_any).of_reaches (E := Lifecycle.passing)
    (fun _ _ _ => h.kept_of_passes) (Lifecycle.passing_of_yields hy)

theorem shown_of_yields {stop : Signal} {policy : Backoff} {shown : List Node}
    (hw : Kept w.now w.state)
    (hy : Yields (Cluster.call stop policy .listNodes) w (.ok shown) w') :
    ∀ n ∈ nodes, ∃ m ∈ shown, m.Resembles n := by
  obtain ⟨w₁, n, k, hw₁, ha⟩ :=
    answered_of_yields h.keeps (fun _ _ => h.kept_of_passes) hw hy
  exact h.listed hw₁ (congrArg Prod.fst ha)

end Unchanging

/-! ### Verification as a series of samples -/

namespace Verification

/-- One look at the cluster: both listings, or the one that failed. -/
inductive Taken (config : Config) (stop : Signal) (workloadName : String) (w : World B) :
    Except CheckError Sample → World B → Prop
  | sample {nodes : List Node} {pods : List Pod} {w₁ w₂ : World B} :
    Yields (Cluster.call stop config.apiBackoff .listNodes) w (.ok nodes) w₁ →
    Yields (Cluster.call stop config.apiBackoff (.listPods (Labels.runSelector workloadName)))
      w₁ (.ok pods) w₂ →
    Taken config stop workloadName w (.ok ⟨nodes, pods⟩) w₂
  | noNodes {e : CheckError} {w₁ : World B} :
    Yields (Cluster.call stop config.apiBackoff .listNodes) w (.error e) w₁ →
    Taken config stop workloadName w (.error e) w₁
  | noPods {nodes : List Node} {e : CheckError} {w₁ w₂ : World B} :
    Yields (Cluster.call stop config.apiBackoff .listNodes) w (.ok nodes) w₁ →
    Yields (Cluster.call stop config.apiBackoff (.listPods (Labels.runSelector workloadName)))
      w₁ (.error e) w₂ →
    Taken config stop workloadName w (.error e) w₂

/-- Samples, each after a pause that was not cut short. -/
inductive Sampled (config : Config) (stop : Signal) (deadline : Nat) (workloadName : String)
    (w : World B) : List (Except CheckError Sample) → World B → Prop
  | none : Sampled config stop deadline workloadName w [] w
  | next {samples : List (Except CheckError Sample)} {sample : Except CheckError Sample}
    {w₁ w₂ w₃ : World B} :
    Sampled config stop deadline workloadName w samples w₁ →
    Yields (Process.pause stop deadline config.pollInterval) w₁ .over w₂ →
    Taken config stop workloadName w₂ sample w₃ →
    Sampled config stop deadline workloadName w (samples ++ [sample]) w₃

/-- From some sample on, each that did not fail shows all of these nodes covered; there are as many
of them as are required, and the last sample is one. -/
def CoveredThroughout (required : Nat) (P : Node → Prop)
    (samples : List (Except CheckError Sample)) : Prop :=
  ∃ early window, samples = early ++ window ∧ required ≤ window.countP Except.isOk ∧
    (∃ s, window.getLast? = some (.ok s)) ∧ ∀ s, .ok s ∈ window → ∀ n, P n → s.Covers n

theorem CoveredThroughout.mono {required : Nat} {P Q : Node → Prop}
    {samples : List (Except CheckError Sample)} (h : CoveredThroughout required P samples)
    (hQ : ∀ n, Q n → P n) : CoveredThroughout required Q samples := by
  obtain ⟨early, window, hsamples, hcount, hlast, hcovers⟩ := h
  exact ⟨early, window, hsamples, hcount, hlast, fun s hs n hn => hcovers s hs n (hQ n hn)⟩

variable {config : Config} {stop : Signal} {deadline : Nat} {set : ToleranceSet}
  {workloadName : String} {w w' : World B}

theorem taken_of_look {seen : Look}
    (h : Yields (look config stop set workloadName) w seen w') :
    ∃ sample, Taken config stop workloadName w sample w' ∧
      seen = sample.map (·.missing set config.nodeSelector) := by
  obtain ⟨nodes, w₁, hnodes, h⟩ := Yields.bind_iff.mp h
  cases nodes with
  | error e =>
    obtain ⟨rfl, rfl⟩ := Yields.pure_iff.mp h
    exact ⟨.error e, .noNodes hnodes, rfl⟩
  | ok nodes =>
    obtain ⟨pods, w₂, hpods, h⟩ := Yields.bind_iff.mp h
    cases pods with
    | error e =>
      obtain ⟨rfl, rfl⟩ := Yields.pure_iff.mp h
      exact ⟨.error e, .noPods hnodes hpods, rfl⟩
    | ok pods =>
      obtain ⟨rfl, rfl⟩ := Yields.pure_iff.mp h
      exact ⟨.ok ⟨nodes, pods⟩, .sample hnodes hpods, rfl⟩

theorem Looked.sampled {looks : List Look}
    (h : Looked config stop deadline set workloadName w looks w') :
    ∃ samples, Sampled config stop deadline workloadName w samples w' ∧
      looks = samples.map fun sample => sample.map (·.missing set config.nodeSelector) := by
  induction h with
  | none => exact ⟨[], .none, rfl⟩
  | next _ hpause hlook ih =>
    obtain ⟨samples, hsampled, rfl⟩ := ih
    obtain ⟨sample, htaken, rfl⟩ := taken_of_look hlook
    exact ⟨samples ++ [sample], hsampled.next hpause htaken, by simp⟩

theorem Sampled.taken {samples : List (Except CheckError Sample)}
    {sample : Except CheckError Sample}
    (h : Sampled config stop deadline workloadName w samples w') (hs : sample ∈ samples) :
    ∃ w₁ w₂ : World B, Taken config stop workloadName w₁ sample w₂ := by
  induction h with
  | none => cases hs
  | next _ _ htaken ih =>
    rcases List.mem_append.mp hs with hs | hs
    · exact ih hs
    · cases List.mem_singleton.mp hs
      exact ⟨_, _, htaken⟩

theorem Sampled.shown {nodes : List Node} {Kept : Nat → B.State → Prop}
    {samples : List (Except CheckError Sample)} (hnodes : Unchanging B nodes Kept)
    (hw : Kept w.now w.state) (h : Sampled config stop deadline workloadName w samples w') :
    Kept w'.now w'.state ∧
      ∀ s, .ok s ∈ samples → ∀ n ∈ nodes, ∃ m ∈ s.nodes, m.Resembles n := by
  induction h with
  | none => exact ⟨hw, nofun⟩
  | next _ hpause htaken ih =>
    obtain ⟨hw₁, hshown⟩ := ih
    have hw₂ := hnodes.kept_of_yields hw₁ hpause
    cases htaken with
    | sample hlisted hpods =>
      have hw₃ := hnodes.kept_of_yields hw₂ hlisted
      refine ⟨hnodes.kept_of_yields hw₃ hpods, fun s hs => ?_⟩
      rcases List.mem_append.mp hs with hs | hs
      · exact hshown s hs
      · cases List.mem_singleton.mp hs
        exact hnodes.shown_of_yields hw₂ hlisted
    | noNodes hlisted =>
      exact ⟨hnodes.kept_of_yields hw₂ hlisted, fun s hs => hshown s (by simpa using hs)⟩
    | noPods hlisted hpods =>
      have hw₃ := hnodes.kept_of_yields hw₂ hlisted
      exact ⟨hnodes.kept_of_yields hw₃ hpods, fun s hs => hshown s (by simpa using hs)⟩

/-- A stable series of looks was made of samples that show the nodes covered, if a look at which no
node is missing says so. -/
theorem coveredThroughout_of_stable {required : Nat} {P : Node → Prop} {selector : Labels}
    {samples : List (Except CheckError Sample)}
    (h : Stable required (samples.map fun sample => sample.map (·.missing set selector)))
    (hcovers : ∀ s, .ok s ∈ samples → s.missing set selector = [] → ∀ n, P n → s.Covers n) :
    CoveredThroughout required P samples := by
  obtain ⟨_, _, heq, hclean, hcount, hlast⟩ := h
  obtain ⟨early, window, rfl, rfl, rfl⟩ := List.map_eq_append_iff.mp heq
  refine ⟨early, window, rfl, Nat.le_trans hcount ?_, ?_, fun s hs => ?_⟩
  · rw [List.countP_map]
    refine List.countP_mono_left fun sample _ hsample => ?_
    cases sample with
    | ok s => rfl
    | error e => cases hsample
  · obtain ⟨sample, hlast, hsample⟩ := Option.map_eq_some_iff.mp (List.getLast?_map ▸ hlast)
    cases sample with
    | ok s => exact ⟨s, hlast⟩
    | error e => cases hsample
  · refine hcovers s (List.mem_append_right _ hs) ?_
    have hseen := hclean _ (List.mem_map_of_mem hs)
    cases hm : s.missing set selector with
    | nil => rfl
    | cons node nodes => simp [Except.map, hm, Look.isUnclean] at hseen

end Verification

/-! ### Runs that report success -/

namespace Worker

variable {a : Assignment} {w w' : World B}

/-- The worker has listed the nodes, swept up, deployed, and taken samples, up to the end of
verification. -/
def Sampled (a : Assignment) (w : World B) (listing : Except CheckError (List Node))
    (samples : List (Except CheckError Sample)) (w' : World B) : Prop :=
  ∃ owner w₁ w₂ w₃ w₄,
    Yields (Worker.owner a) (w.entered .init) owner w₁ ∧
    Yields (Cluster.call .run a.config.apiBackoff .listNodes) w₁ listing w₂ ∧
    Yields (Sweep.untilClear a.config .run
        (min a.deadline (w₂.now + a.config.preCleanupTimeout.nanos)) a.run)
      (w₂.entered .preCleanup) (.ok ()) w₃ ∧
    Yields (Deployment.run .run a.config.apiBackoff ((Blueprint.ofConfig a.config owner).build
        a.run (ToleranceSet.settled a.config.allowedTaints listing)))
      (w₃.entered .deploying) (.ok ()) w₄ ∧
    Verification.Sampled a.config .run a.deadline a.run.workloadName (w₄.entered .verifying)
      samples w'

theorem listing_of_tolerances {set : ToleranceSet} (hset : a.config.tolerationsOverride = none)
    (h : Yields (Worker.tolerances a) w set w') :
    ∃ listing, Yields (Cluster.call .run a.config.apiBackoff .listNodes) w listing w' ∧
      set = ToleranceSet.settled a.config.allowedTaints listing := by
  simp only [tolerances, hset] at h
  obtain ⟨found, w₂, hfound, h⟩ := Yields.bind_iff.mp h
  obtain ⟨listing, w₁, hlisting, hfound⟩ := Yields.bind_iff.mp hfound
  cases listing with
  | error e =>
    obtain ⟨rfl, rfl⟩ := Yields.pure_iff.mp hfound
    obtain ⟨rfl, rfl⟩ := Yields.pure_iff.mp h
    exact ⟨.error e, hlisting, rfl⟩
  | ok nodes =>
    obtain ⟨rfl, rfl⟩ := Yields.pure_iff.mp hfound
    obtain ⟨rfl, rfl⟩ := Yields.pure_iff.mp h
    exact ⟨.ok nodes, hlisting, rfl⟩

/-- A worker that passes has found every node covered that it could know to be required. -/
theorem covered_of_passed {nodes : List Node} {Kept : Nat → B.State → Prop}
    (hnodes : Unchanging B nodes Kept) (hw : Kept w.now w.state)
    (hset : a.config.tolerationsOverride = none) (h : Passed a w w') :
    ∃ listing samples w₁, Sampled a w listing samples w₁ ∧
      Verification.CoveredThroughout a.config.stabilityTicks
        (fun n => n ∈ nodes ∧ a.config.Expects n ∧
          (n.taints = [] ∨ ∃ shown, listing = .ok shown)) samples := by
  obtain ⟨owner, set, w₁, w₂, w₃, w₄, w₅, _, howner, htolerances, hswept, hdeployed,
    ⟨-, looks, hlooked, hstable⟩, -⟩ := h
  obtain ⟨listing, hlisting, rfl⟩ := listing_of_tolerances hset htolerances
  obtain ⟨samples, hsampled, rfl⟩ := hlooked.sampled
  have hw₁ := hnodes.kept_of_yields (w := w.entered .init) hw howner
  have hw₂ := hnodes.kept_of_yields hw₁ hlisting
  have hw₃ := hnodes.kept_of_yields (w := w₂.entered .preCleanup) hw₂ hswept
  have hw₄ := hnodes.kept_of_yields (w := w₃.entered .deploying) hw₃ hdeployed
  have hshown := (hsampled.shown (w := w₄.entered .verifying) hnodes hw₄).2
  refine ⟨listing, samples, w₅,
    ⟨owner, w₁, w₂, w₃, w₄, howner, hlisting, hswept, hdeployed, hsampled⟩,
    Verification.coveredThroughout_of_stable hstable ?_⟩
  rintro s hs hclean n ⟨hn, ⟨hselected, hexcluded⟩, hknown⟩
  -- the node as the sample shows it, and as the first listing did
  obtain ⟨m, hm, hresembles⟩ := hshown s hs n hn
  have htolerated : (ToleranceSet.settled a.config.allowedTaints listing).toleratesAll n.taints =
      true := by
    refine ToleranceSet.toleratesAll_settled hexcluded (hknown.imp_right ?_)
    rintro ⟨shown, rfl⟩
    exact ⟨shown, rfl, hnodes.shown_of_yields hw₁ hlisting n hn⟩
  refine (Sample.missing_eq_nil_iff.mp hclean m hm ?_ ?_).resembling hresembles
  · rw [Node.isSelected, hresembles.1]
    exact hselected
  · rw [hresembles.2.1]
    exact htolerated

end Worker

namespace Lifecycle

/-- If success is reported, then the last samples show every node of an unchanging cluster covered
that the selector picks and that has no taint which is never tolerated, as many samples as the
stability window asks for. Of nodes with taints this holds only if the listing at the beginning did
not fail. -/
theorem covered_of_success {nodes : List Node} {Kept : Nat → B.State → Prop} {rt : Runtime}
    {config : Config} {r : Run} {interrupts : List Nat} {w : World B}
    (hnodes : Unchanging B nodes Kept) (hw : Kept w.now w.state)
    (hset : config.tolerationsOverride = none)
    (h : Reports rt config r interrupts w.reset .success) :
    ∃ listing samples w',
      Worker.Sampled ⟨config, r, w.now + config.runBudget.nanos⟩ w.reset listing samples w' ∧
      Verification.CoveredThroughout config.stabilityTicks
        (fun n => n ∈ nodes ∧ config.Expects n ∧
          (n.taints = [] ∨ ∃ shown, listing = .ok shown)) samples := by
  obtain ⟨fuel, h⟩ := h
  obtain ⟨w', hpassed, -⟩ := passesInTime_of_reported (fun _ => rfl) h
  exact Worker.covered_of_passed (w := w.reset) hnodes hw hset hpassed

end Lifecycle

/-! ### A cluster with a tainted node -/

namespace Coverage

/-- How many listings of the nodes are going to fail, and the workload. -/
structure Site where
  failing : Nat
  workload : Option Workload

def reserved : Node where
  spec := some ⟨some [⟨"dedicated", some "gpu", "NoSchedule", none⟩]⟩
  status := some ⟨some [⟨"InternalIP", "10.0.0.1"⟩]⟩

def refused : CheckError :=
  .cluster (.api ⟨"Failure", "nodes is forbidden", "Forbidden", 403⟩)

/-- The only node has a taint. As long as a workload is there, these are its pods. -/
def site (pods : List Pod) : Behaviour Cluster where
  State := Site
  Ticket := Unit
  start _ _ s := (.zero, (), s)
  answer _ r _ s :=
    match r with
    | .listNodes =>
      if s.failing = 0 then (.ok [reserved], s)
      else (.error refused, { s with failing := s.failing - 1 })
    | .listPods _ => (.ok (if s.workload.isSome then pods else []), s)
    | .listWorkloads _ _ => (.ok ⟨s.workload.toList, none⟩, s)
    | .createWorkload x => (.ok (), { s with workload := some x })
    | .deleteWorkload _ => (.ok (), { s with workload := none })
    | .deletePods _ | .deletePod _ => (.ok (), s)
    | .getPod _ => (.ok none, s)
    | .getWorkload _ => (.ok s.workload, s)

theorem site_unchanging (pods : List Pod) (failing : Nat) :
    Unchanging (site pods) [reserved] fun _ s => s.failing ≤ failing where
  passes h _ := h
  start h := h
  answer {t r k s} h := by
    cases r with
    | listNodes =>
      simp only [site]
      split
      · exact h
      · exact Nat.le_trans (Nat.sub_le ..) h
    | _ => exact h
  listed {t k s shown} _ hlisted := by
    simp only [site] at hlisted
    split at hlisted
    · cases hlisted
      exact fun n hn => ⟨n, hn, rfl, rfl, rfl⟩
    · cases hlisted

theorem site_lists {pods : List Pod} {stop : Signal} {policy : Backoff}
    {listing : Except CheckError (List Node)} {w w' : World (site pods)}
    (hw : w.state.failing ≤ 0 ∧ w.fired stop = false)
    (h : Yields (Cluster.call stop policy .listNodes) w listing w') :
    ∃ shown, listing = .ok shown := by
  have hcall : Meets .alone (fun w : World (site pods) =>
      w.state.failing ≤ 0 ∧ w.fired stop = false) (Cluster.call stop policy .listNodes) w
      fun o _ => ∃ shown, o = .ok shown := by
    apply Cluster.meets_call Surroundings.alone_transitive hw
    · intro w hw
      exact hw
    · intro w₀ w₁ _ _ hw₁
      have hanswer (n : Nat) : (w₁.answer n .listNodes ()).1 = .ok [reserved] := by
        simp only [World.answer, site, Nat.le_zero.mp hw₁.1, if_true]
        rfl
      refine ⟨⟨_, hanswer _⟩, fun e he => ?_⟩
      cases (hanswer _).symm.trans he
    · intro w hw hstopped
      rw [hw.2] at hstopped
      cases hstopped
  refine hcall.of_reaches ?_ h
  rintro t w₁ _ hw rfl
  exact hw

def probe : Run :=
  ⟨"daemonset", "probe", 1⟩

def placed : Pod where
  status := some ⟨some "Running", some "10.0.0.1"⟩

theorem expects_reserved : Config.standard.Expects reserved :=
  ⟨by decide +kernel, fun _ _ => nofun⟩

theorem not_covers_of_taken {config : Config} {stop : Signal} {name : String} {s : Sample}
    {n : Node} {w w' : World (site [])}
    (h : Verification.Taken config stop name w (.ok s) w') : ¬ s.Covers n := by
  cases h with
  | sample _ hpods =>
    have keeps : Keeps (S := Cluster) (fun _ => True) (fun _ => True)
        fun _ : World (site []) => True :=
      ⟨fun _ _ => trivial, fun _ _ => trivial, fun _ _ => trivial⟩
    obtain ⟨w₁, _, _, -, hanswer⟩ := answered_of_yields keeps (fun _ _ _ _ => trivial) trivial hpods
    rintro ⟨p, hp, -⟩
    have hnone := congrArg Prod.fst hanswer
    simp only [World.answer, site, ite_self] at hnone
    cases hnone
    cases hp

end Coverage

namespace Lifecycle

/-- The theorem for a node with a taint that the pod of the workload tolerates: it is covered. -/
theorem covered_of_success_reserved : ∃ w : World (Coverage.site [Coverage.placed]),
    Unchanging (Coverage.site [Coverage.placed]) [Coverage.reserved]
        (fun _ s => s.failing ≤ 0) ∧ w.state.failing ≤ 0 ∧
      Config.standard.tolerationsOverride = none ∧
      Reports .simulated .standard Coverage.probe [] w.reset .success ∧
      ∃ listing samples w', Worker.Sampled
          ⟨.standard, Coverage.probe, w.now + Config.standard.runBudget.nanos⟩ w.reset listing
          samples w' ∧
        Verification.CoveredThroughout Config.standard.stabilityTicks (· = Coverage.reserved)
          samples := by
  have hsite := Coverage.site_unchanging [Coverage.placed] 0
  have hreports : Reports .simulated .standard Coverage.probe []
      (World.initial (B := Coverage.site [Coverage.placed]) ⟨0, none⟩).reset .success :=
    ⟨400, by decide +kernel⟩
  obtain ⟨listing, samples, w', hsampled, hcovered⟩ :=
    covered_of_success hsite (Nat.le_refl 0) rfl hreports
  have hshown : ∃ shown, listing = .ok shown := by
    obtain ⟨_, w₁, _, _, _, howner, hlisting, -⟩ := hsampled
    refine Coverage.site_lists ⟨hsite.kept_of_yields (Nat.le_refl 0) howner, ?_⟩ hlisting
    exact howner.fired_eq _
  refine ⟨.initial ⟨0, none⟩, hsite, Nat.le_refl 0, rfl, hreports, listing, samples, w', hsampled,
    hcovered.mono ?_⟩
  rintro n rfl
  exact ⟨List.mem_singleton.mpr rfl, Coverage.expects_reserved, .inr hshown⟩

/-- If the first listing of the nodes fails, success is reported although nothing runs on a node
with a taint. -/
theorem not_always_covered_of_success : ¬ ∀ (B : Behaviour Cluster) (nodes : List Node)
    (Kept : Nat → B.State → Prop) (rt : Runtime) (config : Config) (r : Run)
    (interrupts : List Nat) (w : World B), Unchanging B nodes Kept → Kept w.now w.state →
    config.tolerationsOverride = none → Reports rt config r interrupts w.reset .success →
    ∃ listing samples w',
      Worker.Sampled ⟨config, r, w.now + config.runBudget.nanos⟩ w.reset listing samples w' ∧
      Verification.CoveredThroughout config.stabilityTicks
        (fun n => n ∈ nodes ∧ config.Expects n) samples := by
  intro h
  obtain ⟨_, samples, _, ⟨_, _, _, _, _, -, -, -, -, hsampled⟩, _, window, rfl, -, ⟨s, hlast⟩,
    hcovers⟩ := h (Coverage.site []) _ _ .simulated .standard Coverage.probe [] (.initial ⟨1, none⟩)
      (Coverage.site_unchanging [] 1) (Nat.le_refl 1) rfl ⟨400, by decide +kernel⟩
  have hs : .ok s ∈ window := List.mem_of_getLast? hlast
  obtain ⟨_, _, htaken⟩ := hsampled.taken (List.mem_append_right _ hs)
  exact Coverage.not_covers_of_taken htaken
    (hcovers s hs _ ⟨List.mem_singleton.mpr rfl, Coverage.expects_reserved⟩)

end Lifecycle
end NodeCoverage
