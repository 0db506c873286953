import NodeCoverage.Proofs.Check.Footprint
import NodeCoverage.Proofs.Check.Labels
import NodeCoverage.Proofs.Text.Integer
/-!
# What a run does not delete

A run deletes by name and by labels. Sweeps take an object for an orphan only by its labels and by
what a lookup of its owner gave, so what has the labels of a run whose process exists, and which
began no earlier, is not an orphan; teardown deletes what belongs to another name. All of this is a
contract of the worker and of its sweeps, whatever else happens in the cluster.
-/

namespace NodeCoverage

open Cluster (Request)

/-- The object has the labels of the run. -/
def Metadata.OfRun (m : Metadata) (r : Run) : Prop :=
  ∀ key value : String, (Labels.ofRun r)[key]? = some value → (m.labels.getD ∅)[key]? = some value

/-- The request is to delete this object of the kind. -/
def Cluster.Request.Deletes (kind : Sweepable) (m : Metadata) : Request → Prop
  | .deleteWorkload name => kind = .workload ∧ m.name = some name
  | .deletePod name => kind = .pod ∧ m.name = some name
  | .deletePods selector => kind = .pod ∧ m.isPicked selector = true
  | _ => False

/-- The objects of the kind that an answer shows. -/
def Sweepable.shown (kind : Sweepable) : (r : Request) → Except CheckError r.Result → List Metadata
  | .listWorkloads _ _, .ok page =>
    if kind = .workload then page.items.map Workload.metadata else []
  | .listPods _, .ok pods => if kind = .pod then pods.map Pod.metadata else []
  | _, _ => []

/-- The answer is that the pod does not exist. -/
def Cluster.Request.Misses (host : String) : (r : Request) → Except CheckError r.Result → Prop
  | .getPod name, .ok none => name = host
  | _, _ => False

/-! ### Orphans -/

namespace Metadata.OfRun

variable {m : Metadata} {r : Run}

theorem label?_eq {key value : String} (h : m.OfRun r)
    (hkey : (Labels.ofRun r)[key]? = some value) (hvalue : value ≠ "") :
    m.label? key = some value := by
  have hm : (m.labels.getD ∅)[key]? = some value := h key value hkey
  cases hl : m.labels with
  | none => simp [hl] at hm
  | some labels =>
    simp only [hl, Option.getD_some] at hm
    simp [Metadata.label?, hl, hm, Option.filter, hvalue]

theorem runTime_eq (h : m.OfRun r) (hl : -(Nat.pow 2 63 : Nat) ≤ r.timestamp)
    (hu : r.timestamp < (Nat.pow 2 63 : Nat)) :
    m.label? Labels.runTimeKey = some (toString r.timestamp) ∧
      Text.readInt64 (toString r.timestamp) = .ok r.timestamp := by
  have hread : Text.readInt64 (toString r.timestamp) = .ok r.timestamp :=
    Text.readInt64_toString hl hu
  have hne : toString r.timestamp ≠ "" := by
    intro he
    rw [he] at hread
    cases hread
  exact ⟨h.label?_eq (Labels.getElem?_ofRun (by simp)) hne, hread⟩

/-- The labels of a run that has a host are current unless the run began earlier. -/
theorem triage_eq (h : m.OfRun r) (hhost : r.host ≠ "") (hl : -(Nat.pow 2 63 : Nat) ≤ r.timestamp)
    (hu : r.timestamp < (Nat.pow 2 63 : Nat)) {current : Int} :
    Triage.ofMetadata m current =
      if r.timestamp < current then .orphan (.stale r.timestamp) else .checkOwner r.host := by
  have howner : m.label? Labels.instanceKey = some r.host :=
    h.label?_eq (Labels.getElem?_ofRun (by simp)) hhost
  obtain ⟨htext, hread⟩ := h.runTime_eq hl hu
  simp only [Triage.ofMetadata, howner, htext, hread]

theorem isPicked (h : m.OfRun r) : m.isPicked Labels.systemSelector = true :=
  Labels.picks_systemSelector.mpr
    ⟨h _ _ (Labels.getElem?_ofRun (by simp)), h _ _ (Labels.getElem?_ofRun (by simp))⟩

/-- The selector of a run does not pick the objects of one with another workload. -/
theorem workloadName_eq_of_isPicked {workloadName : String} (h : m.OfRun r)
    (hcomma : ',' ∉ workloadName.toList)
    (hpicked : m.isPicked (Labels.runSelector workloadName) = true) :
    r.workloadName = workloadName := by
  have happ := h _ _ (Labels.getElem?_ofRun (r := r) (List.mem_cons_self ..))
  have hpicked := ((Labels.picks_runSelector hcomma).mp hpicked).1
  exact Option.some_inj.mp (happ.symm.trans hpicked)

end Metadata.OfRun

/-! ### Sweeps -/

/-- The object is not deleted, as long as the process of its run is found whenever it is looked up
and nothing else is shown under its name. -/
def sparing (r : Run) (kind : Sweepable) (m : Metadata) : Contract Cluster where
  calls request := ¬ request.Deletes kind m
  notes _ := True
  faults _ := True
  told request answer := ¬ request.Misses r.host answer ∧
    ∀ x ∈ kind.shown request answer, x.name = m.name → x.OfRun r

namespace Sweep

/-- It was not found that the process does not exist. -/
def Alive (host : String) (h : HalfSweep) : Prop :=
  h.owners.lookup host ≠ some false

theorem Alive.empty {host : String} : Alive host .empty := by
  simp [Alive, HalfSweep.empty]

theorem Alive.learn {host owner : String} {h : HalfSweep} {alive : Bool} (hh : Alive host h)
    (ha : owner = host → alive = true) : Alive host (h.learn owner alive) := by
  simp only [Alive, HalfSweep.learn, List.lookup_cons]
  split
  · next he => simp [ha (eq_of_beq he).symm]
  · exact hh

/-- What is known of the run in question: its process has a name, it began no earlier than this
one, and its time is a number of 64 bits. -/
structure Newer (a r : Run) : Prop where
  host_ne : r.host ≠ ""
  lower : -(Nat.pow 2 63 : Nat) ≤ r.timestamp
  upper : r.timestamp < (Nat.pow 2 63 : Nat)
  timestamp_le : a.timestamp ≤ r.timestamp

variable {config : Config} {stop : Signal} {a r : Run} {kind : Sweepable} {m : Metadata}
  {h : HalfSweep}

theorem ownerAlive_complies {owner : String} (hh : Alive r.host h) :
    (ownerAlive config stop owner h).Complies (sparing r kind m) fun o =>
      ∀ alive h', o = .ok (alive, h') → Alive r.host h' ∧ (owner = r.host → alive = true) := by
  unfold ownerAlive
  split
  · next alive halive =>
    rintro _ _ ⟨⟩
    refine ⟨hh, fun ho => ?_⟩
    subst ho
    cases alive with
    | true => rfl
    | false => exact absurd halive hh
  · have hget : (sparing r kind m).calls (.getPod owner) := id
    apply (Cluster.complies_call hget fun _ _ => trivial).seq
    intro found hfound
    cases found with
    | error e =>
      intro alive h' he
      cases he
    | ok pod =>
      rintro _ _ ⟨⟩
      have htold := hfound.resolve_left nofun
      have hpod : owner = r.host → pod.isSome = true := by
        intro ho
        cases pod with
        | none => exact absurd ho htold.1
        | some => rfl
      exact ⟨hh.learn hpod, hpod⟩

theorem classify_complies (hr : Newer a r) {x : Metadata} (hh : Alive r.host h) :
    (classify config stop a x h).Complies (sparing r kind m) fun o =>
      ∀ reason h', o = .ok (reason, h') → Alive r.host h' ∧ (x.OfRun r → reason = none) := by
  unfold classify
  cases ht : Triage.ofMetadata x a.timestamp with
  | orphan reason =>
    rintro _ _ ⟨⟩
    refine ⟨hh, fun hx => ?_⟩
    rw [hx.triage_eq hr.host_ne hr.lower hr.upper, if_neg (Int.not_lt.mpr hr.timestamp_le)] at ht
    cases ht
  | checkOwner owner =>
    dsimp only
    split
    · rintro _ _ ⟨⟩
      exact ⟨hh, fun _ => rfl⟩
    · apply (ownerAlive_complies hh).seq
      intro found hfound
      rcases found with e | ⟨_ | _, h'⟩
      · exact fun _ _ he => by cases he
      · rintro _ _ ⟨⟩
        obtain ⟨hh', halive⟩ := hfound _ _ rfl
        refine ⟨hh', fun hx => ?_⟩
        rw [hx.triage_eq hr.host_ne hr.lower hr.upper,
          if_neg (Int.not_lt.mpr hr.timestamp_le)] at ht
        cases ht
        cases halive rfl
      · rintro _ _ ⟨⟩
        exact ⟨(hfound _ _ rfl).1, fun _ => rfl⟩

theorem remove_complies {kind' : Sweepable} {name : String} {reason : OrphanReason}
    (hname : kind' = kind → m.name ≠ some name) (hh : Alive r.host h) :
    (remove config stop kind' name reason h).Complies (sparing r kind m) fun o =>
      ∀ h', o = .ok h' → Alive r.host h' := by
  refine .bind ⟨trivial, ?_⟩
  have hdelete : (kind'.delete stop config.apiBackoff name).Complies (sparing r kind m)
      fun _ => True := by
    cases kind' with
    | workload =>
      have hcall : (sparing r kind m).calls (.deleteWorkload name) := fun hd =>
        hname hd.1.symm hd.2
      exact (Cluster.complies_call hcall fun _ _ => trivial).mono fun _ _ => trivial
    | pod =>
      have hcall : (sparing r kind m).calls (.deletePod name) := fun hd => hname hd.1.symm hd.2
      exact (Cluster.complies_call hcall fun _ _ => trivial).mono fun _ _ => trivial
  apply hdelete.seq
  intro deleted _
  cases deleted with
  | ok =>
    rintro _ ⟨⟩
    exact hh
  | error e =>
    dsimp only
    split
    · exact fun _ he => by cases he
    · rintro _ ⟨⟩
      exact hh

/-- An object that has the name of the one in question has the labels of the run. -/
def Fine (r : Run) (kind kind' : Sweepable) (m x : Metadata) : Prop :=
  kind' = kind → x.name = m.name → x.OfRun r

theorem visit_complies (hr : Newer a r) {kind' : Sweepable} {x : Metadata}
    (hx : Fine r kind kind' m x) (hh : Alive r.host h) :
    (visit config stop a kind' x h).Complies (sparing r kind m) fun o =>
      ∀ h', o = .ok h' → Alive r.host h' := by
  unfold visit
  split
  · rintro _ ⟨⟩
    exact hh
  · next name hname =>
    split
    · rintro _ ⟨⟩
      exact hh
    · apply (classify_complies hr hh).seq
      intro found hfound
      rcases found with e | ⟨_ | reason, h'⟩
      · exact fun _ he => by cases he
      · rintro _ ⟨⟩
        exact (hfound _ _ rfl).1
      · obtain ⟨hh', horphan⟩ := hfound _ _ rfl
        refine remove_complies (fun hk hm => ?_) hh'
        cases horphan (hx hk (hname.trans hm.symm))

theorem visitAll_complies (hr : Newer a r) {kind' : Sweepable} {xs : List Metadata}
    (hxs : ∀ x ∈ xs, Fine r kind kind' m x) (hh : Alive r.host h) :
    (visitAll config stop a kind' xs h).Complies (sparing r kind m) fun o =>
      ∀ h', o = .ok h' → Alive r.host h' := by
  induction xs generalizing h with
  | nil =>
    rintro _ ⟨⟩
    exact hh
  | cons x xs ih =>
    apply (visit_complies hr (hxs x (by simp)) hh).seq
    intro visited hvisited
    cases visited with
    | error e => exact fun _ he => by cases he
    | ok h' => exact ih (fun x hx => hxs x (by simp [hx])) (hvisited h' rfl)

theorem workloads_complies (hr : Newer a r) :
    (workloads config stop a).Complies (sparing r kind m) fun _ => True := by
  apply Process.Complies.iterate (fun s => Alive r.host s.2) .empty
  intro ⟨token, h⟩ hh
  have hlist : (sparing r kind m).calls (.listWorkloads Labels.systemSelector token) := id
  apply (Cluster.complies_call hlist fun _ _ => trivial).seq
  intro listing hlisting
  cases listing with
  | error e => exact trivial
  | ok page =>
    have hfine : ∀ x ∈ page.items.map Workload.metadata, Fine r kind .workload m x := by
      rintro x hx rfl
      exact (hlisting.resolve_left nofun).2 x (by simpa [Sweepable.shown] using hx)
    apply (visitAll_complies hr hfine hh).seq
    intro visited hvisited
    cases visited with
    | error e => exact trivial
    | ok h' =>
      dsimp only
      split
      · exact hvisited h' rfl
      · exact trivial

theorem pods_complies (hr : Newer a r) :
    (pods config stop a).Complies (sparing r kind m) fun _ => True := by
  have hlist : (sparing r kind m).calls (.listPods Labels.systemSelector) := id
  apply (Cluster.complies_call hlist fun _ _ => trivial).seq
  intro listing hlisting
  cases listing with
  | error e => exact trivial
  | ok pods =>
    have hfine : ∀ x ∈ pods.map Pod.metadata, Fine r kind .pod m x := by
      rintro x hx rfl
      exact (hlisting.resolve_left nofun).2 x (by simpa [Sweepable.shown] using hx)
    apply (visitAll_complies hr hfine .empty).seq
    intro visited _
    cases visited <;> exact trivial

theorem once_complies (hr : Newer a r) :
    (once config stop a).Complies (sparing r kind m) fun _ => True :=
  .bind ⟨_, _, workloads_complies hr, pods_complies hr, fun _ _ _ _ => trivial⟩

theorem untilClear_complies (hr : Newer a r) {deadline : Nat} :
    (untilClear config stop deadline a).Complies (sparing r kind m) fun _ => True := by
  apply Process.Complies.iterate (fun _ => True) trivial
  intro found _
  apply (once_complies hr).seq
  intro result _
  split
  · exact trivial
  · have hpause : Process.Uses (S := Cluster) (sparing r kind m).calls (sparing r kind m).notes
        (fun _ => False) (Process.pause stop deadline config.removalPollInterval) := pause_uses
    apply (hpause.complies nofun).seq
    intro paused _
    cases paused <;> exact trivial

end Sweep

/-! ### Runs -/

/-- The object belongs to the run: it has its labels, and as a workload its name too. -/
def Metadata.BelongsTo (m : Metadata) (r : Run) (kind : Sweepable) : Prop :=
  m.OfRun r ∧ (kind = .workload → m.name = some r.workloadName)

namespace Worker

variable {a : Assignment} {r : Run} {kind : Sweepable} {m : Metadata}

theorem complies_of_uses {α : Type} {p : Process Cluster α} {calls : Request → Prop}
    {notes : Cluster.Entry → Prop} {faults : Fault → Prop} (hp : p.Uses calls notes faults)
    (hcalls : ∀ request, calls request → ¬ request.Deletes kind m) :
    p.Complies (sparing r kind m) fun _ => True :=
  Process.Uses.complies (hp.mono hcalls fun _ _ => trivial) fun _ _ => trivial

/-- Teardown deletes by the name and the selector of another workload. -/
theorem teardown_complies (hm : m.BelongsTo r kind) (hname : a.run.workloadName ≠ r.workloadName)
    (hcomma : ',' ∉ a.run.workloadName.toList) :
    (teardown a).Complies (sparing r kind m) fun _ => True := by
  refine complies_of_uses teardown_uses fun request hr hd => ?_
  cases request with
  | deleteWorkload name =>
    cases hr
    obtain ⟨hk, hd⟩ := hd
    exact hname (Option.some_inj.mp (hd.symm.trans (hm.2 hk)))
  | deletePods selector =>
    cases hr
    exact hname (hm.1.workloadName_eq_of_isPicked hcomma hd.2).symm
  | deletePod => exact hr
  | _ => exact hd

theorem probe_complies (hm : m.BelongsTo r kind) (hname : a.run.workloadName ≠ r.workloadName)
    (hcomma : ',' ∉ a.run.workloadName.toList) {set : ToleranceSet} {x : Workload} :
    (probe a set x).Complies (sparing r kind m) fun _ => True := by
  have tornDown (fs : List Failure) : (teardown a >>= fun gs =>
      (pure (fs ++ gs) : Process Cluster _)).Complies (sparing r kind m) fun _ => True := by
    apply (teardown_complies hm hname hcomma).seq
    intro _ _
    exact trivial
  have deployed : (Deployment.run .run a.config.apiBackoff x).Complies (sparing r kind m)
      fun _ => True := by
    refine complies_of_uses Deployment.run_uses fun request hr hd => ?_
    cases request <;> first | exact hd | exact hr
  have verified : (verify a set).Complies (sparing r kind m) fun _ => True := by
    refine complies_of_uses verify_uses fun request hr hd => ?_
    cases request <;> first | exact hd | exact hr
  have recorded (e : CheckError) : (record .deploying e).Complies (sparing r kind m)
      fun _ => True := .bind fun _ => trivial
  refine .bind ⟨trivial, ?_⟩
  apply deployed.seq
  intro outcome _
  cases outcome with
  | ok =>
    apply verified.seq
    intro fs _
    exact tornDown fs
  | error e =>
    apply (recorded e).seq
    intro fs _
    split
    · exact trivial
    · exact tornDown fs

/-- A run does not delete what belongs to one that is newer and alive. -/
theorem run_complies (hr : Sweep.Newer a.run r) (hm : m.BelongsTo r kind)
    (hname : a.run.workloadName ≠ r.workloadName) (hcomma : ',' ∉ a.run.workloadName.toList) :
    (run a).Complies (sparing r kind m) fun _ => True := by
  have asks (request : Request) (hr : Asks a.run.host request) : ¬ request.Deletes kind m := by
    intro hd
    cases request <;> first | exact hd | exact hr
  have probed {set : ToleranceSet} {x : Workload} :
      (probe a set x).Complies (sparing r kind m) fun _ => True :=
    probe_complies hm hname hcomma
  have work : (work a).Complies (sparing r kind m) fun _ => True := by
    refine .bind ⟨trivial, ?_⟩
    apply (complies_of_uses owner_uses asks).seq
    intro owner _
    apply (complies_of_uses tolerances_uses asks).seq
    intro set _
    refine .bind ⟨trivial, .bind fun now => ?_⟩
    apply (Sweep.untilClear_complies hr).seq
    intro swept _
    cases swept with
    | ok => exact probed
    | error e =>
      dsimp only
      split
      · exact .bind fun _ => trivial
      · apply probed.seq
        intro _ _
        exact trivial
  apply work.seq
  intro _ _
  exact .bind ⟨trivial, trivial⟩

end Worker

end NodeCoverage
