import NodeCoverage.Proofs.Check.Silence
import NodeCoverage.Proofs.Check.Sparing
import NodeCoverage.Proofs.Process.Fleet
/-!
# Runs that overlap

A run does not delete what belongs to another one that began no earlier and whose process exists, in
whatever order the steps of both are taken. What can still go wrong is that a name passes from one
object to another between a listing and a deletion.
-/

namespace NodeCoverage

open Cluster (Request)

/-- All that a run does on the cluster: the work of its worker, and the last sweep. -/
def Lifecycle.whole (a : Assignment) : Process Cluster (List Failure) := do
  let failures ← Worker.run a
  let _ ← Sweep.once a.config .hardStop a.run
  pure failures

/-- Runs that share a cluster, in any order of their steps. None of them ever asks to delete what
belongs to one that began no earlier and whose process is found whenever it is looked up, unless it
was shown something else under the name of the object. -/
theorem newer_run_is_spared {ι : Type} [DecidableEq ι] {B : Behaviour Cluster}
    {a : ι → Assignment} {f f' : Fleet B ι (List Failure)}
    (hready : ∀ i, f.member i = .ready (Lifecycle.whole (a i))) (hcourse : f.Course f') {i j : ι}
    (hnewer : Sweep.Newer (a i).run (a j).run)
    (hname : (a i).run.workloadName ≠ (a j).run.workloadName)
    (hcomma : ',' ∉ (a i).run.workloadName.toList)
    (hfound : ∀ t n r x, .answered t n r x ∈ (f'.member i).trace →
      ¬ Request.Misses (a j).run.host r x)
    {kind : Sweepable} {m : Metadata} (hm : m.BelongsTo (a j).run kind)
    (honly : ∀ t n r x, .answered t n r x ∈ (f'.member i).trace →
      ∀ y ∈ kind.shown r x, y.name = m.name → y.OfRun (a j).run) :
    ∀ t n r, .called t n r ∈ (f'.member i).trace → ¬ Request.Deletes kind m r := by
  have hcomplies : (Lifecycle.whole (a i)).Complies (sparing (a j).run kind m) fun _ => True :=
    .bind ((Worker.run_complies hnewer hm hname hcomma).mono fun _ _ =>
      .bind ((Sweep.once_complies hnewer).mono fun _ _ => trivial))
  exact Fleet.called_of_told hcomplies (hready i) hcourse fun t n r x hx =>
    ⟨hfound t n r x hx, honly t n r x hx⟩

/-! ### A run by itself -/

variable {B : Behaviour Cluster} {c : Contract Cluster} {w w' : World B}

theorem World.Passes.told (h : w.Passes w') (ht : c.Told w'.trace) : c.Told w.trace := by
  obtain ⟨stops, he⟩ := h.trace_eq
  exact fun t n r x hx => ht t n r x (he ▸ Array.mem_append_left _ hx)

theorem World.Passes.called (h : w.Passes w') (hc : c.Called w.trace) : c.Called w'.trace := by
  obtain ⟨stops, he⟩ := h.trace_eq
  intro t n r hx
  rw [he] at hx
  rcases Array.mem_append.mp hx with hx | hx
  · exact hc t n r hx
  · simp at hx

namespace Lifecycle

/-- If all answers in the log are as the contract says, then all calls in it are allowed, and the
last sweep complies. -/
def Loyal (c : Contract Cluster)
    (x : Option (Status B (Except CheckError SweepReport)) × World B) : Prop :=
  c.Told x.2.trace → c.Called x.2.trace ∧ ∀ st ∈ x.1, st.Complies c fun _ => True

variable {sweep : Option (Status B (Except CheckError SweepReport))} {fuel : Nat}
  {rt : Runtime} {a : Assignment}

theorem Loyal.of_called (h : c.Told w.trace → c.Called w.trace) : Loyal c (none, w) :=
  fun ht => ⟨h ht, fun _ hst => by cases hst⟩

theorem Loyal.note {e : Cluster.Entry} (h : Loyal c (sweep, w)) : Loyal c (sweep, w.note e) := by
  intro ht
  obtain ⟨hcalled, hsweep⟩ := h (c.told_heard.note ht)
  refine ⟨fun t n r hx => ?_, hsweep⟩
  rcases Array.mem_push.mp hx with hx | hx
  · exact hcalled t n r hx
  · cases hx

theorem Loyal.goOn {st : Status B (Except CheckError SweepReport)} (fuel : Nat)
    (bound : Option Nat) (h : Loyal c (some st, w)) :
    Loyal c (some (st.goOn fuel bound w).1, (st.goOn fuel bound w).2) := by
  cases st with
  | suspended s =>
    intro ht
    obtain ⟨-, hcalled, hst⟩ := s.runUntil_complies (v := w) (Q := fun _ => True)
      c.called_keeps c.told_heard (fun _ _ => ⟨id, id⟩)
      (fun ht => ⟨ht, (h ht).1, (h ht).2 _ rfl⟩) ht
    exact ⟨hcalled, fun st hst' => Option.some_inj.mp hst' ▸ hst⟩
  | finished | crashed | exhausted => exact h

theorem Loyal.continueSweep (fuel : Nat) (bound : Option Nat) (h : Loyal c (sweep, w)) :
    Loyal c (continueSweep fuel bound sweep w) := by
  cases sweep with
  | none => exact h
  | some st => exact h.goOn fuel bound

theorem Loyal.beginSweep (fuel : Nat) (rt : Runtime)
    (hsweep : (Sweep.once a.config .hardStop a.run).Complies c fun _ => True)
    (h : c.Told w.trace → c.Called w.trace) :
    Loyal c (some (beginSweep fuel rt a w).1, (beginSweep fuel rt a w).2) := by
  have hready : Loyal c (some (.suspended (.ready (Sweep.once a.config .hardStop a.run))), w) :=
    fun ht => ⟨h ht, fun st hst => Option.some_inj.mp hst ▸ hsweep⟩
  simp only [Lifecycle.beginSweep]
  split
  · exact hready.goOn fuel _
  · exact hready

theorem Loyal.conclude {reporter : Reporter} {cause : Option StopCause} {own : List Failure}
    {m : Aftermath B} (h : Loyal c (sweep, w))
    (hm : conclude fuel rt a reporter cause own sweep w = some m) : Loyal c (m.sweep, m.world) := by
  simp only [Lifecycle.conclude] at hm
  split at hm
  · cases hm
  · next result t _ =>
    cases hm
    have hsweep := (h.note (e := .entered .reporting)).continueSweep fuel
      (some (if rt.sweepFirst then max w.now t + 1 else max w.now t))
    exact Loyal.note (w := World.advance _ (max w.now t)) hsweep

theorem Loyal.force {cause : StopCause} {st : Status B (List Failure)}
    (hsweep : (Sweep.once a.config .hardStop a.run).Complies c fun _ => True)
    (h : c.Told w.trace → c.Called w.trace) :
    Loyal c ((force fuel rt a cause st w).sweep, (force fuel rt a cause st w).world) := by
  cases st with
  | finished =>
    have hbegun := Loyal.beginSweep fuel rt hsweep h
    exact .of_called fun ht => (hbegun ht).1
  | suspended | crashed | exhausted => exact .of_called h

theorem called_of_runToEnd {interrupts : List Nat} {e : WorkerEnd B}
    (hworker : (Worker.run a).Complies c fun _ => True) (hw : c.Called w.trace)
    (h : runToEnd fuel rt a interrupts w = some (e, w')) (ht : c.Told w'.trace) :
    c.Called w'.trace := by
  obtain ⟨st, ⟨w₀, w₁, h₀, hreach, h₁, -⟩, -⟩ := runToEnd_stands h
  obtain ⟨-, hcalled, -⟩ := hreach.complies c.called_keeps c.told_heard
    (fun _ _ _ he => ⟨he.told, he.called⟩) hworker (fun _ => h₀.called hw) (h₁.told ht)
  exact h₁.called hcalled

/-- A run keeps to a contract with which its worker and its sweeps comply. -/
theorem run_loyal {config : Config} {r : Run} {interrupts : List Nat} {reporter : Reporter}
    {m : Aftermath B} (hw : c.Called w.trace)
    (hworker : ∀ deadline, (Worker.run ⟨config, r, deadline⟩).Complies c fun _ => True)
    (hsweep : (Sweep.once config .hardStop r).Complies c fun _ => True)
    (h : run fuel rt config r interrupts reporter w = some m) : Loyal c (m.sweep, m.world) := by
  obtain ⟨e, w₁, he, hfollows⟩ := run_follows h
  have hcalled := called_of_runToEnd (hworker _) hw he
  cases hfollows with
  | forced hm =>
    cases hm
    exact .force hsweep hcalled
  | crashed h => exact Loyal.conclude (.of_called hcalled) h
  | done h => exact Loyal.conclude (.beginSweep fuel rt hsweep hcalled) h

end Lifecycle

/-- A run that is carried out by itself, in whatever cluster, does not delete what belongs to a
newer one either, up to the end of its last sweep. -/
theorem newer_run_is_spared_alone {fuel : Nat} {rt : Runtime} {config : Config} {r b : Run}
    {interrupts : List Nat} {reporter : Reporter} {w : World B} {m : Aftermath B}
    (hw : w.trace = #[]) (h : Lifecycle.run fuel rt config r interrupts reporter w = some m)
    (hnewer : Sweep.Newer r b) (hname : r.workloadName ≠ b.workloadName)
    (hcomma : ',' ∉ r.workloadName.toList)
    (hfound : ∀ t n r x, .answered t n r x ∈ (m.settle fuel).world.trace →
      ¬ Request.Misses b.host r x)
    {kind : Sweepable} {x : Metadata} (hx : x.BelongsTo b kind)
    (honly : ∀ t n r answer, .answered t n r answer ∈ (m.settle fuel).world.trace →
      ∀ y ∈ kind.shown r answer, y.name = x.name → y.OfRun b) :
    ∀ t n r, .called t n r ∈ (m.settle fuel).world.trace → ¬ Request.Deletes kind x r := by
  have hloyal : Lifecycle.Loyal (sparing b kind x) (m.sweep, m.world) :=
    Lifecycle.run_loyal (by simp [Contract.Called, hw])
      (fun deadline => Worker.run_complies (a := ⟨config, r, deadline⟩) hnewer hx hname hcomma)
      (Sweep.once_complies hnewer) h
  have htold : (sparing b kind x).Told (m.settle fuel).world.trace := fun t n r answer ha =>
    ⟨hfound t n r answer ha, honly t n r answer ha⟩
  by_cases hexit : m.summary.exit = .forced
  · rw [Lifecycle.settle_of_forced h hexit fuel] at htold ⊢
    exact (hloyal htold).1
  · rw [Lifecycle.settle_of_ne_forced h hexit fuel] at htold ⊢
    exact ((hloyal.continueSweep fuel none) htold).1

namespace Overlap

/-- Workloads, and whether the next deletion takes long. -/
structure Yard where
  workloads : List Workload
  slow : Bool

/-- A cluster that keeps workloads and knows every pod by its name. -/
def yard : Behaviour Cluster where
  State := Yard
  Ticket := Unit
  start _ r s :=
    match r with
    | .deleteWorkload _ => (if s.slow then .ofSeconds 10 else .zero, (), { s with slow := false })
    | _ => (.zero, (), s)
  answer _ r _ s :=
    match r with
    | .listNodes => (.ok [], s)
    | .listPods _ => (.ok [], s)
    | .listWorkloads selector _ =>
      (.ok ⟨s.workloads.filter (·.metadata.isPicked selector), none⟩, s)
    | .createWorkload x => (.ok (), { s with workloads := x :: s.workloads })
    | .deleteWorkload name =>
      (.ok (), { s with workloads := s.workloads.filter (·.metadata.name ≠ some name) })
    | .deletePods _ | .deletePod _ => (.ok (), s)
    | .getPod _ => (.ok (some default), s)
    | .getWorkload name => (.ok (s.workloads.find? (·.metadata.name = some name)), s)

def assignment (later : Bool) : Assignment :=
  ⟨.standard, if later then ⟨"daemonset", "later", 2⟩ else ⟨"daemonset", "earlier", 1⟩,
    900000000000⟩

def gathered (s : Yard) : Fleet yard Bool (List Failure) :=
  ⟨0, s, fun i => .ready (Lifecycle.whole (assignment i))⟩

def contested : Metadata :=
  { name := some (assignment true).run.workloadName
    labels := some (Labels.ofRun (assignment true).run) }

theorem contested_belongs : contested.BelongsTo (assignment true).run .workload :=
  ⟨fun _ _ h => h, fun _ => rfl⟩

theorem later_newer : Sweep.Newer (assignment false).run (assignment true).run :=
  ⟨by decide, by decide, by decide, by decide⟩

/-- The later run deploys its workload, and then the earlier one begins. -/
def peaceful : Fleet yard Bool (List Failure) :=
  ((gathered ⟨[], false⟩).resume 400 true).resume 400 false

/-- An answer that shows nothing but the later run's own workload under its name. -/
def isPeaceful : Event Cluster → Bool
  | .answered _ _ (.getPod _) (.ok none) => false
  | .answered _ _ (.listWorkloads _ _) (.ok page) => page.items.all fun x =>
    x.metadata.name ≠ contested.name || x.metadata.labels = contested.labels
  | _ => true

theorem of_isPeaceful {t n : Nat} {r : Request} {x : Except CheckError r.Result}
    (h : isPeaceful (.answered t n r x) = true) :
    ¬ Request.Misses (assignment true).run.host r x ∧
      ∀ y ∈ Sweepable.shown .workload r x, y.name = contested.name →
        y.OfRun (assignment true).run := by
  cases r with
  | getPod name =>
    refine ⟨?_, fun y hy => absurd hy List.not_mem_nil⟩
    rcases x with e | _ | pod
    · exact id
    · cases h
    · exact id
  | listWorkloads selector token =>
    refine ⟨id, ?_⟩
    cases x with
    | error e => exact fun y hy => absurd hy List.not_mem_nil
    | ok page =>
      rintro y hy hname key value hvalue
      obtain ⟨x, hx, rfl⟩ := List.mem_map.mp hy
      have hx := List.all_eq_true.mp h x hx
      simp only [hname, ne_eq, not_true, decide_false, Bool.false_or, decide_eq_true_eq] at hx
      rw [hx]
      exact hvalue
  | listPods selector =>
    refine ⟨id, fun y hy => ?_⟩
    cases x <;> exact absurd hy List.not_mem_nil
  | _ => exact ⟨id, fun y hy => absurd hy List.not_mem_nil⟩

theorem peaceful_course : (gathered ⟨[], false⟩).Course peaceful :=
  .tail (.single (.resumes 400 true)) (.resumes 400 false)

theorem names_ne : (assignment false).run.workloadName ≠ (assignment true).run.workloadName ∧
    ',' ∉ (assignment false).run.workloadName.toList := by
  decide +kernel

end Overlap

/-- The theorem for an earlier run that is shown the later run's workload. -/
theorem newer_run_is_spared_peaceful :
    (Overlap.peaceful.member false).trace.any (fun e => match e with
        | .answered _ _ r x =>
          (Sweepable.shown .workload r x).any (·.name == Overlap.contested.name)
        | _ => false) = true ∧
      ∀ t n r, .called t n r ∈ (Overlap.peaceful.member false).trace →
        ¬ Request.Deletes .workload Overlap.contested r := by
  have hpeaceful : (Overlap.peaceful.member false).trace.all Overlap.isPeaceful = true := by
    decide +kernel
  have hanswer (t n r x) (hx : .answered t n r x ∈ (Overlap.peaceful.member false).trace) :=
    Overlap.of_isPeaceful (Array.all_eq_true_iff_forall_mem.mp hpeaceful _ hx)
  refine ⟨by decide +kernel, ?_⟩
  exact newer_run_is_spared (a := Overlap.assignment) (fun _ => rfl) Overlap.peaceful_course
    Overlap.later_newer Overlap.names_ne.1 Overlap.names_ne.2
    (fun t n r x hx => (hanswer t n r x hx).1) Overlap.contested_belongs
    fun t n r x hx => (hanswer t n r x hx).2

namespace Overlap

/-- An object of the check that nobody owns has the name of the later run's workload. -/
def stray : Workload where
  metadata :=
    { name := contested.name
      labels := some (.ofList [(Labels.sourceKey, Labels.sourceValue),
        (Labels.checkKey, Labels.checkValue)]) }

/-- Both runs take it for an orphan, but the earlier one's deletion takes long. Meanwhile the later
one has deleted it and deployed its own workload. -/
def deployed : Fleet yard Bool (List Failure) :=
  let f := ((gathered ⟨[stray], true⟩).resume 400 false).resume 400 true
  { f with now := max f.now 500000000 }.resume 400 true

/-- Then the earlier run's deletion is carried out. -/
def deprived : Fleet yard Bool (List Failure) :=
  { deployed with now := max deployed.now 10000000000 }.resume 400 false

theorem deployed_course : (gathered ⟨[stray], true⟩).Course deployed :=
  .tail (.tail (.tail (.single (.resumes 400 false)) (.resumes 400 true)) (.passes 500000000))
    (.resumes 400 true)

theorem deprived_course : (gathered ⟨[stray], true⟩).Course deprived :=
  .tail (.tail deployed_course (.passes 10000000000)) (.resumes 400 false)

def isStrike : Event Cluster → Bool
  | .called _ _ (.deleteWorkload name) => contested.name == some name
  | _ => false

theorem of_isStrike {e : Event Cluster} (h : isStrike e = true) :
    ∃ t n r, e = .called t n r ∧ Request.Deletes .workload contested r := by
  unfold isStrike at h
  split at h
  · exact ⟨_, _, _, rfl, rfl, eq_of_beq h⟩
  · cases h

def isFound : Event Cluster → Bool
  | .answered _ _ (.getPod _) (.ok none) => false
  | _ => true

theorem of_isFound {host : String} {t n : Nat} {r : Request} {x : Except CheckError r.Result}
    (h : isFound (.answered t n r x) = true) : ¬ Request.Misses host r x := by
  cases r with
  | getPod name =>
    rcases x with e | _ | pod
    · exact id
    · cases h
    · exact id
  | _ => exact id

end Overlap

/-- The later run's own workload is deleted by the earlier run, if before that something else had
its name. -/
theorem newer_run_is_not_always_spared :
    (Overlap.deployed.state.workloads.any (fun x => x.metadata.name == Overlap.contested.name &&
        x.metadata.labels == Overlap.contested.labels) = true ∧
      Overlap.deprived.state.workloads.any
        (fun x => x.metadata.name == Overlap.contested.name) = false) ∧
    ¬ ∀ (a : Bool → Assignment) (B : Behaviour Cluster) (f f' : Fleet B Bool (List Failure)),
      (∀ i, f.member i = .ready (Lifecycle.whole (a i))) → f.Course f' →
      ∀ i j, Sweep.Newer (a i).run (a j).run → (a i).run.workloadName ≠ (a j).run.workloadName →
      ',' ∉ (a i).run.workloadName.toList →
      (∀ t n r x, .answered t n r x ∈ (f'.member i).trace →
        ¬ Request.Misses (a j).run.host r x) →
      ∀ (kind : Sweepable) (m : Metadata), m.BelongsTo (a j).run kind →
      ∀ t n r, .called t n r ∈ (f'.member i).trace → ¬ Request.Deletes kind m r := by
  refine ⟨by decide +kernel, fun h => ?_⟩
  have hfound : (Overlap.deprived.member false).trace.all Overlap.isFound = true := by
    decide +kernel
  have hstrike : (Overlap.deprived.member false).trace.any Overlap.isStrike = true := by
    decide +kernel
  obtain ⟨e, he, hstrike⟩ := Array.any_eq_true'.mp hstrike
  obtain ⟨t, n, r, rfl, hdeletes⟩ := Overlap.of_isStrike hstrike
  exact h Overlap.assignment _ _ _ (fun _ => rfl) Overlap.deprived_course false true
    Overlap.later_newer Overlap.names_ne.1 Overlap.names_ne.2
    (fun t n r x hx =>
      Overlap.of_isFound (Array.all_eq_true_iff_forall_mem.mp hfound _ hx))
    .workload Overlap.contested Overlap.contested_belongs t n r he hdeletes

end NodeCoverage
