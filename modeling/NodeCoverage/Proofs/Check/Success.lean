import NodeCoverage.Proofs.Check.Course
import NodeCoverage.Proofs.Check.Removal
import NodeCoverage.Proofs.Check.Samples
/-!
# When a run reports success

A run reports success exactly when its worker, left alone, goes through all of its parts, each of
them succeeds, and its end is taken before the deadline or an interrupt is. The sweep that comes
first must have found the cluster clear, verification must have found a stable series of looks, and
teardown must have seen the last of the pods and of the workload. Hence a run that was stopped never
reports success, whatever came of its verification.
-/

namespace NodeCoverage

open Process (Yields)

variable {B : Behaviour Cluster}

abbrev World.entered (w : World B) (phase : Cluster.Phase) : World B :=
  w.note (S := Cluster) (.entered phase)

namespace Worker

/-- Verification of the run found every node covered, at the end of a stable series of looks. -/
def Covered (a : Assignment) (set : ToleranceSet) (w w' : World B) : Prop :=
  Yields (Verification.run a.config .run a.deadline set a.run.workloadName) w (.ok .covered) w' ∧
    ∃ looks, Verification.Looked a.config .run a.deadline set a.run.workloadName w looks w' ∧
      Verification.Stable a.config.stabilityTicks looks

/-- Teardown of the run went through all of its steps. -/
def Removed (a : Assignment) (w w' : World B) : Prop :=
  let deadline := a.deadline + a.config.shutdownGracePeriod.nanos
  Yields (Teardown.run a.config .hardStop deadline a.run.workloadName) w (.ok ()) w' ∧
    Teardown.Steps a.config .hardStop deadline a.run.workloadName w w'

/-- The worker went through all of its parts, and each of them succeeded. -/
def Passed (a : Assignment) (w w' : World B) : Prop :=
  ∃ owner set w₁ w₂ w₃ w₄ w₅ w₆,
    Yields (Worker.owner a) (w.entered .init) owner w₁ ∧
    Yields (Worker.tolerances a) w₁ set w₂ ∧
    Yields (Sweep.untilClear a.config .run
        (min a.deadline (w₂.now + a.config.preCleanupTimeout.nanos)) a.run)
      (w₂.entered .preCleanup) (.ok ()) w₃ ∧
    Yields (Deployment.run .run a.config.apiBackoff
        ((Blueprint.ofConfig a.config owner).build a.run set))
      (w₃.entered .deploying) (.ok ()) w₄ ∧
    Covered a set (w₄.entered .verifying) w₅ ∧ Removed a (w₅.entered .tearingDown) w₆ ∧
    w' = w₆.entered .postCleanup

variable {a : Assignment} {w w' : World B}

@[simp] theorem yields_enter_iff {phase : Cluster.Phase} {u : Unit} :
    Yields (enter phase) w u w' ↔ w' = w.entered phase :=
  Yields.note_iff

theorem record_cases {phase : Cluster.Phase} {e : CheckError} {fs : List Failure}
    (hf : w.fired .shutdown = false) (h : Yields (record phase e) w fs w') :
    fs = [.during phase e] := by
  obtain ⟨_, _, hfired, h⟩ := Yields.bind_iff.mp h
  obtain ⟨rfl, rfl⟩ := Yields.fired_iff.mp hfired
  simpa [hf] using (Yields.pure_iff.mp h).1

theorem teardown_iff (hf : w.fired .run = false) :
    Yields (teardown a) w [] w' ↔ Removed a (w.entered .tearingDown) w' := by
  have hf : (w.entered .tearingDown).fired .run = false := hf
  constructor
  · intro h
    simp only [teardown, Yields.bind_iff, yields_enter_iff, Yields.fired_iff, Yields.clock_iff] at h
    obtain ⟨_, _, rfl, _, _, ⟨rfl, rfl⟩, _, _, ⟨rfl, rfl⟩, outcome, w₁, h, hend⟩ := h
    simp only [hf, Bool.false_eq_true, if_false] at h
    cases outcome with
    | ok =>
      obtain ⟨-, rfl⟩ := Yields.pure_iff.mp hend
      exact ⟨h, Teardown.steps_of_yields h⟩
    | error e => cases (Yields.pure_iff.mp hend).1
  · rintro ⟨h, -⟩
    simp only [teardown, Yields.bind_iff, yields_enter_iff, Yields.fired_iff, Yields.clock_iff]
    refine ⟨(), _, rfl, _, _, ⟨rfl, rfl⟩, _, _, ⟨rfl, rfl⟩, .ok (), w', ?_, by simp⟩
    simpa only [hf, Bool.false_eq_true, if_false] using h

theorem verify_iff {set : ToleranceSet} (hf : w.fired .shutdown = false) :
    Yields (verify a set) w [] w' ↔ Covered a set (w.entered .verifying) w' := by
  have hf : (w.entered .verifying).fired .shutdown = false := hf
  constructor
  · intro h
    obtain ⟨_, _, henter, h⟩ := Yields.bind_iff.mp h
    obtain rfl := yields_enter_iff.mp henter
    obtain ⟨outcome, w₁, h, hend⟩ := Yields.bind_iff.mp h
    cases outcome with
    | ok v =>
      obtain ⟨-, rfl⟩ := Yields.pure_iff.mp hend
      obtain ⟨rfl, hlooks⟩ := Verification.stable_of_yields hf h
      exact ⟨h, hlooks⟩
    | error e => cases record_cases (by rw [Yields.fired_eq h, hf]) hend
  · rintro ⟨h, -⟩
    exact Yields.bind_iff.mpr ⟨(), _, yields_enter_iff.mpr rfl,
      Yields.bind_iff.mpr ⟨_, _, h, by simp⟩⟩

theorem probe_iff {set : ToleranceSet} {wl : Workload} (hrun : w.fired .run = false)
    (hshut : w.fired .shutdown = false) :
    Yields (probe a set wl) w [] w' ↔ ∃ w₁ w₂,
      Yields (Deployment.run .run a.config.apiBackoff wl) (w.entered .deploying) (.ok ()) w₁ ∧
      Covered a set (w₁.entered .verifying) w₂ ∧ Removed a (w₂.entered .tearingDown) w' := by
  have hrun : (w.entered .deploying).fired .run = false := hrun
  have hshut : (w.entered .deploying).fired .shutdown = false := hshut
  constructor
  · intro h
    obtain ⟨_, _, henter, h⟩ := Yields.bind_iff.mp h
    obtain rfl := yields_enter_iff.mp henter
    obtain ⟨outcome, w₁, hdeploy, h⟩ := Yields.bind_iff.mp h
    cases outcome with
    | ok =>
      obtain ⟨fs₁, w₂, hverify, h⟩ := Yields.bind_iff.mp h
      obtain ⟨fs₂, w₃, hteardown, h⟩ := Yields.bind_iff.mp h
      obtain ⟨hfs, rfl⟩ := Yields.pure_iff.mp h
      obtain ⟨rfl, rfl⟩ := List.append_eq_nil_iff.mp hfs.symm
      rw [teardown_iff (by rw [hverify.fired_eq, hdeploy.fired_eq, hrun])] at hteardown
      rw [verify_iff (by rw [hdeploy.fired_eq, hshut])] at hverify
      exact ⟨w₁, w₂, hdeploy, hverify, hteardown⟩
    | error e =>
      obtain ⟨fs₁, w₂, hrecord, h⟩ := Yields.bind_iff.mp h
      obtain rfl := record_cases (by rw [hdeploy.fired_eq, hshut]) hrecord
      split at h
      · cases (Yields.pure_iff.mp h).1
      · obtain ⟨fs₂, w₃, -, h⟩ := Yields.bind_iff.mp h
        cases (Yields.pure_iff.mp h).1
  · rintro ⟨w₁, w₂, hdeploy, hcovered, hremoved⟩
    have hverify := (verify_iff (by rw [hdeploy.fired_eq, hshut])).mpr hcovered
    have hteardown : Yields (teardown a) w₂ [] w' :=
      (teardown_iff (by rw [hverify.fired_eq, hdeploy.fired_eq, hrun])).mpr hremoved
    refine Yields.bind_iff.mpr ⟨(), _, yields_enter_iff.mpr rfl, ?_⟩
    refine Yields.bind_iff.mpr ⟨_, _, hdeploy, Yields.bind_iff.mpr ⟨_, _, hverify, ?_⟩⟩
    exact Yields.bind_iff.mpr ⟨_, _, hteardown, by simp⟩

/-- Left alone, the worker ends without a failure exactly when each of its parts succeeds. -/
theorem run_iff (hw : ∀ s, w.fired s = false) :
    Yields (run a) w [] w' ↔ Passed a w w' := by
  constructor
  · intro h
    obtain ⟨fs, w₆, hwork, hend⟩ := Yields.bind_iff.mp h
    obtain ⟨_, _, henter, hend⟩ := Yields.bind_iff.mp hend
    obtain rfl := yields_enter_iff.mp henter
    obtain ⟨rfl, rfl⟩ := Yields.pure_iff.mp hend
    obtain ⟨_, _, henter, h⟩ := Yields.bind_iff.mp hwork
    obtain rfl := yields_enter_iff.mp henter
    obtain ⟨owner, w₁, howner, h⟩ := Yields.bind_iff.mp h
    obtain ⟨set, w₂, hset, h⟩ := Yields.bind_iff.mp h
    obtain ⟨_, _, henter, h⟩ := Yields.bind_iff.mp h
    obtain rfl := yields_enter_iff.mp henter
    obtain ⟨_, _, hclock, h⟩ := Yields.bind_iff.mp h
    obtain ⟨rfl, rfl⟩ := Yields.clock_iff.mp hclock
    obtain ⟨outcome, w₃, hclear, h⟩ := Yields.bind_iff.mp h
    have hw₃ (s : Signal) : w₃.fired s = false := by
      rw [hclear.fired_eq]
      exact (hset.fired_eq s).trans ((howner.fired_eq s).trans (hw s))
    cases outcome with
    | ok =>
      obtain ⟨w₄, w₅, hdeploy, hcovered, hremoved⟩ := (probe_iff (hw₃ _) (hw₃ _)).mp h
      exact ⟨owner, set, w₁, w₂, w₃, w₄, w₅, w₆, howner, hset, hclear, hdeploy, hcovered,
        hremoved, rfl⟩
    | error e =>
      dsimp only at h
      split at h
      · cases record_cases (hw₃ _) h
      · obtain ⟨_, _, -, h⟩ := Yields.bind_iff.mp h
        cases (Yields.pure_iff.mp h).1
  · rintro ⟨owner, set, w₁, w₂, w₃, w₄, w₅, w₆, howner, hset, hclear, hdeploy, hcovered,
      hremoved, rfl⟩
    have hw₃ (s : Signal) : w₃.fired s = false := by
      rw [hclear.fired_eq]
      exact (hset.fired_eq s).trans ((howner.fired_eq s).trans (hw s))
    have hprobe := (probe_iff (hw₃ _) (hw₃ _)).mpr ⟨w₄, w₅, hdeploy, hcovered, hremoved⟩
    have hwork : Yields (work a) w [] w₆ := by
      refine Yields.bind_iff.mpr ⟨(), _, yields_enter_iff.mpr rfl, ?_⟩
      refine Yields.bind_iff.mpr ⟨_, _, howner, Yields.bind_iff.mpr ⟨_, _, hset, ?_⟩⟩
      refine Yields.bind_iff.mpr ⟨(), _, yields_enter_iff.mpr rfl, ?_⟩
      refine Yields.bind_iff.mpr ⟨_, _, Yields.clock_iff.mpr ⟨rfl, rfl⟩, ?_⟩
      exact Yields.bind_iff.mpr ⟨_, _, hclear, hprobe⟩
    refine Yields.bind_iff.mpr ⟨_, _, hwork, ?_⟩
    exact Yields.bind_iff.mpr ⟨(), _, yields_enter_iff.mpr rfl, by simp⟩

end Worker
namespace Lifecycle

/-- The reporter is called with the report, whether or not it ever answers. -/
def Reports (rt : Runtime) (config : Config) (r : Run) (interrupts : List Nat) (w : World B)
    (report : Report) : Prop :=
  ∃ fuel, reported fuel rt config r interrupts w = some report

/-- The worker passes, before the timer of the deadline and before the first interrupt; if it does
so at the same instant, its end is taken. -/
def PassesInTime (rt : Runtime) (config : Config) (r : Run) (interrupts : List Nat)
    (w : World B) : Prop :=
  let a : Assignment := ⟨config, r, w.now + config.runBudget.nanos⟩
  ∃ w', Worker.Passed a w w' ∧
    rt.Takes (.of none w.now (Clock.timer a.deadline) interrupts) w'.now

variable {fuel : Nat} {rt : Runtime} {config : Config} {r : Run} {interrupts : List Nat}
  {w w' : World B}

theorem failures_eq_nil_iff {a : Assignment} {cause : Option StopCause} {now : Nat}
    {own : List Failure} : failures a cause now own = [] ↔ cause = none ∧ own = [] := by
  rcases cause with _ | _ | _ <;> cases own <;> simp [failures]

theorem await_of_done {a : Assignment} {own : List Failure}
    (h : runToEnd fuel rt a interrupts w = some (.done none own, w')) :
    await fuel rt none (Clock.timer a.deadline) interrupts (.suspended (.ready (Worker.run a))) w =
      (.worker, .finished own, w') := by
  obtain ⟨taken, st, w₁, hawait, ⟨rfl, he, rfl⟩ | ⟨c, -, h⟩⟩ := runToEnd_cases h
  · cases st with
    | finished =>
      cases he
      exact hawait
    | suspended | crashed | exhausted => cases he
  · obtain ⟨-, st', -, ⟨-, he⟩ | ⟨-, he⟩⟩ := awaitTeardown_cases h
    · cases st' <;> cases he
    · cases he

/-- A run that reports success was not stopped, and its worker passed. -/
theorem passesInTime_of_reported (hw : ∀ s, w.fired s = false)
    (h : reported fuel rt config r interrupts w = some .success) :
    PassesInTime rt config r interrupts w := by
  obtain ⟨⟨cause, own, w₁⟩, hreport, h⟩ := Option.map_eq_some_iff.mp h
  -- no message means no failure, neither of the worker nor for having been stopped
  have hnil := List.map_eq_nil_iff.mp (Report.ok_ofErrors.mp (congrArg Report.ok h))
  obtain ⟨rfl, rfl⟩ := failures_eq_nil_iff.mp hnil
  obtain ⟨e, w', hend, ⟨rfl, -⟩ | ⟨f, -, hcrashed, -⟩⟩ := atReport_cases hreport
  · obtain ⟨hrun, htakes⟩ := (await_eq_worker_iff rfl).mp (await_of_done hend)
    exact ⟨w', (Worker.run_iff hw).mp (Yields.of_runUntil hrun), htakes⟩
  · cases hcrashed

/-- A worker that passes in time is never stopped, and with enough fuel it comes to its end. -/
theorem runToEnd_of_passed {a : Assignment} (hw : ∀ s, w.fired s = false)
    (hpassed : Worker.Passed a w w')
    (htakes : rt.Takes (.of none w.now (Clock.timer a.deadline) interrupts) w'.now) :
    (∃ fuel, runToEnd fuel rt a interrupts w = some (.done none [], w')) ∧
      ∀ fuel e w₁, runToEnd fuel rt a interrupts w = some (e, w₁) → e = .done none [] := by
  have hyields := (Worker.run_iff hw).mpr hpassed
  have hbound : Suspended.within
      (some (rt.bound (.of none w.now (Clock.timer a.deadline) interrupts))) w'.now = true :=
    decide_eq_true htakes.lt_bound
  have hends {fuel : Nat} (hrun : (Suspended.ready (Worker.run a)).runUntil fuel
      (some (rt.bound (.of none w.now (Clock.timer a.deadline) interrupts))) fuel w =
        (.finished [], w')) :
      runToEnd fuel rt a interrupts w = some (.done none [], w') := by
    rw [runToEnd, (await_eq_worker_iff rfl).mpr ⟨hrun, htakes⟩]
    rfl
  constructor
  · obtain ⟨enough, hrun⟩ := hyields.exists_fuel hbound
    exact ⟨enough, hends (hrun enough enough (Nat.le_refl _) (Nat.le_refl _))⟩
  · intro fuel e w₁ he
    rcases hr : (Suspended.ready (Worker.run a)).runUntil fuel
      (some (rt.bound (.of none w.now (Clock.timer a.deadline) interrupts))) fuel w with ⟨st, w₂⟩
    rcases hyields.runUntil_cases hbound hr with rfl | ⟨rfl, rfl⟩
    · rw [runToEnd_exhausted hr] at he
      cases he
    · rw [hends hr] at he
      cases he
      rfl

/-- A run reports success if and only if its worker passes in time. So does the summary of a run
that is over, and a run that was stopped never does. -/
theorem reports_success_iff (rt : Runtime) (config : Config) (r : Run) (interrupts : List Nat)
    (w : World B) :
    (Reports rt config r interrupts w.reset .success ↔
        PassesInTime rt config r interrupts w.reset) ∧
      (∀ fuel reporter m, run fuel rt config r interrupts reporter w.reset = some m →
        ((∃ t, m.summary.report = some (t, .success)) ↔
          PassesInTime rt config r interrupts w.reset)) ∧
      ∀ fuel cause own w', runToEnd fuel rt ⟨config, r, w.now + config.runBudget.nanos⟩
          interrupts w.reset = some (.done (some cause) own, w') →
        ¬ Reports rt config r interrupts w.reset .success := by
  have hw (s : Signal) : w.reset.fired s = false := rfl
  have passes (h : Reports rt config r interrupts w.reset .success) :
      PassesInTime rt config r interrupts w.reset := by
    obtain ⟨fuel, h⟩ := h
    exact passesInTime_of_reported hw h
  refine ⟨⟨passes, fun h => ?_⟩, fun fuel reporter m hm => ⟨fun h => ?_, fun h => ?_⟩, ?_⟩
  · obtain ⟨w', hpassed, hnow⟩ := h
    obtain ⟨⟨fuel, hend⟩, -⟩ := runToEnd_of_passed hw hpassed hnow
    refine ⟨fuel, ?_⟩
    simp only [reported, atReport, hend, Option.map_some, failures_eq_nil_iff.mpr ⟨rfl, rfl⟩]
    rfl
  · obtain ⟨t, ht⟩ := h
    rcases run_cases hm with ⟨-, hnone, -⟩ | ⟨cause, own, w₁, hreport, -, hfs, hsome⟩
    · rw [hnone] at ht
      cases ht
    · refine passes ⟨fuel, ?_⟩
      rw [hfs, ht] at hsome
      rw [reported, hreport, Option.map_some]
      exact congrArg some (Prod.mk.inj (Option.some.inj hsome)).2.symm
  · obtain ⟨w', hpassed, hnow⟩ := h
    obtain ⟨-, hend⟩ := runToEnd_of_passed hw hpassed hnow
    rcases run_cases hm with ⟨-, -, _, _, _, hforced⟩ | ⟨cause, own, w₁, hreport, -, hfs, hsome⟩
    · cases hend _ _ _ hforced
    · obtain ⟨e, w₂, he, ⟨rfl, -⟩ | ⟨f, rfl, -⟩⟩ := atReport_cases hreport
      · cases hend _ _ _ he
        rw [hfs, failures_eq_nil_iff.mpr ⟨rfl, rfl⟩] at hsome
        exact ⟨_, hsome⟩
      · cases hend _ _ _ he
  · intro fuel cause own w' hstopped h
    obtain ⟨w₁, hpassed, hnow⟩ := passes h
    cases (runToEnd_of_passed hw hpassed hnow).2 fuel _ _ hstopped

end Lifecycle
end NodeCoverage
