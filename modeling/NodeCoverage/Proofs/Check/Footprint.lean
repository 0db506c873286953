import NodeCoverage.Check.Worker
import NodeCoverage.Proofs.Cluster.Call
/-!
# What the parts of a run can ask

Each part of the worker makes calls of a few kinds only, whatever it is answered: only deployment
creates a workload or looks one up, only sweeps and teardown delete, and teardown deletes nothing
but by the name and the selector of the run. No part crashes but where a call is repeated.
-/

namespace NodeCoverage

open Cluster (Request Entry Phase)
open Process (Uses)

def Cluster.Request.isCreate : Request → Bool
  | createWorkload _ => true
  | _ => false

/-- What the request deletes objects of. -/
def Cluster.Request.deletes : Request → Option Sweepable
  | deleteWorkload _ => some .workload
  | deletePod _ | deletePods _ => some .pod
  | _ => none

/-- What the calls of a run can crash with. -/
def Config.Faults (config : Config) : Fault → Prop :=
  config.apiBackoff.Faults

theorem pause_uses {stop : Signal} {deadline : Nat} {interval : Duration}
    {calls : Request → Prop} {notes : Entry → Prop} {faults : Fault → Prop} :
    Uses (S := Cluster) calls notes faults (Process.pause stop deadline interval) := by
  apply Uses.bind .clock
  intro now
  apply Uses.bind (.abandonOn .sleepUntil)
  intro woken
  cases woken with
  | none => exact .pure
  | some => exact .bind .clock fun _ => .pure

namespace Sweep

/-- What a sweep can ask. -/
def Asks : Request → Prop
  | .listWorkloads selector _ => selector = Labels.systemSelector
  | .listPods selector => selector = Labels.systemSelector
  | .getPod _ | .deleteWorkload _ | .deletePod _ => True
  | _ => False

theorem isCreate_eq {r : Request} (h : Asks r) : r.isCreate = false := by
  cases r with
  | createWorkload => exact False.elim h
  | _ => rfl

/-- What the half of a sweep for one kind can ask: it deletes nothing of the other. -/
def HalfAsks (kind : Sweepable) (r : Request) : Prop :=
  Asks r ∧ (r.deletes = none ∨ r.deletes = some kind)

theorem HalfAsks.of_none {kind : Sweepable} {r : Request} (h : Asks r) (hr : r.deletes = none) :
    HalfAsks kind r :=
  ⟨h, .inl hr⟩

/-- The entries of a sweep. -/
def Notes : Entry → Prop
  | .orphan _ _ => True
  | _ => False

variable {config : Config} {stop : Signal} {run : Run} {kind : Sweepable}

theorem ownerAlive_uses {owner : String} {h : HalfSweep} :
    Uses (S := Cluster) (HalfAsks kind) Notes config.Faults (ownerAlive config stop owner h) := by
  unfold ownerAlive
  split
  · exact .pure
  · have hget : HalfAsks kind (.getPod owner) := .of_none trivial rfl
    apply Uses.bind (Cluster.uses_call hget)
    intro found
    cases found <;> exact .pure

theorem classify_uses {m : Metadata} {h : HalfSweep} :
    Uses (S := Cluster) (HalfAsks kind) Notes config.Faults (classify config stop run m h) := by
  unfold classify
  split
  · exact .pure
  · split
    · exact .pure
    · apply Uses.bind ownerAlive_uses
      intro found
      rcases found with e | ⟨_ | _, h⟩ <;> exact .pure

theorem remove_uses {name : String} {reason : OrphanReason} {h : HalfSweep} :
    Uses (S := Cluster) (HalfAsks kind) Notes config.Faults
      (remove config stop kind name reason h) := by
  have hdelete : Uses (S := Cluster) (HalfAsks kind) Notes config.Faults
      (kind.delete stop config.apiBackoff name) := by
    cases kind <;> exact Cluster.uses_call ⟨trivial, .inr rfl⟩
  apply Uses.bind (.note trivial)
  intro _
  apply Uses.bind hdelete
  intro deleted
  cases deleted with
  | ok => exact .pure
  | error e =>
    dsimp only
    split <;> exact .pure

theorem visit_uses {m : Metadata} {h : HalfSweep} :
    Uses (S := Cluster) (HalfAsks kind) Notes config.Faults (visit config stop run kind m h) := by
  unfold visit
  split
  · exact .pure
  · split
    · exact .pure
    · apply Uses.bind classify_uses
      intro found
      rcases found with e | ⟨_ | reason, h⟩
      · exact .pure
      · exact .pure
      · exact remove_uses

theorem visitAll_uses {ms : List Metadata} {h : HalfSweep} :
    Uses (S := Cluster) (HalfAsks kind) Notes config.Faults
      (visitAll config stop run kind ms h) := by
  induction ms generalizing h with
  | nil => exact .pure
  | cons m ms ih =>
    apply Uses.bind visit_uses
    intro visited
    cases visited with
    | error e => exact .pure
    | ok h => exact ih

theorem workloads_uses :
    Uses (S := Cluster) (HalfAsks .workload) Notes config.Faults (workloads config stop run) := by
  apply Uses.iterate
  rintro ⟨token, h⟩
  have hlist : HalfAsks .workload (.listWorkloads Labels.systemSelector token) :=
    .of_none rfl rfl
  apply Uses.bind (Cluster.uses_call hlist)
  intro listing
  cases listing with
  | error e => exact .pure
  | ok page =>
    apply Uses.bind visitAll_uses
    intro visited
    cases visited with
    | error e => exact .pure
    | ok h =>
      dsimp only
      split <;> exact .pure

theorem pods_uses :
    Uses (S := Cluster) (HalfAsks .pod) Notes config.Faults (pods config stop run) := by
  have hlist : HalfAsks .pod (.listPods Labels.systemSelector) := .of_none rfl rfl
  apply Uses.bind (Cluster.uses_call hlist)
  intro listing
  cases listing with
  | error e => exact .pure
  | ok pods =>
    apply Uses.bind visitAll_uses
    intro visited
    cases visited <;> exact .pure

theorem once_uses : Uses (S := Cluster) Asks Notes config.Faults (once config stop run) :=
  .bind (.both (workloads_uses.mono (fun _ h => h.1) fun _ h => h)
    (pods_uses.mono (fun _ h => h.1) fun _ h => h)) fun _ => .pure

theorem untilClear_uses {deadline : Nat} :
    Uses (S := Cluster) Asks Notes config.Faults (untilClear config stop deadline run) := by
  apply Uses.iterate
  intro found
  apply Uses.bind once_uses
  intro result
  split
  · exact .pure
  · apply Uses.bind pause_uses
    intro paused
    cases paused <;> exact .pure

end Sweep

namespace Deployment

def Asks : Request → Prop
  | .createWorkload _ | .getWorkload _ => True
  | _ => False

variable {stop : Signal} {policy : Backoff} {w : Workload}

theorem run_uses : Uses (S := Cluster) Asks (fun _ => False) policy.Faults (run stop policy w) := by
  apply Uses.bind (Cluster.uses_call trivial)
  intro created
  cases created with
  | ok => exact .pure
  | error e =>
    dsimp only
    split
    · apply Uses.bind (Cluster.uses_call trivial)
      intro existing
      cases existing <;> exact .pure
    · exact .pure

end Deployment

namespace Verification

def Asks (workloadName : String) : Request → Prop
  | .listNodes => True
  | .listPods selector => selector = Labels.runSelector workloadName
  | _ => False

variable {config : Config} {stop : Signal} {set : ToleranceSet} {workloadName : String}

theorem look_uses :
    Uses (S := Cluster) (Asks workloadName) (fun _ => False) config.Faults
      (look config stop set workloadName) := by
  apply Uses.bind (Cluster.uses_call trivial)
  intro nodes
  cases nodes with
  | error e => exact .pure
  | ok nodes =>
    have hlist : Asks workloadName (.listPods (Labels.runSelector workloadName)) := rfl
    apply Uses.bind (Cluster.uses_call hlist)
    intro pods
    cases pods <;> exact .pure

theorem run_uses {deadline : Nat} :
    Uses (S := Cluster) (Asks workloadName) (fun _ => False) config.Faults
      (run config stop deadline set workloadName) := by
  apply Uses.iterate
  intro l
  apply Uses.bind pause_uses
  intro paused
  cases paused with
  | stopped | overdue => exact .pure
  | «over» =>
    apply Uses.bind .fired
    intro interrupted
    cases interrupted with
    | true => exact .pure
    | false => exact .bind look_uses fun _ => .pure

end Verification

namespace Teardown

def Asks (workloadName : String) : Request → Prop
  | .deleteWorkload name => name = workloadName
  | .deletePods selector | .listPods selector | .listWorkloads selector _ =>
    selector = Labels.runSelector workloadName
  | _ => False

theorem isCreate_eq {workloadName : String} {r : Request} (h : Asks workloadName r) :
    r.isCreate = false := by
  cases r with
  | createWorkload => exact False.elim h
  | _ => rfl

variable {config : Config} {stop : Signal} {deadline : Nat} {workloadName : String}

theorem deletePods_uses :
    Uses (S := Cluster) (Asks workloadName) (fun _ => False) config.Faults
      (deletePods config stop workloadName) :=
  Cluster.uses_call rfl

theorem remove_uses :
    Uses (S := Cluster) (Asks workloadName) (fun _ => False) config.Faults
      (remove config stop workloadName) := by
  have hdelete : Asks workloadName (.deleteWorkload workloadName) := rfl
  apply Uses.bind (Cluster.uses_call hdelete)
  intro deleted
  cases deleted with
  | error e => exact .pure
  | ok => exact deletePods_uses

theorem teardownPause_uses {outstanding : String} {calls : Request → Prop} {notes : Entry → Prop}
    {faults : Fault → Prop} :
    Uses (S := Cluster) calls notes faults (pause config stop deadline outstanding) := by
  apply Uses.bind pause_uses
  intro paused
  cases paused <;> exact .pure

theorem deleteAgain_uses {l : Lingering} :
    Uses (S := Cluster) (Asks workloadName) (fun _ => False) config.Faults
      (deleteAgain config stop workloadName l) := by
  apply Uses.bind .clock
  intro now
  split
  · exact .bind deletePods_uses fun _ => .bind .clock fun _ => .pure
  · exact .pure

theorem awaitPods_uses :
    Uses (S := Cluster) (Asks workloadName) (fun _ => False) config.Faults
      (awaitPods config stop deadline workloadName) := by
  apply Uses.bind .clock
  intro started
  apply Uses.iterate
  intro l
  have hlist : Asks workloadName (.listPods (Labels.runSelector workloadName)) := rfl
  apply Uses.bind (Cluster.uses_call hlist)
  intro listing
  split
  · exact .pure
  · apply Uses.bind deleteAgain_uses
    intro l
    apply Uses.bind teardownPause_uses
    intro paused
    cases paused <;> exact .pure

theorem present_uses :
    Uses (S := Cluster) (Asks workloadName) (fun _ => False) config.Faults
      (present config stop workloadName) := by
  apply Uses.iterate
  intro token
  have hlist : Asks workloadName (.listWorkloads (Labels.runSelector workloadName) token) := rfl
  apply Uses.bind (Cluster.uses_call hlist)
  intro listing
  cases listing with
  | error e => exact .pure
  | ok page =>
    dsimp only
    split
    · exact .pure
    · split <;> exact .pure

theorem awaitParent_uses :
    Uses (S := Cluster) (Asks workloadName) (fun _ => False) config.Faults
      (awaitParent config stop deadline workloadName) := by
  have wait : Uses (S := Cluster) (Asks workloadName) (fun _ => False) config.Faults
      (parentRound.wait config stop deadline workloadName) := by
    apply Uses.bind teardownPause_uses
    intro paused
    cases paused <;> exact .pure
  apply Uses.iterate
  intro _
  apply Uses.bind present_uses
  intro found
  rcases found with e | _ | _
  · dsimp only
    split
    · exact .pure
    · exact wait
  · exact .pure
  · exact wait

theorem run_uses :
    Uses (S := Cluster) (Asks workloadName) (fun _ => False) config.Faults
      (run config stop deadline workloadName) := by
  apply Uses.bind remove_uses
  intro removed
  cases removed with
  | error e => exact .pure
  | ok =>
    apply Uses.bind awaitPods_uses
    intro awaited
    cases awaited with
    | error e => exact .pure
    | ok => exact awaitParent_uses

end Teardown

namespace Worker

/-- What the worker can ask before its first sweep. -/
def Asks (host : String) : Request → Prop
  | .getPod name => name = host
  | .listNodes => True
  | _ => False

theorem isCreate_eq {host : String} {r : Request} (h : Asks host r) : r.isCreate = false := by
  cases r with
  | createWorkload => exact False.elim h
  | _ => rfl

variable {a : Assignment}

theorem owner_uses :
    Uses (S := Cluster) (Asks a.run.host) (fun _ => False) a.config.Faults (owner a) := by
  have hget : Asks a.run.host (.getPod a.run.host) := rfl
  apply Uses.bind (Cluster.uses_call hget)
  intro found
  rcases found with e | _ | pod <;> exact .pure

theorem tolerances_uses :
    Uses (S := Cluster) (Asks a.run.host) (fun _ => False) a.config.Faults (tolerances a) := by
  unfold tolerances
  split
  · exact .pure
  · have hdiscover : Uses (S := Cluster) (Asks a.run.host) (fun _ => False) a.config.Faults
        (ToleranceSet.discover .run a.config.apiBackoff a.config.allowedTaints) := by
      apply Uses.bind (Cluster.uses_call trivial)
      intro nodes
      cases nodes <;> exact .pure
    apply Uses.bind hdiscover
    intro discovered
    cases discovered <;> exact .pure

theorem record_uses {phase : Phase} {e : CheckError} {calls : Request → Prop}
    {notes : Entry → Prop} {faults : Fault → Prop} :
    Uses (S := Cluster) calls notes faults (record phase e) :=
  .bind .fired fun _ => .pure

theorem verify_uses {set : ToleranceSet} :
    Uses (S := Cluster) (Verification.Asks a.run.workloadName) (· = .entered .verifying)
      a.config.Faults (verify a set) := by
  have hnote : Uses (S := Cluster) (Verification.Asks a.run.workloadName)
      (· = .entered .verifying) a.config.Faults (.note (.entered .verifying)) := .note rfl
  apply Uses.bind hnote
  intro _
  apply Uses.bind (Verification.run_uses.mono (fun _ h => h) nofun)
  intro outcome
  cases outcome with
  | ok => exact .pure
  | error e => exact record_uses

theorem teardown_uses :
    Uses (S := Cluster) (Teardown.Asks a.run.workloadName) (· = .entered .tearingDown)
      a.config.Faults (teardown a) := by
  have hnote : Uses (S := Cluster) (Teardown.Asks a.run.workloadName)
      (· = .entered .tearingDown) a.config.Faults (.note (.entered .tearingDown)) := .note rfl
  apply Uses.bind hnote
  intro _
  apply Uses.bind .fired
  intro stopped
  apply Uses.bind .clock
  intro now
  apply Uses.bind (Teardown.run_uses.mono (fun _ h => h) nofun)
  intro outcome
  cases outcome <;> exact .pure

/-- The entries of a worker from deployment on. -/
def Notes : Entry → Prop
  | .entered .deploying | .entered .verifying | .entered .tearingDown => True
  | _ => False

theorem probe_uses {set : ToleranceSet} {x : Workload} :
    Uses (S := Cluster) (fun _ => True) Notes a.config.Faults (probe a set x) := by
  have enters (phase : Phase) (h : Notes (.entered phase)) :
      Uses (S := Cluster) (fun _ => True) Notes a.config.Faults (enter phase) := h
  have hdeploy : Uses (S := Cluster) (fun _ => True) Notes a.config.Faults
      (Deployment.run .run a.config.apiBackoff x) :=
    Deployment.run_uses.mono (fun _ _ => trivial) nofun
  have hverify : Uses (S := Cluster) (fun _ => True) Notes a.config.Faults (verify a set) :=
    verify_uses.mono (fun _ _ => trivial) (by rintro _ rfl; exact trivial)
  have hteardown : Uses (S := Cluster) (fun _ => True) Notes a.config.Faults (teardown a) :=
    teardown_uses.mono (fun _ _ => trivial) (by rintro _ rfl; exact trivial)
  apply Uses.bind (enters .deploying trivial)
  intro _
  apply Uses.bind hdeploy
  intro deployed
  cases deployed with
  | ok => exact .bind hverify fun _ => .bind hteardown fun _ => .pure
  | error e =>
    apply Uses.bind record_uses
    intro fs
    split
    · exact .pure
    · exact .bind hteardown fun _ => .pure

/-- Whatever it asks for, the process does not make the entry for the report. -/
abbrev Quiet (a : Assignment) {α : Type} (p : Process Cluster α) : Prop :=
  Uses (S := Cluster) (fun _ => True) (· ≠ .entered .reporting) a.config.Faults p

private theorem silent {α : Type} {p : Process Cluster α} {calls : Request → Prop}
    {notes : Entry → Prop} (h : p.Uses calls notes a.config.Faults)
    (hnotes : ¬ notes (.entered .reporting)) : Quiet a p := by
  apply h.mono fun _ _ => trivial
  rintro e he rfl
  exact hnotes he

theorem run_uses : Quiet a (run a) := by
  have enters (phase : Cluster.Phase) (h : phase ≠ .reporting) : Quiet a (enter phase) :=
    .note fun he => h (Entry.entered.inj he)
  have sweep (deadline : Nat) : Quiet a (Sweep.untilClear a.config .run deadline a.run) :=
    silent Sweep.untilClear_uses id
  refine .bind ?_ fun _ => .bind (enters .postCleanup nofun) fun _ => .pure
  apply Uses.bind (enters .init nofun)
  intro _
  apply Uses.bind (silent owner_uses id)
  intro owner
  apply Uses.bind (silent tolerances_uses id)
  intro set
  apply Uses.bind (enters .preCleanup nofun)
  intro _
  apply Uses.bind .clock
  intro now
  apply Uses.bind (sweep _)
  intro swept
  cases swept with
  | ok => exact silent probe_uses id
  | error e =>
    dsimp only
    split
    · exact record_uses
    · exact .bind (silent probe_uses id) fun _ => .pure

end Worker
end NodeCoverage
