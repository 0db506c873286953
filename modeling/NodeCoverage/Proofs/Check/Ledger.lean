import NodeCoverage.Proofs.Check.Course
import NodeCoverage.Proofs.Check.Footprint
import NodeCoverage.Proofs.Process.Heeds
import NodeCoverage.Proofs.Process.Trace
/-!
# The calls of a run in their stages

The log tells in which phase a run was when it made a call, and whether it had been stopped by then.
From this the calls are entered in a ledger, each under the stage it belongs to. A ledger is orderly
if the stages follow each other, if each call is one of those that its stage makes, if a run that
was stopped only clears up, and if no more than one creation succeeded.
-/

namespace NodeCoverage

open Cluster (Entry Phase Request)
open Process (Meets Uses)

variable {B : Behaviour Cluster}

/-- What a run is at when it makes a call. -/
inductive Stage where
  /-- Its own pod and the nodes are looked up. -/
  | discovery
  | preSweep
  | creation
  /-- The name was taken, and it is looked up by whom. -/
  | adoption
  /-- The samples of verification. -/
  | sampling
  /-- What was deployed is deleted, and waited for to be gone. -/
  | removal
  | postSweep
deriving DecidableEq

namespace Stage

/-- The stages in their order. -/
def rank : Stage → Nat
  | discovery => 0
  | preSweep => 1
  | creation => 2
  | adoption => 3
  | sampling => 4
  | removal => 5
  | postSweep => 6

/-- The stage of a call that is made in a phase. The last sweep goes on while the run reports. -/
def ofCall (phase : Phase) (r : Request) : Stage :=
  match phase with
  | .init | .shuttingDown => discovery
  | .preCleanup => preSweep
  | .deploying => if r.isCreate then creation else adoption
  | .verifying => sampling
  | .tearingDown => removal
  | .postCleanup | .reporting | .done => postSweep

def Asks (run : Run) : Stage → Request → Prop
  | discovery => Worker.Asks run.host
  | preSweep => Sweep.Asks
  | creation => fun r => r.isCreate = true
  | adoption => fun r => ∃ name, r = .getWorkload name
  | sampling => Verification.Asks run.workloadName
  | removal => Teardown.Asks run.workloadName
  | postSweep => Sweep.Asks

/-- A stopped run only clears up. -/
def isCleanup : Stage → Bool
  | removal | postSweep => true
  | _ => false

theorem isCreate_eq {run : Run} {s : Stage} {r : Request} (hs : s ≠ creation)
    (h : s.Asks run r) : r.isCreate = false := by
  cases s with
  | creation => exact absurd rfl hs
  | adoption =>
    obtain ⟨name, rfl⟩ := h
    rfl
  | discovery => exact Worker.isCreate_eq h
  | preSweep | postSweep => exact Sweep.isCreate_eq h
  | removal => exact Teardown.isCreate_eq h
  | sampling =>
    cases r with
    | createWorkload => exact False.elim h
    | _ => rfl

/-- In this phase the calls of the stage are taken for what they are. -/
def Fits (run : Run) (s : Stage) (phase : Phase) : Prop :=
  ∀ r, s.Asks run r → ofCall phase r = s

end Stage

/-- A call, the stage it was made in, and whether the run had been stopped before. -/
structure StagedCall where
  stage : Stage
  stopped : Bool
  request : Request

/-- What the log says of the calls of a run. -/
structure Ledger where
  phase : Phase
  stopped : Bool
  calls : List StagedCall
  /-- Creations that succeeded. -/
  created : Nat

def Event.isCreated : Event Cluster → Bool
  | .answered _ _ (.createWorkload _) (.ok ()) => true
  | _ => false

namespace Ledger

def record (l : Ledger) (e : Event Cluster) : Ledger :=
  match e with
  | .called _ _ r => { l with calls := l.calls ++ [⟨.ofCall l.phase r, l.stopped, r⟩] }
  | .answered .. => if e.isCreated then { l with created := l.created + 1 } else l
  | .noted _ (.entered .shuttingDown) => { l with stopped := true }
  | .noted _ (.entered phase) => { l with phase }
  | .noted _ (.orphan ..) => l

def ofEvents (events : List (Event Cluster)) : Ledger :=
  events.foldl record ⟨.init, false, [], 0⟩

theorem record_stops (l : Ledger) (stops : List Nat) :
    (stops.map fun t => Event.noted (S := Cluster) t (.entered .shuttingDown)).foldl record l =
      { l with stopped := l.stopped || !stops.isEmpty } := by
  induction stops generalizing l with
  | nil => simp
  | cons t stops ih =>
    rw [List.map_cons, List.foldl_cons, ih]
    simp [record]

/-- The stages follow each other, each makes its own calls, a run that was stopped clears up and
creates nothing, and not more than `n` creations succeeded. -/
structure Orderly (run : Run) (n : Nat) (l : Ledger) : Prop where
  sorted : l.calls.Pairwise fun c d => c.stage.rank ≤ d.stage.rank
  asked : ∀ c ∈ l.calls, c.stage.Asks run c.request
  stopped : ∀ c ∈ l.calls, c.stopped = true →
    c.stage.isCleanup = true ∧ c.request.isCreate = false
  created : l.created ≤ n

/-- The ledger is orderly, and has come to this stage. -/
structure Upto (run : Run) (s : Stage) (n : Nat) (l : Ledger) : Prop extends Orderly run n l where
  bounded : ∀ c ∈ l.calls, c.stage.rank ≤ s.rank
  fits : s.Fits run l.phase

namespace Upto

variable {run : Run} {s s' : Stage} {n m : Nat} {l : Ledger}

theorem empty : (ofEvents []).Upto run .discovery 0 where
  sorted := .nil
  asked := List.forall_mem_nil _
  stopped := List.forall_mem_nil _
  bounded := List.forall_mem_nil _
  fits _ _ := rfl
  created := Nat.le_refl 0

theorem mono (h : l.Upto run s n) (hs : s.rank ≤ s'.rank) (hfits : s'.Fits run l.phase)
    (hn : n ≤ m) : l.Upto run s' m :=
  { h with
    bounded := fun c hc => Nat.le_trans (h.bounded c hc) hs
    fits := hfits
    created := Nat.le_trans h.created hn }

theorem call (h : l.Upto run s n) {t k : Nat} {r : Request} (hr : s.Asks run r)
    (hstopped : l.stopped = true → s.isCleanup = true ∧ r.isCreate = false) :
    (l.record (.called t k r)).Upto run s n where
  sorted := by
    refine List.pairwise_append.mpr ⟨h.sorted, List.pairwise_singleton .., fun c hc d hd => ?_⟩
    cases List.mem_singleton.mp hd
    rw [h.fits r hr]
    exact h.bounded c hc
  asked c hc := by
    rcases List.mem_append.mp hc with hc | hc
    · exact h.asked c hc
    · cases List.mem_singleton.mp hc
      simpa only [h.fits r hr] using hr
  stopped c hc := by
    rcases List.mem_append.mp hc with hc | hc
    · exact h.stopped c hc
    · cases List.mem_singleton.mp hc
      simpa only [h.fits r hr] using hstopped
  bounded c hc := by
    rcases List.mem_append.mp hc with hc | hc
    · exact h.bounded c hc
    · cases List.mem_singleton.mp hc
      exact Nat.le_of_eq (congrArg Stage.rank (h.fits r hr))
  fits := h.fits
  created := h.created

theorem answer (h : l.Upto run s n) {t k : Nat} {r : Request} {x : Cluster.Reply r}
    (hm : n ≤ m) (hx : (Event.answered (S := Cluster) t k r x).isCreated = true → n < m) :
    (l.record (.answered t k r x)).Upto run s m := by
  simp only [record]
  split
  · next hcreated =>
    exact { h with created := Nat.le_trans (Nat.succ_le_succ h.created) (hx hcreated) }
  · exact { h with created := Nat.le_trans h.created hm }

theorem enter (h : l.Upto run s n) {t : Nat} {phase : Phase} (hphase : phase ≠ .shuttingDown)
    (hs : s.rank ≤ s'.rank) (hfits : s'.Fits run phase) :
    (l.record (.noted t (.entered phase))).Upto run s' n := by
  have hrecord : l.record (.noted t (.entered phase)) = { l with phase } := by
    cases phase with
    | shuttingDown => exact absurd rfl hphase
    | _ => rfl
  rw [hrecord]
  exact { h with bounded := fun c hc => Nat.le_trans (h.bounded c hc) hs, fits := hfits }

end Upto
end Ledger

/-! ### Worlds -/

/-- What a run has done since `v` is in order so far, and has come to this stage. If the log says
that it was stopped, then it was. -/
def Run.At (run : Run) (v : World B) (s : Stage) (n : Nat) (w : World B) : Prop :=
  ∃ events, v.Adds events w ∧ (Ledger.ofEvents events).Upto run s n ∧
    ((Ledger.ofEvents events).stopped = true → w.fired .run = true)

namespace Run.At

variable {run : Run} {v w w' : World B} {s s' : Stage} {n m : Nat}

theorem refl (v : World B) : run.At v .discovery 0 v :=
  ⟨[], .refl v, .empty, nofun⟩

theorem mono (h : run.At v s n w) (hs : s.rank ≤ s'.rank)
    (hfits : ∀ phase, s.Fits run phase → s'.Fits run phase) (hn : n ≤ m) : run.At v s' m w := by
  obtain ⟨events, hadds, hupto, hfired⟩ := h
  exact ⟨events, hadds, hupto.mono hs (hfits _ hupto.fits) hn, hfired⟩

theorem le (h : run.At v s n w) (hn : n ≤ m) : run.At v s m w :=
  h.mono (Nat.le_refl _) (fun _ => id) hn

theorem snoc {e : Event Cluster} (h : run.At v s n w) (hadds : w.Adds [e] w')
    (hupto : ∀ l : Ledger, l.Upto run s n → (l.stopped = true → w.fired .run = true) →
      (l.record e).Upto run s' m ∧ ((l.record e).stopped = true → w'.fired .run = true)) :
    run.At v s' m w' := by
  obtain ⟨events, hevents, hl, hfired⟩ := h
  refine ⟨events ++ [e], hevents.trans hadds, ?_⟩
  rw [Ledger.ofEvents, List.foldl_append]
  exact hupto _ hl hfired

theorem call (h : run.At v s n w) {r : Request} (hr : s.Asks run r)
    (hs : s.isCleanup = true ∨ w.fired .run = false) : run.At v s n (w.call r).2 := by
  refine h.snoc (World.adds_call w r) fun l hl hfired => ⟨hl.call hr fun hstopped => ?_, hfired⟩
  rcases hs with hs | hs
  · refine ⟨hs, Stage.isCreate_eq ?_ hr⟩
    rintro rfl
    cases hs
  · rw [hfired hstopped] at hs
    cases hs

section

variable {r : Request} {k : Nat} {ticket : B.Ticket}

theorem answer (h : run.At v s n w) (hm : n ≤ m)
    (hx : (w.answer k r ticket).1.isOk = true → r.isCreate = true → n < m) :
    run.At v s m (w.answer k r ticket).2 := by
  refine h.snoc (World.adds_answer w k r ticket) fun l hl hfired => ⟨hl.answer hm ?_, ?_⟩
  · generalize (w.answer k r ticket).1 = x at hx
    intro hcreated
    cases r with
    | createWorkload =>
      cases x with
      | ok => exact hx rfl rfl
      | error => cases hcreated
    | _ => cases hcreated
  · simp only [Ledger.record]
    split <;> exact hfired

theorem answer_error (h : run.At v s n w) (hx : (w.answer k r ticket).1.isOk = false) :
    run.At v s n (w.answer k r ticket).2 :=
  h.answer (Nat.le_refl n) fun hok _ => absurd (hx.symm.trans hok) Bool.false_ne_true

theorem answer_other (h : run.At v s n w) (hs : s ≠ .creation) (hr : s.Asks run r) :
    run.At v s n (w.answer k r ticket).2 :=
  h.answer (Nat.le_refl n) fun _ hcreate =>
    absurd ((Stage.isCreate_eq hs hr).symm.trans hcreate) Bool.false_ne_true

end

theorem enter (h : run.At v s n w) {phase : Phase} (hphase : phase ≠ .shuttingDown)
    (hs : s.rank ≤ s'.rank) (hfits : s'.Fits run phase) :
    run.At v s' n (w.note (S := Cluster) (.entered phase)) := by
  refine h.snoc (World.adds_note w _) fun l hl hfired => ⟨hl.enter hphase hs hfits, ?_⟩
  cases phase with
  | shuttingDown => exact absurd rfl hphase
  | _ => exact hfired

theorem note (h : run.At v s n w) {entry : Entry} (hentry : Sweep.Notes entry) :
    run.At v s n (w.note (S := Cluster) entry) := by
  refine h.snoc (World.adds_note w _) fun l hl hfired => ?_
  cases entry with
  | entered => exact False.elim hentry
  | orphan => exact ⟨hl, hfired⟩

theorem halts {c : Option Nat} (h : run.At v s n w) (hw : w.Halts c w') : run.At v s n w' := by
  obtain ⟨events, hadds, hl, hfired⟩ := h
  obtain ⟨stops, hstops⟩ := hw.passes.trace_eq
  refine ⟨_, hadds.trans hstops, ?_⟩
  rw [Ledger.ofEvents, List.foldl_append, Ledger.record_stops]
  refine ⟨{ hl with }, fun hstopped => ?_⟩
  rcases Bool.or_eq_true_iff.mp hstopped with hbefore | hnow
  · exact hw.passes.fired_mono _ (hfired hbefore)
  · rcases hw.stopped with ⟨hsame, -⟩ | ⟨-, hrun, -⟩
    · rw [hstops] at hsame
      simp_all
    · exact hrun

end Run.At
end NodeCoverage
