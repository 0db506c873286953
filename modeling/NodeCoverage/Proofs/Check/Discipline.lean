import NodeCoverage.Proofs.Check.Ledger
import NodeCoverage.Proofs.Check.Promptness
import NodeCoverage.Proofs.Check.Reporting
/-!
# The order of the calls of a run

Whatever the cluster answers, and whenever the run is stopped, its calls come in the order of its
stages. Each part of the worker begins with an entry in the log, after which it makes the calls of
one stage only. The parts before teardown heed the signal that stops the run, so none of their calls
is made after it; and the only part that creates anything ends with the first creation that
succeeds. After an end by force no call is made any more.
-/

namespace NodeCoverage

open Cluster (Phase Request)
open Process (Meets Obeys Uses)

variable {B : Behaviour Cluster} {r : Run} {v w : World B} {s : Stage} {n : Nat} {c : Option Nat}

namespace Run.At

def Within (r : Run) (v : World B) (s : Stage) (w : World B) : Prop :=
  ∃ s', s'.rank ≤ s.rank ∧ r.At v s' 1 w

theorem within (h : r.At v s n w) (hn : n ≤ 1) {s' : Stage} (hs : s.rank ≤ s'.rank) :
    Within r v s' w :=
  ⟨s, hs, h.le hn⟩

theorem Within.mono (h : Within r v s w) {s' : Stage} (hs : s.rank ≤ s'.rank) :
    Within r v s' w := by
  obtain ⟨s'', hs'', h⟩ := h
  exact ⟨s'', Nat.le_trans hs'' hs, h⟩

theorem Within.halts {w' : World B} (h : Within r v s w) (hw : w.Halts c w') :
    Within r v s w' := by
  obtain ⟨s', hs, h⟩ := h
  exact ⟨s', hs, h.halts hw⟩

theorem Within.fire (signal : Signal) (h : Within r v s w) : Within r v s (w.fire signal) := by
  obtain ⟨s', hs, events, hadds, hupto, hfired⟩ := h
  refine ⟨s', hs, events, hadds, hupto, fun hstopped => ?_⟩
  simp only [World.fire, hfired hstopped, Bool.or_true]

theorem Within.enter (h : Within r v s w) {phase : Phase} {s' : Stage}
    (hphase : phase ≠ .shuttingDown) (hs : s.rank ≤ s'.rank) (hfits : s'.Fits r phase) :
    r.At v s' 1 (w.note (S := Cluster) (.entered phase)) := by
  obtain ⟨s'', hs', h⟩ := h
  exact h.enter hphase (Nat.le_trans hs' hs) hfits

/-! ### The parts of the worker -/

variable {α : Type} {p : Process Cluster α}

/-- A part that makes the calls of one stage, and that heeds the signal which stops the run. -/
theorem meets_part {Q : α → Prop} (hw : r.At v s n w) (hn : n ≤ 1) (hs : s ≠ .creation)
    {faults : Fault → Prop} (hp : p.Obeys .run Q)
    (hu : p.Uses (s.Asks r) Sweep.Notes faults) :
    Meets (fun _ => World.Halts c) (Within r v .postSweep) p w fun _ w' => r.At v s n w' := by
  refine (Meets.of_obeys (I := r.At v s n) hw ?_ hp hu).within (fun _ _ _ h he => h.halts he)
    fun w h => h.within hn ?_
  · exact
      { call := fun hr h => ⟨h.1.call hr (.inr h.2), h.2⟩
        answer := fun hr h => ⟨h.1.answer_other hs hr, h.2⟩
        note := fun hentry h => ⟨h.1.note hentry, h.2⟩ }
  · cases s <;> decide

/-- What the stages of clearing up keep, whether or not the run has been stopped. -/
theorem keeps_cleanup (hs : s.isCleanup = true) :
    Keeps (S := Cluster) (s.Asks r) Sweep.Notes (r.At v s n) where
  call hr h := h.call hr (.inl hs)
  answer hr h := by
    refine h.answer_other ?_ hr
    rintro rfl
    cases hs
  note hentry h := h.note hentry

/-- Creation ends with the first attempt that succeeds. -/
theorem meets_create {policy : Backoff} {x : Workload} (hw : r.At v .creation 0 w) :
    Meets (fun _ => World.Halts c) (Within r v .postSweep)
      (Cluster.call .run policy (.createWorkload x)) w fun o w' =>
        (o.isOk = true → r.At v .creation 1 w') ∧ (o.isOk = false → r.At v .creation 0 w') := by
  refine Meets.within (J := r.At v .creation 0) ?_ (fun _ _ _ h he => h.halts he)
    fun w h => h.within (Nat.zero_le 1) (by decide)
  apply Cluster.meets_attempts World.Halts.transitive hw
  · intro w hw hunfired
    exact hw.call rfl (.inr hunfired)
  · intro w₀ w₁ _ _ hw₁ _
    refine ⟨⟨fun _ => ?_, fun herror => hw₁.answer_error herror⟩, fun e he _ => ?_⟩
    · exact hw₁.answer (Nat.zero_le 1) fun _ _ => Nat.zero_lt_one
    · exact hw₁.answer_error (congrArg Except.isOk he)
  · intro w hw _
    exact ⟨nofun, fun _ => hw⟩

end Run.At

namespace Worker

open Run.At (Within meets_part)

variable {a : Assignment} {α : Type}

/-- The invariant of the worker; its parts say more. -/
private abbrev Orders (c : Option Nat) (v : World B) (a : Assignment) (p : Process Cluster α)
    (w : World B) (Q : α → World B → Prop) : Prop :=
  Meets (fun _ => World.Halts c) (Within a.run v .postSweep) p w Q

theorem meets_enter (s' : Stage) {phase : Phase} {Q : Unit → World B → Prop}
    (hw : a.run.At v s n w) (hphase : phase ≠ .shuttingDown) (hs : s.rank ≤ s'.rank)
    (hfits : s'.Fits a.run phase) (hQ : ∀ w', a.run.At v s' n w' → Q () w') :
    Orders c v a (enter phase) w Q :=
  .note (hQ _ (hw.enter hphase hs hfits))

theorem deploy_stages {x : Workload} (hw : a.run.At v .creation 0 w) :
    Orders c v a (Deployment.run .run a.config.apiBackoff x) w fun _ w' =>
      Within a.run v .adoption w' := by
  apply (Run.At.meets_create hw).seq
  rintro (e | _) w₁ ⟨hok, herror⟩
  · dsimp only
    split
    · -- the name is taken: from here on it is only looked up
      have hw₁ : a.run.At v .adoption 0 w₁ := by
        refine (herror rfl).mono (by decide) (fun phase hfits r hr => ?_) (Nat.le_refl 0)
        obtain ⟨name, rfl⟩ := hr
        have hcreation := hfits (.createWorkload x) rfl
        cases phase <;> first | rfl | cases hcreation
      have hadopt : (Deployment.adopt .run a.config.apiBackoff x e).Uses
          (Stage.adoption.Asks a.run) Sweep.Notes a.config.Faults := by
        apply Uses.bind (Cluster.uses_call ⟨_, rfl⟩)
        intro existing
        cases existing <;> exact .pure
      have hobeys : (Deployment.adopt .run a.config.apiBackoff x e).Obeys .run Cancellation :=
        .relay Cluster.obeys_call (fun _ => rfl) fun _ => trivial
      exact (meets_part hw₁ (Nat.zero_le 1) nofun hobeys hadopt).mono fun _ w' h =>
        h.within (Nat.zero_le 1) (Nat.le_refl _)
    · exact .pure ((herror rfl).within (Nat.zero_le 1) (by decide))
  · exact .pure ((hok rfl).within (Nat.le_refl 1) (by decide))

theorem record_stages {phase : Phase} {e : CheckError} (hw : Within a.run v s w)
    (hs : s.rank ≤ Stage.postSweep.rank) :
    Orders c v a (record phase e) w fun _ w' => Within a.run v s w' := by
  have hrecord : Meets (fun _ => World.Halts c) (Within a.run v s) (record phase e) w
      fun _ w' => Within a.run v s w' := by
    refine .bind (.fired ?_)
    exact .pure hw
  exact hrecord.within (fun _ _ _ h he => h.halts he) fun _ h => h.mono hs

theorem verify_stages {set : ToleranceSet} (hw : Within a.run v .adoption w) :
    Orders c v a (verify a set) w fun _ w' => Within a.run v .sampling w' := by
  refine .bind (.note ?_)
  have hw : a.run.At v .sampling 1 (w.note (S := Cluster) (.entered .verifying)) :=
    hw.enter nofun (by decide) fun _ _ => rfl
  apply (meets_part hw (Nat.le_refl 1) nofun Verification.run_obeys
    (Verification.run_uses.mono (fun _ h => h) nofun)).seq
  intro outcome w₁ hw₁
  have hw₁ : Within a.run v .sampling w₁ := hw₁.within (Nat.le_refl 1) (Nat.le_refl _)
  cases outcome with
  | ok => exact .pure hw₁
  | error e => exact record_stages hw₁ (by decide)

/-- Teardown goes on when the run has been stopped. -/
theorem teardown_stages (hw : Within a.run v .sampling w) :
    Orders c v a (teardown a) w fun _ w' => Within a.run v .removal w' := by
  refine .bind (.note (.bind (.fired (.bind (.clock ?_)))))
  have hw : a.run.At v .removal 1 (w.note (S := Cluster) (.entered .tearingDown)) :=
    hw.enter nofun (by decide) fun _ _ => rfl
  apply Meets.seq (P := fun _ w' => a.run.At v .removal 1 w')
  · refine (Meets.of_uses hw (Run.At.keeps_cleanup rfl)
      (Teardown.run_uses.mono (fun _ h => h) nofun)).within (fun _ _ _ h he => h.halts he)
        fun w h => h.within (Nat.le_refl 1) (by decide)
  · intro outcome w₁ hw₁
    have hw₁ : Within a.run v .removal w₁ := hw₁.within (Nat.le_refl 1) (Nat.le_refl _)
    cases outcome <;> exact .pure hw₁

theorem probe_stages {set : ToleranceSet} {x : Workload} (hw : a.run.At v .preSweep 0 w) :
    Orders c v a (probe a set x) w fun _ w' => Within a.run v .removal w' := by
  refine .bind (meets_enter .creation hw nofun (by decide) ?_ fun w₀ hw₀ => ?_)
  · intro r hr
    simp only [Stage.Asks] at hr
    simp only [Stage.ofCall, hr, if_true]
  apply (deploy_stages hw₀).seq
  intro deployed w₁ hw₁
  cases deployed with
  | ok =>
    apply (verify_stages hw₁).seq
    intro fs w₂ hw₂
    apply (teardown_stages hw₂).seq
    intro gs w₃ hw₃
    exact .pure hw₃
  | error e =>
    apply (record_stages hw₁ (by decide)).seq
    intro fs w₂ hw₂
    split
    · exact .pure (hw₂.mono (by decide))
    · apply (teardown_stages (hw₂.mono (by decide))).seq
      intro gs w₃ hw₃
      exact .pure hw₃

theorem work_stages (hw : a.run.At v .discovery 0 w) :
    Orders c v a (work a) w fun _ w' => Within a.run v .removal w' := by
  refine .bind (meets_enter .discovery hw nofun (Nat.le_refl _) (fun _ _ => rfl)
    fun w₀ hw₀ => ?_)
  apply (meets_part hw₀ (Nat.zero_le 1) nofun owner_obeys
    (owner_uses.mono (fun _ h => h) nofun)).seq
  intro owner w₁ hw₁
  apply (meets_part hw₁ (Nat.zero_le 1) nofun tolerances_obeys
    (tolerances_uses.mono (fun _ h => h) nofun)).seq
  intro set w₂ hw₂
  refine .bind (meets_enter .preSweep hw₂ nofun (by decide) (fun _ _ => rfl)
    fun w₃ hw₃ => .bind (.clock ?_))
  apply (meets_part hw₃ (Nat.zero_le 1) nofun Sweep.untilClear_obeys
    (Sweep.untilClear_uses.mono (fun _ h => h) fun _ h => h)).seq
  intro swept w₄ hw₄
  cases swept with
  | ok => exact probe_stages hw₄
  | error e =>
    dsimp only
    split
    · exact record_stages (hw₄.within (Nat.zero_le 1) (by decide)) (by decide)
    · apply (probe_stages hw₄).seq
      intro fs w₅ hw₅
      exact .pure hw₅

theorem run_stages (hw : a.run.At v .discovery 0 w) :
    Orders c v a (run a) w fun _ w' => a.run.At v .postSweep 1 w' := by
  apply (work_stages hw).seq
  intro fs w₁ hw₁
  refine .bind (.note (.pure ?_))
  exact hw₁.enter nofun (by decide) fun _ _ => rfl

end Worker

namespace Lifecycle

/-- What was done since `v` is in order. -/
def Disciplined (r : Run) (v w : World B) : Prop :=
  ∃ events, v.Adds events w ∧ (Ledger.ofEvents events).Orderly r 1

variable {fuel : Nat} {rt : Runtime} {config : Config} {interrupts : List Nat} {reporter : Reporter}
  {m : Aftermath B}

theorem disciplined_of_within (h : Run.At.Within r v s w) : Disciplined r v w := by
  obtain ⟨_, -, events, hadds, hupto, -⟩ := h
  exact ⟨events, hadds, hupto.toOrderly⟩

theorem keptBySweeps_at : KeptBySweeps fun w : World B => r.At v .postSweep n w where
  keeps := Run.At.keeps_cleanup (s := .postSweep) rfl
  advance _ t h := h.halts (c := none) (.advance _ t)

theorem runToEnd_stages {a : Assignment} {e : WorkerEnd B} {w' : World B}
    (h : runToEnd fuel rt a interrupts w = some (e, w')) :
    Run.At.Within a.run w .postSweep w' ∧
      ∃ st, EndsAs a e st ∧ ∀ fs, st = .finished fs → a.run.At w .postSweep 1 w' := by
  obtain ⟨st, hstands, hend⟩ := runToEnd_halts h
  obtain ⟨hdone, hunfinished⟩ := hstands.of_meets flows_halts
    (fun w₀ h₀ => Worker.run_stages ((Run.At.refl w).halts h₀))
    (fun _ _ h he => h.halts he) ((Run.At.refl w).within (Nat.zero_le 1) (by decide))
    fun _ _ _ h he => h.halts he
  refine ⟨?_, st, hend, hdone⟩
  cases st with
  | finished fs => exact (hdone fs rfl).within (Nat.le_refl 1) (Nat.le_refl _)
  | suspended | crashed | exhausted => exact hunfinished nofun

/-- A worker that had come to its end unnoticed has begun the last sweep. -/
theorem abandon_stages {a : Assignment} {st : Status B (List Failure)}
    (hdone : ∀ fs, st = .finished fs → r.At v .postSweep 1 w)
    (hw : Run.At.Within r v .postSweep w) :
    Run.At.Within r v .postSweep (abandon fuel rt a w st).2 := by
  cases st with
  | finished fs =>
    exact (beginSweep_keeps keptBySweeps_at (hdone fs rfl)).1.within (Nat.le_refl 1) (Nat.le_refl _)
  | suspended | crashed | exhausted => exact hw

theorem conclude_stages {a : Assignment} {cause : Option StopCause} {own : List Failure}
    {sweep : Option (Status B (Except CheckError SweepReport))} (hsweep : ∀ st ∈ sweep, Sweeps st)
    (hw : Run.At.Within r v .postSweep w)
    (h : conclude fuel rt a reporter cause own sweep w = some m) :
    r.At v .postSweep 1 m.world ∧ (∀ st ∈ m.sweep, Sweeps st) ∧ m.summary.exit ≠ .forced := by
  refine conclude_keeps keptBySweeps_at (fun _ hw => ?_) hsweep ?_ h
  · exact hw.enter nofun (Nat.le_refl _) fun _ _ => rfl
  · exact hw.enter nofun (Nat.le_refl _) fun _ _ => rfl

/-- The calls of a run come in the order of its stages, and not more than one creation succeeds;
after it was stopped it only clears up. All this is still so when what is under way has gone on for
however long. After an end by force the run does nothing any more. -/
theorem calls_in_order (h : run fuel rt config r interrupts reporter w = some m) :
    (∀ fuel', Disciplined r w (m.settle fuel').world) ∧
      (m.summary.exit = .forced → ∀ fuel', (m.settle fuel').world = m.world) := by
  refine ⟨fun fuel' => ?_, fun hexit => settle_of_forced h hexit⟩
  -- the last sweep goes on in order
  have settles (hat : r.At w .postSweep 1 m.world ∧ (∀ st ∈ m.sweep, Sweeps st) ∧
      m.summary.exit ≠ .forced) : Disciplined r w (m.settle fuel').world := by
    obtain ⟨hworld, hsweep, hexit⟩ := hat
    rw [settle_of_ne_forced h hexit]
    exact disciplined_of_within
      ((continueSweep_keeps keptBySweeps_at fuel' none hsweep hworld).1.within (Nat.le_refl 1)
        (Nat.le_refl _))
  obtain ⟨e, w₁, hend, hfollows⟩ := run_follows h
  obtain ⟨hwithin, st, hst, hdone⟩ := runToEnd_stages hend
  cases hfollows with
  | forced hm =>
    cases hm
    rw [force_settle]
    refine disciplined_of_within (.fire .hardStop (abandon_stages ?_ hwithin))
    rintro fs rfl
    cases hst
    exact hdone fs rfl
  | crashed hconclude =>
    exact settles (conclude_stages (fun st hst => by cases hst) hwithin hconclude)
  | done hconclude =>
    cases hst
    obtain ⟨hbegun, hsweeps⟩ := beginSweep_keeps keptBySweeps_at (hdone _ rfl)
    refine settles (conclude_stages ?_ (hbegun.within (Nat.le_refl 1) (Nat.le_refl _)) hconclude)
    rintro _ ⟨⟩
    exact hsweeps

/-- The theorem for a run that is interrupted twice. -/
theorem calls_in_order_forced : ∃ m : Aftermath Leftovers.lossy,
    run 400 .simulated .standard Leftovers.probe [1000000000, 1000000000] Leftovers.prompt
        Leftovers.bare = some m ∧ m.summary.exit = .forced ∧
      ∀ fuel', Disciplined Leftovers.probe Leftovers.bare m.world ∧
        (m.settle fuel').world = m.world := by
  have h : (run 400 .simulated .standard Leftovers.probe [1000000000, 1000000000] Leftovers.prompt
      Leftovers.bare).any (fun m => m.summary.exit = .forced) = true := by
    decide +kernel
  obtain ⟨m, hrun, hexit⟩ := (Option.any_eq_true _ _).mp h
  have hexit := of_decide_eq_true hexit
  obtain ⟨hdisciplined, hsettle⟩ := calls_in_order hrun
  refine ⟨m, hrun, hexit, fun fuel' => ⟨?_, hsettle hexit fuel'⟩⟩
  have hworld := hdisciplined fuel'
  rwa [hsettle hexit fuel'] at hworld

end Lifecycle
end NodeCoverage
