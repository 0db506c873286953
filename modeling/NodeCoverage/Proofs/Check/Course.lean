import NodeCoverage.Proofs.Check.Waiting
import NodeCoverage.Proofs.Process.Meets
/-!
# The course of a run

Whatever the interrupts and the deadline do to the worker is time passing and signals firing while
it waits, so what holds of the worker in such surroundings holds in every run. A run that does not
end by force comes to its report in a certain world, whether or not the reporter ever answers.
-/

namespace NodeCoverage

open Process (Reaches Awaits Yields)

variable {B : Behaviour Cluster}

/-- Time passes, and the run may be stopped; nothing else happens. -/
structure World.Passes (w w' : World B) : Prop where
  now_le : w.now ≤ w'.now
  state_eq : w'.state = w.state
  calls_eq : w'.calls = w.calls
  fired_mono : ∀ s, w.fired s = true → w'.fired s = true
  hardStop_eq : w'.fired .hardStop = w.fired .hardStop
  trace_eq : ∃ stops : List Nat, w'.trace = w.trace ++
    (stops.map fun t => Event.noted (S := Cluster) t (.entered .shuttingDown)).toArray

namespace World.Passes

theorem refl (w : World B) : w.Passes w :=
  ⟨Nat.le_refl _, rfl, rfl, fun _ h => h, rfl, [], by simp⟩

theorem trans {w₁ w₂ w₃ : World B} (h₁ : w₁.Passes w₂) (h₂ : w₂.Passes w₃) : w₁.Passes w₃ := by
  refine ⟨Nat.le_trans h₁.now_le h₂.now_le, h₂.state_eq.trans h₁.state_eq,
    h₂.calls_eq.trans h₁.calls_eq, fun s h => h₂.fired_mono s (h₁.fired_mono s h),
    h₂.hardStop_eq.trans h₁.hardStop_eq, ?_⟩
  obtain ⟨stops₁, e₁⟩ := h₁.trace_eq
  obtain ⟨stops₂, e₂⟩ := h₂.trace_eq
  exact ⟨stops₁ ++ stops₂, by simp [e₁, e₂]⟩

theorem advance (w : World B) (t : Nat) : w.Passes (w.advance t) :=
  ⟨Nat.le_max_left .., rfl, rfl, fun _ h => h, rfl, [], by simp [World.advance]⟩

theorem stop (cause : StopCause) (w : World B) : w.Passes (Lifecycle.stop cause w) := by
  refine ⟨?_, ?_, ?_, ?_, ?_, [w.now], ?_⟩
  all_goals
    simp only [Lifecycle.stop, World.note, World.noteAt, World.fire]
    split <;> simp +contextual

theorem size_le {w w' : World B} (h : w.Passes w') : w.trace.size ≤ w'.trace.size := by
  obtain ⟨stops, hstops⟩ := h.trace_eq
  simp [hstops]

end World.Passes

/-- Time passes, and the run may be stopped, at `c` at the earliest. The log says whether it was. -/
structure World.Halts (c : Option Nat) (w w' : World B) : Prop where
  passes : w.Passes w'
  stopped : (w'.trace = w.trace ∧ w'.fired .run = w.fired .run) ∨
    w.trace.size < w'.trace.size ∧ w'.fired .run = true ∧ ∃ t ∈ c, t ≤ w'.now

namespace World.Halts

variable {c : Option Nat}

theorem refl (w : World B) : w.Halts c w :=
  ⟨.refl w, .inl ⟨rfl, rfl⟩⟩

theorem advance (w : World B) (t : Nat) : w.Halts c (w.advance t) :=
  ⟨.advance w t, .inl ⟨rfl, rfl⟩⟩

theorem trans {w₁ w₂ w₃ : World B} (h₁ : w₁.Halts c w₂) (h₂ : w₂.Halts c w₃) : w₁.Halts c w₃ := by
  refine ⟨h₁.passes.trans h₂.passes, ?_⟩
  rcases h₁.stopped with ⟨htrace, hrun⟩ | ⟨hsize, hrun, t, ht, hle⟩
  · rw [← htrace, ← hrun]
    exact h₂.stopped
  · exact .inr ⟨Nat.lt_of_lt_of_le hsize h₂.passes.size_le, h₂.passes.fired_mono _ hrun, t, ht,
      Nat.le_trans hle h₂.passes.now_le⟩

theorem stop (cause : StopCause) {w : World B} (h : c = some w.now) :
    w.Halts c (Lifecycle.stop cause w) := by
  refine ⟨.stop cause w, .inr ⟨?_, ?_, w.now, h, ?_⟩⟩
  all_goals
    simp only [Lifecycle.stop, World.note, World.noteAt, World.fire]
    split <;> simp

theorem transitive : Surroundings.Transitive (B := B) fun _ => World.Halts c :=
  fun _ _ _ _ h₁ h₂ => h₁.trans h₂

end World.Halts

/-- The timer that is waited for; it is the beginning of time if there is none. -/
def Status.wake {α : Type} : Status B α → Nat
  | .suspended s => s.wake
  | .finished _ | .crashed _ | .exhausted => 0

namespace Lifecycle

/-- What can happen while the worker waits. -/
def passing : Surroundings B :=
  fun _ w w' => w.Passes w'

theorem passing_transitive : (passing (B := B)).Transitive :=
  fun _ _ _ _ h₁ h₂ => h₁.trans h₂

theorem passing_of_yields {α : Type} {a : α} {p : Process Cluster α} {w w' : World B}
    (h : Yields p w a w') : Reaches passing p w (.finished a) w' := by
  refine Reaches.mono ?_ h
  rintro t w₁ _ rfl
  exact .advance w₁ t

/-! ### The worker in its surroundings -/

/-- How the worker stands at its end. One that is not waited for may not have begun. -/
inductive EndsAs (a : Assignment) : WorkerEnd B → Status B (List Failure) → Prop
  | done (cause : Option StopCause) (fs : List Failure) : EndsAs a (.done cause fs) (.finished fs)
  | crashed (cause : Option StopCause) (f : Fault) : EndsAs a (.crashed cause f) (.crashed f)
  | forced (cause : StopCause) (st : Status B (List Failure)) : EndsAs a (.forced cause st) st
  | unbegun (cause : StopCause) :
    EndsAs a (.forced cause (.suspended (.ready (Worker.run a)))) .exhausted

theorem EndsAs.of_ended {a : Assignment} {e : WorkerEnd B} {cause : Option StopCause}
    {st : Status B (List Failure)} (h : WorkerEnd.ended? cause st = some e) : EndsAs a e st := by
  cases st with
  | finished fs =>
    cases h
    exact .done cause fs
  | crashed f =>
    cases h
    exact .crashed cause f
  | suspended | exhausted => cases h

variable {fuel : Nat} {rt : Runtime} {a : Assignment} {interrupts : List Nat} {w w' : World B}
  {e : WorkerEnd B}

/-- Surroundings in which the clock can move on, though not beyond the timer that is waited for. -/
structure Flows (E : Surroundings B) : Prop where
  refl : ∀ t w, E t w w
  trans : E.Transitive
  advance : ∀ {t u w}, u ≤ max w.now t → E t w (w.advance u)

theorem flows_passes : Flows (B := B) fun _ => World.Passes :=
  ⟨fun _ => .refl, passing_transitive, fun _ => .advance _ _⟩

theorem flows_halts {c : Option Nat} : Flows (B := B) fun _ => World.Halts c :=
  ⟨fun _ => .refl, World.Halts.transitive, fun _ => .advance _ _⟩

/-- The worker was begun in `w` or later, and stands like this; `E` is what can have happened
meanwhile and since. It is out of fuel only if it has not done a step. -/
def Stands (E : Surroundings B) (a : Assignment) (w : World B) (st : Status B (List Failure))
    (w' : World B) : Prop :=
  ∃ w₀ w₁, E 0 w w₀ ∧ Reaches E (Worker.run a) w₀ st w₁ ∧ E st.wake w₁ w' ∧
    (st = .exhausted → w₁ = w₀)

/-- The worker stands like this, or it waits for its beginning. -/
def Pending (E : Surroundings B) (a : Assignment) (w : World B) (st : Status B (List Failure))
    (w' : World B) : Prop :=
  Stands E a w st w' ∨ st = .suspended (.ready (Worker.run a)) ∧ Stands E a w .exhausted w'

namespace Pending

variable {E : Surroundings B} {st st' : Status B (List Failure)} {w₁ : World B}

theorem stands_of_ended (h : Pending E a w st w') (hst : st.hasEnded = true) :
    Stands E a w st w' := by
  rcases h with h | ⟨rfl, -⟩
  · exact h
  · cases hst

theorem endsAs_forced (h : Pending E a w st w') (cause : StopCause) :
    ∃ st', Stands E a w st' w' ∧ EndsAs a (.forced cause st) st' := by
  rcases h with h | ⟨rfl, h⟩
  · exact ⟨_, h, .forced ..⟩
  · exact ⟨_, h, .unbegun ..⟩

variable (hE : Flows E)
include hE

theorem ready (a : Assignment) (w : World B) :
    Pending E a w (.suspended (.ready (Worker.run a))) w :=
  .inr ⟨rfl, w, w, hE.refl 0 w, .unbegun, hE.refl 0 w, fun _ => rfl⟩

theorem moves (h : Pending E a w st w₁) (hw : E st.wake w₁ w') : Pending E a w st w' := by
  rcases h with ⟨w₀, w₂, h₀, hr, h₂, hst⟩ | ⟨rfl, w₀, w₂, h₀, hr, h₂, hst⟩
  · exact .inl ⟨w₀, w₂, h₀, hr, hE.trans h₂ hw, hst⟩
  · exact .inr ⟨rfl, w₀, w₂, h₀, hr, hE.trans h₂ hw, hst⟩

theorem awaits {p : Suspended B (List Failure)} (h : Pending E a w (.suspended p) w') :
    ∃ w₀, E 0 w w₀ ∧ Awaits E (Worker.run a) w₀ p w' := by
  rcases h with ⟨w₀, w₁, h₀, hr, h₁, -⟩ | ⟨hp, w₀, w₁, h₀, -, h₁, hst⟩
  · exact ⟨w₀, h₀, hr.awaits h₁⟩
  · cases hp
    obtain rfl := hst rfl
    exact ⟨w', hE.trans h₀ h₁, .ready⟩

/-- The worker goes on until it has ended, or waits for a timer that does not end before the
bound. -/
theorem goOn {bound : Nat} (h : Pending E a w st w₁)
    (hr : st.goOn fuel (some bound) w₁ = (st', w')) (hst : st' ≠ .exhausted) :
    Pending E a w st' w' ∧ ∀ p, st' = .suspended p → bound ≤ max w'.now p.wake := by
  cases st with
  | finished | crashed =>
    cases hr
    exact ⟨h, nofun⟩
  | exhausted =>
    cases hr
    exact absurd rfl hst
  | suspended p =>
    obtain ⟨w₀, h₀, hawaits⟩ := h.awaits hE
    rcases hawaits.runUntil_cases (fun t w => hE.advance (Nat.le_max_right ..)) hr with
      rfl | ⟨rfl, rfl, hnow⟩ | ⟨hreach, -, hwake⟩
    · exact absurd rfl hst
    · have hnow : bound ≤ w'.now := Nat.le_of_not_lt (of_decide_eq_false hnow)
      exact ⟨h, fun _ _ => Nat.le_trans hnow (Nat.le_max_left ..)⟩
    · refine ⟨.inl ⟨w₀, w', h₀, hreach, hE.refl _ w', fun h => absurd h hst⟩, fun p hp => ?_⟩
      have hwake : bound ≤ p.wake := Nat.le_of_not_lt (of_decide_eq_false (hwake p hp))
      exact Nat.le_trans hwake (Nat.le_max_right ..)

theorem await {cause : Option StopCause} {t : Nat} {taken : Branch} (h : Pending E a w st w₁)
    (hr : await fuel rt cause t interrupts st w₁ = (taken, st', w')) (hst : st' ≠ .exhausted) :
    Pending E a w st' w' := by
  obtain ⟨w₂, hgo, hb⟩ := await_cases hr
  obtain ⟨hpending, hwake⟩ := h.goOn hE hgo hst
  rcases hb with ⟨-, rfl, -⟩ | ⟨-, -, -, rfl⟩ | ⟨-, -, hended, rfl⟩
  · exact absurd rfl hst
  · exact hpending
  · refine hpending.moves hE (hE.advance ?_)
    cases st' with
    | suspended p => exact Nat.le_trans Runtime.time_le_bound (hwake p rfl)
    | finished | crashed => exact Nat.le_trans (hended rfl) (Nat.le_max_left ..)
    | exhausted => exact absurd rfl hst

theorem awaitTeardown {grace : Duration} {cause : StopCause} (h : Pending E a w st w₁)
    (hr : awaitTeardown fuel rt grace cause interrupts st w₁ = some (e, w')) :
    ∃ st, Stands E a w st w' ∧ EndsAs a e st := by
  obtain ⟨taken, st', hawait, ⟨-, he⟩ | ⟨htaken, rfl⟩⟩ := awaitTeardown_cases hr
  · have hended := WorkerEnd.hasEnded_of_ended he
    exact ⟨st', (h.await hE hawait (Status.ne_exhausted_of_hasEnded hended)).stands_of_ended hended,
      .of_ended he⟩
  · exact (h.await hE hawait ((await_waited hawait).ne_exhausted htaken)).endsAs_forced cause

end Pending

/-- However a run ends, its worker has come to that end in surroundings in which time passes, and in
which it is stopped at that one time if at all. -/
theorem runToEnd_course {E : Surroundings B} (hE : Flows E)
    (hstop : ∀ t cause w₁, stopping fuel rt a interrupts w = some (cause, w₁.now) →
      E t w₁ (stop cause w₁))
    (hr : runToEnd fuel rt a interrupts w = some (e, w')) :
    ∃ st, Stands E a w st w' ∧ EndsAs a e st := by
  obtain ⟨taken, st, w₁, hawait, ⟨-, he, rfl⟩ | ⟨cause, hcause, hr⟩⟩ := runToEnd_cases hr
  · have hended := WorkerEnd.hasEnded_of_ended he
    exact ⟨st, ((Pending.ready hE a w).await hE hawait
      (Status.ne_exhausted_of_hasEnded hended)).stands_of_ended hended, .of_ended he⟩
  · have hst : st ≠ .exhausted := by
      refine (await_waited hawait).ne_exhausted ?_
      rintro rfl
      cases hcause
    have hstopped : stopping fuel rt a interrupts w = some (cause, w₁.now) := by
      simp only [stopping, hawait, hcause, Option.map_some]
    exact (((Pending.ready hE a w).await hE hawait hst).moves hE
      (hstop _ cause w₁ hstopped)).awaitTeardown hE hr

def stopTime (fuel : Nat) (rt : Runtime) (a : Assignment) (interrupts : List Nat) (w : World B) :
    Option Nat :=
  (stopping fuel rt a interrupts w).map Prod.snd

theorem runToEnd_stands (hr : runToEnd fuel rt a interrupts w = some (e, w')) :
    ∃ st, Stands (fun _ => World.Passes) a w st w' ∧ EndsAs a e st :=
  runToEnd_course flows_passes (fun _ cause w₁ _ => .stop cause w₁) hr

theorem runToEnd_halts (hr : runToEnd fuel rt a interrupts w = some (e, w')) :
    ∃ st, Stands (fun _ => World.Halts (stopTime fuel rt a interrupts w)) a w st w' ∧
      EndsAs a e st :=
  runToEnd_course flows_halts
    (fun _ cause _ h => .stop cause (by rw [stopTime, h, Option.map_some])) hr

/-- What holds of the worker wherever it waits, and at its end, holds of the run. -/
theorem Stands.of_meets {R : World B → World B → Prop} {I : World B → Prop}
    {Q : List Failure → World B → Prop} {st : Status B (List Failure)} (hR : Flows fun _ => R)
    (h : Stands (fun _ => R) a w st w')
    (hmeets : ∀ w₀, R w w₀ → Process.Meets (fun _ => R) I (Worker.run a) w₀ Q)
    (hI : ∀ w₁ w₂, I w₁ → R w₁ w₂ → I w₂) (hw : I w)
    (hQ : ∀ fs w₁ w₂, Q fs w₁ → R w₁ w₂ → Q fs w₂) :
    (∀ fs, st = .finished fs → Q fs w') ∧ ((∀ fs, st ≠ .finished fs) → I w') := by
  obtain ⟨w₀, w₁, h₀, hreach, h₁, hst⟩ := h
  have hstands := (hmeets w₀ h₀).of_reaches (fun _ w₁ w₂ => hI w₁ w₂) hreach
  cases st with
  | finished fs =>
    refine ⟨fun fs' h => ?_, fun h => absurd rfl (h fs)⟩
    cases h
    exact hQ fs w₁ w' hstands h₁
  | suspended | crashed => exact ⟨nofun, fun _ => hI w₁ w' hstands h₁⟩
  | exhausted =>
    obtain rfl := hst rfl
    exact ⟨nofun, fun _ => hI w w' hw (hR.trans (t := 0) h₀ h₁)⟩

/-! ### The report -/

theorem beginSweep_now : (beginSweep fuel rt a w).2.now = w.now := by
  simp only [beginSweep]
  split
  · obtain ⟨hle, hlt, -⟩ := Suspended.runUntil_now
      (show Suspended.runUntil fuel (some (w.now + 1)) fuel
        (.ready (Sweep.once a.config .hardStop a.run)) w = (_, _) from rfl)
    exact Nat.le_antisymm (Nat.le_of_lt_succ (hlt (Nat.lt_succ_self _))) hle
  · rfl

/-- Why the worker was stopped, its own failures, and the world in which the reporter is called;
nothing if the run ends by force. -/
def atReport (fuel : Nat) (rt : Runtime) (config : Config) (r : Run) (interrupts : List Nat)
    (w : World B) : Option (Option StopCause × List Failure × World B) :=
  let a : Assignment := ⟨config, r, w.now + config.runBudget.nanos⟩
  match runToEnd fuel rt a interrupts w with
  | some (.done cause own, w) => some (cause, own, (beginSweep fuel rt a w).2)
  | some (.crashed cause f, w) => some (cause, [.crashed rt.task f], w)
  | _ => none

/-- The report that is made, whatever becomes of it. -/
def reported (fuel : Nat) (rt : Runtime) (config : Config) (r : Run) (interrupts : List Nat)
    (w : World B) : Option Report :=
  (atReport fuel rt config r interrupts w).map fun (cause, own, w') =>
    .ofErrors ((failures ⟨config, r, w.now + config.runBudget.nanos⟩ cause w'.now own).map
      Failure.message)

variable {config : Config} {r : Run} {reporter : Reporter} {m : Aftermath B}

theorem atReport_cases {cause : Option StopCause} {own : List Failure}
    (h : atReport fuel rt config r interrupts w = some (cause, own, w')) :
    ∃ e w₁, runToEnd fuel rt ⟨config, r, w.now + config.runBudget.nanos⟩ interrupts w =
        some (e, w₁) ∧
      ((e = .done cause own ∧
          w' = (beginSweep fuel rt ⟨config, r, w.now + config.runBudget.nanos⟩ w₁).2) ∨
        ∃ f, e = .crashed cause f ∧ own = [.crashed rt.task f] ∧ w' = w₁) := by
  simp only [atReport] at h
  split at h
  · next he =>
    cases h
    exact ⟨_, _, he, .inl ⟨rfl, rfl⟩⟩
  · next he =>
    cases h
    exact ⟨_, _, he, .inr ⟨_, rfl, rfl, rfl⟩⟩
  · cases h

theorem conclude_summary {cause : Option StopCause} {own : List Failure}
    {sweep : Option (Status B (Except CheckError SweepReport))} {w₁ : World B}
    (h : conclude fuel rt a reporter cause own sweep w₁ = some m) :
    m.summary.exit ≠ .forced ∧ m.summary.failures = failures a cause w₁.now own ∧
      m.summary.report = some (w₁.now, .ofErrors (m.summary.failures.map Failure.message)) := by
  simp only [conclude] at h
  split at h
  · cases h
  · next result t _ =>
    cases h
    refine ⟨?_, rfl, rfl⟩
    cases result <;> simp only [exit]
    · simp
    · split <;> simp

/-- What a run comes to once its worker has come to this end in this world. -/
inductive Follows (fuel : Nat) (rt : Runtime) (a : Assignment) (reporter : Reporter)
    (m : Aftermath B) : WorkerEnd B → World B → Prop
  | forced {cause : StopCause} {st : Status B (List Failure)} {w : World B} :
    m = force fuel rt a cause st w → Follows fuel rt a reporter m (.forced cause st) w
  | crashed {cause : Option StopCause} {f : Fault} {w : World B} :
    conclude fuel rt a reporter cause [.crashed rt.task f] none w = some m →
    Follows fuel rt a reporter m (.crashed cause f) w
  | done {cause : Option StopCause} {own : List Failure} {w : World B} :
    conclude fuel rt a reporter cause own (some (beginSweep fuel rt a w).1)
      (beginSweep fuel rt a w).2 = some m →
    Follows fuel rt a reporter m (.done cause own) w

theorem run_follows (h : run fuel rt config r interrupts reporter w = some m) : ∃ e w₁,
    runToEnd fuel rt ⟨config, r, w.now + config.runBudget.nanos⟩ interrupts w = some (e, w₁) ∧
      Follows fuel rt ⟨config, r, w.now + config.runBudget.nanos⟩ reporter m e w₁ := by
  simp only [run] at h
  split at h
  · cases h
  · next he => exact ⟨_, _, he, .forced (Option.some.inj h).symm⟩
  · next he => exact ⟨_, _, he, .crashed h⟩
  · next he => exact ⟨_, _, he, .done h⟩

/-- A run that is over ended by force, or its summary is that of what came to the report. -/
theorem run_cases (h : run fuel rt config r interrupts reporter w = some m) :
    (m.summary.exit = .forced ∧ m.summary.report = none ∧ ∃ cause st w',
        runToEnd fuel rt ⟨config, r, w.now + config.runBudget.nanos⟩ interrupts w =
          some (.forced cause st, w')) ∨
      ∃ cause own w₁, atReport fuel rt config r interrupts w = some (cause, own, w₁) ∧
        m.summary.exit ≠ .forced ∧
        m.summary.failures =
          failures ⟨config, r, w.now + config.runBudget.nanos⟩ cause w₁.now own ∧
        m.summary.report =
          some (w₁.now, .ofErrors (m.summary.failures.map Failure.message)) := by
  obtain ⟨e, w₁, he, hfollows⟩ := run_follows h
  simp only [atReport, he]
  cases hfollows with
  | forced hm =>
    cases hm
    exact .inl ⟨rfl, rfl, _, _, _, rfl⟩
  | crashed h => exact .inr ⟨_, _, _, rfl, conclude_summary h⟩
  | done h => exact .inr ⟨_, _, _, rfl, conclude_summary h⟩

end Lifecycle

end NodeCoverage
