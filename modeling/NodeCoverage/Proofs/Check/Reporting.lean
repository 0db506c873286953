import NodeCoverage.Proofs.Check.Leftovers
import NodeCoverage.Proofs.Check.Silence
import NodeCoverage.Proofs.Process.Trace
/-!
# One report

A run that is over has called the reporter once, in the instant in which its worker had ended, or
it has ended by force and not called it at all. The exit of the run says which, and what became of
the report.
-/

namespace NodeCoverage

open Cluster (Entry Request)

variable {B : Behaviour Cluster}

/-- The reporter is called. -/
def Event.isReporting : Event Cluster → Bool
  | .noted _ (.entered .reporting) => true
  | _ => false

abbrev World.Unreported (w w' : World B) : Prop :=
  w.Since (fun e => e.isReporting = false) w'

namespace World.Unreported

theorem keeps (w : World B) {calls : Request → Prop} {notes : Entry → Prop}
    (h : ∀ e, notes e → e ≠ .entered .reporting) : Keeps calls notes (w.Unreported ·) := by
  refine World.Since.keeps (fun _ _ _ _ => rfl) (fun _ _ _ _ _ => rfl) (fun t e he => ?_) w
  rcases e with (_ | _ | _ | _ | _ | _ | _ | _ | _) | _
  case entered.reporting => exact absurd rfl (h _ he)
  all_goals rfl

theorem passes {w w₁ w₂ : World B} (h : w.Unreported w₁) (hpasses : w₁.Passes w₂) :
    w.Unreported w₂ := by
  obtain ⟨stops, hstops⟩ := hpasses.trace_eq
  refine h.trans ⟨_, hstops, fun e he => ?_⟩
  obtain ⟨t, -, rfl⟩ := List.mem_map.mp he
  rfl

end World.Unreported

namespace Lifecycle

variable {fuel : Nat} {rt : Runtime} {a : Assignment} {interrupts : List Nat} {w w' : World B}

/-- What a sweep may do wherever it waits. -/
def Sweeps (st : Status B (Except CheckError SweepReport)) : Prop :=
  st.Complies (unheard Sweep.Asks Sweep.Notes) fun _ => True

/-- What sweeps keep, and what time passing keeps. -/
structure KeptBySweeps (I : World B → Prop) : Prop where
  keeps : Keeps Sweep.Asks Sweep.Notes I
  advance : ∀ w t, I w → I (w.advance t)

section

variable {I : World B → Prop} (hI : KeptBySweeps I)
include hI

private theorem goOn_sweep_keeps (fuel : Nat) (bound : Option Nat)
    {st : Status B (Except CheckError SweepReport)} (hst : Sweeps st) (hw : I w) :
    I (st.goOn fuel bound w).2 ∧ Sweeps (st.goOn fuel bound w).1 := by
  cases st with
  | suspended p =>
    exact (Suspended.runUntil_complies (v := w) hI.keeps unheard_heard
      (fun w t => ⟨hI.advance w t, fun _ => trivial⟩) (fun _ => ⟨trivial, hw, hst⟩) trivial).2
  | finished | crashed | exhausted => exact ⟨hw, hst⟩

theorem beginSweep_keeps (hw : I w) :
    I (beginSweep fuel rt a w).2 ∧ Sweeps (beginSweep fuel rt a w).1 := by
  have hready : Sweeps (B := B) (.suspended (.ready (Sweep.once a.config .hardStop a.run))) :=
    Sweep.once_uses.complies (c := unheard _ _) fun _ _ => trivial
  simp only [beginSweep]
  split
  · exact goOn_sweep_keeps hI fuel _ hready hw
  · exact ⟨hw, hready⟩

theorem continueSweep_keeps (fuel : Nat) (bound : Option Nat)
    {sweep : Option (Status B (Except CheckError SweepReport))} (h : ∀ st ∈ sweep, Sweeps st)
    (hw : I w) : I (continueSweep fuel bound sweep w).2 ∧
      ∀ st ∈ (continueSweep fuel bound sweep w).1, Sweeps st := by
  cases sweep with
  | none => exact ⟨hw, h⟩
  | some st =>
    obtain ⟨hw', hst⟩ := goOn_sweep_keeps hI fuel bound (h st rfl) hw
    refine ⟨hw', ?_⟩
    rintro _ ⟨⟩
    exact hst

/-- A worker that is not waited for any longer can have begun the last sweep. -/
theorem abandon_keeps (hw : I w) (st : Status B (List Failure)) :
    I (abandon fuel rt a w st).2 := by
  cases st with
  | finished => exact (beginSweep_keeps hI hw).1
  | suspended | crashed | exhausted => exact hw

end

theorem unreported_keptBySweeps (w : World B) : KeptBySweeps (w.Unreported ·) where
  keeps := by
    apply World.Unreported.keeps
    rintro _ he rfl
    exact he
  advance w₁ t h := h.passes (.advance w₁ t)

theorem beginSweep_unreported :
    w.Unreported (beginSweep fuel rt a w).2 ∧ Sweeps (beginSweep fuel rt a w).1 :=
  beginSweep_keeps (unreported_keptBySweeps w) (.refl w)

theorem continueSweep_unreported {bound : Option Nat}
    {sweep : Option (Status B (Except CheckError SweepReport))}
    (h : ∀ st ∈ sweep, Sweeps st) :
    w.Unreported (continueSweep fuel bound sweep w).2 :=
  (continueSweep_keeps (unreported_keptBySweeps w) fuel bound h (.refl w)).1

theorem runToEnd_unreported {e : WorkerEnd B} (h : runToEnd fuel rt a interrupts w = some (e, w')) :
    w.Unreported w' := by
  obtain ⟨st, hstands, -⟩ := runToEnd_stands h
  have hmeets (w₀ : World B) (h₀ : w.Passes w₀) : Process.Meets passing (w.Unreported ·)
      (Worker.run a) w₀ fun _ w₁ => w.Unreported w₁ :=
    .of_uses (World.Unreported.passes (.refl w) h₀) (World.Unreported.keeps w fun _ h => h)
      Worker.run_uses
  have hends := hstands.of_meets flows_passes hmeets (fun _ _ h hpasses => h.passes hpasses)
    (.refl w) fun _ _ _ h hpasses => h.passes hpasses
  cases st with
  | finished fs => exact hends.1 fs rfl
  | suspended | crashed | exhausted => exact hends.2 nofun

/-! ### Interrupts -/

/-- An interrupt is consumed: it has come when the controller stops waiting for the worker, and is
noticed before the worker's end. -/
def Interrupted (fuel : Nat) (rt : Runtime) (a : Assignment) (interrupts : List Nat) (w : World B) :
    Prop :=
  ∃ i ∈ interrupts.head?, ∃ st w', i ≤ w'.now ∧
    Noticed fuel rt (.of none w.now (Clock.timer a.deadline) interrupts)
      (.suspended (.ready (Worker.run a))) w .interrupt st w'

theorem interrupted_iff : Interrupted fuel rt a interrupts w ↔
    ∃ c, stopping fuel rt a interrupts w = some (.interrupt, c) := by
  have hbranch : Branch.interrupt ≠ .worker := nofun
  constructor
  · rintro ⟨i, -, st, w', -, hnoticed⟩
    refine ⟨w'.now, ?_⟩
    simp only [stopping, (await_eq_iff_noticed hbranch).mpr hnoticed, Branch.cause?,
      Option.map_some]
  · rintro ⟨c, h⟩
    simp only [stopping] at h
    rcases hawait : await fuel rt none (Clock.timer a.deadline) interrupts
      (.suspended (.ready (Worker.run a))) w with ⟨taken, st, w'⟩
    rw [hawait] at h
    cases taken with
    | worker | timer => cases h
    | interrupt =>
      obtain ⟨i, hi, hle⟩ := (await_waited hawait).interrupt rfl
      exact ⟨i, hi, st, w', hle, (await_eq_iff_noticed hbranch).mp hawait⟩

theorem awaitTeardown_cause {grace : Duration} {cause : StopCause} {cause' : Option StopCause}
    {own : List Failure} {st : Status B (List Failure)}
    (h : awaitTeardown fuel rt grace cause interrupts st w = some (.done cause' own, w')) :
    cause' = some cause := by
  obtain ⟨taken, st', -, ⟨-, he⟩ | ⟨-, he⟩⟩ := awaitTeardown_cases h
  · cases st' <;> cases he
    rfl
  · cases he

/-- The cause for which a run was stopped is what was taken in place of its worker's end. -/
theorem stopping_cause {cause : Option StopCause} {own : List Failure}
    (h : runToEnd fuel rt a interrupts w = some (.done cause own, w')) :
    (stopping fuel rt a interrupts w).map Prod.fst = cause := by
  obtain ⟨taken, st, w₁, hawait, ⟨rfl, he, rfl⟩ | ⟨c, hc, hend⟩⟩ := runToEnd_cases h
  · simp only [stopping, hawait]
    cases st <;> cases he
    rfl
  · simp only [stopping, hawait, hc, awaitTeardown_cause hend, Option.map_some]

theorem cause_eq_interrupt_iff {cause : Option StopCause} {own : List Failure}
    (h : runToEnd fuel rt a interrupts w = some (.done cause own, w')) :
    cause = some .interrupt ↔ Interrupted fuel rt a interrupts w := by
  rw [interrupted_iff, ← stopping_cause h]
  simp

/-! ### The report -/

variable {config : Config} {r : Run} {reporter : Reporter} {m : Aftermath B}

/-- Success if nothing has failed, and otherwise all that has. -/
def verdict (fs : List Failure) : Report :=
  if fs = [] then .success else .failure (fs.map Failure.message)

theorem verdict_eq (fs : List Failure) : verdict fs = .ofErrors (fs.map Failure.message) := by
  unfold verdict
  split
  · next h => rw [h]; rfl
  · rfl

/-- The run has ended by force, and the reporter was not called: with any other it would have been
the same. -/
structure Silent (fuel : Nat) (rt : Runtime) (config : Config) (r : Run) (interrupts : List Nat)
    (w : World B) (m : Aftermath B) : Prop where
  report : m.summary.report = none
  sweep : m.sweep = none
  unreported : w.Unreported m.world
  alike : ∀ reporter, run fuel rt config r interrupts reporter w = some m

/-- The worker had ended in `w₁`, and there the reporter was called with the verdict, once: with any
other that answers this call in the same way it would have been the same. The last sweep has begun
and may still go on. -/
structure Delivers (fuel : Nat) (rt : Runtime) (config : Config) (r : Run) (interrupts : List Nat)
    (reporter : Reporter) (w : World B) (m : Aftermath B) (w₁ : World B)
    (result : Except ReportError Unit) : Prop where
  ended : ∃ cause own, runToEnd fuel rt ⟨config, r, w.now + config.runBudget.nanos⟩ interrupts w =
    some (.done cause own, w₁)
  sweep : m.sweep.isSome = true
  report : m.summary.report = some (w₁.now, verdict m.summary.failures)
  answer : ∃ t, reporter.deliver w₁.now (verdict m.summary.failures) = some (result, t) ∧
    m.summary.ended = max w₁.now t
  alike : ∀ other : Reporter, other.deliver w₁.now (verdict m.summary.failures) =
    reporter.deliver w₁.now (verdict m.summary.failures) →
      run fuel rt config r interrupts other w = some m
  once : ∃ worked swept after, w.Adds worked w₁ ∧
    w.Adds (worked ++ swept ++ [.noted w₁.now (.entered .reporting)] ++ after) m.world ∧
    ∀ e ∈ worked ++ swept ++ after, e.isReporting = false
  reportFailed : m.summary.exit = .reportFailed ↔ ∃ e, result = .error e
  interrupted : m.summary.exit = .interrupted ↔ result = .ok () ∧
    Interrupted fuel rt ⟨config, r, w.now + config.runBudget.nanos⟩ interrupts w
  completed : m.summary.exit = .completed ↔ result = .ok () ∧
    ¬ Interrupted fuel rt ⟨config, r, w.now + config.runBudget.nanos⟩ interrupts w

theorem exit_cases (cause : Option StopCause) (result : Except ReportError Unit) :
    exit cause result ≠ .forced ∧
      (exit cause result = .reportFailed ↔ ∃ e, result = .error e) ∧
      (exit cause result = .interrupted ↔ result = .ok () ∧ cause = some .interrupt) ∧
      (exit cause result = .completed ↔ result = .ok () ∧ cause ≠ some .interrupt) := by
  cases result with
  | error e => simp [exit]
  | ok => by_cases h : cause = some .interrupt <;> simp [exit, h]

theorem conclude_keeps {I : World B → Prop} (hI : KeptBySweeps I)
    (hdone : ∀ w, I w → I (w.note (S := Cluster) (.entered .done))) {cause : Option StopCause}
    {own : List Failure} {sweep : Option (Status B (Except CheckError SweepReport))}
    (hsweep : ∀ st ∈ sweep, Sweeps st) (hw : I (w.note (S := Cluster) (.entered .reporting)))
    (h : conclude fuel rt a reporter cause own sweep w = some m) :
    I m.world ∧ (∀ st ∈ m.sweep, Sweeps st) ∧ m.summary.exit ≠ .forced := by
  simp only [conclude] at h
  split at h
  · cases h
  · next result t _ =>
    cases h
    obtain ⟨hswept, hsweeps⟩ := continueSweep_keeps hI fuel
      (some (if rt.sweepFirst then max w.now t + 1 else max w.now t)) hsweep hw
    exact ⟨hdone _ (hI.advance _ _ hswept), hsweeps, (exit_cases cause result).1⟩

/-- While the reporter is waited for, its call is the first thing noted. -/
theorem awaitAnswer_adds {ended : Nat}
    {sweep : Option (Status B (Except CheckError SweepReport))} (h : ∀ st ∈ sweep, Sweeps st) :
    ∃ after, w.Adds ([.noted w.now (.entered .reporting)] ++ after)
        (awaitAnswer fuel rt ended sweep w).2 ∧ ∀ e ∈ after, e.isReporting = false := by
  let w₀ := w.note (S := Cluster) (.entered .reporting)
  let w₁ := (continueSweep fuel (some (if rt.sweepFirst then ended + 1 else ended)) sweep w₀).2
  have hunreported : w₀.Unreported w₁ := continueSweep_unreported h
  obtain ⟨swept, hadds, hswept⟩ := hunreported
  have hdone : w₁.Adds [.noted (w₁.advance ended).now (.entered .done)]
      (awaitAnswer fuel rt ended sweep w).2 := World.adds_note (w₁.advance ended) _
  refine ⟨swept ++ [.noted (w₁.advance ended).now (.entered .done)], ?_, ?_⟩
  · simpa using ((World.adds_note w _).trans hadds).trans hdone
  · intro e he
    rcases List.mem_append.mp he with he | he
    · exact hswept e he
    · rw [List.mem_singleton.mp he]
      rfl

/-- What a run leaves whose worker ended in `w₁` with these failures, when its report is
answered. -/
def answered (fuel : Nat) (rt : Runtime) (a : Assignment) (cause : Option StopCause)
    (fs : List Failure) (w₁ : World B) (answer : Except ReportError Unit × Nat) : Aftermath B :=
  let begun := beginSweep fuel rt a w₁
  let x := awaitAnswer fuel rt (max w₁.now answer.2) (some begun.1) begun.2
  ⟨⟨exit cause answer.1, a.run.workloadName, fs, some (w₁.now, verdict fs),
    max w₁.now answer.2⟩, x.2, x.1, .nothing⟩

theorem run_of_done {cause : Option StopCause} {own : List Failure} {w₁ : World B}
    (hend : runToEnd fuel rt ⟨config, r, w.now + config.runBudget.nanos⟩ interrupts w =
      some (.done cause own, w₁)) (reporter : Reporter) :
    let a : Assignment := ⟨config, r, w.now + config.runBudget.nanos⟩
    let fs := failures a cause w₁.now own
    run fuel rt config r interrupts reporter w =
      (reporter.deliver w₁.now (verdict fs)).map (answered fuel rt a cause fs w₁) := by
  intro a fs
  have hnow : (beginSweep fuel rt a w₁).2.now = w₁.now := beginSweep_now
  simp only [run, hend, conclude, hnow, ← verdict_eq, a, fs]
  split
  · next h => rw [h, Option.map_none]
  · next h =>
    rw [h, Option.map_some]
    rfl

theorem answered_once {cause : Option StopCause} {own fs : List Failure} {w₁ : World B}
    {answer : Except ReportError Unit × Nat}
    (hend : runToEnd fuel rt a interrupts w = some (.done cause own, w₁)) :
    ∃ worked swept after, w.Adds worked w₁ ∧
      w.Adds (worked ++ swept ++ [.noted w₁.now (.entered .reporting)] ++ after)
        (answered fuel rt a cause fs w₁ answer).world ∧
      ∀ e ∈ worked ++ swept ++ after, e.isReporting = false := by
  have hnow : (beginSweep fuel rt a w₁).2.now = w₁.now := beginSweep_now
  have hsweeps : ∀ st ∈ some (beginSweep fuel rt a w₁).1, Sweeps st := by
    rintro _ ⟨⟩
    exact beginSweep_unreported.2
  obtain ⟨worked, hworked, hsilent⟩ := runToEnd_unreported hend
  have hunreported : w₁.Unreported (beginSweep fuel rt a w₁).2 := beginSweep_unreported.1
  obtain ⟨swept, hswept, hquiet⟩ := hunreported
  obtain ⟨after, hafter, hlater⟩ := awaitAnswer_adds hsweeps
  refine ⟨worked, swept, after, hworked, ?_, fun e he => ?_⟩
  · have hall := (hworked.trans hswept).trans hafter
    rw [hnow, ← List.append_assoc] at hall
    exact hall
  · simp only [List.mem_append] at he
    rcases he with (he | he) | he
    · exact hsilent e he
    · exact hquiet e he
    · exact hlater e he

theorem delivers_of_done {cause : Option StopCause} {own : List Failure} {w₁ : World B}
    (hend : runToEnd fuel rt ⟨config, r, w.now + config.runBudget.nanos⟩ interrupts w =
      some (.done cause own, w₁))
    (hrun : run fuel rt config r interrupts reporter w = some m) :
    m.summary.exit ≠ .forced ∧ (m.summary.exit = .interrupted → m.summary.failures ≠ []) ∧
      ∃ result, Delivers fuel rt config r interrupts reporter w m w₁ result := by
  rw [run_of_done hend] at hrun
  obtain ⟨⟨result, t⟩, hanswer, rfl⟩ := Option.map_eq_some_iff.mp hrun
  obtain ⟨hforced, hfailed, hinterrupted, hcompleted⟩ := exit_cases cause result
  refine ⟨hforced, fun h => ?_, result, ?_⟩
  · obtain ⟨-, rfl⟩ := hinterrupted.mp h
    simp [answered, failures]
  · exact
      { ended := ⟨cause, own, hend⟩
        sweep := rfl
        report := rfl
        answer := ⟨t, hanswer, rfl⟩
        alike := fun other hother => (run_of_done hend other).trans
          (Option.map_eq_some_iff.mpr ⟨_, hother.trans hanswer, rfl⟩)
        once := answered_once hend
        reportFailed := hfailed
        interrupted := hinterrupted.trans (and_congr_right' (cause_eq_interrupt_iff hend))
        completed := hcompleted.trans
          (and_congr_right' (not_congr (cause_eq_interrupt_iff hend))) }

/-- A run reports once, when its worker has ended and without waiting for the last sweep, or it
ends by force and does not report. What it reports is what has failed, and its exit says whether
the report was delivered and whether the worker was interrupted before it had ended. -/
theorem reports_once (hrun : run fuel rt config r interrupts reporter w = some m)
    (hcrash : ∀ task f, .crashed task f ∉ m.summary.failures) :
    (m.summary.exit = .forced → Silent fuel rt config r interrupts w m) ∧
      (m.summary.exit ≠ .forced → ∃ w₁ result,
        Delivers fuel rt config r interrupts reporter w m w₁ result) ∧
      (m.summary.exit = .forced ∨ m.summary.exit = .interrupted → m.summary.failures ≠ []) := by
  obtain ⟨e, w₁, hend, hfollows⟩ := run_follows hrun
  cases hfollows with
  | done _ =>
    obtain ⟨hforced, hnonempty, result, hdelivers⟩ := delivers_of_done hend hrun
    exact ⟨fun h => absurd h hforced, fun _ => ⟨w₁, result, hdelivers⟩,
      fun h => hnonempty (h.resolve_left hforced)⟩
  | @crashed cause f _ hconclude =>
    refine absurd ?_ (hcrash rt.task f)
    rw [(conclude_summary hconclude).2.1]
    exact List.mem_append_right _ (List.mem_singleton.mpr rfl)
  | @forced cause st _ hm =>
    cases hm
    have hall (other : Reporter) : run fuel rt config r interrupts other w =
        some (force fuel rt ⟨config, r, w.now + config.runBudget.nanos⟩ cause st w₁) := by
      simp only [run, hend]
    have hworked : w.Unreported w₁ := runToEnd_unreported hend
    refine ⟨fun _ => ⟨rfl, rfl, ?_, hall⟩, fun h => absurd rfl h, fun _ => List.cons_ne_nil _ _⟩
    exact abandon_keeps (unreported_keptBySweeps w) hworked st

/-- The theorem for a run that is interrupted after one second. -/
theorem reports_once_interrupted : ∃ m : Aftermath Leftovers.lossy,
    run 400 .simulated .standard Leftovers.probe [1000000000] Leftovers.prompt Leftovers.bare =
        some m ∧
      (∀ task f, .crashed task f ∉ m.summary.failures) ∧ m.summary.exit = .interrupted ∧
      (∃ w₁ result, Delivers 400 .simulated .standard Leftovers.probe [1000000000] Leftovers.prompt
        Leftovers.bare m w₁ result) ∧ m.summary.failures ≠ [] := by
  have h : (run 400 .simulated .standard Leftovers.probe [1000000000] Leftovers.prompt
      Leftovers.bare).any (fun m => m.summary.exit = .interrupted ∧
        m.summary.failures = [.interrupted]) = true := by
    decide +kernel
  obtain ⟨m, hrun, hm⟩ := (Option.any_eq_true _ _).mp h
  obtain ⟨hexit, hfs⟩ := of_decide_eq_true hm
  have hcrash (task : Nat) (f : Fault) : .crashed task f ∉ m.summary.failures := by simp [hfs]
  obtain ⟨-, hdelivers, hfailures⟩ := reports_once hrun hcrash
  exact ⟨m, hrun, hcrash, hexit, hdelivers (by simp [hexit]), hfailures (.inr hexit)⟩

end Lifecycle
end NodeCoverage
