import NodeCoverage.Proofs.Check.Course
import NodeCoverage.Proofs.Check.Leftovers
import NodeCoverage.Proofs.Check.Progress
import NodeCoverage.Proofs.Process.Attempts
/-!
# A run is over in time

Whatever the cluster does, the worker is only waited for until the timer of the deadline ends and
then for one grace period, or until interrupts come. Hence the run comes to its report, or ends by
force, not later than that. Nothing is asked of the cluster; but if it answers calls in the instant
in which they are made, and does so without end, then the clock stands still in an instant that is
not later either.
-/

namespace NodeCoverage

variable {B : Behaviour Cluster}

/-- When the reporter was called, or when the run ended by force. -/
def RunSummary.moment (s : RunSummary) : Nat :=
  (s.report.map Prod.fst).getD s.ended

namespace Lifecycle

variable {fuel : Nat} {rt : Runtime} {a : Assignment} {interrupts : List Nat} {w w' : World B}
  {e : WorkerEnd B} {st : Status B (List Failure)} {t : Nat}

/-! ### The clock -/

theorem after_le (now : Nat) (d : Duration) : Clock.after now d ≤ now + d.nanos := by
  simp only [Clock.after, Duration.nanos_min]
  exact Nat.add_le_add_left (Nat.min_le_left ..) now

theorem le_after (now : Nat) (d : Duration) : now ≤ Clock.after now d :=
  Nat.le_add_right ..

theorem stop_now (cause : StopCause) (w : World B) : (stop cause w).now = w.now := by
  simp only [stop]
  split <;> rfl

/-- When the grace period ends that begins at `c`. -/
def graceEnd (a : Assignment) (c : Nat) : Nat :=
  Clock.timer (Clock.after c a.config.shutdownGracePeriod)

theorem le_graceEnd (a : Assignment) (c : Nat) : c ≤ graceEnd a c :=
  Nat.le_trans (le_after ..) (Clock.le_timer _)

theorem graceEnd_le {c u : Nat} (h : c ≤ u) :
    graceEnd a c ≤ Clock.timer (u + a.config.shutdownGracePeriod.nanos) :=
  Clock.timer_mono (Nat.le_trans (after_le ..) (Nat.add_le_add_right h _))

/-- How a run that was stopped for this cause at `c` has come to its end at `u`. -/
inductive Ending (rt : Runtime) (a : Assignment) (interrupts : List Nat) (cause : StopCause)
    (c : Nat) : WorkerEnd B → Nat → Prop
  /-- The worker has come to its end before that of the grace period, or at that instant. -/
  | ended {e : WorkerEnd B} {u : Nat} : (∀ cause st, e ≠ .forced cause st) →
    (u < graceEnd a c ∨ u = graceEnd a c ∧
      rt.pick (.of (some cause) c (graceEnd a c) (cause.later interrupts)) true = .worker) →
    Ending rt a interrupts cause c e u
  /-- The grace period is over, or another interrupt has come. -/
  | forced {st : Status B (List Failure)} {u : Nat} : u ≤ graceEnd a c →
    ((∀ i ∈ (cause.later interrupts).head?, graceEnd a c ≤ i) → u = graceEnd a c) →
    Ending rt a interrupts cause c (.forced cause st) u

theorem Ending.le_graceEnd {cause : StopCause} {c u : Nat}
    (h : Ending rt a interrupts cause c e u) : u ≤ graceEnd a c := by
  cases h with
  | ended _ hu =>
    rcases hu with hlt | ⟨heq, -⟩
    · exact Nat.le_of_lt hlt
    · exact Nat.le_of_eq heq
  | forced hu _ => exact hu

/-- The worker has its end in the grace period, or by force when that is over or when another
interrupt comes. -/
theorem awaitTeardown_ending {cause : StopCause} {c : Nat} (hc : w.now = c)
    (h : awaitTeardown fuel rt a.config.shutdownGracePeriod cause (cause.later interrupts) st w =
      some (e, w')) : c ≤ w'.now ∧ Ending rt a interrupts cause c e w'.now := by
  subst hc
  obtain ⟨taken, st', hawait, hend⟩ := awaitTeardown_cases h
  rw [← graceEnd] at hawait
  have hwaited := await_waited hawait
  have hgrace : w.now ≤ graceEnd a w.now := le_graceEnd a w.now
  have hle : w'.now ≤ graceEnd a w.now :=
    Nat.le_trans hwaited.le_time (Juncture.time_le_timer hgrace)
  refine ⟨hwaited.now_le, ?_⟩
  rcases hend with ⟨rfl, he⟩ | ⟨htaken, rfl⟩
  · have hended := WorkerEnd.hasEnded_of_ended he
    refine .ended (WorkerEnd.ne_forced_of_ended he) ?_
    rcases Nat.lt_or_ge w'.now (graceEnd a w.now) with hlt | hge
    · exact .inl hlt
    · have hnow : w'.now = graceEnd a w.now := Nat.le_antisymm hle hge
      obtain ⟨w₁, -, hb⟩ := await_cases hawait
      rcases hb with ⟨-, rfl, -⟩ | ⟨-, -, hlt, rfl⟩ | ⟨-, hpick, -, -⟩
      · cases hended
      · have hbefore := Nat.lt_of_lt_of_le hlt (Juncture.time_le_timer hgrace)
        exact absurd hbefore (Nat.not_lt.mpr hge)
      · rw [hended] at hpick
        exact .inr ⟨hnow, hpick.symm⟩
  · refine .forced hle fun hlater => ?_
    rw [hwaited.time_eq htaken, Juncture.time_eq_of_late hlater]
    exact Nat.max_eq_right hgrace

/-- The worker is not waited for after the timer of the deadline has ended, nor after an interrupt
has come. -/
theorem await_deadline_le {taken : Branch} {st' : Status B (List Failure)}
    (hw : w.now ≤ a.deadline)
    (h : await fuel rt none (Clock.timer a.deadline) interrupts st w = (taken, st', w')) :
    w'.now ≤ Clock.timer a.deadline ∧ ∀ i ∈ interrupts.head?, w'.now ≤ max w.now i := by
  have hle := (await_waited h).le_time
  have htimer : w.now ≤ Clock.timer a.deadline := Nat.le_trans hw (Clock.le_timer _)
  exact ⟨Nat.le_trans hle (Juncture.time_le_timer htimer),
    fun i hi => Nat.le_trans hle (Juncture.time_le_of_interrupt hi)⟩

theorem stopping_le (hw : w.now ≤ a.deadline) {cause : StopCause} {c : Nat}
    (h : stopping fuel rt a interrupts w = some (cause, c)) :
    c ≤ Clock.timer a.deadline ∧ ∀ i ∈ interrupts.head?, c ≤ max w.now i := by
  simp only [stopping] at h
  rcases hr : await fuel rt none (Clock.timer a.deadline) interrupts
    (.suspended (.ready (Worker.run a))) w with ⟨taken, st, w₁⟩
  rw [hr] at h
  obtain ⟨_, -, heq⟩ := Option.map_eq_some_iff.mp h
  cases heq
  exact await_deadline_le hw hr

/-- A run that is not stopped has its end when the timer of its deadline ends at the latest, and by
the first interrupt. One that is stopped has it in the grace period, or by force. -/
theorem runToEnd_stopping (hw : w.now ≤ a.deadline)
    (h : runToEnd fuel rt a interrupts w = some (e, w')) :
    (stopping fuel rt a interrupts w = none ∧ (∀ cause st, e ≠ .forced cause st) ∧
        w'.now ≤ Clock.timer a.deadline ∧ ∀ i ∈ interrupts.head?, w'.now ≤ max w.now i) ∨
      ∃ cause c, stopping fuel rt a interrupts w = some (cause, c) ∧ c ≤ w'.now ∧
        Ending rt a interrupts cause c e w'.now := by
  obtain ⟨taken, st, w₁, hawait, hend⟩ := runToEnd_cases h
  have hstopping : stopping fuel rt a interrupts w = taken.cause?.map (·, w₁.now) := by
    simp only [stopping, hawait]
  rcases hend with ⟨rfl, he, rfl⟩ | ⟨cause, hcause, hend⟩
  · exact .inl ⟨hstopping, WorkerEnd.ne_forced_of_ended he, await_deadline_le hw hawait⟩
  · rw [hcause, Option.map_some] at hstopping
    exact .inr ⟨cause, w₁.now, hstopping, awaitTeardown_ending (stop_now cause w₁) hend⟩

/-- A run has its end one grace period after the deadline at the latest, and also one grace period
after the first interrupt, up to the lateness of the timers. -/
theorem runToEnd_now (hw : w.now ≤ a.deadline)
    (h : runToEnd fuel rt a interrupts w = some (e, w')) :
    w'.now ≤ Clock.timer (Clock.timer a.deadline + a.config.shutdownGracePeriod.nanos) ∧
      ∀ i ∈ interrupts.head?,
        w'.now ≤ Clock.timer (max w.now i + a.config.shutdownGracePeriod.nanos) := by
  have early {u v : Nat} (huv : u ≤ v) :
      u ≤ Clock.timer (v + a.config.shutdownGracePeriod.nanos) :=
    Nat.le_trans (Nat.le_trans huv (Nat.le_add_right ..)) (Clock.le_timer _)
  rcases runToEnd_stopping hw h with ⟨-, -, hdeadline, hfirst⟩ | ⟨cause, c, hc, -, hending⟩
  · exact ⟨early hdeadline, fun i hi => early (hfirst i hi)⟩
  · obtain ⟨hdeadline, hfirst⟩ := stopping_le hw hc
    exact ⟨Nat.le_trans hending.le_graceEnd (graceEnd_le hdeadline),
      fun i hi => Nat.le_trans hending.le_graceEnd (graceEnd_le (hfirst i hi))⟩

/-! ### Fuel -/

def stalled : Branch × Status B (List Failure) × World B → Option (World B)
  | (.worker, .exhausted, w) => some w
  | _ => none

theorem stalled_of_ne {taken : Branch} (hst : st ≠ .exhausted) :
    stalled (taken, st, w) = none := by
  cases taken <;> cases st <;> first | rfl | exact absurd rfl hst

/-- Where the worker has come to, if the run is out of fuel. -/
def stalledAt (fuel : Nat) (rt : Runtime) (a : Assignment) (interrupts : List Nat) (w : World B) :
    Option (World B) :=
  let x := await fuel rt none (Clock.timer a.deadline) interrupts
    (.suspended (.ready (Worker.run a))) w
  match x.1.cause? with
  | none => stalled x
  | some cause => stalled (await fuel rt (some cause) (graceEnd a (stop cause x.2.2).now)
      (cause.later interrupts) x.2.1 (stop cause x.2.2))

theorem stalledAt_of_stalled (h : stalled (await fuel rt none (Clock.timer a.deadline) interrupts
    (.suspended (.ready (Worker.run a))) w) = some w') :
    stalledAt fuel rt a interrupts w = some w' := by
  rcases hr : await fuel rt none (Clock.timer a.deadline) interrupts
    (.suspended (.ready (Worker.run a))) w with ⟨taken, st, w₁⟩
  rw [hr] at h
  simp only [stalledAt, hr]
  cases taken with
  | worker => exact h
  | interrupt | timer => cases h

theorem isSome_stalled {cause : StopCause} (grace : Duration) :
    (stalled (await fuel rt (some cause) (Clock.timer (Clock.after w.now grace)) interrupts st
        w)).isSome = true ↔ awaitTeardown fuel rt grace cause interrupts st w = none := by
  simp only [awaitTeardown]
  rcases hr : await fuel rt (some cause) (Clock.timer (Clock.after w.now grace)) interrupts st w
    with ⟨taken, st', w₁⟩
  have hwaited := await_waited hr
  cases taken with
  | worker =>
    cases st' with
    | suspended p => rcases hwaited.worker rfl with h | h <;> cases h
    | finished | crashed | exhausted => simp [stalled, WorkerEnd.ended?]
  | interrupt | timer => simp [stalled]

theorem isSome_stalledAt :
    (stalledAt fuel rt a interrupts w).isSome = true ↔
      runToEnd fuel rt a interrupts w = none := by
  simp only [stalledAt, runToEnd]
  rcases hr : await fuel rt none (Clock.timer a.deadline) interrupts
    (.suspended (.ready (Worker.run a))) w with ⟨taken, st', w₁⟩
  have hwaited := await_waited hr
  cases taken with
  | worker =>
    cases st' with
    | suspended p => rcases hwaited.worker rfl with h | h <;> cases h
    | finished | crashed | exhausted => simp [stalled, WorkerEnd.ended?, Branch.cause?]
  | interrupt | timer => simp only [graceEnd, Branch.cause?, isSome_stalled]

/-- However much fuel there is, it is used up at the instant `u`, and there is no bound on the
calls that are made there. -/
def Stalls (u : Nat) (f : Nat → Option (World B)) : Prop :=
  ∀ n, ∃ enough, ∀ fuel, enough ≤ fuel → ∃ w', f fuel = some w' ∧ w'.now = u ∧ n ≤ w'.calls

theorem Stalls.mono {u enough : Nat} {f g : Nat → Option (World B)} (hg : Stalls u g)
    (h : ∀ fuel w', enough ≤ fuel → g fuel = some w' → f fuel = some w') : Stalls u f := by
  intro n
  obtain ⟨more, hg⟩ := hg n
  refine ⟨max enough more, fun fuel hfuel => ?_⟩
  obtain ⟨w', hw', hu, hn⟩ := hg fuel (by omega)
  exact ⟨w', h fuel w' (by omega) hw', hu, hn⟩

/-- With enough fuel the worker comes as far as this, or it stalls by the juncture. -/
theorem await_or_stalls (hst : st ≠ .exhausted) (hp : ∀ p, st = .suspended p → p.Diligent)
    (rt : Runtime) (cause : Option StopCause) (t : Nat) (interrupts : List Nat) (w : World B) :
    (∃ taken st' w', st' ≠ .exhausted ∧ (∀ p, st' = .suspended p → p.Diligent) ∧
        ∃ enough, ∀ fuel, enough ≤ fuel →
          await fuel rt cause t interrupts st w = (taken, st', w')) ∨
      ¬ B.TakesTime ∧ ∃ u ≤ (Juncture.of cause w.now t interrupts).time,
        Stalls u fun fuel => stalled (await fuel rt cause t interrupts st w) := by
  have settled {st' : Status B (List Failure)} {w₁ : World B} (enough : Nat)
      (hst' : st' ≠ .exhausted) (hp' : ∀ p, st' = .suspended p → p.Diligent)
      (hgo : ∀ fuel, enough ≤ fuel →
        st.goOn fuel (some (rt.bound (.of cause w.now t interrupts))) w = (st', w₁)) :
      ∃ taken st' w', st' ≠ .exhausted ∧ (∀ p, st' = .suspended p → p.Diligent) ∧
        ∃ enough, ∀ fuel, enough ≤ fuel →
          await fuel rt cause t interrupts st w = (taken, st', w') := by
    rcases htake : takeAt rt (.of cause w.now t interrupts) (st', w₁) with ⟨taken, st₂, w₂⟩
    obtain ⟨rfl, -⟩ := takeAt_cases htake
    refine ⟨taken, st₂, w₂, hst', hp', enough, fun fuel hfuel => ?_⟩
    simp only [await, hgo fuel hfuel, htake]
  cases st with
  | exhausted => exact absurd rfl hst
  | finished | crashed => exact .inl (settled 0 hst hp fun _ _ => rfl)
  | suspended p =>
    rcases (hp p rfl).ends_or_stalls (rt.bound (.of cause w.now t interrupts)) w with
      ⟨st', w₁, ⟨hst', enough, hrun⟩, hdiligent⟩ | ⟨hB, u, hu, hstalls⟩
    · exact .inl (settled enough hst' hdiligent fun fuel hfuel => hrun fuel fuel hfuel hfuel)
    · refine .inr ⟨hB, u, Nat.le_of_lt_succ (Nat.lt_of_lt_of_le hu Runtime.bound_le), fun n => ?_⟩
      obtain ⟨enough, hrun⟩ := hstalls n
      refine ⟨enough, fun fuel hfuel => ?_⟩
      obtain ⟨w', hr, hu', hn⟩ := hrun fuel fuel hfuel hfuel
      exact ⟨w', by simp only [await, Status.goOn, hr]; rfl, hu', hn⟩

/-- With enough fuel a run that has been stopped is never found out of fuel, unless it stalls in the
grace period. -/
theorem stopped_or_stalls {taken : Branch} {cause : StopCause} {enough : Nat} {w₁ : World B}
    (hst : st ≠ .exhausted) (hp : ∀ p, st = .suspended p → p.Diligent)
    (hcause : taken.cause? = some cause) (hle : w₁.now ≤ Clock.timer a.deadline)
    (hrun : ∀ fuel, enough ≤ fuel → await fuel rt none (Clock.timer a.deadline) interrupts
      (.suspended (.ready (Worker.run a))) w = (taken, st, w₁)) :
    (∃ enough, ∀ fuel, enough ≤ fuel → stalledAt fuel rt a interrupts w = none) ∨
      ¬ B.TakesTime ∧
        ∃ u ≤ Clock.timer (Clock.timer a.deadline + a.config.shutdownGracePeriod.nanos),
          Stalls u fun fuel => stalledAt fuel rt a interrupts w := by
  have hlater {fuel : Nat} (hfuel : enough ≤ fuel) : stalledAt fuel rt a interrupts w =
      stalled (await fuel rt (some cause) (graceEnd a (stop cause w₁).now)
        (cause.later interrupts) st (stop cause w₁)) := by
    simp only [stalledAt, hrun fuel hfuel, hcause]
  rcases await_or_stalls hst hp rt (some cause) (graceEnd a (stop cause w₁).now)
    (cause.later interrupts) (stop cause w₁) with
    ⟨taken', st', w₂, hst', -, more, hmore⟩ | ⟨hB, u, hu, hstalls⟩
  · refine .inl ⟨max enough more, fun fuel hfuel => ?_⟩
    rw [hlater (by omega), hmore fuel (by omega)]
    exact stalled_of_ne hst'
  · have hgrace : graceEnd a (stop cause w₁).now ≤
        Clock.timer (Clock.timer a.deadline + a.config.shutdownGracePeriod.nanos) := by
      rw [stop_now]
      exact graceEnd_le hle
    have htime := Nat.le_trans hu (Juncture.time_le_timer (le_graceEnd a (stop cause w₁).now))
    exact .inr ⟨hB, u, Nat.le_trans htime hgrace,
      hstalls.mono fun fuel w' hfuel hw' => (hlater hfuel).trans hw'⟩

/-- With enough fuel a run has an end, unless it stalls. -/
theorem runToEnd_or_stalls (rt : Runtime) (a : Assignment) (interrupts : List Nat) (w : World B)
    (hw : w.now ≤ a.deadline) :
    (∃ fuel, (runToEnd fuel rt a interrupts w).isSome = true) ∨
      ¬ B.TakesTime ∧
        ∃ u ≤ Clock.timer (Clock.timer a.deadline + a.config.shutdownGracePeriod.nanos),
          Stalls u fun fuel => stalledAt fuel rt a interrupts w := by
  have hdiligent : (Worker.run a).Diligent B := Worker.run_diligent
  have ends (h : ∃ enough, ∀ fuel, enough ≤ fuel → stalledAt fuel rt a interrupts w = none) :
      ∃ fuel, (runToEnd fuel rt a interrupts w).isSome = true := by
    obtain ⟨enough, hnone⟩ := h
    refine ⟨enough, Option.isSome_iff_ne_none.mpr fun hend => ?_⟩
    have hstalled := isSome_stalledAt.mpr hend
    rw [hnone enough (Nat.le_refl _)] at hstalled
    cases hstalled
  have hready : (.suspended (.ready (Worker.run a)) : Status B (List Failure)) ≠ .exhausted := nofun
  rcases await_or_stalls hready
    (fun p hp => by cases hp; exact hdiligent) rt none (Clock.timer a.deadline) interrupts w with
    ⟨taken, st, w₁, hst, hp, enough, hrun⟩ | ⟨hB, u, hu, hstalls⟩
  · have hle := (await_deadline_le hw (hrun enough (Nat.le_refl _))).1
    cases hcause : taken.cause? with
    | none =>
      refine .inl (ends ⟨enough, fun fuel hfuel => ?_⟩)
      simp only [stalledAt, hrun fuel hfuel, hcause]
      exact stalled_of_ne hst
    | some cause => exact (stopped_or_stalls hst hp hcause hle hrun).imp_left ends
  · have htimer : w.now ≤ Clock.timer a.deadline := Nat.le_trans hw (Clock.le_timer _)
    have hlimit : Clock.timer a.deadline ≤
        Clock.timer (Clock.timer a.deadline + a.config.shutdownGracePeriod.nanos) :=
      Nat.le_trans (Nat.le_add_right ..) (Clock.le_timer _)
    have hle := Nat.le_trans hu (Nat.le_trans (Juncture.time_le_timer htimer) hlimit)
    exact .inr ⟨hB, u, hle,
      hstalls.mono fun fuel w' (_ : 0 ≤ fuel) hw' => stalledAt_of_stalled hw'⟩

/-! ### The moment of the report -/

/-- The run calls the reporter at the instant `t`, or ends by force then. -/
def Concludes (rt : Runtime) (config : Config) (r : Run) (interrupts : List Nat) (w : World B)
    (t : Nat) : Prop :=
  ∃ fuel, (∃ cause own w', atReport fuel rt config r interrupts w = some (cause, own, w') ∧
      w'.now = t) ∨
    ∃ cause st w', runToEnd fuel rt ⟨config, r, w.now + config.runBudget.nanos⟩ interrupts w =
      some (.forced cause st, w') ∧ w'.now = t

variable {config : Config} {r : Run}

/-- The reporter is called in the instant in which the worker has ended. -/
theorem concludes_iff : Concludes rt config r interrupts w t ↔ ∃ fuel e w',
    runToEnd fuel rt ⟨config, r, w.now + config.runBudget.nanos⟩ interrupts w = some (e, w') ∧
      w'.now = t := by
  constructor
  · rintro ⟨fuel, ⟨cause, own, w', h, rfl⟩ | ⟨cause, st, w', h, rfl⟩⟩
    · obtain ⟨e, w₁, hend, ⟨-, rfl⟩ | ⟨f, -, -, rfl⟩⟩ := atReport_cases h
      · exact ⟨fuel, e, w₁, hend, beginSweep_now.symm⟩
      · exact ⟨fuel, e, w', hend, rfl⟩
    · exact ⟨fuel, _, w', h, rfl⟩
  · rintro ⟨fuel, e, w', h, rfl⟩
    refine ⟨fuel, ?_⟩
    cases e with
    | done cause own =>
      let a : Assignment := ⟨config, r, w.now + config.runBudget.nanos⟩
      have hreport : atReport fuel rt config r interrupts w =
          some (cause, own, (beginSweep fuel rt a w').2) := by simp only [atReport, h, a]
      exact .inl ⟨cause, own, _, hreport, beginSweep_now⟩
    | crashed cause f =>
      have hreport : atReport fuel rt config r interrupts w =
          some (cause, [.crashed rt.task f], w') := by simp only [atReport, h]
      exact .inl ⟨cause, _, w', hreport, rfl⟩
    | forced cause st => exact .inr ⟨cause, st, w', h, rfl⟩

theorem moment_of_follows {reporter : Reporter} {m : Aftermath B}
    (h : Follows fuel rt a reporter m e w) : m.summary.moment = w.now := by
  cases h with
  | forced hm =>
    cases hm
    rfl
  | crashed h =>
    rw [RunSummary.moment, (conclude_summary h).2.2]
    rfl
  | done h =>
    rw [RunSummary.moment, (conclude_summary h).2.2]
    exact beginSweep_now

theorem concludes_of_run {reporter : Reporter} {m : Aftermath B}
    (h : run fuel rt config r interrupts reporter w = some m) :
    Concludes rt config r interrupts w m.summary.moment := by
  obtain ⟨e, w', he, hfollows⟩ := run_follows h
  exact concludes_iff.mpr ⟨fuel, e, w', he, (moment_of_follows hfollows).symm⟩

theorem budgetUntil_add {text : String} {moment : WorldTime} {grace d : Duration}
    (h : Config.budgetUntil text moment grace = .ok d) :
    ∃ deadline, Environment.parseDeadline text = .ok deadline ∧
      (d.nanos + grace.nanos : Int) = deadline.since moment := by
  simp only [Config.budgetUntil] at h
  split at h
  · cases h
  · next deadline hparse =>
    split at h
    · cases h
      refine ⟨deadline, hparse, ?_⟩
      simp only [Int.ofNat_eq_natCast] at *
      omega
    · cases h

private theorem exists_of_bind_eq_ok {ε α β : Type} {x : Except ε α} {f : α → Except ε β} {b : β}
    (h : x >>= f = .ok b) : ∃ a, x = .ok a ∧ f a = .ok b := by
  cases x with
  | error e => cases h
  | ok a => exact ⟨a, rfl, h⟩

theorem ofArguments_budget {args : Arguments} {moment : WorldTime}
    (h : Config.ofArguments args moment = .ok config) :
    Config.budget args moment = .ok config.runBudget ∧
      config.shutdownGracePeriod = args.shutdownGracePeriod ∧
      config.preCleanupTimeout = args.preCleanupTimeout.min config.runBudget := by
  simp only [Config.ofArguments] at h
  split at h
  · cases h
  · obtain ⟨budget, hbudget, h⟩ := exists_of_bind_eq_ok h
    obtain ⟨_, -, h⟩ := exists_of_bind_eq_ok h
    obtain ⟨_, -, h⟩ := exists_of_bind_eq_ok h
    obtain ⟨_, -, h⟩ := exists_of_bind_eq_ok h
    cases h
    exact ⟨hbudget, rfl, rfl⟩

theorem sub_le_since {args : Arguments} {moment : WorldTime} {text : String} {u : Nat}
    (h : Config.ofArguments args moment = .ok config) (htext : args.runDeadline = some text)
    (hblank : Text.blank text = false)
    (ht : t ≤ u + config.runBudget.nanos + config.shutdownGracePeriod.nanos) :
    ∃ deadline, Environment.parseDeadline (Text.trim text) = .ok deadline ∧
      (t : Int) - u ≤ deadline.since moment := by
  obtain ⟨hbudget, hgrace, -⟩ := ofArguments_budget h
  simp only [Config.budget, htext, hblank, Bool.false_eq_true, if_false] at hbudget
  obtain ⟨deadline, hparse, hsum⟩ := budgetUntil_add hbudget
  refine ⟨deadline, hparse, ?_⟩
  rw [← hsum, ← hgrace]
  omega

/-- Suppose that the budget and the grace period are whole milliseconds. Whatever the cluster does,
whatever interrupts come and whatever the runtime decides, the run comes to its report, or to an end
by force, one grace period after its budget at the latest, one grace period after the first
interrupt, and not after the deadline for which it was configured. Timers end at whole milliseconds,
so an instant that is none counts as the next one. The run fails to come so far only if calls can be
answered in the instant in which they are made, and are so without end within one instant, which is
then not later either. -/
theorem concludes_in_time (rt : Runtime) (config : Config) (r : Run) (interrupts : List Nat)
    (w : World B) (hbudget : Clock.timer config.runBudget.nanos = config.runBudget.nanos)
    (hgrace : Clock.timer config.shutdownGracePeriod.nanos = config.shutdownGracePeriod.nanos) :
    ((∃ t, Concludes rt config r interrupts w t) ∨
        ¬ B.TakesTime ∧
          ∃ u ≤ Clock.timer w.now + config.runBudget.nanos + config.shutdownGracePeriod.nanos,
            Stalls u fun fuel =>
              stalledAt fuel rt ⟨config, r, w.now + config.runBudget.nanos⟩ interrupts w) ∧
      (∀ t, Concludes rt config r interrupts w t →
        t ≤ Clock.timer w.now + config.runBudget.nanos + config.shutdownGracePeriod.nanos ∧
        (∀ i ∈ interrupts.head?,
          t ≤ Clock.timer (max w.now i) + config.shutdownGracePeriod.nanos) ∧
        ∀ args moment text, Config.ofArguments args moment = .ok config →
          args.runDeadline = some text → Text.blank text = false →
          ∃ deadline, Environment.parseDeadline (Text.trim text) = .ok deadline ∧
            (t : Int) - Clock.timer w.now ≤ deadline.since moment) ∧
      ∀ fuel reporter m, run fuel rt config r interrupts reporter w = some m →
        Concludes rt config r interrupts w m.summary.moment := by
  let a : Assignment := ⟨config, r, w.now + config.runBudget.nanos⟩
  have hdeadline : w.now ≤ a.deadline := Nat.le_add_right ..
  have hlast : Clock.timer (Clock.timer a.deadline + a.config.shutdownGracePeriod.nanos) =
      Clock.timer w.now + config.runBudget.nanos + config.shutdownGracePeriod.nanos := by
    rw [Clock.timer_add hgrace, Clock.timer_timer, Clock.timer_add hbudget]
  refine ⟨?_, fun t ht => ?_, fun fuel reporter m => concludes_of_run⟩
  · rcases runToEnd_or_stalls rt a interrupts w hdeadline with ⟨fuel, h⟩ | ⟨hB, u, hu, hstalls⟩
    · obtain ⟨⟨e, w'⟩, h⟩ := Option.isSome_iff_exists.mp h
      exact .inl ⟨w'.now, concludes_iff.mpr ⟨fuel, e, w', h, rfl⟩⟩
    · exact .inr ⟨hB, u, hu.trans_eq hlast, hstalls⟩
  · obtain ⟨fuel, e, w', h, rfl⟩ := concludes_iff.mp ht
    obtain ⟨hlimit, hinterrupt⟩ := runToEnd_now hdeadline h
    rw [hlast] at hlimit
    exact ⟨hlimit, fun i hi => (hinterrupt i hi).trans_eq (Clock.timer_add hgrace),
      fun args moment text hargs htext hblank => sub_le_since hargs htext hblank hlimit⟩

end Lifecycle

/-! ### A cluster whose pods cling -/

namespace Overtime

/-- A pod of the run never goes away. -/
def clinging : Behaviour Cluster where
  State := Unit
  Ticket := Unit
  start _ _ s := (.zero, (), s)
  answer _ r _ s :=
    match r with
    | .listNodes => (.ok [], s)
    | .listPods selector => (.ok (if selector = Labels.systemSelector then [] else [{}]), s)
    | .listWorkloads _ _ => (.ok ⟨[], none⟩, s)
    | .createWorkload _ | .deleteWorkload _ | .deletePods _ | .deletePod _ => (.ok (), s)
    | .getPod _ | .getWorkload _ => (.ok none, s)

def brief : Config :=
  { Config.standard with shutdownGracePeriod := .ofSeconds 2 }

def start : World clinging :=
  .initial ()

def interrupts : List Nat :=
  [1500000000]

end Overtime

namespace Lifecycle

/-- The theorem for a run that is interrupted once and whose pods do not go away: it needs all the
time it has after the interrupt. -/
theorem concludes_of_clinging :
    Clock.timer Overtime.brief.runBudget.nanos = Overtime.brief.runBudget.nanos ∧
      Clock.timer Overtime.brief.shutdownGracePeriod.nanos =
        Overtime.brief.shutdownGracePeriod.nanos ∧
      Concludes .simulated Overtime.brief Leftovers.probe Overtime.interrupts Overtime.start
        (1500000000 + Overtime.brief.shutdownGracePeriod.nanos) ∧
      ∀ t, Concludes .simulated Overtime.brief Leftovers.probe Overtime.interrupts Overtime.start
          t →
        t ≤ 1500000000 + Overtime.brief.shutdownGracePeriod.nanos := by
  have h : (run 400 .simulated Overtime.brief Leftovers.probe Overtime.interrupts Leftovers.prompt
      Overtime.start).any (fun m => m.summary.moment = 3500000000) = true := by
    decide +kernel
  obtain ⟨m, hrun, hm⟩ := (Option.any_eq_true _ _).mp h
  have hbudget : Clock.timer Overtime.brief.runBudget.nanos = Overtime.brief.runBudget.nanos := by
    decide
  have hgrace : Clock.timer Overtime.brief.shutdownGracePeriod.nanos =
      Overtime.brief.shutdownGracePeriod.nanos := by
    decide
  obtain ⟨-, htimes, hends⟩ := concludes_in_time .simulated Overtime.brief Leftovers.probe
    Overtime.interrupts Overtime.start hbudget hgrace
  have hmoment := hends 400 _ m hrun
  rw [of_decide_eq_true hm] at hmoment
  exact ⟨hbudget, hgrace, hmoment, fun t ht => (htimes t ht).2.1 1500000000 rfl⟩

end Lifecycle
end NodeCoverage
