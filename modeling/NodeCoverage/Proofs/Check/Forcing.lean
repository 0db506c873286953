import NodeCoverage.Proofs.Check.Timely
/-!
# When a run ends by force

A run that was stopped ends by force when its grace period is over and the worker is still not done,
or when an interrupt comes meanwhile. After an interrupt has stopped the run that is the second one
at least. After the deadline has stopped it the first interrupt is enough.
-/

namespace NodeCoverage

variable {B : Behaviour Cluster}

/-- How many interrupts have come by the instant `t`. -/
def received (interrupts : List Nat) (t : Nat) : Nat :=
  interrupts.countP (· ≤ t)

/-- How many interrupts it takes to stop a run for this cause. -/
def StopCause.taken : StopCause → Nat
  | .interrupt => 1
  | .deadline => 0

namespace Lifecycle

/-- The worker had come as far as `st`, and its end had not been noticed, when it was stopped for
this cause. The world is the one right after that, and these interrupts are still to be received. -/
inductive Stopped (fuel : Nat) (rt : Runtime) (a : Assignment) (interrupts : List Nat)
    (w : World B) : StopCause → List Nat → Status B (List Failure) → World B → Prop
  | interrupt {i : Nat} {later : List Nat} {st : Status B (List Failure)} {w₁ : World B}
    (first : interrupts = i :: later) (come : i ≤ w₁.now)
    (noticed : Noticed fuel rt (.of none w.now (Clock.timer a.deadline) interrupts)
      (.suspended (.ready (Worker.run a))) w .interrupt st w₁) :
    Stopped fuel rt a interrupts w .interrupt later st (stop .interrupt w₁)
  | deadline {st : Status B (List Failure)} {w₁ : World B} (late : a.deadline ≤ w₁.now)
    (noticed : Noticed fuel rt (.of none w.now (Clock.timer a.deadline) interrupts)
      (.suspended (.ready (Worker.run a))) w .timer st w₁) :
    Stopped fuel rt a interrupts w .deadline interrupts st (stop .deadline w₁)

/-- The end of the worker that was stopped in `w` is not noticed before the end of its grace period
is, or before the next interrupt is if that is earlier. -/
def Unfinished (fuel : Nat) (rt : Runtime) (grace : Duration) (cause : StopCause) (later : List Nat)
    (st : Status B (List Failure)) (w : World B) : Prop :=
  ∃ b ≠ Branch.worker, ∃ st' w', Noticed fuel rt
    (.of (some cause) w.now (Clock.timer (Clock.after w.now grace)) later) st w b st' w'

variable {fuel : Nat} {rt : Runtime} {a : Assignment} {interrupts later : List Nat}
  {w w₁ w' : World B} {st st' : Status B (List Failure)} {cause : StopCause} {grace : Duration}
  {t : Nat}

theorem received_pos {i : Nat} (hi : i ∈ interrupts.head?) (ht : i ≤ t) :
    0 < received interrupts t :=
  List.countP_pos_iff.mpr ⟨i, List.mem_of_mem_head? hi, decide_eq_true ht⟩

namespace Stopped

theorem await_eq (h : Stopped fuel rt a interrupts w cause later st w₁) :
    ∃ taken w₀, await fuel rt none (Clock.timer a.deadline) interrupts
        (.suspended (.ready (Worker.run a))) w = (taken, st, w₀) ∧
      taken.cause? = some cause ∧ later = cause.later interrupts ∧ w₁ = stop cause w₀ := by
  cases h with
  | @interrupt _ _ _ w₀ first come noticed =>
    have hbranch : Branch.interrupt ≠ .worker := nofun
    subst first
    exact ⟨.interrupt, w₀, (await_eq_iff_noticed hbranch).mpr noticed, rfl, rfl, rfl⟩
  | @deadline _ w₀ late noticed =>
    have hbranch : Branch.timer ≠ .worker := nofun
    exact ⟨.timer, w₀, (await_eq_iff_noticed hbranch).mpr noticed, rfl, rfl, rfl⟩

theorem of_await {taken : Branch} {w₀ : World B}
    (h : await fuel rt none (Clock.timer a.deadline) interrupts
      (.suspended (.ready (Worker.run a))) w = (taken, st, w₀))
    (hcause : taken.cause? = some cause) :
    Stopped fuel rt a interrupts w cause (cause.later interrupts) st (stop cause w₀) := by
  cases taken with
  | worker => cases hcause
  | interrupt =>
    have hbranch : Branch.interrupt ≠ .worker := nofun
    cases hcause
    obtain ⟨i, hi, hle⟩ := (await_waited h).interrupt rfl
    obtain ⟨later, rfl⟩ := List.head?_eq_some_iff.mp hi
    exact .interrupt rfl hle ((await_eq_iff_noticed hbranch).mp h)
  | timer =>
    have hbranch : Branch.timer ≠ .worker := nofun
    cases hcause
    exact .deadline (Nat.le_trans (Clock.le_timer _) ((await_waited h).timer rfl))
      ((await_eq_iff_noticed hbranch).mp h)

theorem stopTime_eq (h : Stopped fuel rt a interrupts w cause later st w₁) :
    stopTime fuel rt a interrupts w = some w₁.now := by
  obtain ⟨taken, w₀, hawait, hcause, -, rfl⟩ := h.await_eq
  simp only [stopTime, stopping, hawait, hcause, Option.map_some, stop_now]

theorem runToEnd_eq (h : Stopped fuel rt a interrupts w cause later st w₁) :
    runToEnd fuel rt a interrupts w =
      awaitTeardown fuel rt a.config.shutdownGracePeriod cause later st w₁ := by
  obtain ⟨taken, w₀, hawait, hcause, rfl, rfl⟩ := h.await_eq
  simp only [runToEnd, hawait, hcause]

theorem taken_lt_received (h : Stopped fuel rt a interrupts w cause later st w₁) {i : Nat}
    (hi : i ∈ later.head?) (hnow : w₁.now ≤ t) (ht : i ≤ t) :
    cause.taken < received interrupts t := by
  have hlater := received_pos hi ht
  cases h with
  | @interrupt first _ _ w₀ hfirst come _ =>
    rw [stop_now] at hnow
    have hcount : received interrupts t = received later t + 1 := by
      rw [hfirst]
      exact List.countP_cons_of_pos (decide_eq_true (Nat.le_trans come hnow))
    rw [hcount]
    exact Nat.succ_lt_succ hlater
  | deadline => exact hlater

end Stopped

/-- The grace period ends by force exactly if the worker is not done then. -/
theorem exists_forced_iff : (∃ st' w', awaitTeardown fuel rt grace cause later st w =
    some (.forced cause st', w')) ↔ Unfinished fuel rt grace cause later st w := by
  constructor
  · rintro ⟨st', w', h⟩
    obtain ⟨taken, st'', hawait, ⟨-, he⟩ | ⟨htaken, he⟩⟩ := awaitTeardown_cases h
    · exact absurd rfl (WorkerEnd.ne_forced_of_ended he _ _)
    · cases he
      exact ⟨taken, htaken, st', w', (await_eq_iff_noticed htaken).mp hawait⟩
  · rintro ⟨b, hb, st', w', hnoticed⟩
    refine ⟨st', w', ?_⟩
    simp only [awaitTeardown, (await_eq_iff_noticed hb).mpr hnoticed]

/-- A grace period that ends by force is over, or an interrupt has come. -/
theorem grace_over_or_interrupted
    (h : awaitTeardown fuel rt grace cause later st w = some (.forced cause st', w')) :
    w.now ≤ w'.now ∧ (w'.now = Clock.timer (Clock.after w.now grace) ∨
      ∃ i ∈ later.head?, i ≤ w'.now) := by
  obtain ⟨taken, st'', hawait, ⟨-, he⟩ | ⟨htaken, -⟩⟩ := awaitTeardown_cases h
  · exact absurd rfl (WorkerEnd.ne_forced_of_ended he _ _)
  · have hwaited := await_waited hawait
    refine ⟨hwaited.now_le, ?_⟩
    cases taken with
    | worker => exact absurd rfl htaken
    | interrupt => exact .inr (hwaited.interrupt rfl)
    | timer =>
      have hgrace : w.now ≤ Clock.timer (Clock.after w.now grace) :=
        Nat.le_trans (le_after ..) (Clock.le_timer _)
      exact .inl (Nat.le_antisymm (Nat.le_trans hwaited.le_time (Juncture.time_le_timer hgrace))
        (hwaited.timer rfl))

theorem stopped_of_forced (h : runToEnd fuel rt a interrupts w = some (.forced cause st', w')) :
    ∃ later st w₁, Stopped fuel rt a interrupts w cause later st w₁ := by
  obtain ⟨taken, st, w₀, hawait, ⟨-, he, -⟩ | ⟨cause', hcause, hend⟩⟩ := runToEnd_cases h
  · exact absurd rfl (WorkerEnd.ne_forced_of_ended he _ _)
  · obtain ⟨_, st'', -, ⟨-, he⟩ | ⟨-, he⟩⟩ := awaitTeardown_cases hend
    · exact absurd rfl (WorkerEnd.ne_forced_of_ended he _ _)
    · cases he
      exact ⟨_, st, _, .of_await hawait hcause⟩

theorem unfinished_of_forced (h : runToEnd fuel rt a interrupts w = some (.forced cause st', w')) :
    ∃ later st w₁, Stopped fuel rt a interrupts w cause later st w₁ ∧
      Unfinished fuel rt a.config.shutdownGracePeriod cause later st w₁ ∧ w₁.now ≤ w'.now ∧
      (w'.now = Clock.timer (Clock.after w₁.now a.config.shutdownGracePeriod) ∨
        cause.taken < received interrupts w'.now) := by
  obtain ⟨later, st, w₁, hstopped⟩ := stopped_of_forced h
  rw [hstopped.runToEnd_eq] at h
  obtain ⟨hle, hend⟩ := grace_over_or_interrupted h
  refine ⟨later, st, w₁, hstopped, exists_forced_iff.mp ⟨_, w', h⟩, hle, hend.imp_right ?_⟩
  rintro ⟨i, hi, hnow⟩
  exact hstopped.taken_lt_received hi hle hnow

variable {config : Config} {r : Run} {reporter : Reporter} {m : Aftermath B}

theorem summary_of_forced (h : run fuel rt config r interrupts reporter w = some m)
    (hend : runToEnd fuel rt ⟨config, r, w.now + config.runBudget.nanos⟩ interrupts w =
      some (.forced cause st, w')) :
    m.summary = forcedSummary ⟨config, r, w.now + config.runBudget.nanos⟩ cause w'.now := by
  simp only [run, hend, Option.some.injEq] at h
  rw [← h]
  rfl

/-- A run ends by force if and only if it was stopped and its worker was not done in time. Then it
has had its whole grace period, or more interrupts have been received than it took to stop it: two
if it was an interrupt that stopped it, but only one if it was the deadline. -/
theorem forced_iff_unfinished (h : run fuel rt config r interrupts reporter w = some m) :
    m.summary.exit = .forced ↔ ∃ cause later st w₁,
      Stopped fuel rt ⟨config, r, w.now + config.runBudget.nanos⟩ interrupts w cause later st w₁ ∧
      Unfinished fuel rt config.shutdownGracePeriod cause later st w₁ ∧
      w₁.now ≤ m.summary.ended ∧
      (m.summary.ended = Clock.timer (Clock.after w₁.now config.shutdownGracePeriod) ∨
        cause.taken < received interrupts m.summary.ended) := by
  constructor
  · intro hforced
    rcases run_cases h with ⟨-, -, cause, st', w', hend⟩ | ⟨_, _, _, -, hexit, -⟩
    · obtain ⟨later, st, w₁, hstopped, hunfinished, hend'⟩ := unfinished_of_forced hend
      rw [summary_of_forced h hend]
      exact ⟨cause, later, st, w₁, hstopped, hunfinished, hend'⟩
    · exact absurd hforced hexit
  · rintro ⟨cause, later, st, w₁, hstopped, hunfinished, -⟩
    obtain ⟨st', w', hend⟩ := exists_forced_iff.mpr hunfinished
    rw [summary_of_forced h (hstopped.runToEnd_eq.trans hend)]
    rfl

namespace Forcing

def hasty : Config :=
  { Overtime.brief with runBudget := .ofSeconds 5 }

/-- The exit of a run whose pods do not go away, and when it ends. -/
def forcedAt (interrupts : List Nat) (t : Nat) : Bool :=
  (run 400 .simulated hasty Leftovers.probe interrupts Leftovers.prompt Overtime.start).any fun m =>
    m.summary.exit = .forced ∧ m.summary.ended = t

theorem exists_of_forcedAt (interrupts : List Nat) (t : Nat)
    (h : forcedAt interrupts t = true) : ∃ m : Aftermath Overtime.clinging,
      run 400 .simulated hasty Leftovers.probe interrupts Leftovers.prompt Overtime.start = some m ∧
        m.summary.exit = .forced ∧ m.summary.ended = t := by
  obtain ⟨m, hrun, hm⟩ := (Option.any_eq_true _ _).mp h
  exact ⟨m, hrun, of_decide_eq_true hm⟩

end Forcing

/-- The theorem for a run that is interrupted twice, the second time in its grace period. -/
theorem forced_iff_unfinished_twice : ∃ m : Aftermath Overtime.clinging,
    run 400 .simulated Forcing.hasty Leftovers.probe [1500000000, 2000000000] Leftovers.prompt
        Overtime.start = some m ∧
      m.summary.exit = .forced ∧ m.summary.ended = 2000000000 ∧ ∃ cause later st w₁,
        Stopped 400 .simulated ⟨Forcing.hasty, Leftovers.probe, Overtime.start.now +
            Forcing.hasty.runBudget.nanos⟩ [1500000000, 2000000000] Overtime.start cause later st
            w₁ ∧
          Unfinished 400 .simulated Forcing.hasty.shutdownGracePeriod cause later st w₁ := by
  obtain ⟨m, hrun, hexit, hended⟩ := Forcing.exists_of_forcedAt
    [1500000000, 2000000000] 2000000000 (by decide +kernel)
  obtain ⟨cause, later, st, w₁, hstopped, hunfinished, -⟩ :=
    (forced_iff_unfinished hrun).mp hexit
  exact ⟨m, hrun, hexit, hended, cause, later, st, w₁, hstopped, hunfinished⟩

/-- A single interrupt ends a run by force that its deadline has stopped, although the grace period
is not over. -/
theorem not_always_forced_by_two : ¬ ∀ (B : Behaviour Cluster) (fuel : Nat) (rt : Runtime)
    (config : Config) (r : Run) (interrupts : List Nat) (reporter : Reporter) (w : World B)
    (m : Aftermath B),
    run fuel rt config r interrupts reporter w = some m → m.summary.exit = .forced →
    ∃ cause later st w₁,
      Stopped fuel rt ⟨config, r, w.now + config.runBudget.nanos⟩ interrupts w cause later st w₁ ∧
      Unfinished fuel rt config.shutdownGracePeriod cause later st w₁ ∧
      w₁.now ≤ m.summary.ended ∧
      (m.summary.ended = Clock.timer (Clock.after w₁.now config.shutdownGracePeriod) ∨
        2 ≤ received interrupts m.summary.ended) := by
  intro h
  obtain ⟨m, hrun, hexit, hended⟩ := Forcing.exists_of_forcedAt [6000000000] 6000000000
    (by decide +kernel)
  obtain ⟨cause, later, st, w₁, hstopped, -, -, hreason⟩ := h _ _ _ _ _ _ _ _ m hrun hexit
  have hstop : stopTime 400 .simulated ⟨Forcing.hasty, Leftovers.probe, Overtime.start.now +
      Forcing.hasty.runBudget.nanos⟩ [6000000000] Overtime.start = some 5000000000 := by
    decide +kernel
  have hnow : w₁.now = 5000000000 := Option.some.inj (hstopped.stopTime_eq.symm.trans hstop)
  rw [hended, hnow] at hreason
  revert hreason
  decide +kernel

end Lifecycle
end NodeCoverage
