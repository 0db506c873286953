import NodeCoverage.Check.Lifecycle
import NodeCoverage.Proofs.Process.Rest
import NodeCoverage.Proofs.Process.Yields
/-!
# Waiting for the worker

The controller stops waiting at a juncture: when the first interrupt has come, or when the timer has
ended. Whatever the runtime decides, it takes something that is ready, and it takes the worker's end
if that comes earlier.
-/

namespace NodeCoverage

theorem Branch.ready_pick {ready : Branch → Bool} {b : Branch} (first : Branch)
    (h : ready b = true) : ready (pick ready first) = true := by
  simp only [pick]
  split
  · next hfirst => exact hfirst
  · next hfirst =>
    split
    · next hnext => exact hnext
    · next hnext =>
      cases first <;> cases b <;> simp_all [next]

namespace Juncture

variable {cause : Option StopCause} {now t : Nat} {interrupts : List Nat}

theorem le_time : now ≤ (of cause now t interrupts).time :=
  Nat.le_max_left ..

theorem time_le : (of cause now t interrupts).time ≤ max now t := by
  simp only [of]
  cases interrupts.head? with
  | none => exact Nat.le_refl _
  | some i =>
    simp only [Option.elim_some]
    omega

/-- The controller never waits for longer than the timer. -/
theorem time_le_timer (h : now ≤ t) : (of cause now t interrupts).time ≤ t :=
  Nat.le_trans time_le (Nat.max_le.mpr ⟨h, Nat.le_refl _⟩)

/-- Without an interrupt the controller waits for the timer. -/
theorem time_eq_of_late (h : ∀ i ∈ interrupts.head?, t ≤ i) :
    (of cause now t interrupts).time = max now t := by
  simp only [of]
  cases hi : interrupts.head? with
  | none => rfl
  | some i => rw [Option.elim_some, Nat.min_eq_left (h i hi)]

theorem time_le_of_interrupt {i : Nat} (hi : i ∈ interrupts.head?) :
    (of cause now t interrupts).time ≤ max now i := by
  simp only [of, Option.mem_def.mp hi, Option.elim_some]
  omega

theorem ready_of (cause : Option StopCause) (now t : Nat) (interrupts : List Nat) (ended : Bool) :
    ∃ b, (of cause now t interrupts).ready ended b = true := by
  by_cases ht : t ≤ (of cause now t interrupts).time
  · exact ⟨.timer, decide_eq_true ht⟩
  · refine ⟨.interrupt, ?_⟩
    simp only [ready, of] at ht ⊢
    cases hi : interrupts.head? with
    | none =>
      rw [hi] at ht
      simp only [Option.elim_none] at ht
      omega
    | some i =>
      rw [hi] at ht
      simp only [Option.elim_some, Option.any_some] at ht ⊢
      exact decide_eq_true (by omega)

end Juncture

/-- The end of a worker is taken that ends at this instant while the controller waits. -/
def Runtime.Takes (rt : Runtime) (j : Juncture) (u : Nat) : Prop :=
  u < j.time ∨ u = j.time ∧ rt.workerFirst j = true ∧ rt.pick j true = .worker

theorem Runtime.Takes.lt_bound {rt : Runtime} {j : Juncture} {u : Nat} (h : rt.Takes j u) :
    u < rt.bound j := by
  simp only [Runtime.bound]
  rcases h with h | ⟨rfl, hfirst, -⟩
  · split <;> omega
  · rw [if_pos hfirst]
    exact Nat.lt_succ_self _

theorem Runtime.time_le_bound {rt : Runtime} {j : Juncture} : j.time ≤ rt.bound j := by
  simp only [Runtime.bound]
  split <;> omega

theorem Runtime.bound_le {rt : Runtime} {j : Juncture} : rt.bound j ≤ j.time + 1 := by
  simp only [Runtime.bound]
  split <;> omega

theorem Status.ne_exhausted_of_hasEnded {S : Service} {B : Behaviour S} {α : Type}
    {st : Status B α} (h : st.hasEnded = true) : st ≠ .exhausted := by
  rintro rfl
  cases h

theorem WorkerEnd.hasEnded_of_ended {B : Behaviour Cluster} {cause : Option StopCause}
    {st : Status B (List Failure)} {e : WorkerEnd B} (h : ended? cause st = some e) :
    st.hasEnded = true := by
  cases st with
  | finished | crashed => rfl
  | suspended | exhausted => cases h

theorem WorkerEnd.ne_forced_of_ended {B : Behaviour Cluster} {cause : Option StopCause}
    {st : Status B (List Failure)} {e : WorkerEnd B} (h : ended? cause st = some e)
    (c : StopCause) (st' : Status B (List Failure)) : e ≠ .forced c st' := by
  rintro rfl
  cases st <;> cases h

/-! ### What is taken -/

namespace Lifecycle

variable {B : Behaviour Cluster} {fuel : Nat} {rt : Runtime} {cause : Option StopCause} {t : Nat}
  {interrupts : List Nat} {st st' : Status B (List Failure)} {b : Branch} {w w₁ w' : World B}

theorem takeAt_cases {j : Juncture} (h : takeAt rt j (st, w) = (b, st', w')) :
    st' = st ∧ (b = .worker ∧ st = .exhausted ∧ w' = w ∨
      b = .worker ∧ st.hasEnded = true ∧ w.now < j.time ∧ w' = w ∨
      st ≠ .exhausted ∧ b = rt.pick j st.hasEnded ∧ (st.hasEnded = true → j.time ≤ w.now) ∧
        w' = w.advance j.time) := by
  by_cases hst : st = .exhausted
  · subst hst
    cases h
    exact ⟨rfl, .inl ⟨rfl, rfl, rfl⟩⟩
  · have htake : takeAt rt j (st, w) = if st.hasEnded && decide (w.now < j.time) then
        (.worker, st, w) else (rt.pick j st.hasEnded, st, w.advance j.time) := by
      cases st <;> first | rfl | exact absurd rfl hst
    rw [htake] at h
    split at h
    · next hend =>
      cases h
      obtain ⟨hended, hlt⟩ := Bool.and_eq_true_iff.mp hend
      exact ⟨rfl, .inr (.inl ⟨rfl, hended, of_decide_eq_true hlt, rfl⟩)⟩
    · next hend =>
      cases h
      refine ⟨rfl, .inr (.inr ⟨hst, rfl, fun hended => Nat.le_of_not_lt fun hlt => hend ?_, rfl⟩)⟩
      rw [hended, Bool.true_and]
      exact decide_eq_true hlt

/-- The worker goes on up to the juncture, unless it is out of fuel; then its end is taken if it
came before, and else what the runtime picks. -/
theorem await_cases (h : await fuel rt cause t interrupts st w = (b, st', w')) :
    ∃ w₁, st.goOn fuel (some (rt.bound (.of cause w.now t interrupts))) w = (st', w₁) ∧
      (b = .worker ∧ st' = .exhausted ∧ w' = w₁ ∨
        b = .worker ∧ st'.hasEnded = true ∧
          w₁.now < (Juncture.of cause w.now t interrupts).time ∧ w' = w₁ ∨
        st' ≠ .exhausted ∧ b = rt.pick (.of cause w.now t interrupts) st'.hasEnded ∧
          (st'.hasEnded = true → (Juncture.of cause w.now t interrupts).time ≤ w₁.now) ∧
          w' = w₁.advance (Juncture.of cause w.now t interrupts).time) := by
  simp only [await] at h
  rcases hr : st.goOn fuel (some (rt.bound (.of cause w.now t interrupts))) w with ⟨st₁, w₁⟩
  rw [hr] at h
  obtain ⟨rfl, hb⟩ := takeAt_cases h
  exact ⟨w₁, rfl, hb⟩

theorem goOn_now {bound : Nat} (h : st.goOn fuel (some bound) w = (st', w')) :
    w.now ≤ w'.now ∧ (w.now < bound → w'.now < bound) ∧ (bound ≤ w.now → w' = w) := by
  cases st with
  | suspended p =>
    obtain ⟨hle, hlt, hsame⟩ := Suspended.runUntil_now h
    exact ⟨hle, hlt, fun hbound => (hsame hbound).1⟩
  | finished | crashed | exhausted =>
    cases h
    exact ⟨Nat.le_refl _, id, fun _ => rfl⟩

/-- What is known when the controller stops waiting. -/
structure Waited (cause : Option StopCause) (t : Nat) (interrupts : List Nat) (w : World B)
    (b : Branch) (st : Status B (List Failure)) (w' : World B) : Prop where
  now_le : w.now ≤ w'.now
  le_time : w'.now ≤ (Juncture.of cause w.now t interrupts).time
  worker : b = .worker → st = .exhausted ∨ st.hasEnded = true
  ne_exhausted : b ≠ .worker → st ≠ .exhausted
  time_eq : b ≠ .worker → w'.now = (Juncture.of cause w.now t interrupts).time
  interrupt : b = .interrupt → ∃ i ∈ interrupts.head?, i ≤ w'.now
  timer : b = .timer → t ≤ w'.now

theorem await_waited (h : await fuel rt cause t interrupts st w = (b, st', w')) :
    Waited cause t interrupts w b st' w' := by
  obtain ⟨w₁, hgo, hb⟩ := await_cases h
  obtain ⟨hle, hlt, hsame⟩ := goOn_now hgo
  have hnow : w.now ≤ (Juncture.of cause w.now t interrupts).time := Juncture.le_time
  have hbound : w₁.now ≤ (Juncture.of cause w.now t interrupts).time := by
    by_cases hw : w.now < rt.bound (.of cause w.now t interrupts)
    · exact Nat.le_of_lt_succ (Nat.lt_of_lt_of_le (hlt hw) Runtime.bound_le)
    · rw [hsame (Nat.le_of_not_lt hw)]
      exact hnow
  rcases hb with ⟨rfl, rfl, rfl⟩ | ⟨rfl, hended, hlt, rfl⟩ | ⟨hne, hpick, -, hw'⟩
  · exact ⟨hle, hbound, fun _ => .inl rfl, fun h => absurd rfl h, fun h => absurd rfl h, nofun,
      nofun⟩
  · exact ⟨hle, hbound, fun _ => .inr hended, fun h => absurd rfl h, fun h => absurd rfl h, nofun,
      nofun⟩
  · have htime : w'.now = (Juncture.of cause w.now t interrupts).time := by
      rw [hw']
      exact Nat.max_eq_right hbound
    obtain ⟨b', hb'⟩ := Juncture.ready_of cause w.now t interrupts st'.hasEnded
    have hready := Branch.ready_pick (rt.first (.of cause w.now t interrupts)) hb'
    change (Juncture.of cause w.now t interrupts).ready st'.hasEnded (rt.pick _ _) = true at hready
    rw [← hpick] at hready
    refine ⟨by rw [htime]; exact hnow, Nat.le_of_eq htime, ?_, fun _ => hne, fun _ => htime, ?_, ?_⟩
    all_goals
      rintro rfl
    · exact .inr hready
    · obtain ⟨i, hi, hle⟩ := (Option.any_eq_true _ _).mp hready
      exact ⟨i, hi, htime ▸ of_decide_eq_true hle⟩
    · exact htime ▸ of_decide_eq_true hready

/-- The controller stops waiting at the juncture, and the runtime lets it see `b` first. The worker
has come as far as `st'` then, and not to its end before. -/
structure Noticed (fuel : Nat) (rt : Runtime) (j : Juncture) (st : Status B (List Failure))
    (w : World B) (b : Branch) (st' : Status B (List Failure)) (w' : World B) : Prop where
  goOn : ∃ w₁, st.goOn fuel (some (rt.bound j)) w = (st', w₁) ∧
    (st'.hasEnded = true → j.time ≤ w₁.now) ∧ w' = w₁.advance j.time
  ne_exhausted : st' ≠ .exhausted
  pick_eq : rt.pick j st'.hasEnded = b

/-- What is taken in place of the worker's end is noticed before it. -/
theorem await_eq_iff_noticed (hb : b ≠ .worker) :
    await fuel rt cause t interrupts st w = (b, st', w') ↔
      Noticed fuel rt (.of cause w.now t interrupts) st w b st' w' := by
  constructor
  · intro h
    obtain ⟨w₁, hgo, ⟨rfl, -, -⟩ | ⟨rfl, -, -, -⟩ | ⟨hne, hpick, hlate, hw'⟩⟩ := await_cases h
    · exact absurd rfl hb
    · exact absurd rfl hb
    · exact ⟨⟨w₁, hgo, hlate, hw'⟩, hne, hpick.symm⟩
  · rintro ⟨⟨w₁, hgo, hlate, rfl⟩, hne, hpick⟩
    simp only [await, hgo]
    rcases htake : takeAt rt (.of cause w.now t interrupts) (st', w₁) with ⟨b', st₁, w₂⟩
    obtain ⟨rfl, ⟨-, rfl, -⟩ | ⟨-, hended, hlt, -⟩ | ⟨-, rfl, -, rfl⟩⟩ := takeAt_cases htake
    · exact absurd rfl hne
    · exact absurd (hlate hended) (Nat.not_le.mpr hlt)
    · rw [hpick]

/-- The end of a worker is taken exactly if the worker comes to it by itself, and in time. -/
theorem await_eq_worker_iff {p : Suspended B (List Failure)} (hst' : st'.hasEnded = true) :
    await fuel rt cause t interrupts (.suspended p) w = (.worker, st', w') ↔
      p.runUntil fuel (some (rt.bound (.of cause w.now t interrupts))) fuel w = (st', w') ∧
        rt.Takes (.of cause w.now t interrupts) w'.now := by
  have hne := Status.ne_exhausted_of_hasEnded hst'
  constructor
  · intro h
    obtain ⟨w₁, hgo, hb⟩ := await_cases h
    have hbegun : w.now < rt.bound (.of cause w.now t interrupts) := by
      refine Nat.lt_of_not_le fun hle => ?_
      rcases ((Suspended.runUntil_now hgo).2.2 hle).2 with rfl | rfl <;> cases hst'
    have hlt := (Suspended.runUntil_now hgo).2.1 hbegun
    rcases hb with ⟨-, rfl, -⟩ | ⟨-, -, hbefore, rfl⟩ | ⟨-, hpick, htime, hw'⟩
    · exact absurd rfl hne
    · exact ⟨hgo, .inl hbefore⟩
    · -- the worker has gone on at the juncture itself
      have htime := htime hst'
      rw [hst'] at hpick
      have hfirst : rt.workerFirst (.of cause w.now t interrupts) = true := by
        apply Decidable.byContradiction
        intro hnot
        rw [Runtime.bound, if_neg hnot] at hlt
        omega
      rw [Runtime.bound, if_pos hfirst] at hlt
      obtain rfl : w' = w₁ := hw'.trans (World.advance_of_le htime)
      exact ⟨hgo, .inr ⟨by omega, hfirst, hpick.symm⟩⟩
  · rintro ⟨hr, htakes⟩
    simp only [await, Status.goOn, hr]
    rcases htake : takeAt rt (.of cause w.now t interrupts) (st', w') with ⟨b, st₁, w₁⟩
    obtain ⟨rfl, ⟨-, rfl, -⟩ | ⟨rfl, -, -, rfl⟩ | ⟨-, rfl, hlate, rfl⟩⟩ := takeAt_cases htake
    · exact absurd rfl hne
    · rfl
    · rcases htakes with hlt | ⟨htime, -, hpick⟩
      · exact absurd (hlate hst') (Nat.not_le.mpr hlt)
      · rw [hst', hpick, World.advance_of_le (Nat.le_of_eq htime.symm)]

/-! ### The end of the worker -/

variable {a : Assignment} {grace : Duration} {c : StopCause} {e : WorkerEnd B}

/-- What the controller takes first, and when. -/
def stopping (fuel : Nat) (rt : Runtime) (a : Assignment) (interrupts : List Nat) (w : World B) :
    Option (StopCause × Nat) :=
  let (taken, _, w') := await fuel rt none (Clock.timer a.deadline) interrupts
    (.suspended (.ready (Worker.run a))) w
  taken.cause?.map (·, w'.now)

theorem awaitTeardown_cases
    (h : awaitTeardown fuel rt grace c interrupts st w = some (e, w')) :
    ∃ taken st', await fuel rt (some c) (Clock.timer (Clock.after w.now grace)) interrupts st w =
        (taken, st', w') ∧
      (taken = .worker ∧ WorkerEnd.ended? (some c) st' = some e ∨
        taken ≠ .worker ∧ e = .forced c st') := by
  simp only [awaitTeardown] at h
  rcases hr : await fuel rt (some c) (Clock.timer (Clock.after w.now grace)) interrupts st w with
    ⟨taken, st', w₁⟩
  rw [hr] at h
  cases taken with
  | worker =>
    obtain ⟨_, he, heq⟩ := Option.map_eq_some_iff.mp h
    cases heq
    exact ⟨_, _, rfl, .inl ⟨rfl, he⟩⟩
  | interrupt | timer =>
    cases h
    exact ⟨_, _, rfl, .inr ⟨nofun, rfl⟩⟩

theorem runToEnd_exhausted
    (h : (Suspended.ready (Worker.run a)).runUntil fuel
      (some (rt.bound (.of none w.now (Clock.timer a.deadline) interrupts))) fuel w =
        (.exhausted, w₁)) : runToEnd fuel rt a interrupts w = none := by
  simp only [runToEnd, await, Status.goOn, h]
  rfl

/-- The worker comes to its end, or it is stopped and then given its grace period. -/
theorem runToEnd_cases (h : runToEnd fuel rt a interrupts w = some (e, w')) :
    ∃ taken st w₁, await fuel rt none (Clock.timer a.deadline) interrupts
        (.suspended (.ready (Worker.run a))) w = (taken, st, w₁) ∧
      (taken = .worker ∧ WorkerEnd.ended? none st = some e ∧ w' = w₁ ∨
        ∃ c, taken.cause? = some c ∧
          awaitTeardown fuel rt a.config.shutdownGracePeriod c (c.later interrupts) st
            (stop c w₁) = some (e, w')) := by
  simp only [runToEnd] at h
  rcases hr : await fuel rt none (Clock.timer a.deadline) interrupts
    (.suspended (.ready (Worker.run a))) w with ⟨taken, st, w₁⟩
  rw [hr] at h
  refine ⟨taken, st, w₁, rfl, ?_⟩
  cases taken with
  | worker =>
    obtain ⟨_, he, heq⟩ := Option.map_eq_some_iff.mp h
    cases heq
    exact .inl ⟨rfl, he, rfl⟩
  | interrupt => exact .inr ⟨.interrupt, rfl, h⟩
  | timer => exact .inr ⟨.deadline, rfl, h⟩

end Lifecycle
end NodeCoverage
