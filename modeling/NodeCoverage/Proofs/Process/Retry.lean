import NodeCoverage.Process.Retry
import NodeCoverage.Proofs.Number.Binary64
import NodeCoverage.Proofs.Process.Yields
/-!
# Repeated attempts as a series

Left alone, an attempt that is repeated under a policy is a series of attempts that failed, though
not for good, each with a pause after it, and then a last attempt. Pauses may be spread at random.
If they add up to more than the policy allows, even when each is as short as it can be, then there
always is a last attempt.
-/

namespace NodeCoverage

open Process (Finishes Reaches Rounds Unfinished Waits Yields)

/-- No sleep is longer than it is asked to be. -/
theorem Clock.after_le (now : Nat) (d : Duration) : after now d ≤ now + d.nanos := by
  rw [after, Duration.nanos_min]
  exact Nat.add_le_add_left (Nat.min_le_left ..) now

namespace Backoff

open Number

/-! ### Spread delays -/

theorem inSeconds_nonneg (d : Duration) : 0 ≤ inSeconds d := by
  have hwhole : 0 ≤ Binary64.round (d.seconds : Nat) := Binary64.round_nonneg (Nat.cast_nonneg _)
  have hpart : 0 ≤ Binary64.round (mkRat d.subsecond 1000000000) :=
    Binary64.round_nonneg (Rat.mkRat_nonneg (Int.natCast_nonneg _) _)
  exact Binary64.round_nonneg (add_nonneg hwhole hpart)

theorem natAbs_mul_div {x : ℚ} (hx : 0 ≤ x) :
    ((x.num.natAbs * 1000000000 : Nat) / x.den : ℚ) = x * 1000000000 := by
  conv_rhs => rw [← Binary64.natAbs_num_div_den hx]
  push_cast
  ring

theorem ofSeconds_mono {x y : ℚ} (hx : 0 ≤ x) (h : x ≤ y) :
    (ofSeconds x).nanos ≤ (ofSeconds y).nanos := by
  rcases h.eq_or_lt with rfl | h
  · exact le_rfl
  · refine nearest_le_of_lt x.den_pos y.den_pos ?_
    rw [natAbs_mul_div hx, natAbs_mul_div (hx.trans h.le)]
    linarith

/-- The lowest factor is the one that is taken for a zero. -/
theorem factor_zero_le {policy : Backoff} (hspread : 0 < policy.randomization) (drawn : ℚ) :
    0 ≤ policy.factor 0 ∧ policy.factor 0 ≤ policy.factor drawn := by
  unfold factor
  extract_lets spread low high zero factor
  have hle : spread ≤ 1 := by
    unfold spread
    split
    · exact le_rfl
    · next h => exact not_lt.mp h
  have hpos : 0 ≤ spread := by
    unfold spread
    split
    · exact zero_le_one
    · exact hspread.le
  have hlow : 0 ≤ low := Binary64.round_nonneg (sub_nonneg.mpr hle)
  have hhigh : low ≤ high := Binary64.round_mono (sub_nonneg.mpr hle) (by linarith)
  have hzero : zero = 0 := rfl
  rw [hzero]
  split_ifs <;> constructor <;> linarith

theorem delay_zero_le (policy : Backoff) (drawn : ℚ) (interval : Duration) :
    (policy.delay 0 interval).nanos ≤ (policy.delay drawn interval).nanos := by
  unfold delay
  split
  · next hspread =>
    obtain ⟨hnonneg, hle⟩ := factor_zero_le hspread drawn
    have hseconds := inSeconds_nonneg interval
    have hproduct := mul_nonneg hseconds hnonneg
    apply ofSeconds_mono (Binary64.round_nonneg hproduct)
    exact Binary64.round_mono hproduct (mul_le_mul_of_nonneg_left hle hseconds)
  · exact le_rfl

/-! ### Series of delays -/

/-- The interval after so many retries; nothing if it or one before it would be negative. -/
def interval? (policy : Backoff) : Nat → Option Duration
  | 0 => some policy.initialInterval
  | n + 1 => (policy.interval? n).bind policy.nextInterval?

/-- How long the pauses before so many retries are in all, if each is as short as it can be. -/
def slept? (policy : Backoff) : Nat → Option Nat
  | 0 => some 0
  | n + 1 => do
    let interval ← policy.interval? n
    pure ((← policy.slept? n) + ((policy.delay 0 interval).min Clock.longestSleep).nanos)

/-- The pauses by themselves come to be longer than the policy allows. -/
def GivesUp (policy : Backoff) : Prop :=
  ∃ bound ∈ policy.maxElapsed, ∃ n, ∃ total ∈ policy.slept? n, bound.nanos < total

end Backoff

namespace Process

variable {S : Service} {B : Behaviour S} {ε α : Type}

/-- Attempts that failed, though not for good, each with a pause after it. Time is counted from
`w` on. -/
inductive Retried (policy : Backoff) (isPermanent : ε → Bool)
    (attempt : Process S (Except ε α)) (w : World B) : List ε → World B → Prop
  | none : Retried policy isPermanent attempt w [] w
  | next {errors : List ε} {e : ε} {interval : Duration} {w₁ w₂ w₃ : World B} :
    Retried policy isPermanent attempt w errors w₁ →
    policy.interval? errors.length = some interval →
    Yields attempt w₁ (.error e) w₂ → isPermanent e = false →
    policy.exhausted ⟨w₂.now - w.now⟩ (policy.delay w₂.draw interval) = false →
    Yields (sleep (policy.delay w₂.draw interval)) w₂ () w₃ →
    Retried policy isPermanent attempt w (errors ++ [e]) w₃

variable {policy : Backoff} {isPermanent : ε → Bool} {attempt : Process S (Except ε α)}
  {started : Nat} {interval next : Duration} {w w₁ w' : World B} {outcome : Except ε α} {e : ε}

/-- The outcome of an attempt after which there is no other one, the delay after it being given. -/
def IsLast (policy : Backoff) (isPermanent : ε → Bool) (elapsed delay : Duration)
    (outcome : Except ε α) : Prop :=
  ∀ e, outcome = .error e → isPermanent e = true ∨ policy.exhausted elapsed delay = true

theorem isLast_or (policy : Backoff) (isPermanent : ε → Bool) (elapsed delay : Duration)
    (outcome : Except ε α) : IsLast policy isPermanent elapsed delay outcome ∨
      ∃ e, outcome = .error e ∧ isPermanent e = false ∧
        policy.exhausted elapsed delay = false := by
  cases outcome with
  | ok a => exact .inl nofun
  | error e =>
    cases hpermanent : isPermanent e with
    | true => exact .inl fun _ he => .inl (by cases he; exact hpermanent)
    | false =>
      cases hexhausted : policy.exhausted elapsed delay with
      | true => exact .inl fun _ _ => .inr hexhausted
      | false => exact .inr ⟨e, rfl, hpermanent, rfl⟩

/-! ### Rounds -/

theorem yields_retryRound_inr (h : Yields attempt w outcome w')
    (hlast : IsLast policy isPermanent ⟨w'.now - started⟩ (policy.delay w'.draw interval)
      outcome) :
    Yields (retryRound policy isPermanent started attempt interval) w (.inr outcome) w' := by
  refine Yields.bind_iff.mpr ⟨outcome, w', h, ?_⟩
  cases outcome with
  | ok a => exact Yields.pure_iff.mpr ⟨rfl, rfl⟩
  | error e =>
    dsimp only
    split
    · exact Yields.pure_iff.mpr ⟨rfl, rfl⟩
    · next hpermanent =>
      rw [Yields.draw_bind_iff, Yields.clock_bind_iff,
        if_pos ((hlast e rfl).resolve_left hpermanent)]
      exact Yields.pure_iff.mpr ⟨rfl, rfl⟩

theorem yields_retryRound_inl (h : Yields attempt w (.error e) w₁) (he : isPermanent e = false)
    (hexhausted : policy.exhausted ⟨w₁.now - started⟩ (policy.delay w₁.draw interval) = false)
    (hsleep : Yields (sleep (policy.delay w₁.draw interval)) w₁ () w')
    (hnext : policy.nextInterval? interval = some next) :
    Yields (retryRound policy isPermanent started attempt interval) w (.inl next) w' := by
  refine Yields.bind_iff.mpr ⟨.error e, w₁, h, ?_⟩
  dsimp only
  rw [if_neg (ne_true_of_eq_false he), Yields.draw_bind_iff, Yields.clock_bind_iff,
    if_neg (ne_true_of_eq_false hexhausted)]
  refine Yields.bind_iff.mpr ⟨(), w', hsleep, ?_⟩
  rw [hnext]
  exact Yields.pure_iff.mpr ⟨rfl, rfl⟩

theorem retryRound_cases {E : Surroundings B} {x : Duration ⊕ Except ε α}
    (h : Finishes E (retryRound policy isPermanent started attempt interval) w x w') :
    (∃ outcome, x = .inr outcome ∧ Finishes E attempt w outcome w' ∧
        IsLast policy isPermanent ⟨w'.now - started⟩ (policy.delay w'.draw interval) outcome) ∨
      ∃ e w₁ next, x = .inl next ∧ Finishes E attempt w (.error e) w₁ ∧ isPermanent e = false ∧
        policy.exhausted ⟨w₁.now - started⟩ (policy.delay w₁.draw interval) = false ∧
        Finishes E (sleep (policy.delay w₁.draw interval)) w₁ () w' ∧
        policy.nextInterval? interval = some next := by
  obtain ⟨outcome, w₁, hattempt, h⟩ := Finishes.bind_iff.mp h
  cases outcome with
  | ok a =>
    obtain ⟨rfl, rfl⟩ := Finishes.pure_iff.mp h
    exact .inl ⟨.ok a, rfl, hattempt, nofun⟩
  | error e =>
    dsimp only at h
    split at h
    · next hpermanent =>
      obtain ⟨rfl, rfl⟩ := Finishes.pure_iff.mp h
      exact .inl ⟨.error e, rfl, hattempt, fun _ he => .inl (by cases he; exact hpermanent)⟩
    · next hpermanent =>
      rw [Finishes.draw_bind_iff, Finishes.clock_bind_iff] at h
      split at h
      · next hexhausted =>
        obtain ⟨rfl, rfl⟩ := Finishes.pure_iff.mp h
        exact .inl ⟨.error e, rfl, hattempt, fun _ _ => .inr hexhausted⟩
      · next hexhausted =>
        obtain ⟨_, w₂, hsleep, h⟩ := Finishes.bind_iff.mp h
        split at h
        · next hnext =>
          obtain ⟨rfl, rfl⟩ := Finishes.pure_iff.mp h
          exact .inr ⟨e, _, _, rfl, hattempt, eq_false_of_ne_true hpermanent,
            eq_false_of_ne_true hexhausted, hsleep, hnext⟩
        · exact absurd h Finishes.not_crash

theorem unfinished_retryRound_iff {E : Surroundings B} {x : Option Fault} :
    Unfinished E (retryRound policy isPermanent started attempt interval) w x w' ↔
      Unfinished E attempt w x w' ∨
        ∃ e w₁, Finishes E attempt w (.error e) w₁ ∧ isPermanent e = false ∧
          policy.exhausted ⟨w₁.now - started⟩ (policy.delay w₁.draw interval) = false ∧
          (Unfinished E (sleep (policy.delay w₁.draw interval)) w₁ x w' ∨
            Finishes E (sleep (policy.delay w₁.draw interval)) w₁ () w' ∧
              policy.nextInterval? interval = none ∧ x = some .negativeInterval) := by
  rw [retryRound, Unfinished.bind_iff]
  refine or_congr Iff.rfl ⟨?_, ?_⟩
  · rintro ⟨outcome, w₁, hattempt, h⟩
    cases outcome with
    | ok a => exact absurd h Unfinished.not_pure
    | error e =>
      dsimp only at h
      split at h
      · exact absurd h Unfinished.not_pure
      · next hpermanent =>
        rw [Unfinished.draw_bind_iff, Unfinished.clock_bind_iff] at h
        split at h
        · exact absurd h Unfinished.not_pure
        · next hexhausted =>
          refine ⟨e, w₁, hattempt, eq_false_of_ne_true hpermanent,
            eq_false_of_ne_true hexhausted, ?_⟩
          rcases Unfinished.bind_iff.mp h with hsleep | ⟨_, w₂, hsleep, h⟩
          · exact .inl hsleep
          · split at h
            · exact absurd h Unfinished.not_pure
            · next hnext =>
              obtain ⟨hx, rfl⟩ := Unfinished.crash_iff.mp h
              exact .inr ⟨hsleep, hnext, hx⟩
  · rintro ⟨e, w₁, hattempt, hpermanent, hexhausted, h⟩
    refine ⟨.error e, w₁, hattempt, ?_⟩
    dsimp only
    rw [if_neg (ne_true_of_eq_false hpermanent), Unfinished.draw_bind_iff,
      Unfinished.clock_bind_iff, if_neg (ne_true_of_eq_false hexhausted), Unfinished.bind_iff]
    refine h.imp_right fun ⟨hsleep, hnext, hx⟩ => ⟨(), w', hsleep, ?_⟩
    rw [hnext]
    exact Unfinished.crash_iff.mpr ⟨hx, rfl⟩

theorem waits_retryRound
    (h : Waits (retryRound policy isPermanent started attempt interval) w w') :
    Waits attempt w w' ∨ ∃ e w₁, Yields attempt w (.error e) w₁ ∧ isPermanent e = false ∧
      Waits (sleep (policy.delay w₁.draw interval)) w₁ w' := by
  rcases unfinished_retryRound_iff.mp (Waits.iff_unfinished.mp h) with
    hattempt | ⟨e, w₁, hattempt, hpermanent, -, hsleep | ⟨-, -, hx⟩⟩
  · exact .inl (Waits.iff_unfinished.mpr hattempt)
  · exact .inr ⟨e, w₁, hattempt, hpermanent, Waits.iff_unfinished.mpr hsleep⟩
  · cases hx

/-! ### Series -/

theorem retried_of_rounds {isPermanent : ε → Bool}
    (h : Rounds .alone (retryRound policy isPermanent w.now attempt) policy.initialInterval w
      interval w') :
    ∃ errors, Retried policy isPermanent attempt w errors w' ∧
      policy.interval? errors.length = some interval := by
  induction h with
  | none => exact ⟨[], .none, rfl⟩
  | next _ hround ih =>
    obtain ⟨errors, hretried, hinterval⟩ := ih
    rcases retryRound_cases hround with ⟨_, hx, -⟩ |
      ⟨e, w₁, next, hx, hattempt, hpermanent, hexhausted, hsleep, hnext⟩
    · cases hx
    · cases hx
      refine ⟨errors ++ [e], hretried.next hinterval hattempt hpermanent hexhausted hsleep, ?_⟩
      simp only [List.length_append, List.length_singleton, Backoff.interval?, hinterval,
        Option.bind_some, hnext]

theorem rounds_of_retried {errors : List ε} (h : Retried policy isPermanent attempt w errors w')
    (hinterval : policy.interval? errors.length = some interval) :
    Rounds .alone (retryRound policy isPermanent w.now attempt) policy.initialInterval w interval
      w' := by
  induction h generalizing interval with
  | none =>
    cases hinterval
    exact .none
  | next _ hbefore hattempt hpermanent hexhausted hsleep ih =>
    simp only [List.length_append, List.length_singleton, Backoff.interval?, hbefore,
      Option.bind_some] at hinterval
    exact (ih hbefore).next
      (yields_retryRound_inl hattempt hpermanent hexhausted hsleep hinterval)

/-- A repeated attempt ends as the first one does after which there is no other. -/
theorem yields_retry_iff : Yields (retry policy isPermanent attempt) w outcome w' ↔
    ∃ errors interval w₁, Retried policy isPermanent attempt w errors w₁ ∧
      policy.interval? errors.length = some interval ∧ Yields attempt w₁ outcome w' ∧
      IsLast policy isPermanent ⟨w'.now - w.now⟩ (policy.delay w'.draw interval) outcome := by
  constructor
  · intro h
    obtain ⟨interval, w₁, hrounds, hlast⟩ := (Yields.clock_bind_iff.mp h).iterate_cases
    obtain ⟨errors, hretried, hinterval⟩ := retried_of_rounds hrounds
    rcases retryRound_cases hlast with ⟨_, hx, hattempt, hlast⟩ | ⟨_, _, _, hx, -⟩
    · cases hx
      exact ⟨errors, interval, w₁, hretried, hinterval, hattempt, hlast⟩
    · cases hx
  · rintro ⟨errors, interval, w₁, hretried, hinterval, hattempt, hlast⟩
    refine Yields.clock_bind_iff.mpr ?_
    refine Yields.iterate_of_rounds (rounds_of_retried hretried hinterval) ?_
    exact Yields.iterate_round (yields_retryRound_inr hattempt hlast)
      (Yields.pure_iff.mpr ⟨rfl, rfl⟩)

theorem waits_retry (h : Waits (retry policy isPermanent attempt) w w') :
    ∃ errors interval w₁, Retried policy isPermanent attempt w errors w₁ ∧
      policy.interval? errors.length = some interval ∧
      (Waits attempt w₁ w' ∨ ∃ e w₂, Yields attempt w₁ (.error e) w₂ ∧ isPermanent e = false ∧
        Waits (sleep (policy.delay w₂.draw interval)) w₂ w') := by
  obtain ⟨interval, w₁, hrounds, hround⟩ := h.of_clock_bind.iterate_cases
  obtain ⟨errors, hretried, hinterval⟩ := retried_of_rounds hrounds
  exact ⟨errors, interval, w₁, hretried, hinterval, waits_retryRound hround⟩

/-! ### The last attempt -/

/-- A sleep has its length, or that of the longest sleep. -/
theorem yields_sleep_iff {d : Duration} {u : Unit} :
    Yields (sleep d) w u w' ↔ w' = w.advance (Clock.timer (Clock.after w.now d)) :=
  Yields.clock_bind_iff.trans Yields.sleepUntil_iff

/-- After so many attempts there was a last one, or the pauses between them were not too long. -/
theorem yields_or_retried {bound : Duration} (hbound : policy.maxElapsed = some bound)
    (hattempt : ∀ w : World B, ∃ outcome w', Yields attempt w outcome w') (w : World B)
    {n total : Nat} (hslept : policy.slept? n = some total) :
    (∃ outcome w', Yields (retry policy isPermanent attempt) w outcome w') ∨
      ∃ errors w₁, errors.length = n ∧ Retried policy isPermanent attempt w errors w₁ ∧
        w.now + total ≤ w₁.now ∧ total ≤ bound.nanos := by
  induction n generalizing total with
  | zero =>
    cases hslept
    exact .inr ⟨[], w, rfl, .none, Nat.le_refl _, Nat.zero_le _⟩
  | succ n ih =>
    obtain ⟨interval, hinterval, hslept⟩ := Option.bind_eq_some_iff.mp hslept
    obtain ⟨before, hbefore, htotal⟩ := Option.bind_eq_some_iff.mp hslept
    rcases ih hbefore with hyields | ⟨errors, w₁, rfl, hretried, hnow, -⟩
    · exact .inl hyields
    obtain ⟨outcome, w₂, hyields⟩ := hattempt w₁
    rcases isLast_or policy isPermanent ⟨w₂.now - w.now⟩ (policy.delay w₂.draw interval) outcome
      with hlast | ⟨e, rfl, hpermanent, hexhausted⟩
    · exact .inl ⟨outcome, w₂, yields_retry_iff.mpr
        ⟨errors, interval, w₁, hretried, hinterval, hyields, hlast⟩⟩
    · refine .inr ⟨errors ++ [e], _, by simp, hretried.next hinterval hyields hpermanent hexhausted
        (yields_sleep_iff.mpr rfl), ?_⟩
      have hmeanwhile := (Reaches.meanwhile hyields).2
      have hshortest : ((policy.delay 0 interval).min Clock.longestSleep).nanos ≤
          ((policy.delay w₂.draw interval).min Clock.longestSleep).nanos := by
        rw [Duration.nanos_min, Duration.nanos_min]
        exact min_le_min_right _ (policy.delay_zero_le w₂.draw interval)
      have hwithin : w₂.now - w.now + (policy.delay w₂.draw interval).nanos ≤ bound.nanos := by
        simpa [Backoff.exhausted, hbound] using hexhausted
      generalize policy.delay w₂.draw interval = delay at *
      have htimer := Clock.le_timer (Clock.after w₂.now delay)
      have hafter := Clock.after_le w₂.now delay
      cases htotal
      simp only [World.advance, Clock.after] at htimer hafter ⊢
      omega

/-- Under a policy that gives up, and if every attempt comes to an end, so does the repetition. -/
theorem exists_yields_retry (hgives : policy.GivesUp)
    (hattempt : ∀ w : World B, ∃ outcome w', Yields attempt w outcome w') (w : World B) :
    ∃ outcome w', Yields (retry policy isPermanent attempt) w outcome w' := by
  obtain ⟨bound, hbound, n, total, hslept, hlong⟩ := hgives
  rcases yields_or_retried hbound hattempt w hslept with hyields | ⟨_, _, -, -, -, hshort⟩
  · exact hyields
  · exact absurd hshort (Nat.not_le.mpr hlong)

end Process
end NodeCoverage
