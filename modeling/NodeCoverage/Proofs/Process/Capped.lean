import NodeCoverage.Proofs.Process.Attempts
import NodeCoverage.Simulation.Attempts
/-!
# How long the delays between attempts are

Intervals grow, and what has grown is cut at the greatest interval of the policy; the first interval
has not grown and is not cut. The cut is made in seconds of 53 significant bits and the result is
rounded to nanoseconds. These two roundings are less than half a nanosecond as long as the greatest
interval is below `2 ^ 23` seconds, and then it comes out as it went in. Beyond that it may come out
a little longer. So the greatest interval bounds every delay but the first one, and the first one
only if the policy says so itself.
-/

namespace NodeCoverage

open Process (Finishes Rounds Unfinished Yields)

namespace Backoff

open Number

variable {policy : Backoff} {x y : ℚ} {d current : Duration}

/-- The cap that grown intervals meet: the greatest interval, in seconds of 53 significant bits and
then in whole nanoseconds again. -/
def ceiling (policy : Backoff) : Duration :=
  ofSeconds (inSeconds policy.maxInterval)

/-- A number of seconds is rounded by no more than half a nanosecond. -/
theorem abs_ofSeconds_sub_le (hx : 0 ≤ x) :
    |((ofSeconds x).nanos : ℚ) - x * 1000000000| ≤ 1 / 2 := by
  rw [← natAbs_mul_div hx]
  exact abs_nearest_sub_le _ x.den_pos

theorem ofSeconds_eq_of_abs_lt (hx : 0 ≤ x)
    (h : |x - d.nanos / 1000000000| < 1 / 2000000000) : ofSeconds x = d := by
  have hnear : nearest (x.num.natAbs * 1000000000) x.den = d.nanos := by
    apply nearest_eq_of_abs_lt x.den_pos
    rw [natAbs_mul_div hx]
    rw [abs_lt] at h ⊢
    constructor <;> linarith
  exact congrArg Duration.mk hnear

theorem nextInterval?_le_ceiling (h : policy.nextInterval? current = some d) :
    d.nanos ≤ policy.ceiling.nanos := by
  simp only [nextInterval?, Option.ite_none_left_eq_some, Option.some.injEq, not_lt] at h
  obtain ⟨hnonneg, rfl⟩ := h
  refine ofSeconds_mono hnonneg ?_
  split
  · exact le_rfl
  · next hle => exact not_lt.mp hle

theorem nanos_div_eq (d : Duration) :
    (d.nanos / 1000000000 : ℚ) = d.seconds + mkRat d.subsecond 1000000000 := by
  have hsum : 1000000000 * d.seconds + d.subsecond = d.nanos := Nat.div_add_mod d.nanos 1000000000
  have hcast : (d.nanos : ℚ) = 1000000000 * d.seconds + d.subsecond := by exact_mod_cast hsum.symm
  rw [Rat.mkRat_eq_div, hcast]
  push_cast
  ring

theorem subsecond_nonneg (d : Duration) : (0 : ℚ) ≤ mkRat d.subsecond 1000000000 :=
  Rat.mkRat_nonneg (Int.natCast_nonneg _) _

/-- Below `2 ^ 23` seconds a duration is known from its seconds. -/
theorem abs_inSeconds_sub_lt (h : d.nanos < 2 ^ 23 * 1000000000) :
    |inSeconds d - d.nanos / 1000000000| < 1 / 2000000000 := by
  have hwhole : d.seconds + 1 ≤ 2 ^ 23 := by
    unfold Duration.seconds
    omega
  have hwholeq : (d.seconds + 1 : ℚ) ≤ 2 ^ 23 := by exact_mod_cast hwhole
  have hpart : (mkRat d.subsecond 1000000000 : ℚ) ≤ 999999999 / 1000000000 := by
    have hlt : d.subsecond ≤ 999999999 := Nat.le_of_lt_succ (Nat.mod_lt _ (by decide))
    rw [Rat.mkRat_eq_div]
    push_cast
    gcongr
    exact_mod_cast hlt
  have hnonneg := subsecond_nonneg d
  have hrest := nanos_div_eq d
  have hkept : Binary64.round d.seconds = d.seconds := Binary64.round_natCast (by omega)
  rw [inSeconds, hkept, Binary64.add]
  generalize (mkRat d.subsecond 1000000000 : ℚ) = part at *
  have hlost := Binary64.abs_round_sub_le_of_lt (k := 0) hnonneg (by decide) (by linarith)
  have hround := Binary64.round_nonneg hnonneg
  generalize Binary64.round part = rounded at *
  norm_num [abs_le] at hlost
  have hsum := Binary64.abs_round_sub_le_of_lt (k := 23) (x := d.seconds + rounded) (by positivity)
    (by decide) (by norm_num; linarith)
  norm_num [abs_le] at hsum
  rw [abs_lt, hrest]
  constructor <;> linarith

/-- A cap below `2 ^ 23` seconds is met exactly. -/
theorem ceiling_eq (h : policy.maxInterval.nanos < 2 ^ 23 * 1000000000) :
    policy.ceiling = policy.maxInterval :=
  ofSeconds_eq_of_abs_lt (inSeconds_nonneg _) (abs_inSeconds_sub_lt h)

theorem inSeconds_zero : inSeconds .zero = 0 := by
  decide +kernel

theorem div_eq_zero_or (n : Nat) :
    (n / 1000000000 : ℚ) = 0 ∨ 1 / 1000000000 ≤ (n / 1000000000 : ℚ) := by
  rcases Nat.eq_zero_or_pos n with rfl | hpos
  · exact .inl (by simp)
  · have hone : (1 : ℚ) ≤ n := by exact_mod_cast hpos
    exact .inr (by gcongr)

theorem two_zpow_le : (2 : ℚ) ^ (-1022 : Int) ≤ 1 / 2000000000 :=
  (zpow_le_zpow_right₀ one_le_two (by decide)).trans
    (by norm_num : (2 : ℚ) ^ (-31 : Int) ≤ 1 / 2000000000)

/-- A duration in seconds is too long by no more than one part in `2 ^ 51`. -/
theorem inSeconds_le (d : Duration) :
    inSeconds d ≤ d.nanos / 1000000000 * (1 + 1 / 2 ^ 51) := by
  rcases div_eq_zero_or d.nanos with hzero | hpos
  · have hnanos : d.nanos = 0 := by simpa using hzero
    obtain rfl : d = .zero := congrArg Duration.mk hnanos
    rw [inSeconds_zero, hzero, zero_mul]
  have hwhole := Binary64.abs_round_sub_le_div (x := d.seconds) <| by
    rcases Nat.eq_zero_or_pos d.seconds with hzero | hpos
    · exact .inl (by rw [hzero]; rfl)
    · have hone : (1 : ℚ) ≤ d.seconds := by exact_mod_cast hpos
      exact .inr (two_zpow_le.trans (by linarith))
  have hpart := Binary64.abs_round_sub_le_div (x := mkRat d.subsecond 1000000000) <| by
    rw [Rat.mkRat_eq_div]
    exact (div_eq_zero_or d.subsecond).imp_right fun h => two_zpow_le.trans <| by
      push_cast
      linarith
  rw [nanos_div_eq] at hpos ⊢
  rw [inSeconds, Binary64.add]
  have hwholepos : (0 : ℚ) ≤ d.seconds := Nat.cast_nonneg _
  have hpartpos := subsecond_nonneg d
  generalize (d.seconds : ℚ) = whole at *
  generalize (mkRat d.subsecond 1000000000 : ℚ) = part at *
  generalize Binary64.round whole = whole' at *
  generalize Binary64.round part = part' at *
  rw [abs_le] at hwhole hpart
  have hsum := Binary64.abs_round_sub_le_div (x := whole' + part') <| .inr <|
    two_zpow_le.trans (by linarith)
  rw [abs_le] at hsum
  linarith

/-- A cap is exceeded by no more than one part in `2 ^ 51` and a nanosecond. -/
theorem ceiling_le (policy : Backoff) : policy.ceiling.nanos ≤
    policy.maxInterval.nanos + policy.maxInterval.nanos / 2 ^ 51 + 1 := by
  have hx := inSeconds_nonneg policy.maxInterval
  have hle := inSeconds_le policy.maxInterval
  have hnear := abs_le.mp (abs_ofSeconds_sub_le hx)
  rw [ceiling]
  generalize ofSeconds (inSeconds policy.maxInterval) = c at *
  generalize policy.maxInterval.nanos = n at *
  have hfloor : (n / 2 ^ 51 : ℚ) < (n / 2 ^ 51 : Nat) + 1 := by
    have hnat : n < (n / 2 ^ 51 + 1) * 2 ^ 51 := by omega
    rw [div_lt_iff₀ (by positivity)]
    exact_mod_cast hnat
  have hlt : (c.nanos : ℚ) < (n + n / 2 ^ 51 + 2 : Nat) := by
    push_cast
    linarith
  exact Nat.lt_succ_iff.mp (by exact_mod_cast hlt)

end Backoff

namespace Process

variable {S : Service} {B : Behaviour S} {ε α : Type}

/-- When an attempt that is repeated from `w` on has failed in `v`, though not for good, it is put
off for this long before it is made again. -/
inductive Delays (E : Surroundings B) (policy : Backoff) (isPermanent : ε → Bool)
    (attempt : Process S (Except ε α)) (w : World B) : Duration → World B → Prop
  | intro {interval : Duration} {e : ε} {w₁ v : World B} :
    Rounds E (retryRound policy isPermanent w.now attempt) policy.initialInterval w interval w₁ →
    Finishes E attempt w₁ (.error e) v → isPermanent e = false →
    policy.exhausted ⟨v.now - w.now⟩ (policy.delay v.draw interval) = false →
    Delays E policy isPermanent attempt w (policy.delay v.draw interval) v

variable {E : Surroundings B} {policy : Backoff} {isPermanent : ε → Bool}
  {attempt : Process S (Except ε α)} {w w₁ w' v : World B} {interval d : Duration}
  {x : Option Fault}

theorem Rounds.first_or_capped {started : Nat}
    (h : Rounds E (retryRound policy isPermanent started attempt) policy.initialInterval w
      interval w₁) :
    interval = policy.initialInterval ∧ w₁ = w ∨ interval.nanos ≤ policy.ceiling.nanos := by
  cases h with
  | none => exact .inl ⟨rfl, rfl⟩
  | next _ hround =>
    rcases retryRound_cases hround with ⟨_, hx, -⟩ | ⟨_, _, _, hx, -, -, -, -, hnext⟩
    · cases hx
    · cases hx
      exact .inr (Backoff.nextInterval?_le_ceiling hnext)

theorem Delays.capped_or_first (hspread : policy.randomization ≤ 0)
    (h : Delays E policy isPermanent attempt w d v) :
    d.nanos ≤ policy.ceiling.nanos ∨ d = policy.initialInterval ∧
      ∃ e, Finishes E attempt w (.error e) v ∧ isPermanent e = false ∧
        policy.Allows (v.now - w.now) policy.initialInterval := by
  obtain ⟨hrounds, hattempt, hpermanent, hexhausted⟩ := h
  rw [Backoff.delay_eq hspread] at hexhausted ⊢
  rcases hrounds.first_or_capped with ⟨rfl, rfl⟩ | hcapped
  · exact .inr ⟨rfl, _, hattempt, hpermanent, Backoff.exhausted_eq_false_iff.mp hexhausted⟩
  · exact .inl hcapped

theorem Delays.first (hspread : policy.randomization ≤ 0) {e : ε}
    (hattempt : Finishes E attempt w (.error e) v) (he : isPermanent e = false)
    (hallows : policy.Allows (v.now - w.now) policy.initialInterval) :
    Delays E policy isPermanent attempt w policy.initialInterval v := by
  have hexhausted :
      policy.exhausted ⟨v.now - w.now⟩ (policy.delay v.draw policy.initialInterval) = false := by
    rw [Backoff.delay_eq hspread]
    exact Backoff.exhausted_eq_false_iff.mpr hallows
  have hdelay :
      Delays E policy isPermanent attempt w (policy.delay v.draw policy.initialInterval) v :=
    .intro .none hattempt he hexhausted
  rwa [Backoff.delay_eq hspread] at hdelay

/-- An attempt that is repeated is being made, or it is put off. -/
theorem unfinished_retry_iff (hmultiplier : 0 ≤ policy.multiplier) :
    Unfinished E (retry policy isPermanent attempt) w x w' ↔
      (∃ interval w₁, Rounds E (retryRound policy isPermanent w.now attempt)
          policy.initialInterval w interval w₁ ∧ Unfinished E attempt w₁ x w') ∨
        ∃ d v, Delays E policy isPermanent attempt w d v ∧ Unfinished E (sleep d) v x w' := by
  rw [retry, Unfinished.clock_bind_iff, Unfinished.iterate_iff]
  constructor
  · rintro ⟨interval, w₁, hrounds, hround⟩
    rcases unfinished_retryRound_iff.mp hround with
      hattempt | ⟨e, v, hattempt, hpermanent, hexhausted, hsleep | ⟨-, hnone, -⟩⟩
    · exact .inl ⟨interval, w₁, hrounds, hattempt⟩
    · exact .inr ⟨_, v, .intro hrounds hattempt hpermanent hexhausted, hsleep⟩
    · rw [Backoff.nextInterval?_eq hmultiplier] at hnone
      cases hnone
  · rintro (⟨interval, w₁, hrounds, hattempt⟩ |
      ⟨_, v, ⟨hrounds, hattempt, hpermanent, hexhausted⟩, hsleep⟩)
    · exact ⟨interval, w₁, hrounds, unfinished_retryRound_iff.mpr (.inl hattempt)⟩
    · exact ⟨_, _, hrounds, unfinished_retryRound_iff.mpr <|
        .inr ⟨_, v, hattempt, hpermanent, hexhausted, .inl hsleep⟩⟩

/-- Without a spread and with a factor that is not negative, an attempt that is repeated and has not
ended is being made, or it is put off for one of the delays, and this happens with each delay. A
delay is not longer than the greatest interval, up to rounding, or it is the first one: that is the
first interval, whatever the greatest one. If rounding does not lengthen the greatest interval, as
it never does below `2 ^ 23` seconds, then the greatest interval caps all delays if and only if it
caps the first one. -/
theorem delays_capped_iff (policy : Backoff) (hspread : policy.randomization ≤ 0)
    (hmultiplier : 0 ≤ policy.multiplier) :
    (policy.ceiling.nanos ≤
        policy.maxInterval.nanos + policy.maxInterval.nanos / 2 ^ 51 + 1 ∧
      (policy.maxInterval.nanos < (Duration.ofSeconds (2 ^ 23)).nanos →
        policy.ceiling = policy.maxInterval)) ∧
    ∀ {S : Service} {B : Behaviour S} {ε α : Type} (E : Surroundings B) (isPermanent : ε → Bool)
      (attempt : Process S (Except ε α)) (w : World B),
      (∀ x w', Unfinished E (retry policy isPermanent attempt) w x w' ↔
        (∃ interval w₁, Rounds E (retryRound policy isPermanent w.now attempt)
            policy.initialInterval w interval w₁ ∧ Unfinished E attempt w₁ x w') ∨
          ∃ d v, Delays E policy isPermanent attempt w d v ∧ Unfinished E (sleep d) v x w') ∧
      (∀ d v, Delays E policy isPermanent attempt w d v →
        d.nanos ≤ policy.ceiling.nanos ∨
          d = policy.initialInterval ∧ ∃ e, Finishes E attempt w (.error e) v) ∧
      (policy.ceiling.nanos ≤ policy.maxInterval.nanos →
        ((∀ d v, Delays E policy isPermanent attempt w d v →
            d.nanos ≤ policy.maxInterval.nanos) ↔
          ∀ e v, Finishes E attempt w (.error e) v → isPermanent e = false →
            policy.Allows (v.now - w.now) policy.initialInterval →
            policy.initialInterval.nanos ≤ policy.maxInterval.nanos)) := by
  refine ⟨⟨policy.ceiling_le, Backoff.ceiling_eq⟩, fun E isPermanent attempt w =>
    ⟨fun x w' => unfinished_retry_iff hmultiplier, fun d v h => ?_, fun hceiling => ⟨?_, ?_⟩⟩⟩
  · rcases h.capped_or_first hspread with hcapped | ⟨hd, e, hattempt, -⟩
    · exact .inl hcapped
    · exact .inr ⟨hd, e, hattempt⟩
  · intro h e v hattempt he hallows
    exact h _ v (.first hspread hattempt he hallows)
  · intro h d v hdelays
    rcases hdelays.capped_or_first hspread with hcapped | ⟨rfl, e, hattempt, he, hallows⟩
    · exact hcapped.trans hceiling
    · exact h e v hattempt he hallows

namespace Busy

open Simulation

/-- Half a second at first, three times as much each time, but at most a second. -/
def steep : Backoff where
  initialInterval := .ofMillis 500
  multiplier := 3
  randomization := 0
  maxInterval := .ofSeconds 1
  maxElapsed := some (.ofSeconds 20)

/-- Five seconds at first, and then a second each time. -/
def late : Backoff :=
  { steep with initialInterval := .ofSeconds 5 }

def plans : List (AttemptPlan Nat) :=
  [⟨.zero, .error "busy"⟩, ⟨.zero, .ok 7⟩]

def starting : World (Attempts.behaviour Nat) :=
  .initial plans

theorem delays_first (policy : Backoff) (hspread : policy.randomization ≤ 0)
    (hexhausted : policy.exhausted .zero policy.initialInterval = false) :
    ∃ v, Delays .alone policy Attempts.isPermanent (.call (S := Attempts Nat) ()) starting
      policy.initialInterval v := by
  have hbusy : Yields (.call (S := Attempts Nat) ()) starting (.error "busy") _ :=
    .of_endsWith 20 20 (by decide +kernel)
  exact ⟨_, .first hspread hbusy (by decide +kernel)
    (Backoff.exhausted_eq_false_iff.mp hexhausted)⟩

end Busy

open Busy Simulation in
/-- The theorem for a policy whose first interval is below the greatest one. -/
theorem delays_capped_iff_steep :
    steep.randomization ≤ 0 ∧ 0 ≤ steep.multiplier ∧
      (∃ v, Delays .alone steep Attempts.isPermanent (.call (S := Attempts Nat) ()) starting
        (.ofMillis 500) v) ∧
      ∀ d v, Delays .alone steep Attempts.isPermanent (.call (S := Attempts Nat) ()) starting d v →
        d.nanos ≤ (Duration.ofSeconds 1).nanos := by
  have hspread : steep.randomization ≤ 0 := by decide
  have hmultiplier : 0 ≤ steep.multiplier := by decide
  obtain ⟨⟨-, hceiling⟩, hcapped⟩ := delays_capped_iff steep hspread hmultiplier
  obtain ⟨-, -, hiff⟩ := hcapped .alone Attempts.isPermanent (.call (S := Attempts Nat) ()) starting
  have hmax : steep.ceiling = steep.maxInterval := hceiling (by decide)
  refine ⟨hspread, hmultiplier, delays_first steep hspread (by decide), ?_⟩
  exact (hiff (by rw [hmax])).mpr fun _ _ _ _ _ => by decide

open Busy Simulation in
/-- The first delay is five seconds, although the greatest interval is one second. -/
theorem not_always_capped : ¬ ∀ (policy : Backoff), policy.randomization ≤ 0 →
    0 ≤ policy.multiplier → ∀ {S : Service} {B : Behaviour S} {ε α : Type} (E : Surroundings B)
      (isPermanent : ε → Bool) (attempt : Process S (Except ε α)) (w : World B) (d : Duration)
      (v : World B), Delays E policy isPermanent attempt w d v →
        d.nanos ≤ policy.maxInterval.nanos := by
  intro h
  obtain ⟨v, hfirst⟩ := delays_first late (by decide) (by decide)
  have hlong := h late (by decide) (by decide) _ _ _ _ _ v hfirst
  revert hlong
  decide

open Busy Simulation in
example : (Attempts.run 20 late plans).map Series.attempts = some [0, 5000000000] := by
  decide +kernel

end Process
end NodeCoverage
