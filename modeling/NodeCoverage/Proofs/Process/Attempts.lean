import Mathlib.Algebra.Order.Ring.Rat
import Mathlib.Data.Nat.Cast.Order.Ring
import Mathlib.Logic.Function.Iterate
import NodeCoverage.Cluster.Api
import NodeCoverage.Proofs.Cluster.Punctual
import NodeCoverage.Proofs.Number.Binary64
import NodeCoverage.Proofs.Process.Abandon
import NodeCoverage.Proofs.Process.Retry
/-!
# How often, and for how long, an attempt is repeated

Without a spread, and if the intervals do not shrink below zero, the delays of a policy are known
beforehand: each is the first interval, grown so many times. An attempt is repeated exactly while it
fails, though not for good, and the time since the first one and the next delay are together within
the bound of the policy. Timers end at whole milliseconds. Hence no attempt begins after the bound,
and where every delay takes time, only so many are made as the bound has milliseconds, and one.
-/

namespace NodeCoverage

open Process (Reaches Waits Yields)

theorem Clock.lt_after (now : Nat) {d : Duration} (h : 0 < d.nanos) : now < after now d := by
  rw [after, Duration.nanos_min]
  exact Nat.lt_add_of_pos_right (Nat.lt_min.mpr ⟨h, by decide⟩)

/-- A timer that is set for later than a whole millisecond ends in another one. -/
theorem Clock.add_le_timer {t u n : Nat} (ht : timer t = t) (h : t + n * 1000000 < u) :
    t + (n + 1) * 1000000 ≤ timer u := by
  unfold timer at *
  omega

theorem Clock.timer_add {t u : Nat} (hu : timer u = u) : timer (t + u) = timer t + u := by
  obtain ⟨n, rfl⟩ : ∃ n, u = n * 1000000 := ⟨_, hu.symm⟩
  rw [timer, timer, Nat.add_right_comm, Nat.add_mul_div_right _ _ (by decide), Nat.add_mul]

/-! ### Whole milliseconds -/

section WholeMilliseconds

open Status (proceed)

variable {S : Service} {B : Behaviour S} {α β : Type}

/-- Every timer that is waited for ends at a whole millisecond. -/
def Suspended.OnTheDot : {α : Type} → Suspended B α → Prop
  | _, .ready _ => True
  | _, .asleep t => Clock.timer t = t
  | _, .waiting _ _ _ t => Clock.timer t = t
  | _, .bind p _ => p.OnTheDot
  | _, .abandonOn _ p => p.OnTheDot
  | _, .both p q => p.OnTheDot ∧ q.OnTheDot
  | _, .first p _ => p.OnTheDot
  | _, .second _ q => q.OnTheDot

def Status.OnTheDot : Status B α → Prop
  | .suspended s => s.OnTheDot
  | .finished _ | .crashed _ | .exhausted => True

theorem Suspended.timer_wake {s : Suspended B α} (h : s.OnTheDot) :
    Clock.timer s.wake = s.wake := by
  induction s with
  | ready => exact Clock.timer_ofMillis 0
  | asleep | waiting => exact h
  | bind _ _ ih | abandonOn _ _ ih | first _ _ ih | second _ _ ih => exact ih h
  | both p q ihp ihq =>
    rcases min_choice p.wake q.wake with hmin | hmin
    · simpa only [wake, hmin] using ihp h.1
    · simpa only [wake, hmin] using ihq h.2

theorem Status.proceed_onTheDot {x : Status B α × World B}
    {done : α → World B → Status B β × World B}
    {wait : Suspended B α → World B → Status B β × World B} (hx : x.1.OnTheDot)
    (hd : ∀ a w, (done a w).1.OnTheDot) (hw : ∀ s w, s.OnTheDot → (wait s w).1.OnTheDot) :
    (proceed x done wait).1.OnTheDot := by
  rcases x with ⟨a | s | f | _, w⟩
  · exact hd a w
  · exact hw s w hx
  · exact trivial
  · exact trivial

open Status (proceed_onTheDot)

theorem Process.start_onTheDot (n : Nat) (p : Process S α) (w : World B) :
    (p.start n w).1.OnTheDot := by
  induction n generalizing α w with
  | zero => exact trivial
  | succ n ih =>
    cases p with
    | pure | clock | draw | fired | note | crash => exact trivial
    | call | sleepUntil =>
      simp only [start]
      split
      · exact trivial
      · exact Clock.timer_timer _
    | iterate body s => exact ih _ w
    | bind p next =>
      rw [start_bind]
      exact proceed_onTheDot (ih p w) (fun a w => ih (next a) w) fun _ _ h => h
    | abandonOn s p =>
      rw [start_abandonOn]
      split
      · exact trivial
      · exact proceed_onTheDot (ih p w) (fun _ _ => trivial) fun _ _ h => h
    | both p q =>
      rw [start_both]
      refine proceed_onTheDot (ih p w) (fun _ w => ?_) fun _ w hs => ?_
      · exact proceed_onTheDot (ih q w) (fun _ _ => trivial) fun _ _ h => h
      · exact proceed_onTheDot (ih q w) (fun _ _ => hs) fun _ _ h => ⟨hs, h⟩

theorem Suspended.resume_onTheDot (n : Nat) {s : Suspended B α} (h : s.OnTheDot) (w : World B) :
    (s.resume n w).1.OnTheDot := by
  induction s generalizing w with
  | ready p => exact p.start_onTheDot n w
  | asleep | waiting =>
    simp only [resume]
    split
    · exact trivial
    · exact h
  | bind p next ih =>
    rw [resume_bind]
    exact proceed_onTheDot (ih h w) (fun a w => (next a).start_onTheDot n w) fun _ _ h => h
  | abandonOn s p ih =>
    rw [resume_abandonOn]
    split
    · exact trivial
    · exact proceed_onTheDot (ih h w) (fun _ _ => trivial) fun _ _ h => h
  | both p q ihp ihq =>
    rw [resume_both]
    refine proceed_onTheDot (ihp h.1 w) (fun _ w => ?_) fun _ w hs => ?_
    · exact proceed_onTheDot (ihq h.2 w) (fun _ _ => trivial) fun _ _ h => h
    · exact proceed_onTheDot (ihq h.2 w) (fun _ _ => hs) fun _ _ h => ⟨hs, h⟩
  | first p b ih =>
    rw [resume_first]
    exact proceed_onTheDot (ih h w) (fun _ _ => trivial) fun _ _ h => h
  | second a q ih =>
    rw [resume_second]
    exact proceed_onTheDot (ih h w) (fun _ _ => trivial) fun _ _ h => h

/-- A process that is left alone finds the clock at a whole millisecond whenever it goes on, if it
was begun at one. -/
theorem Process.Reaches.onTheDot {p : Process S α} {st : Status B α} {w w' : World B}
    (h : Reaches .alone p w st w') (hw : Clock.timer w.now = w.now) :
    Clock.timer w'.now = w'.now ∧ st.OnTheDot := by
  induction h with
  | start n =>
    rw [(p.start_meanwhile n w).1]
    exact ⟨hw, p.start_onTheDot n w⟩
  | @resume n s w₁ w₂ _ he ih =>
    obtain ⟨hnow, hs⟩ := ih
    refine ⟨?_, s.resume_onTheDot n hs w₂⟩
    rw [(s.resume_meanwhile n w₂).1, he]
    rcases max_choice w₁.now s.wake with hmax | hmax
    · simpa only [World.advance, hmax] using hnow
    · simpa only [World.advance, hmax] using Suspended.timer_wake hs

end WholeMilliseconds

/-! ### Intervals that never are negative -/

namespace Backoff

open Number

def next (policy : Backoff) (current : Duration) : Duration :=
  (policy.nextInterval? current).getD .zero

/-- The delay between the attempt with this number and the one after it, the first one being
number zero. -/
def delayAfter (policy : Backoff) (k : Nat) : Duration :=
  policy.next^[k] policy.initialInterval

/-- After so much time there may be this delay and another attempt. -/
def Allows (policy : Backoff) (elapsed : Nat) (delay : Duration) : Prop :=
  ∀ bound, policy.maxElapsed = some bound → elapsed + delay.nanos ≤ bound.nanos

variable {policy : Backoff}

/-- If the factor is not negative then there is always a next interval. -/
theorem nextInterval?_eq (hmultiplier : 0 ≤ policy.multiplier) (current : Duration) :
    policy.nextInterval? current = some (policy.next current) := by
  have hgrown : 0 ≤ Binary64.mul (inSeconds current) policy.multiplier :=
    Binary64.round_nonneg (mul_nonneg (inSeconds_nonneg current) hmultiplier)
  have hcap := inSeconds_nonneg policy.maxInterval
  have hsome : policy.nextInterval? current ≠ none := by
    simp only [nextInterval?]
    split_ifs with hcut hnegative <;> simp_all [not_lt.mpr]
  obtain ⟨d, hd⟩ := Option.ne_none_iff_exists'.mp hsome
  simp [next, hd]

theorem not_faults (hmultiplier : 0 ≤ policy.multiplier) {f : Fault} : ¬ policy.Faults f := by
  rintro ⟨-, current, hnone⟩
  rw [nextInterval?_eq hmultiplier] at hnone
  cases hnone

theorem delayAfter_succ (k : Nat) : policy.delayAfter (k + 1) = policy.next (policy.delayAfter k) :=
  Function.iterate_succ_apply' ..

theorem interval?_eq (hmultiplier : 0 ≤ policy.multiplier) (k : Nat) :
    policy.interval? k = some (policy.delayAfter k) := by
  induction k with
  | zero => rfl
  | succ k ih =>
    rw [interval?, ih, Option.bind_some, nextInterval?_eq hmultiplier, delayAfter_succ]

/-- Without a spread a delay is as long as its interval. -/
theorem delay_eq (hspread : policy.randomization ≤ 0) (drawn : ℚ) (interval : Duration) :
    policy.delay drawn interval = interval :=
  if_neg (not_lt.mpr hspread)

theorem exhausted_eq_false_iff {elapsed : Nat} {delay : Duration} :
    policy.exhausted ⟨elapsed⟩ delay = false ↔ policy.Allows elapsed delay := by
  unfold exhausted Allows
  cases policy.maxElapsed <;> simp

end Backoff

namespace Process

/-! ### Attempts one after another -/

section Attempts

variable {S : Service} {B : Behaviour S} {ε α : Type}

/-- Attempts since `w` that failed, though not for good, each with the delay after it that the
policy allows. The next attempt begins in the last world. -/
inductive Tried (policy : Backoff) (isPermanent : ε → Bool) (attempt : Process S (Except ε α))
    (w : World B) : List ε → World B → Prop
  | none : Tried policy isPermanent attempt w [] w
  | next {errors : List ε} {e : ε} {w₁ w₂ w₃ : World B} :
    Tried policy isPermanent attempt w errors w₁ → Yields attempt w₁ (.error e) w₂ →
    isPermanent e = false →
    policy.Allows (w₂.now - w.now) (policy.delayAfter errors.length) →
    Yields (sleep (policy.delayAfter errors.length)) w₂ () w₃ →
    Tried policy isPermanent attempt w (errors ++ [e]) w₃

variable {policy : Backoff} {isPermanent : ε → Bool} {attempt : Process S (Except ε α)}
  {w w₁ w' : World B} {errors : List ε} {outcome : Except ε α} {bound : Duration}

/-- The delays of a series of attempts are those that the policy has in store. -/
theorem retried_iff_tried (hspread : policy.randomization ≤ 0)
    (hmultiplier : 0 ≤ policy.multiplier) :
    Retried policy isPermanent attempt w errors w₁ ↔
      Tried policy isPermanent attempt w errors w₁ := by
  constructor
  · intro h
    induction h with
    | none => exact .none
    | next _ hinterval hattempt he hexhausted hsleep ih =>
      cases (Backoff.interval?_eq hmultiplier _).symm.trans hinterval
      rw [Backoff.delay_eq hspread] at hexhausted hsleep
      exact ih.next hattempt he (Backoff.exhausted_eq_false_iff.mp hexhausted) hsleep
  · intro h
    induction h with
    | none => exact .none
    | next _ hattempt he hallows hsleep ih =>
      refine ih.next (Backoff.interval?_eq hmultiplier _) hattempt he ?_ ?_
      · rw [Backoff.delay_eq hspread]
        exact Backoff.exhausted_eq_false_iff.mpr hallows
      · rwa [Backoff.delay_eq hspread]

/-- A repeated attempt ends with the first one that succeeds, fails for good, or fails so late that
the delay after it is not allowed. -/
theorem yields_retry_iff_tried (hspread : policy.randomization ≤ 0)
    (hmultiplier : 0 ≤ policy.multiplier) :
    Yields (retry policy isPermanent attempt) w outcome w' ↔
      ∃ errors w₁, Tried policy isPermanent attempt w errors w₁ ∧ Yields attempt w₁ outcome w' ∧
        ∀ e, outcome = .error e → isPermanent e = true ∨
          ¬ policy.Allows (w'.now - w.now) (policy.delayAfter errors.length) := by
  have hlast {k : Nat} : IsLast policy isPermanent ⟨w'.now - w.now⟩
      (policy.delay w'.draw (policy.delayAfter k)) outcome ↔
      ∀ e, outcome = .error e → isPermanent e = true ∨
        ¬ policy.Allows (w'.now - w.now) (policy.delayAfter k) := by
    unfold IsLast
    simp only [Backoff.delay_eq hspread, ← Backoff.exhausted_eq_false_iff, Bool.not_eq_false]
  rw [yields_retry_iff]
  constructor
  · rintro ⟨errors, interval, w₁, hretried, hinterval, hattempt, hend⟩
    cases (Backoff.interval?_eq hmultiplier _).symm.trans hinterval
    exact ⟨errors, w₁, (retried_iff_tried hspread hmultiplier).mp hretried, hattempt,
      hlast.mp hend⟩
  · rintro ⟨errors, w₁, htried, hattempt, hend⟩
    exact ⟨errors, _, w₁, (retried_iff_tried hspread hmultiplier).mpr htried,
      Backoff.interval?_eq hmultiplier _, hattempt, hlast.mpr hend⟩

/-- If all attempts come to an end then there is a last one, or they go on without end. -/
theorem ends_or_tried (isPermanent : ε → Bool) (hspread : policy.randomization ≤ 0)
    (hmultiplier : 0 ≤ policy.multiplier)
    (hattempt : ∀ v : World B, ∃ outcome v', Yields attempt v outcome v') (w : World B) (n : Nat) :
    (∃ outcome w', Yields (retry policy isPermanent attempt) w outcome w') ∨
      ∃ errors w₁, errors.length = n ∧ Tried policy isPermanent attempt w errors w₁ := by
  induction n with
  | zero => exact .inr ⟨[], w, rfl, .none⟩
  | succ n ih =>
    rcases ih with hends | ⟨errors, w₁, rfl, htried⟩
    · exact .inl hends
    obtain ⟨outcome, w₂, hyields⟩ := hattempt w₁
    by_cases hlast : ∀ e, outcome = .error e → isPermanent e = true ∨
        ¬ policy.Allows (w₂.now - w.now) (policy.delayAfter errors.length)
    · exact .inl ⟨outcome, w₂, (yields_retry_iff_tried hspread hmultiplier).mpr
        ⟨errors, w₁, htried, hyields, hlast⟩⟩
    · push Not at hlast
      obtain ⟨e, rfl, he, hallows⟩ := hlast
      exact .inr ⟨errors ++ [e], _, by simp, htried.next hyields (eq_false_of_ne_true he) hallows
        (yields_sleep_iff.mpr rfl)⟩

namespace Tried

theorem now_ge (h : Tried policy isPermanent attempt w errors w₁) : w.now ≤ w₁.now := by
  induction h with
  | none => exact Nat.le_refl _
  | next _ hattempt _ _ hsleep ih =>
    exact ih.trans ((Reaches.meanwhile hattempt).2.trans (Reaches.meanwhile hsleep).2)

/-- No attempt begins after the timer that is set for the bound. -/
theorem now_le (hbound : policy.maxElapsed = some bound)
    (h : Tried policy isPermanent attempt w errors w₁) :
    w₁.now ≤ Clock.timer (w.now + bound.nanos) := by
  have hstart := Clock.le_timer (w.now + bound.nanos)
  induction h with
  | none => omega
  | @next errors _ w₁ w₂ _ htried hattempt _ hallows hsleep ih =>
    obtain rfl := yields_sleep_iff.mp hsleep
    have helapsed := hallows bound hbound
    have hattempt := (Reaches.meanwhile hattempt).2
    have hbegun := htried.now_ge
    have hafter := Clock.after_le w₂.now (policy.delayAfter errors.length)
    exact max_le (by omega) (Clock.timer_mono (by omega))

theorem le_now (hw : Clock.timer w.now = w.now) (h : Tried policy isPermanent attempt w errors w₁)
    (hdelay : ∀ k < errors.length, 0 < (policy.delayAfter k).nanos) :
    w.now + errors.length * 1000000 ≤ w₁.now := by
  induction h with
  | none => simp
  | @next errors _ w₁ w₂ _ _ hattempt _ _ hsleep ih =>
    obtain rfl := yields_sleep_iff.mp hsleep
    simp only [List.length_append, List.length_singleton] at hdelay ⊢
    have hbefore := ih fun k hk => hdelay k (by omega)
    have hattempt := (Reaches.meanwhile hattempt).2
    have hlater := Clock.lt_after w₂.now (hdelay errors.length (by omega))
    have hend := Clock.add_le_timer hw (Nat.lt_of_le_of_lt (hbefore.trans hattempt) hlater)
    exact hend.trans (Nat.le_max_right ..)

/-- So many attempts are repeated at most as the bound has milliseconds. -/
theorem length_le (hw : Clock.timer w.now = w.now) (hmillis : Clock.timer bound.nanos = bound.nanos)
    (hbound : policy.maxElapsed = some bound)
    (h : Tried policy isPermanent attempt w errors w₁)
    (hdelay : ∀ k < errors.length, 0 < (policy.delayAfter k).nanos) :
    errors.length ≤ Clock.millis bound.nanos := by
  have hlate := h.le_now hw hdelay
  have hearly := h.now_le hbound
  rw [Clock.timer_add hmillis, hw] at hearly
  unfold Clock.millis
  omega

end Tried

/-- If no delay is without length then the attempts do not go on without end. -/
theorem exists_yields_retry_of_pos (hspread : policy.randomization ≤ 0)
    (hmultiplier : 0 ≤ policy.multiplier) (hw : Clock.timer w.now = w.now)
    (hmillis : Clock.timer bound.nanos = bound.nanos) (hbound : policy.maxElapsed = some bound)
    (hdelay : ∀ k, 0 < (policy.delayAfter k).nanos)
    (hattempt : ∀ v : World B, ∃ outcome v', Yields attempt v outcome v') :
    ∃ outcome w', Yields (retry policy isPermanent attempt) w outcome w' := by
  rcases ends_or_tried isPermanent hspread hmultiplier hattempt w
    (Clock.millis bound.nanos + 1) with hends | ⟨errors, w₁, hlength, htried⟩
  · exact hends
  · have := htried.length_le hw hmillis hbound fun k _ => hdelay k
    omega

/-- Wherever a repeated attempt waits, it does so in an attempt or in the delay after one. -/
theorem waits_retry_tried (hspread : policy.randomization ≤ 0)
    (hmultiplier : 0 ≤ policy.multiplier)
    (h : Waits (retry policy isPermanent attempt) w w') :
    ∃ errors w₁, Tried policy isPermanent attempt w errors w₁ ∧
      (Waits attempt w₁ w' ∨ ∃ e w₂, Yields attempt w₁ (.error e) w₂ ∧ isPermanent e = false ∧
        Waits (sleep (policy.delayAfter errors.length)) w₂ w') := by
  obtain ⟨errors, interval, w₁, hretried, hinterval, hwaits⟩ := waits_retry h
  cases (Backoff.interval?_eq hmultiplier _).symm.trans hinterval
  simp only [Backoff.delay_eq hspread] at hwaits
  exact ⟨errors, w₁, (retried_iff_tried hspread hmultiplier).mp hretried, hwaits⟩

end Attempts

end Process

/-! ### Calls that are not cancelled -/

namespace Cluster

open Process (Tried retry)

variable {B : Behaviour Cluster} {stop : Signal} {policy : Backoff} {r : Request}
  {w w₁ w' w'' : World B} {outcome : Except CheckError r.Result}

theorem yields_call_iff (hf : w.fired stop = false) :
    Yields (call stop policy r) w outcome w' ↔
      Yields (retry policy (fun e => !e.isTransient) (.call (S := Cluster) r)) w outcome w' := by
  unfold call callAs
  simp only [Yields.bind_iff, Yields.abandonOn_iff hf]
  constructor
  · rintro ⟨_, _, ⟨_, rfl, hp⟩, h⟩
    obtain ⟨rfl, rfl⟩ := Yields.pure_iff.mp h
    exact hp
  · intro hp
    exact ⟨_, _, ⟨_, rfl, hp⟩, Yields.pure_iff.mpr ⟨rfl, rfl⟩⟩

theorem yields_call_of_definitive {errors : List CheckError} {a : ApiStatus}
    (hspread : policy.randomization ≤ 0) (hmultiplier : 0 ≤ policy.multiplier)
    (hf : w.fired stop = false)
    (htried : Tried policy (fun e => !e.isTransient) (.call (S := Cluster) r) w errors w₁)
    (hcall : Yields (.call (S := Cluster) r) w₁ (.error (.cluster (.api a))) w')
    (hpatience : a.code ≠ 429) (hserver : a.code < 500) :
    Yields (call stop policy r) w outcome w'' ↔
      outcome = .error (.cluster (.api a)) ∧ w'' = w' := by
  have hpermanent : (!(CheckError.cluster (.api a)).isTransient) = true := by
    simp [CheckError.isTransient, CheckError.isTransientCode, hpatience, hserver]
  have hyields : Yields (call stop policy r) w (.error (.cluster (.api a))) w' := by
    apply (yields_call_iff hf).mpr
    apply (Process.yields_retry_iff_tried hspread hmultiplier).mpr
    exact ⟨errors, w₁, htried, hcall, fun e he => .inl (by cases he; exact hpermanent)⟩
  constructor
  · intro h
    obtain ⟨houtcome, rfl⟩ := hyields.unique h (by simp) (by simp)
    cases houtcome
    exact ⟨rfl, rfl⟩
  · rintro ⟨rfl, rfl⟩
    exact hyields

end Cluster

/-! ### Repeating, exactly -/

namespace Refusals

def refusal (code : Nat) : CheckError :=
  .cluster (.api ⟨"Failure", "refused", "Refused", code⟩)

/-- Every request is refused, with these codes one after the other and with 404 after
them. -/
def refusing : Behaviour Cluster where
  State := List Nat
  Ticket := Unit
  start _ _ codes := (.zero, (), codes)
  answer _ _ _ codes := (.error (refusal (codes.headD 404)), codes.tail)

def starting : World refusing :=
  .initial ([503, 503] : List Nat)

def policy : Backoff where
  initialInterval := .ofMillis 500
  multiplier := 1
  randomization := 0
  maxInterval := .ofSeconds 60
  maxElapsed := some (.ofSeconds 1)

theorem policy_delayAfter (k : Nat) : policy.delayAfter k = .ofMillis 500 :=
  Function.iterate_fixed (by decide +kernel : policy.next (.ofMillis 500) = .ofMillis 500) k

end Refusals

end NodeCoverage
