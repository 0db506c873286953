import NodeCoverage.Proofs.Cluster.Call
import NodeCoverage.Proofs.Process.Beside
import NodeCoverage.Proofs.Process.Rest
import NodeCoverage.Proofs.Process.Yields
/-!
# Processes that keep to a time

Suppose that calls take no time, and that no sleep of a process ends after `t`. Then the process is
never found waiting for anything later than `t`, except in one place: between two attempts of a call
it sleeps as long as the policy says, whatever `t` is. So if it does not keep to the time, one of
its calls has been answered by then with an error after which it is made again.
-/

namespace NodeCoverage

open Cluster (Request)
open Process (Awaits BindEnd InsideEnd Reaches RoundEnd Rounds Yields)

/-- Calls take no time. -/
def Behaviour.Immediate {S : Service} (B : Behaviour S) : Prop :=
  ∀ t r s, (B.start t r s).1 = .zero

namespace Clock

/-- A timer that is set for the end of another one ends with it. -/
theorem timer_timer (t : Nat) : timer (timer t) = timer t :=
  timer_ofMillis ((t + 999999) / 1000000)

end Clock

variable {α β σ : Type}

section UpTo

variable {S : Service} {B : Behaviour S} {t : Nat} {w w₁ w₂ : World B}

/-- The log has grown, and the clock has not come past `t`. -/
def World.UpTo (t : Nat) (w w' : World B) : Prop :=
  w.Grows w' ∧ (w.now ≤ t → w'.now ≤ t)

theorem World.UpTo.refl (w : World B) : w.UpTo t w :=
  ⟨.refl w, id⟩

theorem World.UpTo.trans {w₃ : World B} (h₁ : w₁.UpTo t w₂) (h₂ : w₂.UpTo t w₃) : w₁.UpTo t w₃ :=
  ⟨h₁.1.trans h₂.1, fun h => h₂.2 (h₁.2 h)⟩

theorem World.UpTo.transitive : Surroundings.Transitive (B := B) fun _ => World.UpTo t :=
  fun _ _ _ _ h₁ h₂ => h₁.trans h₂

theorem World.UpTo.beside {calls : S.Request → Prop} {notes : S.Entry → Prop} :
    Surroundings.Beside (B := B) (fun _ => World.UpTo t) calls notes (World.UpTo t) where
  refl := .refl
  trans := .trans
  moves h := h
  call _ := ⟨.single (World.adds_call ..) trivial, id⟩
  answer _ := ⟨.single (World.adds_answer ..) trivial, id⟩
  note _ := ⟨.single (World.adds_note ..) trivial, id⟩

theorem Process.Reaches.upTo {p : Process S α} {st : Status B α}
    (h : Reaches (fun _ => World.UpTo t) p w st w₁) : w.UpTo t w₁ :=
  World.UpTo.beside.reaches p.uses_any h

theorem Process.Rounds.upTo {body : σ → Process S (σ ⊕ α)} {s s₁ : σ}
    (h : Rounds (fun _ => World.UpTo t) body s w s₁ w₁) : w.UpTo t w₁ := by
  induction h with
  | none => exact .refl _
  | next _ hround ih => exact ih.trans hround.upTo

/-- The log grows, and nothing happens after the timer for which a process waits. -/
def Surroundings.Timely (E : Surroundings B) : Prop :=
  ∀ u w w', E u w w' → w.Grows w' ∧ w'.now ≤ max w.now u

theorem Surroundings.Timely.grows {E : Surroundings B} (hE : E.Timely) {p : Process S α}
    {st : Status B α} (hr : Reaches E p w st w₁) : w.Grows w₁ :=
  (World.Grows.beside fun _ _ _ h => (hE _ _ _ h).1).reaches p.uses_any hr

theorem Surroundings.alone_timely : (alone (B := B)).Timely := by
  rintro u w _ rfl
  exact ⟨.advance w _, Nat.le_refl _⟩

/-- If the process waits its timers end by `t`, and it has not crashed. -/
def Status.OnTime (t : Nat) : Status B α → Prop
  | .suspended s => s.wake ≤ t
  | .crashed _ => False
  | .finished _ | .exhausted => True

theorem Status.OnTime.bind {next : α → Process S β} {st₁ : Status B α} {st : Status B β}
    (h : st₁.OnTime t) (hend : BindEnd next st₁ st) : st.OnTime t := by
  cases hend <;> exact h

theorem Status.OnTime.round {body : σ → Process S (σ ⊕ α)} {st₁ : Status B (σ ⊕ α)}
    {st : Status B α} (h : st₁.OnTime t) (hend : RoundEnd body st₁ st) : st.OnTime t := by
  cases hend with
  | exhausted => exact trivial
  | finished | suspended | crashed => exact h

theorem Status.OnTime.inside {s : Signal} {st₁ : Status B α} {st : Status B (Option α)}
    (h : st₁.OnTime t) (hend : InsideEnd s st₁ st) : st.OnTime t := by
  cases hend <;> exact h

end UpTo

variable {B : Behaviour Cluster} {t : Nat} {v w w₁ w₂ : World B}

/-- By `t` a call was answered with a transient error. -/
def Event.FaltersBy (t : Nat) (e : Event Cluster) : Prop :=
  ∃ u ≤ t, ∃ n r x, e = .answered u n r (.error x) ∧ x.isTransient = true

abbrev World.Hindered (t : Nat) (v w : World B) : Prop :=
  v.Has (Event.FaltersBy t) w

/-- The process is on time, or a call has had to be made again. -/
def Process.KeepsTo (t : Nat) (w : World B) (st : Status B α) (w' : World B) : Prop :=
  st.OnTime t ∨ w.Hindered t w'

namespace Cluster

variable {stop : Signal} {policy : Backoff} {r : Request}

theorem attempt_onTime (hB : B.Immediate) (ht : Clock.timer t = t) (hw : w.now ≤ t)
    {st : Status B (Except CheckError r.Result)}
    (hr : Reaches (fun _ => World.UpTo t) (.call (S := Cluster) r) w st w₁) :
    st.OnTime t ∧ ∀ e, st = .finished (.error e) → e.isTransient = true → w.Hindered t w₁ := by
  have hanswer : (w.call r).1.2.2 ≤ t := by
    have hnow : (w.call r).1.2.2 = Clock.timer w.now := by
      simp [World.call, hB w.now r w.state, Clock.after, Duration.zero]
    rw [hnow, ← ht]
    exact Clock.timer_mono hw
  rcases hr.call_cases World.UpTo.transitive with ⟨rfl, -⟩ | ⟨rfl, -⟩ | ⟨w₂, hstill, -, rfl, rfl⟩
  · exact ⟨trivial, fun _ h => by cases h⟩
  · exact ⟨hanswer, fun _ h => by cases h⟩
  · refine ⟨trivial, fun e he htransient => ?_⟩
    have hw₂ : (w.call r).2.UpTo t w₂ := by
      rcases hstill with rfl | hmove
      · exact .refl _
      · exact hmove
    have hanswered : w₂.Hindered t (w₂.answer (w.call r).1.1 r (w.call r).1.2.1).2 :=
      .single (World.adds_answer ..) ⟨w₂.now, hw₂.2 hw, _, r, e,
        by rw [Status.finished.inj he], htransient⟩
    exact hanswered.mono (.trans (.single (World.adds_call w r) trivial) hw₂.1) (.refl _)

theorem round_keeps (hB : B.Immediate) (ht : Clock.timer t = t) (hw : w.now ≤ t)
    {isPermanent : CheckError → Bool} (hpermanent : ∀ e, isPermanent e = false → e.isTransient)
    {started : Nat} {interval : Duration} {st : Status B (Duration ⊕ Except CheckError r.Result)}
    (hr : Reaches (fun _ => World.UpTo t) (Process.retryRound policy isPermanent started
      (.call (S := Cluster) r) interval) w st w₁) :
    (st.OnTime t ∧ ∀ next, st ≠ .finished (.inl next)) ∨ w.Hindered t w₁ := by
  rcases hr.bind_cases with ⟨st₁, hcall, hend⟩ | ⟨outcome, w₂, hcall, hnext⟩
  · refine .inl ⟨(attempt_onTime hB ht hw hcall).1.bind hend, ?_⟩
    cases hend <;> nofun
  · have ended {x : Except CheckError r.Result}
        (h : Reaches (fun _ => World.UpTo t) (pure (.inr x) : Process Cluster (Duration ⊕ _)) w₂ st
          w₁) : st.OnTime t ∧ ∀ next, st ≠ .finished (.inl next) := by
      obtain ⟨-, rfl | rfl⟩ := h.pure_cases
      · exact ⟨trivial, nofun⟩
      · exact ⟨trivial, nofun⟩
    cases outcome with
    | ok a => exact .inl (ended hnext)
    | error e =>
      cases hp : isPermanent e with
      | true =>
        simp only [hp, if_true] at hnext
        exact .inl (ended hnext)
      | false =>
        have hhindered := (attempt_onTime hB ht hw hcall).2 e rfl (hpermanent e hp)
        exact .inr (hhindered.mono (.refl w) hnext.upTo.1)

/-- The repetition keeps to the time as long as it does not have to repeat anything. -/
theorem retry_keeps (hB : B.Immediate) (ht : Clock.timer t = t) (hw : w.now ≤ t)
    {isPermanent : CheckError → Bool} (hpermanent : ∀ e, isPermanent e = false → e.isTransient)
    {st : Status B (Except CheckError r.Result)}
    (hr : Reaches (fun _ => World.UpTo t)
      (Process.retry policy isPermanent (.call (S := Cluster) r)) w st w₁) :
    Process.KeepsTo t w st w₁ := by
  rcases hr.clock_bind_cases with ⟨rfl, -⟩ | hr
  · exact .inl trivial
  · obtain ⟨interval, w₂, st₁, hrounds, hlast, hend⟩ := hr.iterate_cases
    cases hrounds with
    | none =>
      exact (round_keeps hB ht hw hpermanent hlast).imp (fun h => h.1.round hend) id
    | next hbefore hround =>
      -- a round that was not the last one
      have hnow := hbefore.upTo.2 hw
      rcases round_keeps hB ht hnow hpermanent hround with ⟨-, h⟩ | h
      · exact absurd rfl (h interval)
      · exact .inr (h.mono hbefore.upTo.1 hlast.upTo.1)

theorem call_keeps (hB : B.Immediate) (ht : Clock.timer t = t) (hw : w.now ≤ t)
    {st : Status B (Except CheckError r.Result)}
    (hr : Reaches (fun _ => World.UpTo t) (call stop policy r) w st w₁) :
    Process.KeepsTo t w st w₁ := by
  have abandonable {st : Status B (Option (Except CheckError r.Result))} {w₁ : World B}
      (hr : Reaches (fun _ => World.UpTo t) (.abandonOn stop (Process.retry policy
        (fun e => !e.isTransient) (.call (S := Cluster) r))) w st w₁) :
      Process.KeepsTo t w st w₁ := by
    rcases hr.abandonOn_cases with ⟨rfl, -⟩ | ⟨rfl, -⟩ | ⟨-, ⟨st₁, h, hend⟩ | ⟨_, _, rfl, -⟩⟩
    · exact .inl trivial
    · exact .inl trivial
    · have hkeeps := retry_keeps hB ht hw (fun e he => by simpa using he) (h.mono And.left)
      exact hkeeps.imp (fun h => h.inside hend) id
    · exact .inl trivial
  rcases hr.bind_cases with ⟨st₁, h, hend⟩ | ⟨outcome, w₂, h, hr⟩
  · exact (abandonable h).imp (fun h => h.bind hend) id
  · left
    cases outcome with
    | some outcome =>
      obtain ⟨-, rfl | rfl⟩ := hr.pure_cases <;> exact trivial
    | none =>
      obtain ⟨-, rfl | rfl⟩ := hr.pure_cases <;> exact trivial

end Cluster

namespace Process

/-- No sleep ends after `t`, apart from those between the attempts of a call, and nothing crashes
but perhaps between them. -/
inductive Punctual (t : Nat) : {α : Type} → Process Cluster α → Prop
  | pure {α : Type} (a : α) : Punctual t (.pure a)
  | clock : Punctual t .clock
  | draw : Punctual t .draw
  | fired (s : Signal) : Punctual t (.fired s)
  | note (e : Cluster.Entry) : Punctual t (.note (S := Cluster) e)
  | call (stop : Signal) (policy : Backoff) (r : Request) : Punctual t (Cluster.call stop policy r)
  | sleepUntil {u : Nat} : Clock.timer u ≤ t → Punctual t (.sleepUntil u)
  | bind {α β : Type} {p : Process Cluster α} {next : α → Process Cluster β} :
    Punctual t p → (∀ a, Punctual t (next a)) → Punctual t (.bind p next)
  | iterate {σ α : Type} {body : σ → Process Cluster (σ ⊕ α)} {s : σ} :
    (∀ s, Punctual t (body s)) → Punctual t (.iterate body s)
  | abandonOn {α : Type} {s : Signal} {p : Process Cluster α} :
    Punctual t p → Punctual t (.abandonOn s p)
  | both {α β : Type} {p : Process Cluster α} {q : Process Cluster β} :
    Punctual t p → Punctual t q → Punctual t (.both p q)

namespace Punctual

/-- Whatever else happens by `t`, the process keeps to the time, or one of its calls has had to be
made again. -/
theorem keeps {p : Process Cluster α} (hp : p.Punctual t) (hB : B.Immediate)
    (ht : Clock.timer t = t) (hw : w.now ≤ t) {st : Status B α}
    (hr : Reaches (fun _ => World.UpTo t) p w st w₁) : KeepsTo t w st w₁ := by
  induction hp generalizing w w₁ with
  | pure =>
    obtain ⟨-, rfl | rfl⟩ := hr.pure_cases <;> exact .inl trivial
  | clock =>
    obtain ⟨-, rfl | rfl⟩ := hr.clock_cases <;> exact .inl trivial
  | draw =>
    obtain ⟨-, rfl | rfl⟩ := hr.draw_cases <;> exact .inl trivial
  | fired =>
    obtain ⟨-, rfl | rfl⟩ := hr.fired_cases <;> exact .inl trivial
  | note =>
    obtain ⟨-, rfl⟩ | ⟨-, rfl⟩ := hr.note_cases <;> exact .inl trivial
  | call => exact Cluster.call_keeps hB ht hw hr
  | sleepUntil hu =>
    obtain ⟨rfl, -⟩ | ⟨rfl, -⟩ | ⟨rfl, -⟩ := hr.sleepUntil_cases World.UpTo.transitive
    · exact .inl trivial
    · exact .inl hu
    · exact .inl trivial
  | bind _ _ ihp ihnext =>
    rcases hr.bind_cases with ⟨st₁, h, hend⟩ | ⟨a, w₂, h, hnext⟩
    · exact (ihp hw h).imp (fun h => h.bind hend) id
    · exact (ihnext a (h.upTo.2 hw) hnext).imp id fun hhindered => hhindered.mono h.upTo.1 (.refl _)
  | iterate _ ih =>
    obtain ⟨s, w₂, st₁, hrounds, hlast, hend⟩ := hr.iterate_cases
    exact (ih s (hrounds.upTo.2 hw) hlast).imp (fun h => h.round hend)
      fun hhindered => hhindered.mono hrounds.upTo.1 (.refl _)
  | abandonOn _ ih =>
    rcases hr.abandonOn_cases with ⟨rfl, -⟩ | ⟨rfl, -⟩ | ⟨-, ⟨st₁, h, hend⟩ | ⟨_, _, rfl, -⟩⟩
    · exact .inl trivial
    · exact .inl trivial
    · exact (ih hw (h.mono And.left)).imp (fun h => h.inside hend) id
    · exact .inl trivial
  | both _ _ ihp ihq =>
    -- each half keeps to the time among the steps of the other one
    rcases hr.both_cases World.UpTo.beside World.UpTo.beside (uses_any _) (uses_any _) with
      ⟨f, rfl, h | ⟨w₂, hw₂, h⟩⟩ | rfl | ⟨st₁, w₂, st₂, w₃, w₄, h₁, hw₂, hw₃, h₂, hw₄, hend⟩
    · exact .inr ((ihp hw h).resolve_left id)
    · exact .inr (((ihq (hw₂.2 hw) h).resolve_left id).mono hw₂.1 (.refl _))
    · exact .inl trivial
    · rcases ihp hw h₁, ihq (hw₃.2 hw) h₂ with ⟨hp | hp, hq | hq⟩
      · left
        cases hend with
        | finished => exact trivial
        | first => exact hp
        | second => exact hq
        | suspended => exact Nat.le_trans (Nat.min_le_left ..) hp
      · exact .inr (hq.mono hw₃.1 hw₄.1)
      · exact .inr (hp.mono (.refl _) hw₂.1)
      · exact .inr (hp.mono (.refl _) hw₂.1)

theorem pause {stop : Signal} {deadline : Nat} {interval : Duration}
    (h : Clock.timer deadline ≤ t) : Punctual t (Process.pause stop deadline interval) := by
  refine .bind .clock fun now => .bind (.abandonOn (.sleepUntil ?_)) fun woken => ?_
  · exact Nat.le_trans (Clock.timer_mono (Nat.min_le_left ..)) h
  · cases woken with
    | none => exact .pure _
    | some => exact .bind .clock fun _ => .pure _

theorem keeps_of_timely {E : Surroundings B} {p : Process Cluster α} (hp : p.Punctual t)
    (hB : B.Immediate) (ht : Clock.timer t = t) (hw : w.now ≤ t) (hE : E.Timely) {st : Status B α}
    (hr : Reaches E p w st w₁) : w₁.now ≤ t ∧ st.OnTime t ∨ w.Hindered t w₁ := by
  have keeps {st : Status B α} {w₁ : World B}
      (hr : Reaches (fun _ => World.UpTo t) p w st w₁) :
      (Reaches (fun _ => World.UpTo t) p w st w₁ ∧ st.OnTime t) ∨ w.Hindered t w₁ :=
    (hp.keeps hB ht hw hr).imp (fun h => ⟨hr, h⟩) id
  have hup : (Reaches (fun _ => World.UpTo t) p w st w₁ ∧ st.OnTime t) ∨ w.Hindered t w₁ := by
    induction hr with
    | start n => exact keeps (.start n)
    | resume n hr he ih =>
      rename_i s w₂ w₃
      obtain ⟨hgrows, hnow⟩ := hE _ _ _ he
      rcases ih with ⟨hup, hwake⟩ | hhindered
      · refine keeps (hup.resume n ⟨hgrows, fun h => ?_⟩)
        exact Nat.le_trans hnow (Nat.max_le.mpr ⟨h, hwake⟩)
      · have hresume : w₃.UpTo t _ := World.UpTo.beside.resume p.uses_any hr n w₃
        exact .inr (hhindered.mono (.refl w) (hgrows.trans hresume.1))
  exact hup.imp (fun h => ⟨h.1.upTo.2 hw, h.2⟩) id

end Punctual

/-- Left alone, the process ends by `t`, or at some instant until then it makes calls without
end. -/
def EndsBy (t : Nat) (p : Process Cluster α) (w : World B) : Prop :=
  (∃ a w', Yields p w a w' ∧ w'.now ≤ t) ∨ ∃ u ≤ t, (Suspended.ready p).Stalls (t + 1) w u

/-- Left alone, the iteration comes to a round that is not over by `t`, since it has crashed or is
waiting for something later; and in that round a call has had to be made again. -/
def HeldUp (t : Nat) (body : σ → Process Cluster (σ ⊕ α)) (s : σ) (w : World B) : Prop :=
  ∃ s₁ w₁ st w', Rounds .alone body s w s₁ w₁ ∧ Reaches .alone (body s₁) w₁ st w' ∧ w'.now ≤ t ∧
    ¬ st.OnTime t ∧ w₁.Hindered t w'

/-- What does the same as an iteration of punctual rounds ends in time, or a round is held up. -/
theorem endsBy_or_heldUp (hB : B.Immediate) (ht : Clock.timer t = t) (hw : w.now ≤ t)
    {p : Process Cluster α} {body : σ → Process Cluster (σ ⊕ α)} {s : σ}
    (hsame : ∀ st w', Reaches .alone p w st w' → st = .exhausted ∨
      Reaches .alone (iterate body s) w st w')
    (hbody : ∀ s, (body s).Punctual t) (hdiligent : p.Diligent B) :
    EndsBy t p w ∨ HeldUp t body s w := by
  have hready : (Suspended.ready p : Suspended B α).Diligent := hdiligent
  rcases hready.ends_or_stalls (t + 1) w with ⟨st, w', ⟨hst, enough, hrun⟩, -⟩ | ⟨-, u, hu, h⟩
  · rcases Awaits.ready.runUntil_cases (E := .alone) (fun _ _ => rfl)
      (hrun enough enough (Nat.le_refl _) (Nat.le_refl _)) with rfl | ⟨-, -, h⟩ | ⟨hr, hnow, hwake⟩
    · exact absurd rfl hst
    · simp only [Suspended.within, decide_eq_false_iff_not] at h
      omega
    · have hnow : w'.now ≤ t := Nat.le_of_lt_succ (of_decide_eq_true hnow)
      obtain ⟨s₁, w₁, st₁, hrounds, hround, hend⟩ :=
        ((hsame st w' hr).resolve_left hst).iterate_cases
      have late (hlate : ¬ st₁.OnTime t) : HeldUp t body s w := by
        have hw₁ := Nat.le_trans hround.meanwhile.2 hnow
        rcases (hbody s₁).keeps_of_timely hB ht hw₁ Surroundings.alone_timely hround with h | h
        · exact absurd h.2 hlate
        · exact ⟨s₁, w₁, st₁, w', hrounds, hround, hnow, hlate, h⟩
      cases hend with
      | finished a => exact .inl (.inl ⟨a, w', hr, hnow⟩)
      | suspended p =>
        have hbound : ¬ p.wake < t + 1 := of_decide_eq_false (hwake _ rfl)
        exact .inr (late fun h : p.wake ≤ t => hbound (Nat.lt_succ_of_le h))
      | crashed => exact .inr (late id)
      | exhausted => exact absurd rfl hst
  · exact .inl (.inr ⟨u, Nat.le_of_lt_succ hu, h⟩)

end Process
end NodeCoverage
