import NodeCoverage.Proofs.Process.Finishes
/-!
# What a process yields by itself

`Yields p w a w'` says that a process begun in `w` ends with `a` in `w'` when nothing happens while
it waits, except that the clock moves on to its next timer. No fuel is mentioned: any amount will do
that is enough, and the result and the last world are always the same. A sequence yields what its
parts yield one after the other, and no signal fires on the way. `Waits p w w'` says that it has
come to wait in `w'` instead, and so has one of its parts.
-/

namespace NodeCoverage

open Process (Reaches Rounds afterRound)

variable {S : Service} {B : Behaviour S} {α β σ : Type}

theorem World.advance_of_le {w : World B} {t : Nat} (h : t ≤ w.now) : w.advance t = w := by
  simp [World.advance, Nat.max_eq_left h]

/-- Nothing happens but that the clock moves on to the next timer. -/
def Surroundings.alone : Surroundings B :=
  fun t w w' => w' = w.advance t

theorem Surroundings.alone_transitive : (alone (B := B)).Transitive := by
  rintro t w₁ _ _ rfl rfl
  simp [alone, World.advance]

theorem Surroundings.eq_advance_of_still {t : Nat} {w w' : World B}
    (h : alone.Still t w w') (ht : t ≤ w'.now) : w' = w.advance t := by
  rcases h with rfl | h
  · exact (World.advance_of_le ht).symm
  · exact h

/-- Whether a process has ended with this result. -/
def Status.endsWith {ε : Type} [DecidableEq ε] [DecidableEq α] :
    Status B (Except ε α) → Except ε α → Bool
  | .finished (.ok a), .ok b => decide (a = b)
  | .finished (.error e), .error d => decide (e = d)
  | _, _ => false

theorem Status.eq_of_endsWith {ε : Type} [DecidableEq ε] [DecidableEq α]
    {st : Status B (Except ε α)} {x : Except ε α} (h : st.endsWith x = true) :
    st = .finished x := by
  unfold endsWith at h
  split at h
  · rw [of_decide_eq_true h]
  · rw [of_decide_eq_true h]
  · cases h

namespace Process

/-- Begun in `w` and left alone, the process ends with `a` in `w'`. -/
def Yields (p : Process S α) (w : World B) (a : α) (w' : World B) : Prop :=
  Reaches .alone p w (.finished a) w'

/-- Begun in `w` and left alone, the process waits in `w'`. -/
def Waits (p : Process S α) (w w' : World B) : Prop :=
  ∃ s, Reaches .alone p w (.suspended s) w'

/-- Where the process stands when it has been woken `n` times. -/
def woken (fuel : Nat) (p : Process S α) (w : World B) : Nat → Status B α × World B
  | 0 => p.start fuel w
  | n + 1 => Status.proceed (woken fuel p w n) (fun a w => (.finished a, w))
      fun s w => s.resume fuel (w.advance s.wake)

section Woken

variable {p : Process S α} {w w' : World B}

theorem woken_of_le {fuel n m : Nat} (h : ∀ s, (p.woken fuel w n).1 ≠ .suspended s)
    (hnm : n ≤ m) : p.woken fuel w m = p.woken fuel w n := by
  obtain ⟨k, rfl⟩ := Nat.exists_eq_add_of_le hnm
  clear hnm
  induction k with
  | zero => rfl
  | succ k ih =>
    rw [← Nat.add_assoc, woken, ih]
    rcases hn : p.woken fuel w n with ⟨a | s | f | _, w₁⟩
    · rfl
    · exact absurd (by rw [hn]) (h s)
    · rfl
    · rfl

theorem woken_now (fuel n : Nat) :
    (p.woken fuel w n).2.now ≤ (p.woken fuel w (n + 1)).2.now := by
  rw [woken]
  refine Status.proceed_keeps (I := fun w₁ => (p.woken fuel w n).2.now ≤ w₁.now) ?_ ?_ ?_
  · exact Nat.le_refl _
  · exact fun _ _ h => h
  · intro s w₁ h
    rw [(s.resume_meanwhile fuel _).1]
    exact Nat.le_trans h (Nat.le_max_left ..)

theorem woken_now_mono {fuel n m : Nat} (hnm : n ≤ m) :
    (p.woken fuel w n).2.now ≤ (p.woken fuel w m).2.now := by
  obtain ⟨k, rfl⟩ := Nat.exists_eq_add_of_le hnm
  clear hnm
  induction k with
  | zero => exact Nat.le_refl _
  | succ k ih => exact Nat.le_trans ih (woken_now fuel (n + k))

/-- What a process reaches when it is left alone, it reaches with any fuel that is enough. -/
theorem Reaches.exists_woken {st : Status B α} (h : Reaches .alone p w st w')
    (hst : st ≠ .exhausted) : ∃ n enough, ∀ fuel, enough ≤ fuel → p.woken fuel w n = (st, w') := by
  induction h with
  | start enough => exact ⟨0, enough, fun fuel hf => by rw [woken, start_of_le hst hf]⟩
  | resume enough₂ _ he ih =>
    obtain ⟨n, enough₁, hn⟩ := ih (by simp)
    refine ⟨n + 1, max enough₁ enough₂, fun fuel hf => ?_⟩
    rw [woken, hn fuel (by omega)]
    cases he
    exact Suspended.resume_of_le hst (by omega)

theorem Reaches.meanwhile {st : Status B α} (h : Reaches .alone p w st w') :
    w'.fired = w.fired ∧ w.now ≤ w'.now := by
  induction h with
  | start fuel =>
    obtain ⟨hnow, hfired⟩ := p.start_meanwhile fuel w
    exact ⟨hfired, Nat.le_of_eq hnow.symm⟩
  | resume fuel _ he ih =>
    rename_i s w₁ w₂ _
    obtain ⟨hnow, hfired⟩ := s.resume_meanwhile fuel w₂
    cases he
    refine ⟨hfired.trans ih.1, ?_⟩
    rw [hnow]
    exact Nat.le_trans ih.2 (Nat.le_max_left ..)

end Woken

namespace Yields

variable {p : Process S α} {w w' w₁ : World B} {a : α}

theorem unique {st : Status B α} (h : Yields p w a w') (h₁ : Reaches .alone p w st w₁)
    (hs : ∀ s, st ≠ .suspended s) (he : st ≠ .exhausted) : st = .finished a ∧ w₁ = w' := by
  obtain ⟨n, k, hn⟩ := h.exists_woken (by simp)
  obtain ⟨m, l, hm⟩ := h₁.exists_woken he
  have hn := hn (max k l) (Nat.le_max_left ..)
  have hm := hm (max k l) (Nat.le_max_right ..)
  have hn' := (woken_of_le (by simp [hn]) (Nat.le_max_left n m)).trans hn
  have hm' := (woken_of_le (by simpa [hm] using hs) (Nat.le_max_right n m)).trans hm
  rw [hn'] at hm'
  cases hm'
  exact ⟨rfl, rfl⟩

/-- A process that had to wait did not end before its timer. -/
theorem wake_le {s : Suspended B α} (h : Yields p w a w')
    (h₁ : Reaches .alone p w (.suspended s) w₁) : s.wake ≤ w'.now := by
  obtain ⟨n, k, hn⟩ := h.exists_woken (by simp)
  obtain ⟨m, l, hm⟩ := h₁.exists_woken (by simp)
  have hn := hn (max k l) (Nat.le_max_left ..)
  have hm := hm (max k l) (Nat.le_max_right ..)
  rcases Nat.lt_or_ge m n with hmn | hnm
  · have hnow : (p.woken (max k l) w (m + 1)).2.now ≤ (p.woken (max k l) w n).2.now :=
      woken_now_mono (Nat.succ_le_of_lt hmn)
    rw [hn, woken, hm] at hnow
    refine Nat.le_trans ?_ hnow
    simp only [Status.proceed, (s.resume_meanwhile _ _).1]
    exact Nat.le_max_right ..
  · have hsame := (woken_of_le (by simp [hn]) hnm).trans hn
    rw [hm] at hsame
    cases hsame

theorem fired_eq (h : Yields p w a w') (s : Signal) : w'.fired s = w.fired s :=
  congrFun (Reaches.meanwhile h).1 s

/-! ### Steps and sequences -/

@[simp] theorem pure_iff {b : α} : Yields (Pure.pure b : Process S α) w a w' ↔ a = b ∧ w' = w :=
  Finishes.pure_iff

@[simp] theorem clock_iff {t : Nat} : Yields .clock w t w' ↔ t = w.now ∧ w' = w :=
  Finishes.clock_iff

@[simp] theorem fired_iff {s : Signal} {b : Bool} :
    Yields (.fired s) w b w' ↔ b = w.fired s ∧ w' = w :=
  Finishes.fired_iff

@[simp] theorem note_iff {e : S.Entry} {u : Unit} :
    Yields (.note e) w u w' ↔ w' = w.note e :=
  Finishes.note_iff

@[simp] theorem bind_iff {next : α → Process S β} {b : β} :
    Yields (p >>= next) w b w' ↔ ∃ a w₁, Yields p w a w₁ ∧ Yields (next a) w₁ b w' :=
  Finishes.bind_iff

theorem clock_bind_iff {next : Nat → Process S β} {b : β} :
    Yields (Process.clock >>= next) w b w' ↔ Yields (next w.now) w b w' :=
  Finishes.clock_bind_iff

theorem draw_bind_iff {next : Rat → Process S β} {b : β} :
    Yields (Process.draw >>= next) w b w' ↔ Yields (next w.draw) w b w' :=
  Finishes.draw_bind_iff

theorem iterate_cases {body : σ → Process S (σ ⊕ α)} {s : σ}
    (h : Yields (.iterate body s) w a w') :
    ∃ s₁ w₁, Rounds .alone body s w s₁ w₁ ∧ Yields (body s₁) w₁ (.inr a) w' :=
  Finishes.iterate_iff.mp h

theorem call_iff {r : S.Request} {x : S.Reply r} : Yields (.call r) w x w' ↔
    ((w.call r).2.advance (w.call r).1.2.2).answer (w.call r).1.1 r (w.call r).1.2.1 =
      (x, w') := by
  constructor
  · intro h
    rcases Reaches.call_cases Surroundings.alone_transitive h with
      ⟨hx, -⟩ | ⟨hx, -⟩ | ⟨w₁, hstill, hnow, hx, rfl⟩
    · cases hx
    · cases hx
    · cases hx
      rw [Surroundings.eq_advance_of_still hstill hnow]
  · intro h
    have hstart := Reaches.start (E := .alone) (p := .call r) (w := w) 1
    by_cases ht : (w.call r).1.2.2 ≤ (w.call r).2.now
    · rw [World.advance_of_le ht] at h
      simp only [start, ht, if_true, h] at hstart
      exact hstart
    · simp only [start, ht, if_false] at hstart
      have hwoken := hstart.resume 0 rfl
      have hnow : (w.call r).1.2.2 ≤ ((w.call r).2.advance (w.call r).1.2.2).now :=
        Nat.le_max_right ..
      simp only [Suspended.resume, Suspended.wake, hnow, if_true, h] at hwoken
      exact hwoken

@[simp] theorem sleepUntil_iff {t : Nat} {u : Unit} :
    Yields (.sleepUntil t) w u w' ↔ w' = w.advance (Clock.timer t) := by
  constructor
  · intro h
    rcases Reaches.sleepUntil_cases Surroundings.alone_transitive h with
      ⟨hu, -⟩ | ⟨hu, -⟩ | ⟨-, hstill, hnow⟩
    · cases hu
    · cases hu
    · exact Surroundings.eq_advance_of_still hstill hnow
  · rintro rfl
    have hstart := Reaches.start (E := .alone) (p := .sleepUntil t) (w := w) 1
    by_cases ht : Clock.timer t ≤ w.now
    · rw [World.advance_of_le ht]
      simp only [start, ht, if_true] at hstart
      exact hstart
    · simp only [start, ht, if_false] at hstart
      have hwoken := hstart.resume 0 rfl
      have hnow : Clock.timer t ≤ (w.advance (Clock.timer t)).now := Nat.le_max_right ..
      simp only [Suspended.resume, Suspended.wake, hnow, if_true] at hwoken
      exact hwoken

theorem iterate_round {body : σ → Process S (σ ⊕ α)} {s : σ} {x : σ ⊕ α}
    (hb : Yields (body s) w x w₁) (h : Yields (afterRound body x) w₁ a w') :
    Yields (.iterate body s) w a w' :=
  Finishes.iterate_round hb h

theorem iterate_of_rounds {body : σ → Process S (σ ⊕ α)} {s s₁ : σ}
    (hr : Rounds .alone body s w s₁ w₁) (h : Yields (.iterate body s₁) w₁ a w') :
    Yields (.iterate body s) w a w' :=
  Finishes.iterate_of_rounds hr h

/-! ### Running up to a bound -/

variable {fuel rounds : Nat} {bound : Option Nat}

/-- A process that ends before the bound is run to its end, unless the fuel is used up. -/
theorem runUntil_cases {st : Status B α} (h : Yields p w a w')
    (hb : Suspended.within bound w'.now = true)
    (hr : (Suspended.ready p).runUntil fuel bound rounds w = (st, w₁)) :
    st = .exhausted ∨ st = .finished a ∧ w₁ = w' := by
  rcases Process.Awaits.ready.runUntil_cases (E := .alone) (fun _ _ => rfl) hr with
    hst | ⟨-, -, hnow⟩ | ⟨hreach, -, hwake⟩
  · exact .inl hst
  · rw [Suspended.within_of_le (Reaches.meanwhile h).2 hb] at hnow
    cases hnow
  · by_cases he : st = .exhausted
    · exact .inl he
    · refine .inr (h.unique hreach (fun s hs => ?_) he)
      subst hs
      have hlate := hwake s rfl
      rw [Suspended.within_of_le (h.wake_le hreach) hb] at hlate
      cases hlate

theorem of_runUntil (hr : (Suspended.ready p).runUntil fuel bound rounds w = (.finished a, w')) :
    Yields p w a w' := by
  rcases Process.Awaits.ready.runUntil_cases (E := .alone) (fun _ _ => rfl) hr with
    hst | ⟨hst, -⟩ | ⟨hreach, -⟩
  · cases hst
  · cases hst
  · exact hreach

theorem of_endsWith {ε : Type} [DecidableEq ε] [DecidableEq α] {p : Process S (Except ε α)}
    {x : Except ε α} (fuel rounds : Nat)
    (h : ((Suspended.ready p).runUntil fuel none rounds w).1.endsWith x = true) :
    Yields p w x ((Suspended.ready p).runUntil fuel none rounds w).2 :=
  of_runUntil (Prod.ext (Status.eq_of_endsWith h) rfl)

/-- A run that resumes a process where it has been woken `k` times of `n` does not use up its
rounds. -/
private theorem runUntil_ne_exhausted {n d k : Nat} {s : Suspended B α} {w₂ : World B}
    (hn : p.woken fuel w n = (.finished a, w')) (hk : k + d = n)
    (hs : s.resume fuel w₂ = p.woken fuel w k) (hd : d < rounds) :
    (s.runUntil fuel bound rounds w₂).1 ≠ .exhausted := by
  induction d generalizing k s w₂ rounds with
  | zero =>
    obtain ⟨rounds, rfl⟩ : ∃ r, rounds = r + 1 := ⟨rounds - 1, by omega⟩
    obtain rfl : k = n := by omega
    simp only [Suspended.runUntil, hs, hn]
    split <;> simp
  | succ d ih =>
    obtain ⟨rounds, rfl⟩ : ∃ r, rounds = r + 1 := ⟨rounds - 1, by omega⟩
    simp only [Suspended.runUntil, hs]
    split
    · rcases hw : p.woken fuel w k with ⟨b | t | f | _, w₃⟩
      · simp
      · dsimp only
        split
        · refine ih (k := k + 1) (by omega) ?_ (by omega)
          rw [woken, hw]
          rfl
        · simp
      · simp
      · have hend : p.woken fuel w n = p.woken fuel w k :=
          woken_of_le (by simp [hw]) (by omega)
        rw [hn, hw] at hend
        cases hend
    · simp

/-- With enough fuel, a process that ends before the bound is run to its end. -/
theorem exists_fuel (h : Yields p w a w') (hb : Suspended.within bound w'.now = true) :
    ∃ enough, ∀ fuel rounds, enough ≤ fuel → enough ≤ rounds →
      (Suspended.ready p).runUntil fuel bound rounds w = (.finished a, w') := by
  obtain ⟨n, enough, hn⟩ := h.exists_woken (by simp)
  refine ⟨max enough (n + 1), fun fuel rounds hfuel hrounds => ?_⟩
  have hne : ((Suspended.ready p).runUntil fuel bound rounds w).1 ≠ .exhausted :=
    runUntil_ne_exhausted (hn fuel (by omega)) (Nat.zero_add n) rfl (by omega)
  rcases hr : (Suspended.ready p).runUntil fuel bound rounds w with ⟨st, w₁⟩
  rw [hr] at hne
  rcases h.runUntil_cases hb hr with hst | ⟨rfl, rfl⟩
  · exact absurd hst hne
  · rfl

end Yields

/-! ### Waiting -/

namespace Waits

variable {w w' : World B}

theorem iff_unfinished {p : Process S α} :
    Waits p w w' ↔ Unfinished .alone p w none w' := by
  constructor
  · rintro ⟨s, h⟩
    exact ⟨_, h, .suspended s⟩
  · rintro ⟨_, h, ⟨s⟩⟩
    exact ⟨s, h⟩

theorem not_pure {a : α} : ¬ Waits (Pure.pure a : Process S α) w w' :=
  fun h => Unfinished.not_pure (iff_unfinished.mp h)

theorem bind_cases {p : Process S α} {next : α → Process S β} (h : Waits (p >>= next) w w') :
    Waits p w w' ∨ ∃ a w₁, Yields p w a w₁ ∧ Waits (next a) w₁ w' := by
  simp only [iff_unfinished] at h ⊢
  exact Unfinished.bind_iff.mp h

theorem of_clock_bind {next : Nat → Process S β} (h : Waits (Process.clock >>= next) w w') :
    Waits (next w.now) w w' :=
  iff_unfinished.mpr (Unfinished.clock_bind_iff.mp (iff_unfinished.mp h))

theorem iterate_cases {body : σ → Process S (σ ⊕ α)} {s : σ} (h : Waits (.iterate body s) w w') :
    ∃ s₁ w₁, Rounds .alone body s w s₁ w₁ ∧ Waits (body s₁) w₁ w' := by
  simp only [iff_unfinished] at h ⊢
  exact Unfinished.iterate_iff.mp h

theorem call_cases {r : S.Request} (h : Waits (.call r) w w') :
    ∃ t, w' = (w.call r).2.advance t := by
  obtain ⟨_, h⟩ := h
  rcases Reaches.call_cases Surroundings.alone_transitive h with
    ⟨hs, -⟩ | ⟨-, rfl | hmove⟩ | ⟨_, -, -, hs, -⟩
  · cases hs
  · exact ⟨0, (World.advance_of_le (Nat.zero_le _)).symm⟩
  · exact ⟨_, hmove⟩
  · cases hs

theorem sleepUntil_cases {u : Nat} (h : Waits (.sleepUntil u) w w') : ∃ t, w' = w.advance t := by
  obtain ⟨_, h⟩ := h
  rcases Reaches.sleepUntil_cases Surroundings.alone_transitive h with
    ⟨hs, -⟩ | ⟨-, rfl | hmove⟩ | ⟨hs, -⟩
  · cases hs
  · exact ⟨0, (World.advance_of_le (Nat.zero_le _)).symm⟩
  · exact ⟨_, hmove⟩
  · cases hs

end Waits
end Process
end NodeCoverage
