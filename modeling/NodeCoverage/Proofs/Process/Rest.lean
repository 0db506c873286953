import NodeCoverage.Proofs.Process.Uses
/-!
# Coming to rest

A process runs within one instant until it has to wait, and its timers always end later than that.
So the only way in which a process can fail to come to rest is to go on for ever within one instant.
If no iteration goes on without a call, this takes endlessly many calls that are answered at once,
and it does not happen at all if every call takes time.
-/

namespace NodeCoverage

open Status (proceed)

variable {S : Service} {B : Behaviour S} {α β σ : Type}

/-! ### Calls are counted -/

/-- Anything may happen, but no call is forgotten. -/
def Surroundings.counting : Surroundings B :=
  fun _ w w' => w.calls ≤ w'.calls

theorem Surroundings.counting_transitive : (counting (B := B)).Transitive :=
  fun _ _ _ _ h₁ h₂ => Nat.le_trans h₁ h₂

namespace Process

theorem uses_any (p : Process S α) :
    p.Uses (fun _ => True) (fun _ => True) fun _ => True := by
  induction p with
  | pure | clock | draw | fired | note | call | sleepUntil | crash => exact trivial
  | bind p next ihp ihnext => exact ⟨ihp, ihnext⟩
  | iterate body s ih => exact ih
  | abandonOn s p ih => exact ih
  | both p q ihp ihq => exact ⟨ihp, ihq⟩

theorem keeps_calls (n : Nat) :
    Keeps (S := S) (fun _ => True) (fun _ => True) fun w : World B => n ≤ w.calls where
  call _ h := Nat.le_succ_of_le h
  answer _ h := h
  note _ h := h

theorem calls_le_start (n : Nat) (p : Process S α) (w : World B) :
    w.calls ≤ (p.start n w).2.calls :=
  have hp : p.Complies (unheard (fun _ => True) fun _ => True) fun _ => True :=
    p.uses_any.complies (c := unheard _ _) fun _ _ => trivial
  (p.start_complies (v := w) (keeps_calls w.calls) unheard_heard n
    (fun h => ⟨h, Nat.le_refl _, hp⟩) trivial).2.1

theorem Meets.counting {p : Process S α} {n : Nat} {w : World B} (h : n ≤ w.calls) :
    Meets .counting (fun _ => True) p w fun _ w' => n ≤ w'.calls :=
  (Meets.of_uses h (keeps_calls n) p.uses_any).within
    (fun _ _ _ hn hc => Nat.le_trans hn hc) fun _ _ => trivial

end Process

/-! ### Diligence -/

/-- No iteration goes on without a call: each of its rounds has made one, or is the last. -/
def Process.Diligent (B : Behaviour S) : {α : Type} → Process S α → Prop
  | _, .pure _ => True
  | _, .bind p next => p.Diligent B ∧ ∀ a, (next a).Diligent B
  | _, .clock => True
  | _, .draw => True
  | _, .fired _ => True
  | _, .note _ => True
  | _, .call _ => True
  | _, .sleepUntil _ => True
  | _, .iterate body _ => ∀ s, (body s).Diligent B ∧ ∀ w : World B,
      (body s).Meets .counting (fun _ => True) w fun x w' => x.isLeft = true → w.calls < w'.calls
  | _, .abandonOn _ p => p.Diligent B
  | _, .both p q => p.Diligent B ∧ q.Diligent B
  | _, .crash _ => True

/-- The same of a process that waits. -/
def Suspended.Diligent : {α : Type} → Suspended B α → Prop
  | _, .ready p => p.Diligent B
  | _, .asleep _ => True
  | _, .waiting _ _ _ _ => True
  | _, .bind p next => p.Diligent ∧ ∀ a, (next a).Diligent B
  | _, .abandonOn _ p => p.Diligent
  | _, .both p q => p.Diligent ∧ q.Diligent
  | _, .first p _ => p.Diligent
  | _, .second _ q => q.Diligent

namespace Process.Diligent

theorem pure {a : α} : Diligent B (Pure.pure a : Process S α) := trivial

theorem bind {p : Process S α} {next : α → Process S β} (hp : p.Diligent B)
    (hnext : ∀ a, (next a).Diligent B) : (p >>= next).Diligent B :=
  ⟨hp, hnext⟩

theorem iterate {body : σ → Process S (σ ⊕ α)} {s : σ} (h : ∀ s, (body s).Diligent B)
    (hcalls : ∀ s (w : World B), (body s).Meets .counting (fun _ => True) w
      fun x w' => x.isLeft = true → w.calls < w'.calls) : (Process.iterate body s).Diligent B :=
  fun s => ⟨h s, hcalls s⟩

theorem retry {ε : Type} {policy : Backoff} {isPermanent : ε → Bool}
    {attempt : Process S (Except ε α)} (h : attempt.Diligent B)
    (hcalls : ∀ w : World B, attempt.Meets .counting (fun _ => True) w
      fun _ w' => w.calls < w'.calls) :
    (Process.retry policy isPermanent attempt).Diligent B := by
  refine bind trivial fun started => iterate (fun interval => bind h fun outcome => ?_) ?_
  · cases outcome with
    | ok a => exact pure
    | error e =>
      dsimp only
      split
      · exact pure
      · refine bind trivial fun drawn => bind trivial fun now => ?_
        split
        · exact pure
        · refine bind (bind trivial fun _ => trivial) fun _ => ?_
          split
          · exact pure
          · exact trivial
  · intro interval w
    apply (hcalls w).seq
    intro outcome w₁ hw₁
    apply (Meets.counting hw₁).mono
    intro _ _ h _
    exact h

end Process.Diligent

/-! ### Rest -/

/-- A process that waits goes on diligently, and later than at `t`. -/
def Status.Rests (t : Nat) (x : Status B α × World B) : Prop :=
  x.2.now = t ∧ ∀ s, x.1 = .suspended s → s.Diligent ∧ t < s.wake

section Rests

variable {t n : Nat} {w : World B}

namespace Status.Rests

theorem finished {a : α} (hw : w.now = t) : Rests t (.finished a, w) :=
  ⟨hw, nofun⟩

theorem crashed {f : Fault} (hw : w.now = t) : Rests (α := α) t (.crashed f, w) :=
  ⟨hw, nofun⟩

theorem exhausted (hw : w.now = t) : Rests (α := α) t (.exhausted, w) :=
  ⟨hw, nofun⟩

theorem suspended {s : Suspended B α} (hw : w.now = t) (hs : s.Diligent) (ht : t < s.wake) :
    Rests t (.suspended s, w) :=
  ⟨hw, by rintro _ ⟨⟩; exact ⟨hs, ht⟩⟩

end Status.Rests

private theorem rests_proceed {x : Status B α × World B}
    {done : α → World B → Status B β × World B}
    {wait : Suspended B α → World B → Status B β × World B} (hx : Status.Rests t x)
    (hd : ∀ a w, w.now = t → Status.Rests t (done a w))
    (hw : ∀ s w, w.now = t → s.Diligent → t < s.wake → Status.Rests t (wait s w)) :
    Status.Rests t (proceed x done wait) := by
  obtain ⟨hnow, hs⟩ := hx
  rcases x with ⟨a | s | f | _, w⟩
  · exact hd a w hnow
  · exact hw s w hnow (hs s rfl).1 (hs s rfl).2
  · exact .crashed hnow
  · exact .exhausted hnow

private theorem rests_both {x : Status B α × World B} {y : World B → Status B β × World B}
    (hx : Status.Rests t x) (hy : ∀ w, w.now = t → Status.Rests t (y w)) :
    Status.Rests t (proceed x
      (fun a w => proceed (y w) (fun b w => (.finished (a, b), w))
        fun q w => (.suspended (.second a q), w))
      fun p w => proceed (y w) (fun b w => (.suspended (.first p b), w))
        fun q w => (.suspended (.both p q), w)) := by
  refine rests_proceed hx (fun a w hw => ?_) fun p w hw hp hpt => ?_
  · exact rests_proceed (hy w hw) (fun b w hw => .finished hw) fun q w hw hq hqt =>
      .suspended hw hq hqt
  · exact rests_proceed (hy w hw) (fun b w hw => .suspended hw hp hpt) fun q w hw hq hqt =>
      .suspended hw ⟨hp, hq⟩ (Nat.lt_min.mpr ⟨hpt, hqt⟩)

theorem Process.Diligent.rests {p : Process S α} (hp : p.Diligent B) (hw : w.now = t) :
    Status.Rests t (p.start n w) := by
  induction n generalizing α w with
  | zero => exact .exhausted hw
  | succ n ih =>
    cases p with
    | pure | clock | draw | fired | note => exact .finished hw
    | crash => exact .crashed hw
    | call r =>
      simp only [Process.start]
      split
      · exact .finished hw
      · next hlate => exact .suspended hw trivial (hw ▸ Nat.lt_of_not_le hlate)
    | sleepUntil u =>
      simp only [Process.start]
      split
      · exact .finished hw
      · next hlate => exact .suspended hw trivial (hw ▸ Nat.lt_of_not_le hlate)
    | iterate body s =>
      refine ih (p := .bind (body s) (afterRound body)) ⟨(hp s).1, fun x => ?_⟩ hw
      cases x with
      | inl s => exact hp
      | inr a => exact trivial
    | bind p next =>
      rw [Process.start_bind]
      exact rests_proceed (ih hp.1 hw) (fun a w hw => ih (hp.2 a) hw) fun s w hw hs ht =>
        .suspended hw ⟨hs, hp.2⟩ ht
    | abandonOn s p =>
      rw [Process.start_abandonOn]
      split
      · exact .finished hw
      · have hp : p.Diligent B := hp
        exact rests_proceed (ih hp hw) (fun a w hw => .finished hw) fun s w hw hs ht =>
          .suspended hw hs ht
    | both p q =>
      rw [Process.start_both]
      exact rests_both (ih hp.1 hw) fun w hw => ih hp.2 hw

theorem Suspended.Diligent.rests {s : Suspended B α} (hs : s.Diligent) (hw : w.now = t) :
    Status.Rests t (s.resume n w) := by
  induction s generalizing w with
  | ready p => exact Process.Diligent.rests hs hw
  | asleep u =>
    simp only [Suspended.resume]
    split
    · exact .finished hw
    · next hlate => exact .suspended hw trivial (hw ▸ Nat.lt_of_not_le hlate)
  | waiting number r ticket u =>
    simp only [Suspended.resume]
    split
    · exact .finished hw
    · next hlate => exact .suspended hw trivial (hw ▸ Nat.lt_of_not_le hlate)
  | bind p next ih =>
    rw [Suspended.resume_bind]
    exact rests_proceed (ih hs.1 hw) (fun a w hw => (hs.2 a).rests hw) fun s w hw hp ht =>
      .suspended hw ⟨hp, hs.2⟩ ht
  | abandonOn s p ih =>
    rw [Suspended.resume_abandonOn]
    split
    · exact .finished hw
    · exact rests_proceed (ih hs hw) (fun a w hw => .finished hw) fun s w hw hp ht =>
        .suspended hw hp ht
  | both p q ihp ihq =>
    rw [Suspended.resume_both]
    exact rests_both (ihp hs.1 hw) fun w hw => ihq hs.2 hw
  | first p b ih =>
    rw [Suspended.resume_first]
    exact rests_proceed (ih hs hw) (fun a w hw => .finished hw) fun s w hw hp ht =>
      .suspended hw hp ht
  | second a q ih =>
    rw [Suspended.resume_second]
    exact rests_proceed (ih hs hw) (fun b w hw => .finished hw) fun s w hw hq ht =>
      .suspended hw hq ht

end Rests

/-! ### Calls that take time -/

/-- No call is answered in the instant in which it is made. -/
def Behaviour.TakesTime (B : Behaviour S) : Prop :=
  ∀ t r s, t < Clock.timer (Clock.after t (B.start t r s).1)

/-- What is finished has made no call since there were `n`. -/
private def Idle (n : Nat) (x : Status B α × World B) : Prop :=
  ∀ a, x.1 = .finished a → x.2.calls = n

private theorem idle_proceed {n : Nat} {x : Status B α × World B}
    {done : α → World B → Status B β × World B}
    {wait : Suspended B α → World B → Status B β × World B} (hx : Idle n x)
    (hd : ∀ a w, w.calls = n → Idle n (done a w)) (hw : ∀ s w, Idle n (wait s w)) :
    Idle n (proceed x done wait) := by
  rcases x with ⟨a | s | f | _, w⟩
  · exact hd a w (hx a rfl)
  · exact hw s w
  · exact fun _ h => by cases h
  · exact fun _ h => by cases h

theorem Process.calls_eq_of_finished (hB : B.TakesTime) {n : Nat} {p : Process S α} {w : World B}
    {a : α} (h : (p.start n w).1 = .finished a) : (p.start n w).2.calls = w.calls := by
  revert a
  change Idle w.calls (p.start n w)
  induction n generalizing α w with
  | zero => exact fun _ h => by cases h
  | succ n ih =>
    have ih {α : Type} {p : Process S α} {w₁ : World B} (hw : w₁.calls = w.calls) :
        Idle w.calls (p.start n w₁) := hw ▸ ih
    cases p with
    | pure | clock | draw | fired | note | crash => exact fun _ _ => rfl
    | call r =>
      have hlate : ¬ (w.call r).1.2.2 ≤ (w.call r).2.now := Nat.not_le.mpr (hB w.now r w.state)
      simp only [start, hlate, if_false]
      exact fun _ h => by cases h
    | sleepUntil t =>
      simp only [start]
      split
      · exact fun _ _ => rfl
      · exact fun _ h => by cases h
    | iterate body s => exact ih rfl
    | bind p next =>
      rw [start_bind]
      exact idle_proceed (ih rfl) (fun a w hw => ih hw) fun _ _ _ h => by cases h
    | abandonOn s p =>
      rw [start_abandonOn]
      split
      · exact fun _ _ => rfl
      · exact idle_proceed (ih rfl) (fun a w hw _ _ => hw) fun _ _ _ h => by cases h
    | both p q =>
      rw [start_both]
      refine idle_proceed (ih rfl) (fun a w hw => ?_) fun s w => ?_
      · exact idle_proceed (ih hw) (fun b w hw _ _ => hw) fun _ _ _ h => by cases h
      · rcases q.start n w with ⟨_ | _ | _ | _, _⟩ <;> exact fun _ h => by cases h

/-! ### Enough fuel -/

/-- With enough fuel, what still has not come to an end has made `n` calls, and calls need not take
time. -/
def Settles (n : Nat) (f : Nat → Status B α × World B) : Prop :=
  ∃ enough, ∀ fuel, enough ≤ fuel → (f fuel).1 = .exhausted →
    ¬ B.TakesTime ∧ n ≤ (f fuel).2.calls

/-- More fuel changes nothing of what has come to an end. -/
def Monotonic (f : Nat → Status B α × World B) : Prop :=
  ∀ ⦃m k⦄, (f m).1 ≠ .exhausted → m ≤ k → f k = f m

namespace Settles

variable {n : Nat}

theorem of_ne {f : Nat → Status B α × World B} (h : ∀ fuel, (f (fuel + 1)).1 ≠ .exhausted) :
    Settles n f := by
  refine ⟨1, fun fuel hfuel he => ?_⟩
  obtain ⟨k, rfl⟩ : ∃ k, fuel = k + 1 := ⟨fuel - 1, by omega⟩
  exact absurd he (h k)

theorem of_succ {f g : Nat → Status B α × World B} (h : Settles n f)
    (hg : ∀ fuel, g (fuel + 1) = f fuel) : Settles n g := by
  obtain ⟨enough, h⟩ := h
  refine ⟨enough + 1, fun fuel hfuel he => ?_⟩
  obtain ⟨k, rfl⟩ : ∃ k, fuel = k + 1 := ⟨fuel - 1, by omega⟩
  rw [hg] at he ⊢
  exact h k (by omega) he

theorem of_le {f : Nat → Status B α × World B} (hB : ¬ B.TakesTime)
    (h : ∀ fuel, n ≤ (f fuel).2.calls) : Settles n f :=
  ⟨0, fun fuel _ _ => ⟨hB, h fuel⟩⟩

theorem finished {a : Nat → α} {w : Nat → World B} :
    Settles n fun fuel => (.finished (a fuel), w fuel) :=
  of_ne fun _ => nofun

theorem suspended {s : Nat → Suspended B α} {w : Nat → World B} :
    Settles n fun fuel => (.suspended (s fuel), w fuel) :=
  of_ne fun _ => nofun

theorem crashed {f : Fault} {w : Nat → World B} :
    Settles (α := α) n fun fuel => (.crashed f, w fuel) :=
  of_ne fun _ => nofun

theorem proceed {f : Nat → Status B α × World B}
    {done : Nat → α → World B → Status B β × World B}
    {wait : Nat → Suspended B α → World B → Status B β × World B} (hf : Settles n f)
    (hmono : Monotonic f)
    (hd : ∀ a w m, f m = (.finished a, w) → Settles n fun fuel => done fuel a w)
    (hw : ∀ s w m, f m = (.suspended s, w) → Settles n fun fuel => wait fuel s w) :
    Settles n fun fuel => Status.proceed (f fuel) (done fuel) (wait fuel) := by
  by_cases hend : ∃ m, (f m).1 ≠ .exhausted
  · obtain ⟨m, hm⟩ := hend
    have follow {g : Nat → Status B β × World B} (hg : Settles n g)
        (h : ∀ fuel, Status.proceed (f m) (done fuel) (wait fuel) = g fuel) :
        Settles n fun fuel => Status.proceed (f fuel) (done fuel) (wait fuel) := by
      obtain ⟨enough, hg⟩ := hg
      refine ⟨max m enough, fun fuel hfuel he => ?_⟩
      have hf : f fuel = f m := hmono hm (by omega)
      simp only [hf, h] at he ⊢
      exact hg fuel (by omega) he
    rcases hx : f m with ⟨a | s | e | _, w⟩
    · exact follow (hd a w m hx) fun fuel => by rw [hx]; rfl
    · exact follow (hw s w m hx) fun fuel => by rw [hx]; rfl
    · exact follow (g := fun _ => (.crashed e, w)) crashed fun fuel => by rw [hx]; rfl
    · exact absurd (by rw [hx]) hm
  · obtain ⟨enough, hf⟩ := hf
    refine ⟨enough, fun fuel hfuel _ => ?_⟩
    have he : (f fuel).1 = .exhausted := Classical.byContradiction fun hne => hend ⟨fuel, hne⟩
    have hn := hf fuel hfuel he
    rcases hx : f fuel with ⟨_ | _ | _ | _, w⟩
    all_goals simp only [hx] at he hn ⊢
    · cases he
    · cases he
    · cases he
    · exact hn

theorem both {f : Nat → Status B α × World B} {g : Nat → World B → Status B β × World B}
    (hf : Settles n f) (hfm : Monotonic f) (hg : ∀ w, Settles n fun fuel => g fuel w)
    (hgm : ∀ w, Monotonic fun fuel => g fuel w) :
    Settles n fun fuel => Status.proceed (f fuel)
      (fun a w => Status.proceed (g fuel w) (fun b w => (.finished (a, b), w))
        fun q w => (.suspended (.second a q), w))
      fun p w => Status.proceed (g fuel w) (fun b w => (.suspended (.first p b), w))
        fun q w => (.suspended (.both p q), w) := by
  refine proceed hf hfm (fun a w _ _ => ?_) fun p w _ _ => ?_
  · exact proceed (hg w) (hgm w) (fun _ _ _ _ => finished) fun _ _ _ _ => suspended
  · exact proceed (hg w) (hgm w) (fun _ _ _ _ => suspended) fun _ _ _ _ => suspended

end Settles

theorem Process.start_monotonic (p : Process S α) (w : World B) :
    Monotonic fun fuel => p.start fuel w :=
  fun _ _ h hmk => start_of_le h hmk

theorem Suspended.resume_monotonic (s : Suspended B α) (w : World B) :
    Monotonic fun fuel => s.resume fuel w :=
  fun _ _ h hmk => resume_of_le h hmk

/-- A diligent process can only be kept from resting by endlessly many calls. -/
theorem Process.Diligent.settles {p : Process S α} (hp : p.Diligent B) (n : Nat) (w : World B) :
    Settles n fun fuel => p.start fuel w := by
  induction p generalizing w with
  | pure | clock | draw | fired | note => exact .of_succ .finished fun _ => rfl
  | crash => exact .of_succ .crashed fun _ => rfl
  | call | sleepUntil =>
    refine .of_ne fun fuel => ?_
    simp only [Process.start]
    split <;> simp
  | bind p next ihp ihnext =>
    refine Settles.of_succ ?_ fun fuel => start_bind fuel w p next
    exact .proceed (ihp hp.1 w) (p.start_monotonic w) (fun a w _ _ => ihnext a (hp.2 a) w)
      fun _ _ _ _ => .suspended
  | @iterate τ _ body s ih =>
    have round (w : World B) (s : τ) (hnext : ∀ s₁ w₁, w.calls < w₁.calls →
        (∃ m, (body s).start m w = (.finished (.inl s₁), w₁)) →
        Settles n fun fuel => (Process.iterate body s₁).start fuel w₁) :
        Settles n fun fuel => (Process.iterate body s).start fuel w := by
      refine Settles.of_succ (.of_succ ?_ fun fuel => start_bind fuel w (body s) _) fun _ => rfl
      refine .proceed (ih s (hp s).1 w) ((body s).start_monotonic w) (fun x w₁ m hx => ?_)
        fun _ _ _ _ => .suspended
      cases x with
      | inr a => exact .of_succ .finished fun _ => rfl
      | inl s₁ =>
        have hround := (hp s).2 w _ _ (.start m)
        rw [show (body s).start m w = _ from hx] at hround
        exact hnext s₁ w₁ (hround rfl) ⟨m, hx⟩
    by_cases hB : B.TakesTime
    · refine round w s fun s₁ w₁ hlt hround => ?_
      obtain ⟨m, hm⟩ := hround
      have hsame := calls_eq_of_finished hB (congrArg Prod.fst hm)
      rw [hm] at hsame
      exact absurd hsame (Nat.ne_of_gt hlt)
    · -- every round makes a call, so that only so many rounds can follow before there are `n`
      induction hk : n - w.calls using Nat.strongRecOn generalizing s w with
      | ind k ihk =>
        rcases Nat.lt_or_ge w.calls n with hlt | hge
        · refine round w s fun s₁ w₁ hmore _ => ?_
          exact ihk (n - w₁.calls) (by omega) s₁ hp w₁ rfl
        · exact .of_le hB fun fuel => Nat.le_trans hge (calls_le_start fuel _ w)
  | abandonOn s p ih =>
    refine Settles.of_succ ?_ fun fuel => start_abandonOn fuel w s p
    split
    · exact .finished
    · exact .proceed (ih hp w) (p.start_monotonic w) (fun _ _ _ _ => .finished)
        fun _ _ _ _ => .suspended
  | both p q ihp ihq =>
    refine Settles.of_succ ?_ fun fuel => start_both fuel w p q
    exact .both (ihp hp.1 w) (p.start_monotonic w) (ihq hp.2) q.start_monotonic

theorem Suspended.Diligent.settles {s : Suspended B α} (hs : s.Diligent) (n : Nat) (w : World B) :
    Settles n fun fuel => s.resume fuel w := by
  induction s generalizing w with
  | ready p => exact Process.Diligent.settles hs n w
  | asleep | waiting =>
    simp only [Suspended.resume]
    split
    · exact .finished
    · exact .suspended
  | bind p next ih =>
    simp only [Suspended.resume_bind]
    exact .proceed (ih hs.1 w) (p.resume_monotonic w) (fun a w _ _ => (hs.2 a).settles n w)
      fun _ _ _ _ => .suspended
  | abandonOn s p ih =>
    simp only [Suspended.resume_abandonOn]
    split
    · exact .finished
    · exact .proceed (ih hs w) (p.resume_monotonic w) (fun _ _ _ _ => .finished)
        fun _ _ _ _ => .suspended
  | both p q ihp ihq =>
    simp only [Suspended.resume_both]
    exact .both (ihp hs.1 w) (p.resume_monotonic w) (ihq hs.2) q.resume_monotonic
  | first p b ih =>
    simp only [Suspended.resume_first]
    exact .proceed (ih hs w) (p.resume_monotonic w) (fun _ _ _ _ => .finished)
      fun _ _ _ _ => .suspended
  | second a q ih =>
    simp only [Suspended.resume_second]
    exact .proceed (ih hs w) (q.resume_monotonic w) (fun _ _ _ _ => .finished)
      fun _ _ _ _ => .suspended

/-! ### Running up to a bound -/

namespace Suspended

variable {fuel rounds bound : Nat} {s : Suspended B α} {w w' : World B} {st : Status B α}

theorem runUntil_now (h : s.runUntil fuel (some bound) rounds w = (st, w')) :
    w.now ≤ w'.now ∧ (w.now < bound → w'.now < bound) ∧
      (bound ≤ w.now → w' = w ∧ (st = .exhausted ∨ st = .suspended s)) := by
  induction rounds generalizing s w with
  | zero =>
    cases h
    exact ⟨Nat.le_refl _, id, fun _ => ⟨rfl, .inl rfl⟩⟩
  | succ rounds ih =>
    simp only [runUntil, within, decide_eq_true_eq] at h
    split at h
    · next hnow =>
      have hsame : (s.resume fuel w).2.now = w.now := (s.resume_meanwhile fuel w).1
      have rest (hw' : w'.now = w.now) : w.now ≤ w'.now ∧ (w.now < bound → w'.now < bound) ∧
          (bound ≤ w.now → w' = w ∧ (st = .exhausted ∨ st = .suspended s)) := by
        refine ⟨Nat.le_of_eq hw'.symm, fun _ => hw' ▸ hnow, fun hle => ?_⟩
        exact absurd hnow (Nat.not_lt.mpr hle)
      split at h
      · next p w₁ hp =>
        rw [hp] at hsame
        split at h
        · next hwake =>
          obtain ⟨hle, hlt, -⟩ := ih h
          have hw₁ : (w₁.advance p.wake).now = max w.now p.wake := congrArg (max · p.wake) hsame
          refine ⟨by omega, fun _ => hlt (by omega), fun hle => by omega⟩
        · cases h
          exact rest hsame
      all_goals
        next hp =>
        rw [hp] at hsame
        cases h
        exact rest hsame
    · next hnow =>
      cases h
      exact ⟨Nat.le_refl _, fun h => absurd h hnow, fun _ => ⟨rfl, .inr rfl⟩⟩

theorem runUntil_succ (h : w.now < bound) : s.runUntil fuel (some bound) (rounds + 1) w =
    proceed (s.resume fuel w) (fun a w => (.finished a, w)) fun p w =>
      if p.wake < bound then p.runUntil fuel (some bound) rounds (w.advance p.wake)
      else (.suspended p, w) := by
  simp only [runUntil, within, h, decide_true, if_true, decide_eq_true_eq]
  rcases s.resume fuel w with ⟨_ | _ | _ | _, _⟩ <;> rfl

/-- With enough fuel, the run up to the bound always ends like this. -/
def Ends (s : Suspended B α) (bound : Nat) (w : World B) (st : Status B α) (w' : World B) : Prop :=
  st ≠ .exhausted ∧ ∃ enough, ∀ fuel rounds, enough ≤ fuel → enough ≤ rounds →
    s.runUntil fuel (some bound) rounds w = (st, w')

/-- Whatever the fuel, the run goes on at the instant `u`, and there is no bound on its calls. -/
def Stalls (s : Suspended B α) (bound : Nat) (w : World B) (u : Nat) : Prop :=
  ∀ n, ∃ enough, ∀ fuel rounds, enough ≤ fuel → enough ≤ rounds →
    ∃ w', s.runUntil fuel (some bound) rounds w = (.exhausted, w') ∧ w'.now = u ∧ n ≤ w'.calls

section

variable {p : Suspended B α} {w₁ : World B} {m u : Nat}

theorem Ends.of_step (hst : st ≠ .exhausted) (h : ∀ fuel rounds, m ≤ fuel →
    s.runUntil fuel (some bound) (rounds + 1) w = (st, w')) : s.Ends bound w st w' := by
  refine ⟨hst, m + 1, fun fuel rounds hfuel hrounds => ?_⟩
  obtain ⟨k, rfl⟩ : ∃ k, rounds = k + 1 := ⟨rounds - 1, by omega⟩
  exact h fuel k (by omega)

theorem Ends.of_later (hp : p.Ends bound w₁ st w') (h : ∀ fuel rounds, m ≤ fuel →
    s.runUntil fuel (some bound) (rounds + 1) w = p.runUntil fuel (some bound) rounds w₁) :
    s.Ends bound w st w' := by
  obtain ⟨hst, enough, hrun⟩ := hp
  refine ⟨hst, max m (enough + 1), fun fuel rounds hfuel hrounds => ?_⟩
  obtain ⟨k, rfl⟩ : ∃ k, rounds = k + 1 := ⟨rounds - 1, by omega⟩
  rw [h fuel k (by omega)]
  exact hrun fuel k (by omega) (by omega)

theorem Stalls.of_later (hp : p.Stalls bound w₁ u) (h : ∀ fuel rounds, m ≤ fuel →
    s.runUntil fuel (some bound) (rounds + 1) w = p.runUntil fuel (some bound) rounds w₁) :
    s.Stalls bound w u := by
  intro n
  obtain ⟨enough, hrun⟩ := hp n
  refine ⟨max m (enough + 1), fun fuel rounds hfuel hrounds => ?_⟩
  obtain ⟨k, rfl⟩ : ∃ k, rounds = k + 1 := ⟨rounds - 1, by omega⟩
  rw [h fuel k (by omega)]
  exact hrun fuel k (by omega) (by omega)

theorem Diligent.stalls (hs : s.Diligent) (hnow : w.now < bound)
    (hend : ∀ m, (s.resume m w).1 = .exhausted) :
    ¬ B.TakesTime ∧ s.Stalls bound w w.now := by
  refine ⟨?_, fun n => ?_⟩
  · obtain ⟨enough, hsettles⟩ := hs.settles 0 w
    exact (hsettles enough (Nat.le_refl _) (hend enough)).1
  · obtain ⟨enough, hsettles⟩ := hs.settles n w
    refine ⟨enough + 1, fun fuel rounds hfuel hrounds => ?_⟩
    obtain ⟨k, rfl⟩ : ∃ k, rounds = k + 1 := ⟨rounds - 1, by omega⟩
    have he : s.resume fuel w = (.exhausted, (s.resume fuel w).2) :=
      Prod.ext (hend fuel) rfl
    refine ⟨(s.resume fuel w).2, ?_, (s.resume_meanwhile fuel w).1,
      (hsettles fuel (by omega) (hend fuel)).2⟩
    rw [runUntil_succ hnow, he]
    rfl

/-- A diligent process comes to rest, or it stalls before the bound. -/
theorem Diligent.ends_or_stalls (hs : s.Diligent) (bound : Nat) (w : World B) :
    (∃ st w', s.Ends bound w st w' ∧ ∀ p, st = .suspended p → p.Diligent) ∨
      ¬ B.TakesTime ∧ ∃ u < bound, s.Stalls bound w u := by
  -- each time the process is woken it is later, so the time up to the bound is used up
  induction hk : bound - w.now using Nat.strongRecOn generalizing s w with
  | ind k ih =>
    rcases Nat.lt_or_ge w.now bound with hnow | hnow
    · by_cases hend : ∃ m, (s.resume m w).1 ≠ .exhausted
      · obtain ⟨m, hm⟩ := hend
        have step (fuel rounds : Nat) (hfuel : m ≤ fuel) :
            s.runUntil fuel (some bound) (rounds + 1) w =
              proceed (s.resume m w) (fun a w => (.finished a, w)) fun p w =>
                if p.wake < bound then p.runUntil fuel (some bound) rounds (w.advance p.wake)
                else (.suspended p, w) := by
          rw [runUntil_succ hnow, resume_of_le hm hfuel]
        obtain ⟨hw₁, hrests⟩ := hs.rests (n := m) (w := w) rfl
        rcases hx : s.resume m w with ⟨a | p | f | _, w₁⟩
        all_goals simp only [hx] at hm hw₁ hrests step
        · exact .inl ⟨_, w₁, .of_step hm step, fun _ h => by cases h⟩
        · obtain ⟨hp, hlater⟩ := hrests p rfl
          simp only [proceed] at step
          split at step
          · have hlt : bound - (w₁.advance p.wake).now < k := by
              have hnext : (w₁.advance p.wake).now = max w₁.now p.wake := rfl
              omega
            rcases ih _ hlt hp _ rfl with ⟨st, w', hends, hdiligent⟩ | ⟨hB, u, hu, hstalls⟩
            · exact .inl ⟨st, w', hends.of_later step, hdiligent⟩
            · exact .inr ⟨hB, u, hu, hstalls.of_later step⟩
          · refine .inl ⟨_, w₁, .of_step hm step, ?_⟩
            rintro _ ⟨⟩
            exact hp
        · exact .inl ⟨_, w₁, .of_step hm step, fun _ h => by cases h⟩
        · exact absurd rfl hm
      · obtain ⟨hB, hstalls⟩ := hs.stalls hnow fun m =>
          Classical.byContradiction fun hne => hend ⟨m, hne⟩
        exact .inr ⟨hB, w.now, hnow, hstalls⟩
    · refine .inl ⟨.suspended s, w, .of_step (m := 0) (by simp) fun fuel rounds _ => ?_, ?_⟩
      · simp only [runUntil, within, Nat.not_lt.mpr hnow, decide_false, Bool.false_eq_true,
          if_false]
      · rintro _ ⟨⟩
        exact hs

end

end Suspended
end NodeCoverage
