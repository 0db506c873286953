import NodeCoverage.Proofs.Process.Fuel
/-!
# How far a process can come

A process is started, has to wait, and is resumed when something in its surroundings has moved on.
What can happen in between is a relation on worlds, which may depend on the timer that the process
waits for. `Process.Reaches` collects everything a process can come to under such a relation, with
any amount of fuel in each part. The parts of a sequence, the rounds of an iteration and the inside
of an abandoned process are again processes that reach something, which is what the `cases` lemmas
say. They are the only place where the executor is unfolded.
-/

namespace NodeCoverage

open Process (afterRound)

variable {S : Service} {B : Behaviour S} {α β σ : Type}

/-- What can happen to the world while a process waits for its next timer. -/
abbrev Surroundings (B : Behaviour S) := Nat → World B → World B → Prop

namespace Surroundings

/-- The same, as long as the signal has not fired. -/
def barring (E : Surroundings B) (s : Signal) : Surroundings B :=
  fun t w w' => E t w w' ∧ w'.fired s = false

/-- The same, as long as every world is one of these. -/
def keeping (E : Surroundings B) (I : World B → Prop) : Surroundings B :=
  fun t w w' => E t w w' ∧ I w'

def Still (E : Surroundings B) (t : Nat) (w w' : World B) : Prop :=
  w' = w ∨ E t w w'

theorem Still.of_barring {E : Surroundings B} {s : Signal} {t : Nat} {w w' : World B}
    (h : (E.barring s).Still t w w') : E.Still t w w' :=
  h.imp_right And.left

def Transitive (E : Surroundings B) : Prop :=
  ∀ ⦃t w₁ w₂ w₃⦄, E t w₁ w₂ → E t w₂ w₃ → E t w₁ w₃

theorem Transitive.barring {E : Surroundings B} (h : E.Transitive) (s : Signal) :
    (E.barring s).Transitive :=
  fun _ _ _ _ h₁ h₂ => ⟨h h₁.1 h₂.1, h₂.2⟩

theorem Transitive.keeping {E : Surroundings B} (h : E.Transitive) (I : World B → Prop) :
    (E.keeping I).Transitive :=
  fun _ _ _ _ h₁ h₂ => ⟨h h₁.1 h₂.1, h₂.2⟩

theorem Transitive.still {E : Surroundings B} (h : E.Transitive) {t : Nat} {w₁ w₂ w₃ : World B}
    (h₁ : E.Still t w₁ w₂) (h₂ : E t w₂ w₃) : E t w₁ w₃ := by
  rcases h₁ with rfl | h₁
  · exact h₂
  · exact h h₁ h₂

end Surroundings

theorem Suspended.within_max {bound : Option Nat} {t u : Nat} (ht : within bound t = true)
    (hu : within bound u = true) : within bound (max t u) = true := by
  cases bound with
  | none => rfl
  | some b =>
    simp only [within, decide_eq_true_eq] at *
    omega

theorem Suspended.within_of_le {bound : Option Nat} {t u : Nat} (htu : t ≤ u)
    (hu : within bound u = true) : within bound t = true := by
  cases bound with
  | none => rfl
  | some b =>
    simp only [within, decide_eq_true_eq] at *
    omega

namespace Process

/-- What a process that is begun in `w` can have come to, and the world it is then in. -/
inductive Reaches (E : Surroundings B) (p : Process S α) (w : World B) :
    Status B α → World B → Prop
  | start (fuel : Nat) : Reaches E p w (p.start fuel w).1 (p.start fuel w).2
  | resume (fuel : Nat) {s : Suspended B α} {w₁ w₂ : World B} :
    Reaches E p w (.suspended s) w₁ → E s.wake w₁ w₂ →
      Reaches E p w (s.resume fuel w₂).1 (s.resume fuel w₂).2

namespace Reaches

variable {E F : Surroundings B} {p : Process S α} {w w' : World B} {st : Status B α}

theorem mono (hEF : ∀ {t w₁ w₂}, E t w₁ w₂ → F t w₁ w₂) (h : Reaches E p w st w') :
    Reaches F p w st w' := by
  induction h with
  | start fuel => exact .start fuel
  | resume fuel _ he ih => exact .resume fuel ih (hEF he)

/-- Out of fuel before the first step. -/
theorem unbegun : Reaches E p w .exhausted w :=
  .start 0

end Reaches

/-! ### Single steps -/

section Steps

variable {E : Surroundings B} {w w' : World B}

theorem Reaches.pure_cases {a : α} {st : Status B α} (h : Reaches E (.pure a) w st w') :
    w' = w ∧ (st = .finished a ∨ st = .exhausted) := by
  induction h with
  | start fuel => cases fuel <;> simp [Process.start]
  | resume fuel _ _ ih => simp at ih

theorem Reaches.clock_cases {st : Status B Nat} (h : Reaches E .clock w st w') :
    w' = w ∧ (st = .finished w.now ∨ st = .exhausted) := by
  induction h with
  | start fuel => cases fuel <;> simp [Process.start]
  | resume fuel _ _ ih => simp at ih

theorem Reaches.draw_cases {st : Status B Rat} (h : Reaches E .draw w st w') :
    w' = w ∧ (st = .finished w.draw ∨ st = .exhausted) := by
  induction h with
  | start fuel => cases fuel <;> simp [Process.start]
  | resume fuel _ _ ih => simp at ih

theorem Reaches.fired_cases {s : Signal} {st : Status B Bool} (h : Reaches E (.fired s) w st w') :
    w' = w ∧ (st = .finished (w.fired s) ∨ st = .exhausted) := by
  induction h with
  | start fuel => cases fuel <;> simp [Process.start]
  | resume fuel _ _ ih => simp at ih

theorem Reaches.note_cases {e : S.Entry} {st : Status B Unit} (h : Reaches E (.note e) w st w') :
    (w' = w ∧ st = .exhausted) ∨ w' = w.note e ∧ st = .finished () := by
  induction h with
  | start fuel => cases fuel <;> simp [Process.start]
  | resume fuel _ _ ih => simp at ih

theorem Reaches.crash_cases {f : Fault} {st : Status B α} (h : Reaches E (.crash f) w st w') :
    w' = w ∧ (st = .crashed f ∨ st = .exhausted) := by
  induction h with
  | start fuel => cases fuel <;> simp [Process.start]
  | resume fuel _ _ ih => simp at ih

theorem Reaches.call_cases {r : S.Request} {st : Status B (S.Reply r)} (hE : E.Transitive)
    (h : Reaches E (.call r) w st w') :
    (st = .exhausted ∧ w' = w) ∨
      (st = .suspended (.waiting (w.call r).1.1 r (w.call r).1.2.1 (w.call r).1.2.2) ∧
        E.Still (w.call r).1.2.2 (w.call r).2 w') ∨
      ∃ w₁, E.Still (w.call r).1.2.2 (w.call r).2 w₁ ∧ (w.call r).1.2.2 ≤ w₁.now ∧
        st = .finished (w₁.answer (w.call r).1.1 r (w.call r).1.2.1).1 ∧
        w' = (w₁.answer (w.call r).1.1 r (w.call r).1.2.1).2 := by
  induction h with
  | start fuel =>
    cases fuel with
    | zero => simp [Process.start]
    | succ n =>
      by_cases ht : (w.call r).1.2.2 ≤ (w.call r).2.now
      · exact .inr (.inr ⟨(w.call r).2, .inl rfl, ht, by simp [Process.start, ht]⟩)
      · exact .inr (.inl (by simp [Process.start, ht, Surroundings.Still]))
  | resume fuel _ he ih =>
    rename_i s w₁ w₂ _
    rcases ih with ⟨hs, -⟩ | ⟨hs, hstill⟩ | ⟨_, _, _, hs, _⟩
    · cases hs
    · cases hs
      have hmove : E.Still (w.call r).1.2.2 (w.call r).2 w₂ := .inr (hE.still hstill he)
      by_cases ht : (w.call r).1.2.2 ≤ w₂.now
      · exact .inr (.inr ⟨w₂, hmove, ht, by simp [Suspended.resume, ht]⟩)
      · exact .inr (.inl (by simpa [Suspended.resume, ht] using hmove))
    · cases hs

theorem Reaches.sleepUntil_cases {t : Nat} {st : Status B Unit} (hE : E.Transitive)
    (h : Reaches E (.sleepUntil t) w st w') :
    (st = .exhausted ∧ w' = w) ∨
      (st = .suspended (.asleep (Clock.timer t)) ∧ E.Still (Clock.timer t) w w') ∨
      st = .finished () ∧ E.Still (Clock.timer t) w w' ∧ Clock.timer t ≤ w'.now := by
  induction h with
  | start fuel =>
    cases fuel with
    | zero => simp [Process.start]
    | succ n =>
      by_cases ht : Clock.timer t ≤ w.now <;> simp [Process.start, ht, Surroundings.Still]
  | resume fuel _ he ih =>
    rename_i s w₁ w₂ _
    rcases ih with ⟨hs, -⟩ | ⟨hs, hstill⟩ | ⟨hs, -⟩
    · cases hs
    · cases hs
      have hmove : E.Still (Clock.timer t) w w₂ := .inr (hE.still hstill he)
      by_cases ht : Clock.timer t ≤ w₂.now
      · exact .inr (.inr (by simpa [Suspended.resume, ht] using hmove))
      · exact .inr (.inl (by simpa [Suspended.resume, ht] using hmove))
    · cases hs

end Steps

/-! ### Sequences -/

/-- How the first part of a sequence stands when the sequence has not come past it. -/
inductive BindEnd (next : α → Process S β) : Status B α → Status B β → Prop
  | suspended (s : Suspended B α) : BindEnd next (.suspended s) (.suspended (.bind s next))
  | crashed (f : Fault) : BindEnd next (.crashed f) (.crashed f)
  | exhausted : BindEnd next .exhausted .exhausted

variable {E : Surroundings B} {w w' : World B}

theorem Reaches.bind_cases {p : Process S α} {next : α → Process S β} {st : Status B β}
    (h : Reaches E (.bind p next) w st w') :
    (∃ st₁, Reaches E p w st₁ w' ∧ BindEnd next st₁ st) ∨
      ∃ a w₁, Reaches E p w (.finished a) w₁ ∧ Reaches E (next a) w₁ st w' := by
  induction h with
  | start fuel =>
    cases fuel with
    | zero => exact .inl ⟨.exhausted, by simpa [Process.start] using Reaches.unbegun, .exhausted⟩
    | succ n =>
      have hp := Reaches.start (E := E) (p := p) (w := w) n
      rcases hn : p.start n w with ⟨a | s | f | _, w₁⟩
      · simp only [hn] at hp
        refine .inr ⟨a, w₁, hp, ?_⟩
        simpa [Process.start, hn] using Reaches.start (E := E) (p := next a) (w := w₁) n
      all_goals
        simp only [hn] at hp
        simp only [Process.start, hn]
        exact .inl ⟨_, hp, by constructor⟩
  | resume fuel _ he ih =>
    rename_i s w₁ w₂ _
    rcases ih with ⟨st₁, hp, hend⟩ | ⟨a, w₃, hp, hnext⟩
    · cases hend with
      | suspended t =>
        have hp₂ := hp.resume fuel he
        rcases hn : t.resume fuel w₂ with ⟨a | s | f | _, w₄⟩
        · simp only [hn] at hp₂
          refine .inr ⟨a, w₄, hp₂, ?_⟩
          simpa [Suspended.resume, hn] using Reaches.start (E := E) (p := next a) (w := w₄) fuel
        all_goals
          simp only [hn] at hp₂
          simp only [Suspended.resume, hn]
          exact .inl ⟨_, hp₂, by constructor⟩
    · exact .inr ⟨a, w₃, hp, hnext.resume fuel he⟩

theorem Reaches.clock_bind_cases {next : Nat → Process S β} {st : Status B β}
    (h : Reaches E (Process.clock >>= next) w st w') :
    (st = .exhausted ∧ w' = w) ∨ Reaches E (next w.now) w st w' := by
  rcases h.bind_cases with ⟨_, hclock, hend⟩ | ⟨_, _, hclock, hnext⟩
  · obtain ⟨rfl, rfl | rfl⟩ := hclock.clock_cases
    · cases hend
    · cases hend
      exact .inl ⟨rfl, rfl⟩
  · obtain ⟨rfl, hnow | hnow⟩ := hclock.clock_cases
    · cases hnow
      exact .inr hnext
    · cases hnow

private theorem Reaches.bind_proceed {p : Process S α} {next : α → Process S β} {m : Nat}
    {st : Status B α} {w₁ : World B} (h : Reaches E p w st w₁) :
    let r := Status.proceed (st, w₁) (fun a w => (next a).start m w)
      fun s w => (.suspended (.bind s next), w)
    r.1 ≠ .exhausted → Reaches E (.bind p next) w r.1 r.2 := by
  intro r hr
  -- the fuel that is enough for the first part and for `m` steps of the second
  induction h with
  | start fuel =>
    have hs := Reaches.start (E := E) (p := .bind p next) (w := w) (max fuel m + 1)
    rw [start_bind] at hs
    rwa [Status.proceed_eq (fun h => start_of_le h (Nat.le_max_left ..))
      (fun a w h => start_of_le h (Nat.le_max_right ..)) (fun _ _ _ => rfl) hr] at hs
  | resume fuel _ he ih =>
    rename_i s w₁ w₂ _
    have hs : Reaches E (.bind p next) w (.suspended (.bind s next)) w₁ := ih nofun
    have hs := hs.resume (max fuel m) he
    rw [Suspended.resume_bind] at hs
    rwa [Status.proceed_eq (fun h => Suspended.resume_of_le h (Nat.le_max_left ..))
      (fun a w h => start_of_le h (Nat.le_max_right ..)) (fun _ _ _ => rfl) hr] at hs

theorem Reaches.bind {p : Process S α} {next : α → Process S β} {a : α} {w₁ : World B}
    {st : Status B β} (h₁ : Reaches E p w (.finished a) w₁) (h₂ : Reaches E (next a) w₁ st w')
    (hst : st ≠ .exhausted) : Reaches E (.bind p next) w st w' := by
  induction h₂ with
  | start fuel => exact h₁.bind_proceed hst
  | resume fuel _ he ih => exact (ih (by simp)).resume fuel he

theorem Reaches.bind_first {p : Process S α} {next : α → Process S β} {st₁ : Status B α}
    {st : Status B β} (h : Reaches E p w st₁ w') (hend : BindEnd next st₁ st)
    (hst : st ≠ .exhausted) : Reaches E (.bind p next) w st w' := by
  cases hend with
  | suspended | crashed => exact h.bind_proceed (m := 0) nofun
  | exhausted => exact absurd rfl hst

/-! ### Iterations -/

theorem Reaches.iterate {body : σ → Process S (σ ⊕ α)} {s : σ} {st : Status B α}
    (h : Reaches E (.bind (body s) (afterRound body)) w st w') :
    Reaches E (.iterate body s) w st w' := by
  induction h with
  | start fuel => exact .start (fuel + 1)
  | resume fuel _ he ih => exact ih.resume fuel he

/-- Rounds of an iteration that were carried through and did not end it. -/
inductive Rounds (E : Surroundings B) (body : σ → Process S (σ ⊕ α)) (s : σ) (w : World B) :
    σ → World B → Prop
  | none : Rounds E body s w s w
  | next {s₁ s₂ : σ} {w₁ w₂ : World B} : Rounds E body s w s₁ w₁ →
    Reaches E (body s₁) w₁ (.finished (.inl s₂)) w₂ → Rounds E body s w s₂ w₂

theorem Rounds.trans {body : σ → Process S (σ ⊕ α)} {s₁ s₂ s₃ : σ} {w₁ w₂ w₃ : World B}
    (h₁ : Rounds E body s₁ w₁ s₂ w₂) (h₂ : Rounds E body s₂ w₂ s₃ w₃) :
    Rounds E body s₁ w₁ s₃ w₃ := by
  induction h₂ with
  | none => exact h₁
  | next _ hb ih => exact ih.next hb

/-- How the last round stands when the iteration does. -/
inductive RoundEnd (body : σ → Process S (σ ⊕ α)) : Status B (σ ⊕ α) → Status B α → Prop
  | finished (a : α) : RoundEnd body (.finished (.inr a)) (.finished a)
  | suspended (s : Suspended B (σ ⊕ α)) :
    RoundEnd body (.suspended s) (.suspended (.bind s (afterRound body)))
  | crashed (f : Fault) : RoundEnd body (.crashed f) (.crashed f)
  | exhausted (st : Status B (σ ⊕ α)) : RoundEnd body st .exhausted

/-- The iteration stands at the end of some rounds, or in the round after them. -/
private def InRound (E : Surroundings B) (body : σ → Process S (σ ⊕ α)) (s : σ) (w : World B)
    (st : Status B α) (w' : World B) : Prop :=
  ∃ s₁ w₁ st₁, Rounds E body s w s₁ w₁ ∧ Reaches E (body s₁) w₁ st₁ w' ∧ RoundEnd body st₁ st

private theorem InRound.after {body : σ → Process S (σ ⊕ α)} {s₁ s₂ : σ} {w₁ w₂ : World B}
    {st : Status B α} (h₁ : Rounds E body s₁ w₁ s₂ w₂) (h₂ : InRound E body s₂ w₂ st w') :
    InRound E body s₁ w₁ st w' := by
  obtain ⟨s₃, w₃, st₃, hr, hb, hend⟩ := h₂
  exact ⟨s₃, w₃, st₃, h₁.trans hr, hb, hend⟩

/-- What follows a round that was carried through, where `iterate` is known for less fuel. -/
private theorem inRound_afterRound {body : σ → Process S (σ ⊕ α)} {s₁ : σ} {w₁ w₂ : World B}
    {x : σ ⊕ α} {n : Nat} (hb : Reaches E (body s₁) w₁ (.finished x) w₂)
    (hnext : ∀ s₂, InRound E body s₂ w₂ ((Process.iterate body s₂).start n w₂).1
      ((Process.iterate body s₂).start n w₂).2) :
    InRound E body s₁ w₁ ((afterRound body x).start n w₂).1 ((afterRound body x).start n w₂).2 := by
  cases x with
  | inl s₂ => exact (hnext s₂).after (.next .none hb)
  | inr a =>
    cases n with
    | zero => exact ⟨s₁, w₁, _, .none, by simpa [Process.start] using hb, .exhausted _⟩
    | succ m => exact ⟨s₁, w₁, _, .none, by simpa [Process.start, afterRound] using hb, .finished a⟩

private theorem inRound_start (body : σ → Process S (σ ⊕ α)) (n : Nat) (s : σ) (w : World B) :
    InRound E body s w ((Process.iterate body s).start n w).1
      ((Process.iterate body s).start n w).2 := by
  induction n using Nat.strongRecOn generalizing s w with
  | ind n ih =>
    match n with
    | 0 => exact ⟨s, w, _, .none, by simpa [Process.start] using Reaches.unbegun, .exhausted _⟩
    | 1 => exact ⟨s, w, _, .none, by simpa [Process.start] using Reaches.unbegun, .exhausted _⟩
    | m + 2 =>
      have hb := Reaches.start (E := E) (p := body s) (w := w) m
      rcases hm : (body s).start m w with ⟨x | t | f | _, w₁⟩
      · simp only [hm] at hb
        simp only [Process.start, hm]
        exact inRound_afterRound hb fun s₂ => ih m (by omega) s₂ w₁
      all_goals
        simp only [hm] at hb
        simp only [Process.start, hm]
        exact ⟨s, w, _, .none, hb, by constructor⟩

theorem Reaches.iterate_cases {body : σ → Process S (σ ⊕ α)} {s : σ} {st : Status B α}
    (h : Reaches E (.iterate body s) w st w') :
    ∃ s₁ w₁ st₁, Rounds E body s w s₁ w₁ ∧ Reaches E (body s₁) w₁ st₁ w' ∧
      RoundEnd body st₁ st := by
  induction h with
  | start fuel => exact inRound_start body fuel s w
  | resume fuel _ he ih =>
    rename_i s' w₁ w₂ _
    obtain ⟨s₁, w₃, st₁, hr, hb, hend⟩ := ih
    cases hend with
    | suspended t =>
      have hb₂ := hb.resume fuel he
      rcases hn : t.resume fuel w₂ with ⟨x | t' | f | _, w₄⟩
      · simp only [hn] at hb₂
        simp only [Suspended.resume, hn]
        have hin := inRound_afterRound hb₂ fun s₂ => inRound_start body fuel s₂ w₄
        exact hin.after hr
      all_goals
        simp only [hn] at hb₂
        simp only [Suspended.resume, hn]
        exact ⟨s₁, w₃, _, hr, hb₂, by constructor⟩

/-! ### Abandoned processes -/

/-- How a process stands that may be abandoned and has not been. -/
inductive InsideEnd (s : Signal) : Status B α → Status B (Option α) → Prop
  | finished (a : α) : InsideEnd s (.finished a) (.finished (some a))
  | suspended (t : Suspended B α) : InsideEnd s (.suspended t) (.suspended (.abandonOn s t))
  | crashed (f : Fault) : InsideEnd s (.crashed f) (.crashed f)
  | exhausted : InsideEnd s .exhausted .exhausted

theorem Reaches.abandonOn_cases {s : Signal} {p : Process S α} {st : Status B (Option α)}
    (h : Reaches E (.abandonOn s p) w st w') :
    (st = .exhausted ∧ w' = w) ∨
      (st = .finished none ∧ w' = w ∧ w.fired s = true) ∨
      w.fired s = false ∧
        ((∃ st₁, Reaches (E.barring s) p w st₁ w' ∧ InsideEnd s st₁ st) ∨
          ∃ t w₁, st = .finished none ∧ Reaches (E.barring s) p w (.suspended t) w₁ ∧
            E t.wake w₁ w' ∧ w'.fired s = true) := by
  induction h with
  | start fuel =>
    cases fuel with
    | zero => exact .inl (by simp [Process.start])
    | succ n =>
      cases hf : w.fired s with
      | true => exact .inr (.inl (by simp [Process.start, hf]))
      | false =>
        have hp := Reaches.start (E := E.barring s) (p := p) (w := w) n
        rcases hn : p.start n w with ⟨a | t | f | _, w₁⟩
        all_goals
          simp only [hn] at hp
          simp only [Process.start, hf, hn]
          exact .inr (.inr ⟨trivial, .inl ⟨_, hp, by constructor⟩⟩)
  | resume fuel _ he ih =>
    rename_i s' w₁ w₂ _
    rcases ih with ⟨hs, -⟩ | ⟨hs, -⟩ | ⟨hw, ⟨st₁, hp, hend⟩ | ⟨_, _, hs, -⟩⟩
    · cases hs
    · cases hs
    · cases hend with
      | suspended t =>
        refine .inr (.inr ⟨hw, ?_⟩)
        cases hf : w₂.fired s with
        | true => exact .inr ⟨t, w₁, by simpa [Suspended.resume, hf] using ⟨hp, he⟩⟩
        | false =>
          have hp₂ := hp.resume fuel ⟨he, hf⟩
          rcases hn : t.resume fuel w₂ with ⟨a | t' | f | _, w₄⟩
          all_goals
            simp only [hn] at hp₂
            simp only [Suspended.resume, hf, hn]
            exact .inl ⟨_, hp₂, by constructor⟩
    · cases hs

/-! ### Running up to a bound -/


/-- Whatever the process comes to when `s` is resumed in `w'` is something it reaches. -/
def Awaits (E : Surroundings B) (p : Process S α) (w : World B) (s : Suspended B α)
    (w' : World B) : Prop :=
  ∀ fuel, Reaches E p w (s.resume fuel w').1 (s.resume fuel w').2

theorem Awaits.ready {p : Process S α} : Awaits E p w (.ready p) w :=
  fun fuel => .start fuel

theorem Reaches.awaits {p : Process S α} {s : Suspended B α}
    (h : Reaches E p w (.suspended s) w') {w₂ : World B} (he : E s.wake w' w₂) :
    Awaits E p w s w₂ :=
  fun fuel => h.resume fuel he

/-- The process was not woken, or it has come to its end before the bound, or its next timer is
not before the bound. -/
theorem Awaits.runUntil_cases {p : Process S α} {s : Suspended B α} {fuel rounds : Nat}
    {bound : Option Nat} {st : Status B α} {w₁ : World B} (h : Awaits E p w s w₁)
    (hE : ∀ t w, E t w (w.advance t)) (hr : s.runUntil fuel bound rounds w₁ = (st, w')) :
    st = .exhausted ∨
      (st = .suspended s ∧ w' = w₁ ∧ Suspended.within bound w₁.now = false) ∨
      Reaches E p w st w' ∧ Suspended.within bound w'.now = true ∧
        ∀ t, st = .suspended t → Suspended.within bound t.wake = false := by
  induction rounds generalizing s w₁ with
  | zero =>
    simp only [Suspended.runUntil, Prod.mk.injEq] at hr
    exact .inl hr.1.symm
  | succ rounds ih =>
    simp only [Suspended.runUntil] at hr
    cases hb : Suspended.within bound w₁.now with
    | false =>
      simp only [hb, Bool.false_eq_true, if_false, Prod.mk.injEq] at hr
      exact .inr (.inl ⟨hr.1.symm, hr.2.symm, rfl⟩)
    | true =>
      have hreach := h fuel
      have hnow := (s.resume_meanwhile fuel w₁).1
      simp only [hb, if_true] at hr
      rcases hs : s.resume fuel w₁ with ⟨a | t | f | _, w₂⟩
      all_goals simp only [hs] at hr hreach hnow
      · cases hr
        exact .inr (.inr ⟨hreach, by rw [hnow, hb], by simp⟩)
      · cases hw : Suspended.within bound t.wake with
        | false =>
          simp only [hw, Bool.false_eq_true, if_false] at hr
          cases hr
          exact .inr (.inr ⟨hreach, by rw [hnow, hb], by simpa using hw⟩)
        | true =>
          simp only [hw, if_true] at hr
          have hw₂ : Suspended.within bound (w₂.advance t.wake).now = true :=
            Suspended.within_max (hnow ▸ hb) hw
          rcases ih (hreach.awaits (hE t.wake w₂)) hr with h₁ | ⟨-, -, h₁⟩ | h₁
          · exact .inl h₁
          · rw [hw₂] at h₁
            cases h₁
          · exact .inr (.inr h₁)
      · cases hr
        exact .inr (.inr ⟨hreach, by rw [hnow, hb], by simp⟩)
      · cases hr
        exact .inl rfl

end Process
end NodeCoverage
