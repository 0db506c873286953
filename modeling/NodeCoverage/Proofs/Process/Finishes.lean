import NodeCoverage.Process.Pause
import NodeCoverage.Proofs.Process.Reaches
/-!
# What a process ends with

`Finishes E p w a w'` says that a process begun in `w` can end with `a` in `w'` when `E` is what
happens while it waits. No fuel is mentioned. A sequence ends as its parts do one after the other,
and an iteration as the last of its rounds, so that an end can be followed back step by step, and be
put together again from the ends of the parts. A process that is `Unfinished` has not come to its
end yet, or never will, since it crashed; then the same is true of one of its parts.
-/

namespace NodeCoverage
namespace Process

variable {S : Service} {B : Behaviour S} {E : Surroundings B} {α β σ : Type}

theorem Reaches.now_le {p : Process S α} {w w' : World B} {st : Status B α}
    (hE : ∀ ⦃t w w'⦄, E t w w' → w.now ≤ w'.now) (h : Reaches E p w st w') : w.now ≤ w'.now := by
  induction h with
  | start fuel => exact Nat.le_of_eq (p.start_meanwhile fuel w).1.symm
  | @resume fuel s w₁ w₂ _ he ih =>
    exact Nat.le_trans ih (Nat.le_trans (hE he) (Nat.le_of_eq (s.resume_meanwhile fuel w₂).1.symm))

/-- Begun in `w`, the process can end with `a` in `w'`. -/
def Finishes (E : Surroundings B) (p : Process S α) (w : World B) (a : α) (w' : World B) : Prop :=
  Reaches E p w (.finished a) w'

namespace Finishes

variable {p : Process S α} {w w' w₁ : World B} {a : α}

@[simp] theorem pure_iff {b : α} :
    Finishes E (Pure.pure b : Process S α) w a w' ↔ a = b ∧ w' = w := by
  constructor
  · intro h
    obtain ⟨hw, ha | ha⟩ := Reaches.pure_cases h <;> cases ha
    exact ⟨rfl, hw⟩
  · rintro ⟨rfl, rfl⟩
    exact .start 1

@[simp] theorem clock_iff {t : Nat} : Finishes E .clock w t w' ↔ t = w.now ∧ w' = w := by
  constructor
  · intro h
    obtain ⟨hw, ht | ht⟩ := Reaches.clock_cases h <;> cases ht
    exact ⟨rfl, hw⟩
  · rintro ⟨rfl, rfl⟩
    exact .start 1

@[simp] theorem draw_iff {x : Rat} : Finishes E .draw w x w' ↔ x = w.draw ∧ w' = w := by
  constructor
  · intro h
    obtain ⟨hw, hx | hx⟩ := Reaches.draw_cases h <;> cases hx
    exact ⟨rfl, hw⟩
  · rintro ⟨rfl, rfl⟩
    exact .start 1

@[simp] theorem fired_iff {s : Signal} {b : Bool} :
    Finishes E (.fired s) w b w' ↔ b = w.fired s ∧ w' = w := by
  constructor
  · intro h
    obtain ⟨hw, hb | hb⟩ := Reaches.fired_cases h <;> cases hb
    exact ⟨rfl, hw⟩
  · rintro ⟨rfl, rfl⟩
    exact .start 1

@[simp] theorem note_iff {e : S.Entry} {u : Unit} :
    Finishes E (.note e) w u w' ↔ w' = w.note e := by
  constructor
  · intro h
    rcases Reaches.note_cases h with ⟨-, h₁⟩ | ⟨h₁, -⟩
    · cases h₁
    · exact h₁
  · rintro rfl
    exact .start 1

@[simp] theorem bind_iff {next : α → Process S β} {b : β} :
    Finishes E (p >>= next) w b w' ↔
      ∃ a w₁, Finishes E p w a w₁ ∧ Finishes E (next a) w₁ b w' := by
  constructor
  · intro h
    rcases Reaches.bind_cases h with ⟨st₁, -, hend⟩ | h
    · cases hend
    · exact h
  · rintro ⟨a, w₁, h₁, h₂⟩
    exact Reaches.bind h₁ h₂ (by simp)

theorem not_crash {f : Fault} : ¬ Finishes E (.crash f) w a w' := by
  intro h
  cases (Reaches.crash_cases h).2 with
  | inl h | inr h => cases h

/-- After a step that leaves the world as it is, the process goes on at once. -/
theorem bind_iff_of_iff {a₀ : α} (hp : ∀ a w₁, Finishes E p w a w₁ ↔ a = a₀ ∧ w₁ = w)
    {next : α → Process S β} {b : β} :
    Finishes E (p >>= next) w b w' ↔ Finishes E (next a₀) w b w' := by
  simp only [bind_iff, hp]
  constructor
  · rintro ⟨_, _, ⟨rfl, rfl⟩, h⟩
    exact h
  · exact fun h => ⟨_, _, ⟨rfl, rfl⟩, h⟩

theorem clock_bind_iff {next : Nat → Process S β} {b : β} :
    Finishes E (Process.clock >>= next) w b w' ↔ Finishes E (next w.now) w b w' :=
  bind_iff_of_iff fun _ _ => clock_iff

theorem draw_bind_iff {next : Rat → Process S β} {b : β} :
    Finishes E (Process.draw >>= next) w b w' ↔ Finishes E (next w.draw) w b w' :=
  bind_iff_of_iff fun _ _ => draw_iff

/-! ### Iterations -/

theorem iterate_round {body : σ → Process S (σ ⊕ α)} {s : σ} {x : σ ⊕ α}
    (hb : Finishes E (body s) w x w₁) (h : Finishes E (afterRound body x) w₁ a w') :
    Finishes E (.iterate body s) w a w' :=
  Reaches.iterate (Reaches.bind hb h (by simp))

theorem iterate_of_rounds {body : σ → Process S (σ ⊕ α)} {s s₁ : σ}
    (hr : Rounds E body s w s₁ w₁) (h : Finishes E (.iterate body s₁) w₁ a w') :
    Finishes E (.iterate body s) w a w' := by
  induction hr with
  | none => exact h
  | next _ hb ih => exact ih (iterate_round hb h)

/-- An iteration ends with the first round that gives a result. -/
theorem iterate_iff {body : σ → Process S (σ ⊕ α)} {s : σ} :
    Finishes E (.iterate body s) w a w' ↔
      ∃ s₁ w₁, Rounds E body s w s₁ w₁ ∧ Finishes E (body s₁) w₁ (.inr a) w' := by
  constructor
  · intro h
    obtain ⟨s₁, w₁, st₁, hr, hb, hend⟩ := Reaches.iterate_cases h
    cases hend
    exact ⟨s₁, w₁, hr, hb⟩
  · rintro ⟨s₁, w₁, hr, hb⟩
    exact iterate_of_rounds hr (iterate_round hb (pure_iff.mpr ⟨rfl, rfl⟩))

/-! ### Waiting -/

/-- What may be abandoned ends by itself, or the signal has fired. -/
theorem abandonOn_cases {s : Signal} {o : Option α} (h : Finishes E (.abandonOn s p) w o w') :
    (∃ a, o = some a ∧ Finishes (E.barring s) p w a w') ∨ o = none ∧ w'.fired s = true := by
  rcases Reaches.abandonOn_cases h with
    ⟨hs, -⟩ | ⟨hs, rfl, hfired⟩ | ⟨-, ⟨st, hp, hend⟩ | ⟨_, _, hs, -, -, hfired⟩⟩
  · cases hs
  · cases hs
    exact .inr ⟨rfl, hfired⟩
  · cases hend
    exact .inl ⟨_, rfl, hp⟩
  · cases hs
    exact .inr ⟨rfl, hfired⟩

theorem pause_cases {s : Signal} {deadline : Nat} {interval : Duration} {how : Pause}
    (h : Finishes E (Process.pause s deadline interval) w how w') :
    (how = .stopped ∧ w'.fired s = true) ∨ (how = .overdue ∧ deadline ≤ w'.now) ∨
      how = .over ∧ w'.now < deadline := by
  obtain ⟨o, w₁, hwait, h⟩ := bind_iff.mp (clock_bind_iff.mp h)
  rcases abandonOn_cases hwait with ⟨⟨⟩, rfl, -⟩ | ⟨rfl, hfired⟩
  · have h := clock_bind_iff.mp h
    split at h
    · obtain ⟨rfl, rfl⟩ := pure_iff.mp h
      exact .inr (.inl ⟨rfl, by assumption⟩)
    · obtain ⟨rfl, rfl⟩ := pure_iff.mp h
      exact .inr (.inr ⟨rfl, by omega⟩)
  · obtain ⟨rfl, rfl⟩ := pure_iff.mp h
    exact .inl ⟨rfl, hfired⟩

theorem now_le {p : Process S α} {w w' : World B} {a : α}
    (hE : ∀ ⦃t w w'⦄, E t w w' → w.now ≤ w'.now) (h : Finishes E p w a w') : w.now ≤ w'.now :=
  Reaches.now_le hE h

end Finishes

/-! ### Processes that have not ended -/

/-- How a process stands that has not ended: it waits, or it has crashed with a fault. -/
inductive Halted : Status B α → Option Fault → Prop
  | suspended (s : Suspended B α) : Halted (.suspended s) none
  | crashed (f : Fault) : Halted (.crashed f) (some f)

theorem Halted.ne_exhausted {st : Status B α} {x : Option Fault} (h : Halted st x) :
    st ≠ .exhausted := by
  rintro rfl
  cases h

/-- Begun in `w`, the process can be in `w'` without having ended. -/
def Unfinished (E : Surroundings B) (p : Process S α) (w : World B) (x : Option Fault)
    (w' : World B) : Prop :=
  ∃ st, Reaches E p w st w' ∧ Halted st x

namespace Unfinished

variable {w w' : World B} {x : Option Fault}

theorem not_pure {a : α} : ¬ Unfinished E (Pure.pure a : Process S α) w x w' := by
  rintro ⟨_, h, hend⟩
  rcases (Reaches.pure_cases h).2 with rfl | rfl <;> cases hend

@[simp] theorem crash_iff {f : Fault} :
    Unfinished E (.crash f : Process S α) w x w' ↔ x = some f ∧ w' = w := by
  constructor
  · rintro ⟨_, h, hend⟩
    obtain ⟨hw, rfl | rfl⟩ := Reaches.crash_cases h
    · cases hend
      exact ⟨rfl, hw⟩
    · cases hend
  · rintro ⟨rfl, rfl⟩
    exact ⟨_, .start 1, .crashed f⟩

theorem bind_iff {p : Process S α} {next : α → Process S β} :
    Unfinished E (p >>= next) w x w' ↔
      Unfinished E p w x w' ∨ ∃ a w₁, Finishes E p w a w₁ ∧ Unfinished E (next a) w₁ x w' := by
  constructor
  · rintro ⟨_, h, hend⟩
    rcases Reaches.bind_cases h with ⟨_, hp, hfirst⟩ | ⟨a, w₁, hp, hnext⟩
    · cases hfirst with
      | suspended s => cases hend; exact .inl ⟨_, hp, .suspended s⟩
      | crashed f => cases hend; exact .inl ⟨_, hp, .crashed f⟩
      | exhausted => cases hend
    · exact .inr ⟨a, w₁, hp, _, hnext, hend⟩
  · rintro (⟨_, hp, hend⟩ | ⟨a, w₁, hp, _, hnext, hend⟩)
    · cases hend with
      | suspended s => exact ⟨_, hp.bind_first (.suspended s) nofun, .suspended _⟩
      | crashed f => exact ⟨_, hp.bind_first (.crashed f) nofun, .crashed f⟩
    · exact ⟨_, Reaches.bind hp hnext hend.ne_exhausted, hend⟩

theorem not_clock : ¬ Unfinished E .clock w x w' := by
  rintro ⟨_, h, hend⟩
  rcases (Reaches.clock_cases h).2 with rfl | rfl <;> cases hend

theorem not_draw : ¬ Unfinished E .draw w x w' := by
  rintro ⟨_, h, hend⟩
  rcases (Reaches.draw_cases h).2 with rfl | rfl <;> cases hend

theorem bind_iff_of_iff {p : Process S α} {a₀ : α}
    (hp : ∀ a w₁, Finishes E p w a w₁ ↔ a = a₀ ∧ w₁ = w) (hnot : ¬ Unfinished E p w x w')
    {next : α → Process S β} :
    Unfinished E (p >>= next) w x w' ↔ Unfinished E (next a₀) w x w' := by
  simp only [bind_iff, hnot, hp, false_or]
  constructor
  · rintro ⟨_, _, ⟨rfl, rfl⟩, h⟩
    exact h
  · exact fun h => ⟨_, _, ⟨rfl, rfl⟩, h⟩

theorem clock_bind_iff {next : Nat → Process S β} :
    Unfinished E (Process.clock >>= next) w x w' ↔ Unfinished E (next w.now) w x w' :=
  bind_iff_of_iff (fun _ _ => Finishes.clock_iff) not_clock

theorem draw_bind_iff {next : Rat → Process S β} :
    Unfinished E (Process.draw >>= next) w x w' ↔ Unfinished E (next w.draw) w x w' :=
  bind_iff_of_iff (fun _ _ => Finishes.draw_iff) not_draw

theorem iterate_of_rounds {body : σ → Process S (σ ⊕ α)} {s s₁ : σ} {w₁ : World B}
    (hr : Rounds E body s w s₁ w₁) (h : Unfinished E (.iterate body s₁) w₁ x w') :
    Unfinished E (.iterate body s) w x w' := by
  induction hr with
  | none => exact h
  | next _ hb ih =>
    obtain ⟨_, hnext, hend⟩ := h
    exact ih ⟨_, .iterate (.bind hb hnext hend.ne_exhausted), hend⟩

theorem iterate_iff {body : σ → Process S (σ ⊕ α)} {s : σ} :
    Unfinished E (.iterate body s) w x w' ↔
      ∃ s₁ w₁, Rounds E body s w s₁ w₁ ∧ Unfinished E (body s₁) w₁ x w' := by
  constructor
  · rintro ⟨_, h, hend⟩
    obtain ⟨s₁, w₁, _, hr, hb, hround⟩ := Reaches.iterate_cases h
    refine ⟨s₁, w₁, hr, _, hb, ?_⟩
    cases hround with
    | suspended s => cases hend; exact .suspended s
    | crashed f => cases hend; exact .crashed f
    | finished a => cases hend
    | exhausted st => cases hend
  · rintro ⟨s₁, w₁, hr, hround⟩
    obtain ⟨_, h, hend⟩ := bind_iff.mpr (.inl hround)
    exact iterate_of_rounds hr ⟨_, .iterate h, hend⟩

end Unfinished
end Process
end NodeCoverage
