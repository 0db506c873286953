import NodeCoverage.Process.Pause
import NodeCoverage.Proofs.Process.Rest
/-!
# Processes that heed a signal

A process heeds a signal if it is over as soon as it is woken after the signal has fired, wherever
it was waiting: it takes no step that leaves a trace, and its result says so. Whether it does can be
seen from its shape. Every wait must be inside a part that is abandoned, and what follows that part
must come to an end by itself. Of two processes side by side one may be over already, with a result
that says nothing of the signal.
-/

namespace NodeCoverage

open Status (proceed)

variable {S : Service} {B : Behaviour S} {α β σ : Type} {stop : Signal}

/-- Begun when the signal has fired, the process ends at once, with a result as `Q` says, and leaves
the world as it is. -/
def Process.Quits (stop : Signal) : {α : Type} → Process S α → (α → Prop) → Prop
  | _, .pure a, Q => Q a
  | _, .bind p next, Q => ∃ P, p.Quits stop P ∧ ∀ a, P a → (next a).Quits stop Q
  | _, .clock, Q => ∀ t, Q t
  | _, .draw, Q => ∀ x, Q x
  | _, .fired _, Q => ∀ b, Q b
  | _, .note _, _ => False
  | _, .call _, _ => False
  | _, .sleepUntil _, _ => False
  | _, .iterate body s, Q => (body s).Quits stop fun x => ∃ a, x = .inr a ∧ Q a
  | _, .abandonOn s _, Q => s = stop ∧ Q none
  | _, .both p q, Q => ∃ P R, p.Quits stop P ∧ q.Quits stop R ∧ ∀ a b, P a → R b → Q (a, b)
  | _, .crash _, _ => False

/-- Woken when the signal has fired, wherever it was waiting, the process ends at once, with a
result as `Q` says, and leaves the world as it is. -/
def Process.Heeds (stop : Signal) : {α : Type} → Process S α → (α → Prop) → Prop
  | _, .pure _, _ => True
  | _, .bind p next, Q => ∃ P, p.Heeds stop P ∧
      ∀ a, (P a → (next a).Quits stop Q) ∧ (next a).Heeds stop Q
  | _, .clock, _ => True
  | _, .draw, _ => True
  | _, .fired _, _ => True
  | _, .note _, _ => True
  | _, .call _, _ => False
  | _, .sleepUntil _, _ => False
  | _, .iterate body _, Q => ∀ s, (body s).Heeds stop fun x => ∃ a, x = .inr a ∧ Q a
  | _, .abandonOn s _, Q => s = stop ∧ Q none
  | _, .both p q, Q => ∃ P R, p.Heeds stop P ∧ q.Heeds stop R ∧ ∀ a b, P a ∨ R b → Q (a, b)
  | _, .crash _, _ => True

/-- The same of a process that waits. -/
def Suspended.Heeds (stop : Signal) : {α : Type} → Suspended B α → (α → Prop) → Prop
  | _, .ready p, Q => p.Quits stop Q ∧ p.Heeds stop Q
  | _, .asleep _, _ => False
  | _, .waiting _ _ _ _, _ => False
  | _, .bind p next, Q => ∃ P, p.Heeds stop P ∧
      ∀ a, (P a → (next a).Quits stop Q) ∧ (next a).Heeds stop Q
  | _, .abandonOn s _, Q => s = stop ∧ Q none
  | _, .both p q, Q => ∃ P R, p.Heeds stop P ∧ q.Heeds stop R ∧ ∀ a b, P a ∨ R b → Q (a, b)
  | _, .first p b, Q => p.Heeds stop fun a => Q (a, b)
  | _, .second a q, Q => q.Heeds stop fun b => Q (a, b)

def Status.Heeds (stop : Signal) (Q : α → Prop) : Status B α → Prop
  | .finished _ => True
  | .suspended s => s.Heeds stop Q
  | .crashed _ => True
  | .exhausted => True

/-! ### Rules -/

namespace Process

variable {P Q : α → Prop}

theorem Quits.mono {p : Process S α} (h : p.Quits stop P) (hPQ : ∀ a, P a → Q a) :
    p.Quits stop Q := by
  induction p with
  | pure a => exact hPQ a h
  | bind p next _ ih =>
    obtain ⟨R, hp, hnext⟩ := h
    exact ⟨R, hp, fun a ha => ih a (hnext a ha) hPQ⟩
  | clock | draw | fired => exact fun x => hPQ x (h x)
  | note | call | sleepUntil | crash => exact h
  | iterate body s ih =>
    refine ih s h fun x hx => ?_
    obtain ⟨a, rfl, ha⟩ := hx
    exact ⟨a, rfl, hPQ a ha⟩
  | abandonOn s p => exact ⟨h.1, hPQ none h.2⟩
  | both p q =>
    obtain ⟨P, R, hp, hq, hPR⟩ := h
    exact ⟨P, R, hp, hq, fun a b ha hb => hPQ (a, b) (hPR a b ha hb)⟩

theorem Heeds.mono {p : Process S α} (h : p.Heeds stop P) (hPQ : ∀ a, P a → Q a) :
    p.Heeds stop Q := by
  induction p with
  | pure | clock | draw | fired | note | crash => exact trivial
  | bind p next _ ih =>
    obtain ⟨R, hp, hnext⟩ := h
    exact ⟨R, hp, fun a => ⟨fun ha => ((hnext a).1 ha).mono hPQ, ih a (hnext a).2 hPQ⟩⟩
  | call | sleepUntil => exact h
  | iterate body s ih =>
    refine fun s => ih s (h s) fun x hx => ?_
    obtain ⟨a, rfl, ha⟩ := hx
    exact ⟨a, rfl, hPQ a ha⟩
  | abandonOn s p => exact ⟨h.1, hPQ none h.2⟩
  | both p q =>
    obtain ⟨P, R, hp, hq, hPR⟩ := h
    exact ⟨P, R, hp, hq, fun a b hab => hPQ (a, b) (hPR a b hab)⟩

/-- Begun or woken when the signal has fired, the process ends at once as `Q` says. -/
def Obeys (stop : Signal) (p : Process S α) (Q : α → Prop) : Prop :=
  p.Quits stop Q ∧ p.Heeds stop Q

theorem Obeys.pure {a : α} (h : Q a) : (Pure.pure a : Process S α).Obeys stop Q :=
  ⟨h, trivial⟩

theorem Obeys.abandonOn {p : Process S α} : (abandonOn stop p).Obeys stop (· = none) :=
  ⟨⟨rfl, rfl⟩, rfl, rfl⟩

variable {Q : β → Prop} {p : Process S α} {next : α → Process S β}

theorem Heeds.seq (h : p.Heeds stop P) (hquits : ∀ a, P a → (next a).Quits stop Q)
    (hheeds : ∀ a, (next a).Heeds stop Q) : (p >>= next).Heeds stop Q :=
  ⟨P, h, fun a => ⟨hquits a, hheeds a⟩⟩

theorem Obeys.seq (h : p.Obeys stop P) (hquits : ∀ a, P a → (next a).Quits stop Q)
    (hheeds : ∀ a, (next a).Heeds stop Q) : (p >>= next).Obeys stop Q :=
  ⟨⟨P, h.1, hquits⟩, h.2.seq hquits hheeds⟩

theorem Heeds.before (h : p.Heeds stop P) (hnext : ∀ a, (next a).Obeys stop Q) :
    (p >>= next).Heeds stop Q :=
  h.seq (fun a _ => (hnext a).1) fun a => (hnext a).2

theorem Obeys.before (h : p.Obeys stop P) (hnext : ∀ a, (next a).Obeys stop Q) :
    (p >>= next).Obeys stop Q :=
  h.seq (fun a _ => (hnext a).1) fun a => (hnext a).2

theorem Obeys.clock : (Process.clock : Process S Nat).Obeys stop fun _ => True :=
  ⟨fun _ => trivial, trivial⟩

/-- A round in which the signal is found to have fired must be the last. -/
theorem Obeys.iterate {body : σ → Process S (σ ⊕ β)} {s : σ}
    (h : ∀ s, (body s).Obeys stop fun x => ∃ b, x = .inr b ∧ Q b) :
    (Process.iterate body s).Obeys stop Q :=
  ⟨(h s).1, fun s => (h s).2⟩

theorem Obeys.pause {deadline : Nat} {interval : Duration} :
    (Process.pause (S := S) stop deadline interval).Obeys stop (· = .stopped) := by
  refine Obeys.clock.before fun now => Obeys.abandonOn.seq ?_ fun o => ?_
  · rintro _ rfl
    exact rfl
  · cases o with
    | none => exact trivial
    | some => exact ⟨fun _ => False, trivial, fun _ => ⟨nofun, trivial⟩⟩

end Process

theorem Suspended.Heeds.mono {s : Suspended B α} {P Q : α → Prop} (h : s.Heeds stop P)
    (hPQ : ∀ a, P a → Q a) : s.Heeds stop Q := by
  induction s with
  | ready p => exact ⟨h.1.mono hPQ, h.2.mono hPQ⟩
  | asleep | waiting => exact h
  | bind p next _ =>
    obtain ⟨R, hp, hnext⟩ := h
    exact ⟨R, hp, fun a => ⟨fun ha => ((hnext a).1 ha).mono hPQ, (hnext a).2.mono hPQ⟩⟩
  | abandonOn s p => exact ⟨h.1, hPQ none h.2⟩
  | both p q =>
    obtain ⟨P, R, hp, hq, hPR⟩ := h
    exact ⟨P, R, hp, hq, fun a b hab => hPQ (a, b) (hPR a b hab)⟩
  | first p b ih => exact ih h fun a => hPQ (a, b)
  | second a q ih => exact ih h fun b => hPQ (a, b)

/-! ### Runs -/

private theorem heeds_proceed {P : α → Prop} {Q : β → Prop} {x : Status B α × World B}
    {done : α → World B → Status B β × World B}
    {wait : Suspended B α → World B → Status B β × World B} (hx : x.1.Heeds stop P)
    (hd : ∀ a w, (done a w).1.Heeds stop Q)
    (hw : ∀ s w, s.Heeds stop P → (wait s w).1.Heeds stop Q) :
    (proceed x done wait).1.Heeds stop Q := by
  rcases x with ⟨a | s | f | _, w⟩
  · exact hd a w
  · exact hw s w hx
  · exact trivial
  · exact trivial

private theorem heeds_both {P : α → Prop} {R : β → Prop} {Q : α × β → Prop}
    {x : Status B α × World B} {y : World B → Status B β × World B}
    (hPR : ∀ a b, P a ∨ R b → Q (a, b)) (hx : x.1.Heeds stop P)
    (hy : ∀ w, (y w).1.Heeds stop R) :
    (proceed x
      (fun a w => proceed (y w) (fun b w => (.finished (a, b), w))
        fun q w => (.suspended (.second a q), w))
      fun p w => proceed (y w) (fun b w => (.suspended (.first p b), w))
        fun q w => (.suspended (.both p q), w)).1.Heeds stop Q := by
  refine heeds_proceed hx (fun a w => ?_) fun s w hs => ?_
  · refine heeds_proceed (hy w) (fun _ _ => trivial) fun t _ ht => ?_
    exact ht.mono fun b hb => hPR a b (.inr hb)
  · refine heeds_proceed (hy w) (fun b _ => ?_) fun t _ ht => ?_
    · exact hs.mono fun a ha => hPR a b (.inl ha)
    · exact ⟨P, R, hs, ht, hPR⟩

theorem Process.start_heeds (n : Nat) {p : Process S α} {Q : α → Prop} (h : p.Heeds stop Q)
    (w : World B) : (p.start n w).1.Heeds stop Q := by
  induction n generalizing α w with
  | zero => exact trivial
  | succ n ih =>
    cases p with
    | pure | clock | draw | fired | note | crash => exact trivial
    | call | sleepUntil => exact absurd h id
    | iterate body s =>
      refine ih (p := .bind (body s) (Process.afterRound body)) ⟨_, h s, fun x => ⟨?_, ?_⟩⟩ w
      · rintro ⟨a, rfl, ha⟩
        exact ha
      · cases x with
        | inl s => exact h
        | inr a => exact trivial
    | bind p next =>
      obtain ⟨P, hp, hnext⟩ := h
      rw [start_bind]
      exact heeds_proceed (ih hp w) (fun a w => ih (hnext a).2 w) fun _ _ hs => ⟨P, hs, hnext⟩
    | abandonOn s p =>
      rw [start_abandonOn]
      split
      · exact trivial
      · rcases p.start n w with ⟨_ | _ | _ | _, _⟩
        · exact trivial
        · exact h
        · exact trivial
        · exact trivial
    | both p q =>
      obtain ⟨P, R, hp, hq, hPR⟩ := h
      rw [start_both]
      exact heeds_both hPR (ih hp w) (ih hq)

theorem Suspended.resume_heeds (n : Nat) {s : Suspended B α} {Q : α → Prop} (h : s.Heeds stop Q)
    (w : World B) : (s.resume n w).1.Heeds stop Q := by
  induction s generalizing w with
  | ready p => exact Process.start_heeds n h.2 w
  | asleep | waiting => exact absurd h id
  | bind p next ih =>
    obtain ⟨P, hp, hnext⟩ := h
    rw [resume_bind]
    exact heeds_proceed (ih hp w) (fun a w => Process.start_heeds n (hnext a).2 w)
      fun _ _ hs => ⟨P, hs, hnext⟩
  | abandonOn s p =>
    rw [resume_abandonOn]
    split
    · exact trivial
    · rcases p.resume n w with ⟨_ | _ | _ | _, _⟩
      · exact trivial
      · exact h
      · exact trivial
      · exact trivial
  | both p q ihp ihq =>
    obtain ⟨P, R, hp, hq, hPR⟩ := h
    rw [resume_both]
    exact heeds_both hPR (ihp hp w) (ihq hq)
  | first p b ih =>
    rw [resume_first]
    exact heeds_proceed (ih h w) (fun _ _ => trivial) fun _ _ hs => hs
  | second a q ih =>
    rw [resume_second]
    exact heeds_proceed (ih h w) (fun _ _ => trivial) fun _ _ hs => hs

theorem Suspended.runUntil_heeds {fuel rounds : Nat} {bound : Option Nat} {s : Suspended B α}
    {Q : α → Prop} {st : Status B α} {w w' : World B} (h : s.Heeds stop Q)
    (hr : s.runUntil fuel bound rounds w = (st, w')) : st.Heeds stop Q := by
  induction rounds generalizing s w with
  | zero =>
    cases hr
    exact trivial
  | succ rounds ih =>
    have hs := resume_heeds fuel h w
    simp only [runUntil] at hr
    split at hr
    · split at hr
      · next p w₁ hp =>
        rw [hp] at hs
        split at hr
        · exact ih hs hr
        · cases hr
          exact hs
      all_goals
        cases hr
        exact trivial
    · cases hr
      exact h

/-! ### The end -/

variable {w : World B}

/-- What comes to an end in the world in which it was begun, if there is fuel enough, and else
leaves that world as it is. -/
def EndsIn (w : World B) (Q : α → Prop) (f : Nat → Status B α × World B) : Prop :=
  ∃ a, Q a ∧ ∃ enough, ∀ fuel,
    f fuel = if enough ≤ fuel then (.finished a, w) else (.exhausted, w)

theorem EndsIn.world_eq {Q : α → Prop} {f : Nat → Status B α × World B} (h : EndsIn w Q f)
    (fuel : Nat) : (f fuel).2 = w := by
  obtain ⟨a, -, enough, h⟩ := h
  rw [h fuel]
  split <;> rfl

private theorem EndsIn.of_succ {Q : α → Prop} {f g : Nat → Status B α × World B}
    (h : EndsIn w Q f) (hzero : g 0 = (.exhausted, w)) (hg : ∀ fuel, g (fuel + 1) = f fuel) :
    EndsIn w Q g := by
  obtain ⟨a, ha, enough, h⟩ := h
  refine ⟨a, ha, enough + 1, fun fuel => ?_⟩
  cases fuel with
  | zero => exact hzero
  | succ fuel =>
    rw [hg, h fuel]
    simp only [Nat.add_le_add_iff_right]

private theorem EndsIn.proceed {P : α → Prop} {Q : β → Prop} {f : Nat → Status B α × World B}
    {done : Nat → α → World B → Status B β × World B}
    {wait : Nat → Suspended B α → World B → Status B β × World B} (hf : EndsIn w P f)
    (hd : ∀ a, P a → EndsIn w Q fun fuel => done fuel a w) :
    EndsIn w Q fun fuel => Status.proceed (f fuel) (done fuel) (wait fuel) := by
  obtain ⟨a, ha, m, hf⟩ := hf
  obtain ⟨b, hb, n, hd⟩ := hd a ha
  refine ⟨b, hb, max m n, fun fuel => ?_⟩
  simp only [hf fuel, Nat.max_le]
  by_cases hm : m ≤ fuel
  · simp only [hm, if_true, true_and]
    exact hd fuel
  · simp only [hm, if_false, false_and]
    rfl

private theorem EndsIn.finished {Q : α → Prop} {a : α} (h : Q a) :
    EndsIn w Q fun _ => (.finished a, w) :=
  ⟨a, h, 0, fun _ => rfl⟩

private theorem Process.Quits.endsIn {p : Process S α} {Q : α → Prop} (h : p.Quits stop Q)
    (hw : w.fired stop = true) : EndsIn w Q fun fuel => p.start fuel w := by
  induction p with
  | pure a => exact .of_succ (.finished h) rfl fun _ => rfl
  | clock | draw | fired => exact .of_succ (.finished (h _)) rfl fun _ => rfl
  | note | call | sleepUntil | crash => exact absurd h id
  | bind p next ihp ihnext =>
    obtain ⟨P, hp, hnext⟩ := h
    exact .of_succ (.proceed (ihp hp) fun a ha => ihnext a (hnext a ha)) rfl
      fun fuel => start_bind fuel w p next
  | iterate body s ih =>
    refine .of_succ (.of_succ (.proceed (ih s h) ?_) rfl
      fun fuel => start_bind fuel w (body s) _) rfl fun _ => rfl
    rintro _ ⟨a, rfl, ha⟩
    exact .of_succ (.finished ha) rfl fun _ => rfl
  | abandonOn s p =>
    obtain ⟨rfl, hnone⟩ := h
    exact .of_succ (.finished hnone) rfl fun fuel => by rw [start_abandonOn, if_pos hw]
  | both p q ihp ihq =>
    obtain ⟨P, R, hp, hq, hPR⟩ := h
    refine .of_succ (.proceed (ihp hp) fun a ha => ?_) rfl fun fuel => start_both fuel w p q
    exact .proceed (ihq hq) fun b hb => .finished (hPR a b ha hb)

theorem Suspended.Heeds.endsIn {s : Suspended B α} {Q : α → Prop} (h : s.Heeds stop Q)
    (hw : w.fired stop = true) : EndsIn w Q fun fuel => s.resume fuel w := by
  induction s with
  | ready p => exact h.1.endsIn hw
  | asleep | waiting => exact absurd h id
  | bind p next ih =>
    obtain ⟨P, hp, hnext⟩ := h
    simp only [resume_bind]
    exact .proceed (ih hp) fun a ha => ((hnext a).1 ha).endsIn hw
  | abandonOn s p =>
    obtain ⟨rfl, hnone⟩ := h
    simp only [resume_abandonOn, hw, if_true]
    exact .finished hnone
  | both p q ihp ihq =>
    obtain ⟨P, R, hp, hq, hPR⟩ := h
    simp only [resume_both]
    refine .proceed (ihp hp) fun a ha => ?_
    exact .proceed (ihq hq) fun b _ => .finished (hPR a b (.inl ha))
  | first p b ih =>
    simp only [resume_first]
    exact .proceed (ih h) fun a ha => .finished ha
  | second a q ih =>
    simp only [resume_second]
    exact .proceed (ih h) fun b hb => .finished hb

theorem Suspended.Heeds.quits {s : Suspended B α} {Q : α → Prop} (h : s.Heeds stop Q)
    (hw : w.fired stop = true) :
    ∃ a, Q a ∧ ∃ enough, ∀ fuel, enough ≤ fuel → s.resume fuel w = (.finished a, w) := by
  obtain ⟨a, ha, enough, hresume⟩ := h.endsIn hw
  exact ⟨a, ha, enough, fun fuel hfuel => (hresume fuel).trans (if_pos hfuel)⟩

theorem Suspended.Heeds.runUntil_endsIn {s : Suspended B α} {Q : α → Prop} (h : s.Heeds stop Q)
    (hw : w.fired stop = true) : EndsIn w Q fun fuel => s.runUntil fuel none fuel w := by
  obtain ⟨a, ha, enough, hresume⟩ := h.endsIn hw
  refine ⟨a, ha, max enough 1, fun fuel => ?_⟩
  cases fuel with
  | zero => exact (if_neg (by omega)).symm
  | succ fuel =>
    have hfuel : max enough 1 ≤ fuel + 1 ↔ enough ≤ fuel + 1 := by omega
    simp only [Suspended.runUntil, Suspended.within, if_true, hresume, hfuel]
    by_cases hle : enough ≤ fuel + 1 <;> simp only [hle, if_true, if_false]

/-! ### At whatever instant the signal fires -/

/-- The process has not begun, or it waits somewhere on its way, whatever has happened meanwhile. -/
def Process.Underway (p : Process S α) (s : Suspended B α) : Prop :=
  s = .ready p ∨ ∃ w w', Reaches (fun _ _ _ => True) p w (.suspended s) w'

/-- How a process stands at the instant at which the signal fires: it is over, or it ends there with
a result as `Q` says as soon as it is woken, and the world stays as it is. -/
def Status.EndsOn (stop : Signal) (Q : α → Prop) : Status B α → World B → Prop
  | .finished _, _ => True
  | .suspended s, w => ∃ a, Q a ∧ ∃ enough, ∀ fuel, enough ≤ fuel →
      s.resume fuel (w.fire stop) = (.finished a, w.fire stop)
  | .crashed _, _ => True
  | .exhausted, _ => False

/-- Let the signal fire at whatever instant, while the process waits anywhere: then it is over at
that instant. Only a process to which the instant never comes may go on, and that takes endlessly
many calls which are answered at once. -/
def Process.EndsOn (stop : Signal) (p : Process S α) (Q : α → Prop) : Prop :=
  ∀ (B : Behaviour S) (s : Suspended B α) (w : World B) (t : Nat), p.Underway s → w.now ≤ t →
    (∃ st w', s.Ends (t + 1) w st w' ∧ w'.now ≤ t ∧ st.EndsOn stop Q (w'.advance t)) ∨
      ¬ B.TakesTime ∧ ∃ u ≤ t, s.Stalls (t + 1) w u

namespace Process

variable {p : Process S α} {Q : α → Prop}

theorem Reaches.heeds {E : Surroundings B} {st : Status B α} {w' : World B}
    (hr : Reaches E p w st w') (h : p.Heeds stop Q) : st.Heeds stop Q := by
  induction hr with
  | start n => exact start_heeds n h _
  | resume n _ _ ih => exact Suspended.resume_heeds n ih _

theorem Reaches.diligent {E : Surroundings B} {s : Suspended B α} {w' : World B}
    (hr : Reaches E p w (.suspended s) w') (h : p.Diligent B) : s.Diligent := by
  generalize hst : Status.suspended s = st at hr
  induction hr generalizing s with
  | start n => exact ((h.rests rfl).2 s hst.symm).1
  | resume n _ _ ih => exact (((ih rfl).rests rfl).2 s hst.symm).1

theorem Obeys.endsOn (h : p.Obeys stop Q) (hp : ∀ B : Behaviour S, p.Diligent B) :
    p.EndsOn stop Q := by
  intro B s w t hs ht
  have hheeds : s.Heeds stop Q := by
    rcases hs with rfl | ⟨_, _, hr⟩
    · exact h
    · exact hr.heeds h.2
  have hdiligent : s.Diligent := by
    rcases hs with rfl | ⟨_, _, hr⟩
    · exact hp B
    · exact hr.diligent (hp B)
  rcases hdiligent.ends_or_stalls (t + 1) w with ⟨st, w', hends, -⟩ | ⟨hB, u, hu, hstalls⟩
  · refine .inl ⟨st, w', hends, ?_, ?_⟩
    all_goals
      obtain ⟨hst, enough, hrun⟩ := hends
      have hrun := hrun enough enough (Nat.le_refl _) (Nat.le_refl _)
    · have hnow := (Suspended.runUntil_now hrun).2.1
      exact Nat.le_of_lt_succ (hnow (Nat.lt_succ_of_le ht))
    · have hst' := Suspended.runUntil_heeds hheeds hrun
      cases st with
      | finished | crashed => exact trivial
      | suspended p => exact hst'.quits (by simp [World.fire])
      | exhausted => exact hst rfl
  · exact .inr ⟨hB, u, Nat.le_of_lt_succ hu, hstalls⟩

/-- What heeds the signal and makes no step after it keeps what its steps keep before it. -/
theorem Meets.of_obeys {E : Surroundings B} {I : World B → Prop} {calls : S.Request → Prop}
    {notes : S.Entry → Prop} {faults : Fault → Prop} (hw : I w)
    (hI : Keeps calls notes fun w : World B => I w ∧ w.fired stop = false)
    (hp : p.Obeys stop Q) (hu : p.Uses calls notes faults) : Meets E I p w fun _ w' => I w' := by
  have hc : p.Complies (unheard calls notes) fun _ => True :=
    Uses.complies (c := unheard _ _) hu fun _ _ => trivial
  have hkept {st : Status B α} {w' : World B} (hr : Reaches (E.keeping I) p w st w') :
      st ≠ .exhausted → I w' ∧ st.Complies (unheard calls notes) fun _ => True := by
    induction hr with
    | start n =>
      intro hst
      cases hf : w.fired stop with
      | true =>
        have hready : (Suspended.ready (B := B) p).Heeds stop Q := hp
        obtain ⟨a, -, enough, hends⟩ := hready.quits hf
        have hsame : p.start n w = (.finished a, w) :=
          (start_of_le hst (Nat.le_max_left n enough)).symm.trans (hends _ (Nat.le_max_right ..))
        rw [hsame]
        exact ⟨hw, trivial⟩
      | false =>
        have h := start_complies (v := w) hI unheard_heard n (fun ht => ⟨ht, ⟨hw, hf⟩, hc⟩) trivial
        exact ⟨h.2.1.1, h.2.2⟩
    | resume n hr he ih =>
      rename_i s w₁ w₂
      intro hst
      obtain ⟨-, hs⟩ := ih nofun
      cases hf : w₂.fired stop with
      | true =>
        have hheeds : s.Heeds stop Q := hr.heeds hp.2
        obtain ⟨a, -, enough, hends⟩ := hheeds.quits hf
        have hsame : s.resume n w₂ = (.finished a, w₂) :=
          (Suspended.resume_of_le hst (Nat.le_max_left n enough)).symm.trans
            (hends _ (Nat.le_max_right ..))
        rw [hsame]
        exact ⟨he.2, trivial⟩
      | false =>
        have h := Suspended.resume_complies (v := w₂) hI unheard_heard n
          (fun ht => ⟨ht, ⟨he.2, hf⟩, hs⟩) trivial
        exact ⟨h.2.1.1, h.2.2⟩
  intro st w' hr
  cases st with
  | finished | suspended | crashed => exact (hkept hr nofun).1
  | exhausted => exact trivial

end Process
end NodeCoverage
