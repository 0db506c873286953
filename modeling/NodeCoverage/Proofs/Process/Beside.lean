import NodeCoverage.Proofs.Process.Trace
/-!
# Processes side by side

Of two processes that run side by side each goes on among the steps of the other. Hence each can be
followed by itself, in surroundings to which the steps of the other belong: what it has come to then
still holds when both are done, as long as nothing in these surroundings undoes it.
-/

namespace NodeCoverage

open Status (proceed)

variable {S : Service} {B : Behaviour S} {α β : Type} {E : Surroundings B}

/-- What can happen beside a process: what happens in `E`, and the steps of another process that
makes these calls and leaves these entries. -/
structure Surroundings.Beside (E : Surroundings B) (calls : S.Request → Prop)
    (notes : S.Entry → Prop) (R : World B → World B → Prop) : Prop where
  refl : ∀ w, R w w
  trans : ∀ {w₁ w₂ w₃}, R w₁ w₂ → R w₂ w₃ → R w₁ w₃
  moves : ∀ {t w w'}, E t w w' → R w w'
  call : ∀ {w r}, calls r → R w (w.call r).2
  answer : ∀ {w n r k}, calls r → R w (w.answer n r k).2
  note : ∀ {w entry}, notes entry → R w (w.note entry)

namespace Surroundings.Beside

variable {calls : S.Request → Prop} {notes : S.Entry → Prop} {faults : Fault → Prop}
  {R : World B → World B → Prop} (h : E.Beside calls notes R)
include h

theorem keeps (v : World B) : Keeps calls notes (R v) where
  call hr hw := h.trans hw (h.call hr)
  answer hr hw := h.trans hw (h.answer hr)
  note hn hw := h.trans hw (h.note hn)

theorem start {q : Process S β} (hq : q.Uses calls notes faults) (n : Nat) (w : World B) :
    R w (q.start n w).2 := by
  have hq : q.Complies (unheard calls notes) fun _ => True :=
    Process.Uses.complies (c := unheard calls notes) hq fun _ _ => trivial
  exact (Process.start_complies (v := w) (h.keeps w) unheard_heard n
    (fun ht => ⟨ht, h.refl w, hq⟩) trivial).2.1

theorem resume {q : Process S β} {F : Surroundings B} {w₁ w₂ : World B} {t : Suspended B β}
    (hq : q.Uses calls notes faults) (hr : Process.Reaches F q w₁ (.suspended t) w₂) (n : Nat)
    (w : World B) : R w (t.resume n w).2 := by
  have hq : q.Complies (unheard calls notes) fun _ => True :=
    Process.Uses.complies (c := unheard calls notes) hq fun _ _ => trivial
  have ht := hr.complies (I := fun _ => True) ⟨fun _ _ => trivial, fun _ _ => trivial,
    fun _ _ => trivial⟩ unheard_heard (fun _ _ _ _ => ⟨id, id⟩) hq id
  exact (t.resume_complies (v := w) (h.keeps w) unheard_heard n
    (fun htrue => ⟨htrue, h.refl w, (ht trivial).2.2⟩) trivial).2.1

theorem reaches {q : Process S β} {w w' : World B} {st : Status B β}
    (hq : q.Uses calls notes faults) (hr : Process.Reaches E q w st w') : R w w' := by
  induction hr with
  | start n => exact h.start hq n w
  | resume n hr he ih => exact h.trans ih (h.trans (h.moves he) (h.resume hq hr n _))

end Surroundings.Beside

section Log

variable {calls : S.Request → Prop} {notes : S.Entry → Prop}

/-- A process that adds only such events can run beside one, where no others happen anyway. -/
theorem World.Since.beside {P : Event S → Prop} (hE : ∀ t w w', E t w w' → w.Since P w')
    (hkeeps : ∀ v : World B, Keeps calls notes (v.Since P)) :
    E.Beside calls notes (World.Since P) where
  refl := .refl
  trans := .trans
  moves := hE _ _ _
  call hr := (hkeeps _).call hr (.refl _)
  answer hr := (hkeeps _).answer hr (.refl _)
  note hn := (hkeeps _).note hn (.refl _)

theorem World.Grows.beside (hE : ∀ t w w', E t w w' → w.Grows w') :
    E.Beside calls notes World.Grows :=
  World.Since.beside hE World.Grows.keeps

end Log

namespace Process

/-- How two processes side by side stand when neither has crashed. -/
inductive BothEnd : Status B α → Status B β → Status B (α × β) → Prop
  | finished (a : α) (b : β) : BothEnd (.finished a) (.finished b) (.finished (a, b))
  | first (s : Suspended B α) (b : β) :
    BothEnd (.suspended s) (.finished b) (.suspended (.first s b))
  | second (a : α) (t : Suspended B β) :
    BothEnd (.finished a) (.suspended t) (.suspended (.second a t))
  | suspended (s : Suspended B α) (t : Suspended B β) :
    BothEnd (.suspended s) (.suspended t) (.suspended (.both s t))

/-- Each has come so far by itself, the first among what `Rp` allows and the second among what `Rq`
allows, or one of them has crashed. Nothing is said if one of them is out of fuel. -/
def Paired (Rp Rq : World B → World B → Prop) (p : Process S α) (q : Process S β) (w : World B)
    (st : Status B (α × β)) (w' : World B) : Prop :=
  (∃ f, st = .crashed f ∧ (Reaches (fun _ => Rp) p w (.crashed f) w' ∨
    ∃ w₂, Rq w w₂ ∧ Reaches (fun _ => Rq) q w₂ (.crashed f) w')) ∨
  st = .exhausted ∨ ∃ st₁ w₁ st₂ w₂ w₃,
    Reaches (fun _ => Rp) p w st₁ w₁ ∧ Rp w₁ w' ∧
    Rq w w₂ ∧ Reaches (fun _ => Rq) q w₂ st₂ w₃ ∧ Rq w₃ w' ∧ BothEnd st₁ st₂ st

variable {Rp Rq : World B → World B → Prop} {p : Process S α} {q : Process S β} {w w' : World B}

private theorem paired_proceed {x : Status B α × World B} {y : World B → Status B β × World B}
    {w₂ : World B} (hrefl : ∀ w, Rq w w) (hx : Reaches (fun _ => Rp) p w x.1 x.2)
    (hw₂ : Rq w w₂) (hy : Reaches (fun _ => Rq) q w₂ (y x.2).1 (y x.2).2)
    (hstep : Rp x.2 (y x.2).2) :
    let r := proceed x
      (fun a w => proceed (y w) (fun b w => (.finished (a, b), w))
        fun t w => (.suspended (.second a t), w))
      fun s w => proceed (y w) (fun b w => (.suspended (.first s b), w))
        fun t w => (.suspended (.both s t), w)
    Paired Rp Rq p q w r.1 r.2 := by
  rcases x with ⟨a | s | f | _, w₁⟩
  · rcases hyx : y w₁ with ⟨b | t | f | _, w₃⟩
    all_goals simp only [hyx] at hy hstep
    · simp only [proceed, hyx]
      exact .inr (.inr ⟨_, w₁, _, w₂, w₃, hx, hstep, hw₂, hy, hrefl w₃, .finished a b⟩)
    · simp only [proceed, hyx]
      exact .inr (.inr ⟨_, w₁, _, w₂, w₃, hx, hstep, hw₂, hy, hrefl w₃, .second a t⟩)
    · simp only [proceed, hyx]
      exact .inl ⟨f, rfl, .inr ⟨w₂, hw₂, hy⟩⟩
    · simp only [proceed, hyx]
      exact .inr (.inl rfl)
  · rcases hyx : y w₁ with ⟨b | t | f | _, w₃⟩
    all_goals simp only [hyx] at hy hstep
    · simp only [proceed, hyx]
      exact .inr (.inr ⟨_, w₁, _, w₂, w₃, hx, hstep, hw₂, hy, hrefl w₃, .first s b⟩)
    · simp only [proceed, hyx]
      exact .inr (.inr ⟨_, w₁, _, w₂, w₃, hx, hstep, hw₂, hy, hrefl w₃, .suspended s t⟩)
    · simp only [proceed, hyx]
      exact .inl ⟨f, rfl, .inr ⟨w₂, hw₂, hy⟩⟩
    · simp only [proceed, hyx]
      exact .inr (.inl rfl)
  · exact .inl ⟨f, rfl, .inl hx⟩
  · exact .inr (.inl rfl)

variable {callsp callsq : S.Request → Prop} {notesp notesq : S.Entry → Prop}
  {faultsp faultsq : Fault → Prop}

/-- Two processes side by side have each come so far among the steps of the other. -/
theorem Reaches.both_cases {st : Status B (α × β)} (hq : E.Beside callsq notesq Rp)
    (hp : E.Beside callsp notesp Rq) (up : p.Uses callsp notesp faultsp)
    (uq : q.Uses callsq notesq faultsq)
    (h : Reaches E (.both p q) w st w') : Paired Rp Rq p q w st w' := by
  induction h with
  | start fuel =>
    cases fuel with
    | zero => exact .inr (.inl rfl)
    | succ n =>
      rw [start_both]
      exact paired_proceed hp.refl (.start n) (hp.start up n w) (.start n) (hq.start uq n _)
  | resume fuel _ he ih =>
    rename_i s' w₁' w₂' _
    rcases ih with ⟨_, hs, -⟩ | hs | ⟨st₁, w₁, st₂, w₂, w₃, h₁, hw₁, hw₂, h₂, hw₃, hend⟩
    · cases hs
    · cases hs
    · have hw₁ : Rp w₁ w₂' := hq.trans hw₁ (hq.moves he)
      have hw₃ : Rq w₃ w₂' := hp.trans hw₃ (hp.moves he)
      cases hend with
      | suspended s t =>
        rw [Suspended.resume_both]
        have h₃ : Rq w₃ (s.resume fuel w₂').2 := hp.trans hw₃ (hp.resume up h₁ fuel w₂')
        exact paired_proceed hp.refl (h₁.resume fuel hw₁) hw₂ (h₂.resume fuel h₃)
          (hq.resume uq h₂ fuel _)
      | first s b =>
        have h₁' := h₁.resume fuel hw₁
        have h₃ : Rq w₃ (s.resume fuel w₂').2 := hp.trans hw₃ (hp.resume up h₁ fuel w₂')
        rw [Suspended.resume_first]
        rcases hs : s.resume fuel w₂' with ⟨a | s' | f | _, w₄⟩
        all_goals simp only [hs] at h₁' h₃
        · exact .inr (.inr ⟨_, w₄, _, w₂, w₃, h₁', hq.refl w₄, hw₂, h₂, h₃, .finished a b⟩)
        · exact .inr (.inr ⟨_, w₄, _, w₂, w₃, h₁', hq.refl w₄, hw₂, h₂, h₃, .first s' b⟩)
        · exact .inl ⟨f, rfl, .inl h₁'⟩
        · exact .inr (.inl rfl)
      | second a t =>
        have h₂' := h₂.resume fuel hw₃
        have h₁' : Rp w₁ (t.resume fuel w₂').2 := hq.trans hw₁ (hq.resume uq h₂ fuel w₂')
        rw [Suspended.resume_second]
        rcases ht : t.resume fuel w₂' with ⟨b | t' | f | _, w₄⟩
        all_goals simp only [ht] at h₂' h₁'
        · exact .inr (.inr ⟨_, w₁, _, w₂, w₄, h₁, h₁', hw₂, h₂', hp.refl w₄, .finished a b⟩)
        · exact .inr (.inr ⟨_, w₁, _, w₂, w₄, h₁, h₁', hw₂, h₂', hp.refl w₄, .second a t'⟩)
        · exact .inl ⟨f, rfl, .inr ⟨w₂, hw₂, h₂'⟩⟩
        · exact .inr (.inl rfl)

/-- Two processes side by side guarantee what each of them guarantees among the steps of the other,
if the other does not undo it afterwards. -/
theorem Meets.both {P : α → World B → Prop} {Q : β → World B → Prop}
    (hq : E.Beside callsq notesq Rp) (hp : E.Beside callsp notesp Rq)
    (up : p.Uses callsp notesp faultsp) (uq : q.Uses callsq notesq faultsq)
    (hP : Meets (fun _ => Rp) (fun _ => True) p w P)
    (hQ : ∀ w₂, Rq w w₂ → Meets (fun _ => Rq) (fun _ => True) q w₂ Q)
    (stableP : ∀ a w₁ w₂, P a w₁ → Rp w₁ w₂ → P a w₂)
    (stableQ : ∀ b w₁ w₂, Q b w₁ → Rq w₁ w₂ → Q b w₂) :
    Meets E (fun _ => True) (.both p q) w fun x w' => P x.1 w' ∧ Q x.2 w' := by
  intro st w' hr
  have hr : Reaches E (.both p q) w st w' := hr.mono And.left
  rcases hr.both_cases hq hp up uq with
    ⟨f, rfl, -⟩ | rfl | ⟨st₁, w₁, st₂, w₂, w₃, h₁, hw₁, hw₂, h₂, hw₃, hend⟩
  · exact trivial
  · exact trivial
  · cases hend with
    | finished a b =>
      have ha : P a w₁ := hP.of_reaches (fun _ _ _ _ _ => trivial) h₁
      have hb : Q b w₃ := (hQ w₂ hw₂).of_reaches (fun _ _ _ _ _ => trivial) h₂
      exact ⟨stableP a w₁ w' ha hw₁, stableQ b w₃ w' hb hw₃⟩
    | first | second | suspended => exact trivial

end Process
end NodeCoverage
