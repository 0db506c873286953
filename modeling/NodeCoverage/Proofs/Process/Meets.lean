import NodeCoverage.Process.Pause
import NodeCoverage.Proofs.Process.Reaches
/-!
# What a process guarantees

`Meets E I p w Q` says of a process begun in `w`: whenever it waits, and also when it crashes, `I`
holds; and when it is done with `a`, then `Q a` holds. The surroundings may do what `E` allows, as
long as they keep `I` too. Nothing is said of a process that is out of fuel, since it is on its way.
There is one rule for each step of a process, so that what holds is followed from step to step; in
a wait it is `I` that is left.
-/

namespace NodeCoverage

variable {S : Service} {B : Behaviour S} {α β σ : Type}

/-- The process has ended as `Q` says, or it waits or has crashed and `I` holds. -/
def Status.Stands (I : World B → Prop) (Q : α → World B → Prop) (st : Status B α)
    (w : World B) : Prop :=
  match st with
  | .finished a => Q a w
  | .suspended _ => I w
  | .crashed _ => I w
  | .exhausted => True

namespace Process

/-- Begun in `w`, the process keeps `I` wherever it waits, and ends as `Q` says. -/
def Meets (E : Surroundings B) (I : World B → Prop) (p : Process S α) (w : World B)
    (Q : α → World B → Prop) : Prop :=
  ∀ st w', Reaches (E.keeping I) p w st w' → st.Stands I Q w'

namespace Meets

variable {E : Surroundings B} {I J : World B → Prop} {w : World B}

theorem mono {p : Process S α} {Q R : α → World B → Prop} (h : Meets E I p w Q)
    (hQR : ∀ a w, Q a w → R a w) : Meets E I p w R := by
  intro st w' hr
  have hst := h st w' hr
  cases st with
  | finished a => exact hQR a w' hst
  | suspended | crashed | exhausted => exact hst

/-- What a process guarantees at its end in any case, it guarantees besides. -/
theorem and {p : Process S α} {Q R : α → World B → Prop} (hQ : Meets E I p w Q)
    (hR : Meets E (fun _ => True) p w R) : Meets E I p w fun a w => Q a w ∧ R a w := by
  intro st w' hr
  have hst := hQ st w' hr
  cases st with
  | finished a => exact ⟨hst, hR _ w' (hr.mono fun he => ⟨he.1, trivial⟩)⟩
  | suspended | crashed | exhausted => exact hst

/-- What the surroundings keep by themselves need not be asked of them. -/
theorem of_reaches {p : Process S α} {Q : α → World B → Prop} {st : Status B α} {w' : World B}
    (h : Meets E I p w Q) (hE : ∀ t w₁ w₂, I w₁ → E t w₁ w₂ → I w₂)
    (hr : Reaches E p w st w') : st.Stands I Q w' := by
  refine h st w' ?_
  induction hr with
  | start fuel => exact .start fuel
  | resume fuel _ he ih => exact ih.resume fuel ⟨he, hE _ _ _ (h _ _ ih) he⟩

/-- A part may have an invariant of its own, if that is what the surroundings keep by themselves. -/
theorem within {p : Process S α} {Q : α → World B → Prop} (h : Meets E J p w Q)
    (hE : ∀ t w₁ w₂, J w₁ → E t w₁ w₂ → J w₂) (hJ : ∀ w, J w → I w) : Meets E I p w Q := by
  intro st w' hr
  have hst := h.of_reaches hE (hr.mono fun he => he.1)
  cases st with
  | finished | exhausted => exact hst
  | suspended | crashed => exact hJ w' hst

/-- As long as the signal has not fired, this is part of the invariant. -/
theorem unfired {s : Signal} {p : Process S α} {Q : α → World B → Prop}
    (h : Meets (E.barring s) (fun w => I w ∧ w.fired s = false) p w Q) :
    Meets (E.barring s) I p w Q := by
  intro st w' hr
  have hst := h st w' (hr.mono fun he => ⟨he.1, he.2, he.1.2⟩)
  cases st with
  | finished | exhausted => exact hst
  | suspended | crashed => exact hst.1

/-- Nothing is guaranteed by every process. -/
theorem anything {p : Process S α} : Meets E (fun _ => True) p w fun _ _ => True := by
  intro st w' _
  cases st <;> exact trivial

/-! ### Steps -/

theorem pure {a : α} {Q : α → World B → Prop} (h : Q a w) :
    Meets E I (Pure.pure a : Process S α) w Q := by
  intro st w' hr
  obtain ⟨rfl, rfl | rfl⟩ := hr.pure_cases
  · exact h
  · exact trivial

theorem bind {p : Process S α} {next : α → Process S β} {Q : β → World B → Prop}
    (h : Meets E I p w fun a w₁ => Meets E I (next a) w₁ Q) : Meets E I (p >>= next) w Q := by
  intro st w' hr
  rcases hr.bind_cases with ⟨st₁, hp, hend⟩ | ⟨a, w₁, hp, hnext⟩
  · have hst := h _ _ hp
    cases hend <;> exact hst
  · exact h _ _ hp _ _ hnext

theorem seq {p : Process S α} {next : α → Process S β} {P : α → World B → Prop}
    {Q : β → World B → Prop} (h : Meets E I p w P)
    (hnext : ∀ a w₁, P a w₁ → Meets E I (next a) w₁ Q) : Meets E I (p >>= next) w Q :=
  bind (h.mono hnext)

theorem clock {Q : Nat → World B → Prop} (h : Q w.now w) :
    Meets E I (Process.clock : Process S Nat) w Q := by
  intro st w' hr
  obtain ⟨rfl, rfl | rfl⟩ := hr.clock_cases
  · exact h
  · exact trivial

theorem draw {Q : Rat → World B → Prop} (h : Q w.draw w) :
    Meets E I (Process.draw : Process S Rat) w Q := by
  intro st w' hr
  obtain ⟨rfl, rfl | rfl⟩ := hr.draw_cases
  · exact h
  · exact trivial

theorem fired {s : Signal} {Q : Bool → World B → Prop} (h : Q (w.fired s) w) :
    Meets E I (Process.fired s : Process S Bool) w Q := by
  intro st w' hr
  obtain ⟨rfl, rfl | rfl⟩ := hr.fired_cases
  · exact h
  · exact trivial

theorem note {e : S.Entry} {Q : Unit → World B → Prop} (h : Q () (w.note e)) :
    Meets E I (Process.note e : Process S Unit) w Q := by
  intro st w' hr
  rcases hr.note_cases with ⟨rfl, rfl⟩ | ⟨rfl, rfl⟩
  · exact trivial
  · exact h

theorem crash {f : Fault} {Q : α → World B → Prop} (h : I w) :
    Meets E I (Process.crash f : Process S α) w Q := by
  intro st w' hr
  obtain ⟨rfl, rfl | rfl⟩ := hr.crash_cases
  · exact h
  · exact trivial

private theorem of_still {E : Surroundings B} {t : Nat} {w w' : World B} (hw : I w)
    (h : (E.keeping I).Still t w w') : E.Still t w w' ∧ I w' := by
  rcases h with rfl | h
  · exact ⟨.inl rfl, hw⟩
  · exact ⟨.inr h.1, h.2⟩

theorem call {r : S.Request} {Q : S.Reply r → World B → Prop} (hE : E.Transitive)
    (hI : I (w.call r).2)
    (h : ∀ w₁, E.Still (w.call r).1.2.2 (w.call r).2 w₁ → I w₁ →
      Q (w₁.answer (w.call r).1.1 r (w.call r).1.2.1).1
        (w₁.answer (w.call r).1.1 r (w.call r).1.2.1).2) :
    Meets E I (Process.call r) w Q := by
  intro st w' hr
  rcases hr.call_cases (hE.keeping I) with ⟨rfl, -⟩ | ⟨rfl, hs⟩ | ⟨w₁, hs, -, rfl, rfl⟩
  · exact trivial
  · exact (of_still hI hs).2
  · obtain ⟨he, hI₁⟩ := of_still hI hs
    exact h w₁ he hI₁

theorem sleepUntil {t : Nat} {Q : Unit → World B → Prop} (hE : E.Transitive) (hI : I w)
    (h : ∀ w₁, E.Still (Clock.timer t) w w₁ → Clock.timer t ≤ w₁.now → I w₁ → Q () w₁) :
    Meets E I (Process.sleepUntil t : Process S Unit) w Q := by
  intro st w' hr
  rcases hr.sleepUntil_cases (hE.keeping I) with ⟨rfl, -⟩ | ⟨rfl, hs⟩ | ⟨rfl, hs, ht⟩
  · exact trivial
  · exact (of_still hI hs).2
  · obtain ⟨he, hI₁⟩ := of_still hI hs
    exact h w' he ht hI₁

theorem iterate {body : σ → Process S (σ ⊕ α)} {s : σ} {Q : α → World B → Prop}
    (J : σ → World B → Prop) (hs : J s w)
    (hbody : ∀ s w, J s w → Meets E I (body s) w fun x w' => x.elim (J · w') (Q · w')) :
    Meets E I (.iterate body s) w Q := by
  intro st w' hr
  obtain ⟨s₁, w₁, st₁, hrounds, hb, hend⟩ := hr.iterate_cases
  -- every round ends where the next one begins
  have hJ : J s₁ w₁ := by
    clear hb
    induction hrounds with
    | none => exact hs
    | next _ hb ih => exact hbody _ _ ih _ _ hb
  have hst := hbody _ _ hJ _ _ hb
  cases hend with
  | finished | suspended | crashed => exact hst
  | exhausted => exact trivial

theorem abandonOn {s : Signal} {p : Process S α} {Q : Option α → World B → Prop}
    (hstart : w.fired s = true → Q none w)
    (hstop : ∀ w₁, I w₁ → w₁.fired s = true → Q none w₁)
    (hp : w.fired s = false → Meets (E.barring s) I p w fun a w₁ => Q (some a) w₁) :
    Meets E I (.abandonOn s p) w Q := by
  intro st w' hr
  have inside {st₁ : Status B α} {w₁ : World B} (h : Reaches ((E.keeping I).barring s) p w st₁ w₁) :
      Reaches ((E.barring s).keeping I) p w st₁ w₁ :=
    h.mono fun he => ⟨⟨he.1.1, he.2⟩, he.1.2⟩
  rcases hr.abandonOn_cases with ⟨rfl, -⟩ | ⟨rfl, rfl, hf⟩ |
    ⟨hw, ⟨st₁, h₁, hend⟩ | ⟨t, w₁, rfl, -, he, hf⟩⟩
  · exact trivial
  · exact hstart hf
  · have hst := hp hw _ _ (inside h₁)
    cases hend <;> exact hst
  · exact hstop w' he.2 hf

theorem pause {s : Signal} {deadline : Nat} {interval : Duration} {Q : Pause → World B → Prop}
    (hE : E.Transitive) (hw : I w) (hstop : ∀ w, I w → w.fired s = true → Q .stopped w)
    (hwoken : ∀ w, I w → Q (if deadline ≤ w.now then .overdue else .over) w) :
    Meets E I (Process.pause s deadline interval) w Q := by
  have wait (t : Nat) : Meets E I (.abandonOn s (.sleepUntil t) : Process S (Option Unit)) w
      fun o w' => I w' ∧ (o = none → w'.fired s = true) := by
    refine .abandonOn (fun hf => ⟨hw, fun _ => hf⟩) (fun _ hw₁ hf => ⟨hw₁, fun _ => hf⟩) fun _ => ?_
    exact .sleepUntil (hE.barring s) hw fun _ _ _ hw₁ => ⟨hw₁, nofun⟩
  refine bind (clock (seq (wait _) fun o w₁ hw₁ => ?_))
  cases o with
  | none => exact pure (hstop w₁ hw₁.1 (hw₁.2 rfl))
  | some _ => exact bind (clock (pure (hwoken w₁ hw₁.1)))

/-- An attempt that is repeated ends as its last repetition does. After an attempt that failed, but
not for good, the invariant must hold, since a pause may follow. -/
theorem retry {ε : Type} {policy : Backoff} {isPermanent : ε → Bool}
    {attempt : Process S (Except ε α)} {Q : Except ε α → World B → Prop} (hE : E.Transitive)
    (hw : I w) (h : ∀ w, I w → Meets E I attempt w fun outcome w' =>
      Q outcome w' ∧ ∀ e, outcome = .error e → isPermanent e = false → I w') :
    Meets E I (Process.retry policy isPermanent attempt) w Q := by
  unfold Process.retry
  apply bind
  apply clock
  apply iterate (fun _ w => I w) hw
  intro interval w hw
  apply (h w hw).seq
  intro outcome w₁ hout
  cases outcome with
  | ok a => exact pure hout.1
  | error e =>
    dsimp only
    split
    · exact pure hout.1
    · next hpermanent =>
      refine bind (draw (bind (clock ?_)))
      split
      · exact pure hout.1
      · have hw₁ := hout.2 e rfl (eq_false_of_ne_true hpermanent)
        refine bind (bind (clock (sleepUntil hE hw₁ fun w₂ _ _ hw₂ => ?_)))
        split
        · exact pure hw₂
        · exact crash hw₂

end Meets
end Process
end NodeCoverage
