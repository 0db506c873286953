import NodeCoverage.Proofs.Process.Complies
import NodeCoverage.Proofs.Process.Meets
/-!
# What a process makes use of

The shape of a process shows which requests it can ever make, which entries it can leave and what it
can crash with, whatever it is answered. What is kept by these calls, their answers and these
entries is kept by the process, also when its parts run side by side.
-/

namespace NodeCoverage

variable {S : Service} {B : Behaviour S} {α β σ : Type}
  {calls : S.Request → Prop} {notes : S.Entry → Prop} {faults : Fault → Prop}

/-- Only such calls are made, only such entries are left, and a crash is with such a fault. -/
def Process.Uses (calls : S.Request → Prop) (notes : S.Entry → Prop) (faults : Fault → Prop) :
    {α : Type} → Process S α → Prop
  | _, .pure _ => True
  | _, .bind p next => p.Uses calls notes faults ∧ ∀ a, (next a).Uses calls notes faults
  | _, .clock => True
  | _, .draw => True
  | _, .fired _ => True
  | _, .note entry => notes entry
  | _, .call r => calls r
  | _, .sleepUntil _ => True
  | _, .iterate body _ => ∀ s, (body s).Uses calls notes faults
  | _, .abandonOn _ p => p.Uses calls notes faults
  | _, .both p q => p.Uses calls notes faults ∧ q.Uses calls notes faults
  | _, .crash f => faults f

namespace Process

theorem Uses.mono {calls' : S.Request → Prop} {notes' : S.Entry → Prop} {p : Process S α}
    (h : p.Uses calls notes faults) (hc : ∀ r, calls r → calls' r) (hn : ∀ e, notes e → notes' e) :
    p.Uses calls' notes' faults := by
  induction p with
  | pure | clock | draw | fired | sleepUntil => exact trivial
  | crash => exact h
  | note e => exact hn e h
  | call r => exact hc r h
  | bind p next ihp ihnext => exact ⟨ihp h.1, fun a => ihnext a (h.2 a)⟩
  | iterate body s ih => exact fun s => ih s (h s)
  | abandonOn s p ih => exact ih h
  | both p q ihp ihq => exact ⟨ihp h.1, ihq h.2⟩

theorem Uses.pure {a : α} : Uses calls notes faults (Pure.pure a : Process S α) := trivial

theorem Uses.bind {p : Process S α} {next : α → Process S β} (hp : Uses calls notes faults p)
    (hnext : ∀ a, Uses calls notes faults (next a)) : Uses calls notes faults (p >>= next) :=
  ⟨hp, hnext⟩

theorem Uses.clock : Uses calls notes faults (Process.clock : Process S Nat) := trivial

theorem Uses.draw : Uses calls notes faults (Process.draw : Process S Rat) := trivial

theorem Uses.fired {s : Signal} :
    Uses calls notes faults (Process.fired s : Process S Bool) := trivial

theorem Uses.note {entry : S.Entry} (h : notes entry) :
    Uses calls notes faults (Process.note entry : Process S Unit) := h

theorem Uses.sleepUntil {t : Nat} :
    Uses calls notes faults (Process.sleepUntil t : Process S Unit) := trivial

theorem Uses.iterate {body : σ → Process S (σ ⊕ α)} {s : σ}
    (h : ∀ s, Uses calls notes faults (body s)) :
    Uses calls notes faults (Process.iterate body s) := h

theorem Uses.abandonOn {s : Signal} {p : Process S α} (h : Uses calls notes faults p) :
    Uses calls notes faults (Process.abandonOn s p) := h

theorem Uses.both {p : Process S α} {q : Process S β} (hp : Uses calls notes faults p)
    (hq : Uses calls notes faults q) : Uses calls notes faults (Process.both p q) :=
  ⟨hp, hq⟩

theorem Uses.crash {f : Fault} (h : faults f) :
    Uses calls notes faults (Process.crash f : Process S α) := h

theorem Uses.retry {ε : Type} {policy : Backoff} {isPermanent : ε → Bool}
    {attempt : Process S (Except ε α)} (h : Uses calls notes faults attempt)
    (hf : ∀ f, policy.Faults f → faults f) :
    Uses calls notes faults (Process.retry policy isPermanent attempt) := by
  unfold Process.retry
  apply bind clock
  intro started
  apply iterate
  intro interval
  apply bind h
  intro outcome
  cases outcome with
  | ok a => exact pure
  | error e =>
    dsimp only
    split
    · exact pure
    · apply bind draw
      intro drawn
      apply bind clock
      intro now
      split
      · exact pure
      · apply bind (bind clock fun _ => sleepUntil)
        intro _
        split
        · exact pure
        · next hnone => exact crash (hf _ ⟨rfl, _, hnone⟩)

end Process

/-! ### What is kept -/

theorem Process.Uses.complies {c : Contract S} {p : Process S α}
    (h : p.Uses c.calls c.notes faults) (hf : ∀ f, faults f → c.faults f) :
    p.Complies c fun _ => True := by
  induction p with
  | pure | sleepUntil => exact trivial
  | crash f => exact hf f h
  | clock | draw | fired => exact fun _ => trivial
  | note => exact ⟨h, trivial⟩
  | call => exact ⟨h, fun _ _ => trivial⟩
  | bind p next ihp ihnext => exact ⟨_, ihp h.1, fun a _ => ihnext a (h.2 a)⟩
  | iterate body s ih =>
    apply Complies.iterate (fun _ => True) trivial
    intro s _
    apply (ih s (h s)).mono
    intro x _
    cases x <;> exact trivial
  | abandonOn s p ih => exact ⟨trivial, ih h⟩
  | both p q ihp ihq => exact ⟨_, _, ihp h.1, ihq h.2, fun _ _ _ _ => trivial⟩

variable {I : World B → Prop}

/-- A contract that says nothing of the answers and of crashes. -/
def unheard (calls : S.Request → Prop) (notes : S.Entry → Prop) : Contract S :=
  ⟨calls, notes, fun _ => True, fun _ _ => True⟩

theorem unheard_heard : (unheard calls notes).Heard fun _ : World B => True :=
  ⟨fun _ => trivial, fun _ => ⟨trivial, trivial⟩, fun _ => trivial⟩

/-- A process that complies does so wherever it comes, if what happens in the meantime is neither an
answer nor breaks the invariant. -/
theorem Process.Reaches.complies {c : Contract S} {T : World B → Prop} {E : Surroundings B}
    {p : Process S α} {Q : α → Prop} {st : Status B α} {w w' : World B}
    (hr : Reaches E p w st w') (hI : Keeps c.calls c.notes I) (hT : c.Heard T)
    (hE : ∀ t w₁ w₂, E t w₁ w₂ → (T w₂ → T w₁) ∧ (I w₁ → I w₂)) (hp : p.Complies c Q)
    (hw : T w → I w) : T w' → T w ∧ I w' ∧ st.Complies c Q := by
  induction hr with
  | start n => exact p.start_complies hI hT n fun ht => ⟨ht, hw ht, hp⟩
  | resume n _ he ih =>
    refine Suspended.resume_complies hI hT n fun ht => ?_
    obtain ⟨h₀, hI₁, hs⟩ := ih ((hE _ _ _ he).1 ht)
    exact ⟨h₀, (hE _ _ _ he).2 hI₁, hs⟩

/-- A process crashes with nothing else than its shape shows. -/
theorem Process.Uses.faults_of_reaches {E : Surroundings B} {p : Process S α} {w w' : World B}
    {f : Fault} (hp : p.Uses calls notes faults) (hr : Reaches E p w (.crashed f) w') :
    faults f := by
  have hcomplies : p.Complies ⟨calls, notes, faults, fun _ _ => True⟩ fun _ => True :=
    hp.complies fun _ h => h
  exact (hr.complies (T := fun _ => True) (I := fun _ => True)
    ⟨fun _ _ => trivial, fun _ _ => trivial, fun _ _ => trivial⟩
    ⟨fun _ => trivial, fun _ => ⟨trivial, trivial⟩, fun _ => trivial⟩
    (fun _ _ _ _ => ⟨id, id⟩) hcomplies (fun _ => trivial) trivial).2.2

/-- What is kept by all that a process makes use of, and as time passes, is kept by a run of it. -/
theorem Suspended.runUntil_keeps {fuel rounds : Nat} {bound : Option Nat} {p : Process S α}
    {w : World B} (hI : Keeps calls notes I) (hadvance : ∀ w t, I w → I (w.advance t))
    (hp : p.Uses calls notes faults) (hw : I w) :
    I (Suspended.runUntil fuel bound rounds (.ready p) w).2 := by
  have hp : (Suspended.ready p : Suspended B α).Complies (unheard calls notes) fun _ => True :=
    hp.complies (c := unheard calls notes) fun _ _ => trivial
  exact (Suspended.runUntil_complies (v := w) hI unheard_heard
    (fun w t => ⟨hadvance w t, fun _ => trivial⟩) (fun ht => ⟨ht, hw, hp⟩) trivial).2.1

theorem Process.Meets.of_uses {E : Surroundings B} {p : Process S α} {w : World B} (hw : I w)
    (hI : Keeps calls notes I) (hp : p.Uses calls notes faults) :
    Meets E I p w fun _ w' => I w' := by
  intro st w' hr
  obtain ⟨-, hI', -⟩ := hr.complies (Q := fun _ => True) hI unheard_heard
    (fun _ _ _ he => ⟨fun _ => trivial, fun _ => he.2⟩)
    (hp.complies (c := unheard calls notes) fun _ _ => trivial) (fun _ => hw) trivial
  cases st with
  | finished | suspended | crashed => exact hI'
  | exhausted => exact trivial

/-- What is kept may be more than the invariant, if the surroundings keep it by themselves. -/
theorem Process.Meets.of_uses_within {E : Surroundings B} {J : World B → Prop} {p : Process S α}
    {w : World B} {calls' : S.Request → Prop} {notes' : S.Entry → Prop} (hw : J w)
    (hJ : Keeps calls notes J) (hp : p.Uses calls' notes' faults) (hcalls : ∀ r, calls' r → calls r)
    (hnotes : ∀ e, notes' e → notes e) (hE : ∀ t w₁ w₂, J w₁ → E t w₁ w₂ → J w₂)
    (hI : ∀ w, J w → I w) : Meets E I p w fun _ w' => J w' :=
  (Meets.of_uses hw hJ (hp.mono hcalls hnotes)).within hE hI

end NodeCoverage
