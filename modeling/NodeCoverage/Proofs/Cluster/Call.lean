import NodeCoverage.Cluster.Api
import NodeCoverage.Proofs.Process.Trace
/-!
# What a call guarantees

A call is an attempt that is repeated and may be abandoned. It ends with the answer to one of its
attempts, or it is cancelled because the signal has fired, perhaps before the first attempt.
-/

namespace NodeCoverage
namespace Cluster

open Process (Meets Uses)

variable {B : Behaviour Cluster} {E : Surroundings B} {I : World B → Prop} {w : World B}

/-- One attempt in `w₀` is answered in `w₁`; between the two is what the surroundings do. In neither
has the signal fired. The invariant need not hold after a definitive answer. -/
theorem meets_attempts {stop : Signal} {policy : Backoff} {r : Request}
    {Q : Except CheckError r.Result → World B → Prop} (hE : E.Transitive) (hw : I w)
    (hcall : ∀ w, I w → w.fired stop = false → I (w.call r).2)
    (hanswer : ∀ w₀ w₁, I w₀ → E.Still (w₀.call r).1.2.2 (w₀.call r).2 w₁ → I w₁ →
      w₁.fired stop = false → let x := w₁.answer (w₀.call r).1.1 r (w₀.call r).1.2.1
      Q x.1 x.2 ∧ ∀ e, x.1 = .error e → e.isTransient = true → I x.2)
    (hstop : ∀ w, I w → w.fired stop = true → Q (.error (.cancelled r.operation)) w) :
    Meets E I (call stop policy r) w Q := by
  refine .bind ((Meets.abandonOn (Q := fun o w => o.elim (Q (.error (.cancelled r.operation)) w)
    (Q · w)) (hstop w hw) hstop fun hunfired => ?_).mono fun o w hQ => ?_)
  · refine .unfired (.retry (hE.barring stop) ⟨hw, hunfired⟩ fun w hw => ?_)
    refine .call (hE.barring stop) ⟨hcall w hw.1 hw.2, hw.2⟩ fun w₁ hs hw₁ => ?_
    obtain ⟨hQ, hI⟩ := hanswer w w₁ hw.1 hs.of_barring hw₁.1 hw₁.2
    exact ⟨hQ, fun e he htransient => ⟨hI e he (by simpa using htransient), hw₁.2⟩⟩
  · cases o with
    | some outcome => exact .pure hQ
    | none => exact .pure hQ

theorem meets_call {stop : Signal} {policy : Backoff} {r : Request}
    {Q : Except CheckError r.Result → World B → Prop} (hE : E.Transitive) (hw : I w)
    (hcall : ∀ w, I w → I (w.call r).2)
    (hanswer : ∀ w₀ w₁, I w₀ → E.Still (w₀.call r).1.2.2 (w₀.call r).2 w₁ → I w₁ →
      let x := w₁.answer (w₀.call r).1.1 r (w₀.call r).1.2.1
      Q x.1 x.2 ∧ ∀ e, x.1 = .error e → I x.2)
    (hstop : ∀ w, I w → w.fired stop = true → Q (.error (.cancelled r.operation)) w) :
    Meets E I (call stop policy r) w Q :=
  meets_attempts hE hw (fun w hw _ => hcall w hw)
    (fun w₀ w₁ h₀ hs h₁ _ => (hanswer w₀ w₁ h₀ hs h₁).imp_right fun hI e he _ => hI e he) hstop

/-- If attempts and answers keep the invariant, a call that ends well was answered so by the
cluster where the invariant held. -/
theorem meets_answer {stop : Signal} {policy : Backoff} {r : Request} (hE : E.Transitive)
    (hw : I w) (hcall : ∀ w, I w → I (w.call r).2)
    (hanswer : ∀ w n k, I w → I (w.answer n r k).2) :
    Meets E I (call stop policy r) w fun o w' => I w' ∧
      ∀ a, o = .ok a → ∃ w₁ n k, I w₁ ∧ w₁.answer n r k = (o, w') := by
  apply meets_call hE hw hcall
  · intro w₀ w₁ _ _ hw₁
    exact ⟨⟨hanswer w₁ _ _ hw₁, fun _ _ => ⟨w₁, _, _, hw₁, rfl⟩⟩,
      fun _ _ => hanswer w₁ _ _ hw₁⟩
  · intro w hw _
    exact ⟨hw, nofun⟩

/-- As long as the signal does not fire, a call ends with an answer that is in the log. -/
theorem meets_logged {stop : Signal} {policy : Backoff} {r : Request} {v : World B}
    (hE : E.Transitive) (hw : I w) (hI : Keeps (S := Cluster) (· = r) (fun _ => False) I)
    (hlog : ∀ w, I w → ∃ events, v.Adds events w) (hunfired : ∀ w, I w → w.fired stop = false) :
    Meets E I (call stop policy r) w fun o w' => I w' ∧ v.Answered w' r o := by
  apply meets_call hE hw (fun w hw => hI.call rfl hw)
  · intro w₀ w₁ _ _ hw₁
    obtain ⟨events, hevents⟩ := hlog w₁ hw₁
    exact ⟨⟨hI.answer rfl hw₁, World.answered_answer hevents ..⟩, fun _ _ => hI.answer rfl hw₁⟩
  · intro w hw hfired
    rw [hunfired w hw] at hfired
    cases hfired

theorem uses_call {stop : Signal} {policy : Backoff} {r : Request} {calls : Request → Prop}
    {notes : Entry → Prop} (h : calls r) :
    Uses (S := Cluster) calls notes policy.Faults (call stop policy r) := by
  have hattempt : Uses (S := Cluster) calls notes policy.Faults (.call r) := h
  apply Uses.bind (.abandonOn (.retry hattempt fun _ hf => hf))
  intro o
  cases o <;> exact .pure

theorem complies_call {stop : Signal} {policy : Backoff} {r : Request} {c : Contract Cluster}
    (hr : c.calls r) (hf : ∀ f, policy.Faults f → c.faults f) :
    (call stop policy r).Complies c fun x => x = .error (.cancelled r.operation) ∨ c.told r x := by
  have hattempt : (Process.call (S := Cluster) r).Complies c fun x =>
      x = .error (.cancelled r.operation) ∨ c.told r x := ⟨hr, fun _ hx => .inr hx⟩
  exact .bind ⟨.inl rfl, Process.Complies.retry hattempt hf⟩

end Cluster
end NodeCoverage
