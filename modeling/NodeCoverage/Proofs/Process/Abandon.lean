import NodeCoverage.Process.Pause
import NodeCoverage.Proofs.Process.Yields
/-!
# Processes that are not abandoned

As long as its signal has not fired, a process that may be abandoned does what it does otherwise.
Left alone, no signal fires at all, so that it ends as it would by itself, and a pause lasts until
its end or until the deadline, whichever comes first.
-/

namespace NodeCoverage
namespace Process

variable {S : Service} {B : Behaviour S} {α : Type} {p : Process S α} {s : Signal}
  {w w' : World B}

/-- Where a process comes while the signal has not fired, it also comes if that may abandon it. -/
theorem Reaches.abandonOn {E : Surroundings B} {st : Status B α} (hf : w.fired s = false)
    (h : Reaches (E.barring s) p w st w') :
    ∃ st', InsideEnd s st st' ∧ Reaches E (.abandonOn s p) w st' w' := by
  induction h with
  | start fuel =>
    have hp := Reaches.start (E := E) (p := .abandonOn s p) (w := w) (fuel + 1)
    simp only [Process.start, hf] at hp
    rcases hn : p.start fuel w with ⟨_ | _ | _ | _, _⟩ <;> simp only [hn] at hp
    all_goals exact ⟨_, by constructor, hp⟩
  | @resume fuel t _ w₂ _ he ih =>
    obtain ⟨_, hend, hp⟩ := ih
    cases hend with
    | suspended =>
      have hp := hp.resume fuel he.1
      simp only [Suspended.resume, he.2] at hp
      rcases hn : t.resume fuel w₂ with ⟨_ | _ | _ | _, _⟩ <;> simp only [hn] at hp
      all_goals exact ⟨_, by constructor, hp⟩

theorem Reaches.alone_barring {st : Status B α} (hf : w.fired s = false)
    (h : Reaches .alone p w st w') : Reaches (Surroundings.alone.barring s) p w st w' := by
  induction h with
  | start fuel => exact .start fuel
  | resume fuel hp he ih =>
    refine ih.resume fuel ⟨he, ?_⟩
    rw [he]
    exact (congrFun hp.meanwhile.1 s).trans hf

namespace Yields

/-- What may be abandoned, and is not, ends by itself. -/
theorem abandonOn_iff {o : Option α} (hf : w.fired s = false) :
    Yields (.abandonOn s p) w o w' ↔ ∃ a, o = some a ∧ Yields p w a w' := by
  constructor
  · intro h
    rcases Finishes.abandonOn_cases h with ⟨a, rfl, hp⟩ | ⟨-, hfired⟩
    · exact ⟨a, rfl, Reaches.mono And.left hp⟩
    · rw [h.fired_eq, hf] at hfired
      cases hfired
  · rintro ⟨a, rfl, hp⟩
    obtain ⟨st, hend, h⟩ := (Reaches.alone_barring hf hp).abandonOn hf
    cases hend
    exact h

/-- A pause lasts for its interval, or until the deadline. -/
theorem pause_iff {deadline : Nat} {interval : Duration} {how : Pause}
    (hf : w.fired s = false) : Yields (Process.pause s deadline interval) w how w' ↔
      how = (if deadline ≤ w'.now then .overdue else .over) ∧
        w' = w.advance (Clock.timer (min deadline (Clock.after w.now interval))) := by
  unfold Process.pause
  rw [clock_bind_iff]
  simp only [bind_iff, abandonOn_iff hf, sleepUntil_iff]
  constructor
  · rintro ⟨_, _, ⟨_, rfl, rfl⟩, h⟩
    have h := clock_bind_iff.mp h
    obtain ⟨rfl, rfl⟩ := pure_iff.mp h
    exact ⟨rfl, rfl⟩
  · rintro ⟨rfl, rfl⟩
    exact ⟨_, _, ⟨(), rfl, rfl⟩, clock_bind_iff.mpr (pure_iff.mpr ⟨rfl, rfl⟩)⟩

end Yields
end Process
end NodeCoverage
