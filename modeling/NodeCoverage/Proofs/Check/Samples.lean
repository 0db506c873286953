import NodeCoverage.Proofs.Check.Rounds
import NodeCoverage.Proofs.Process.Yields
/-!
# Verification as a series of looks

Left alone, verification is a series of looks at the nodes with pauses between them. A look is clean
when no node was missing, unclean when some were, and neither when it failed. Verification ends
well only at the end of a series of looks that begins after the last unclean one and in which there
are as many clean looks as are required.
-/

namespace NodeCoverage

open Process (Rounds Yields)

variable {B : Behaviour Cluster}

/-- What a look has found: the names of the missing nodes, or why it failed. -/
abbrev Look := Except CheckError (List String)

namespace Look

def isClean : Look → Bool
  | .ok [] => true
  | _ => false

def isUnclean : Look → Bool
  | .ok (_ :: _) => true
  | _ => false

end Look

namespace Verification

/-- Looks at the nodes, each after a pause that was not cut short. -/
inductive Looked (config : Config) (stop : Signal) (deadline : Nat) (set : ToleranceSet)
    (workloadName : String) (w : World B) : List Look → World B → Prop
  | none : Looked config stop deadline set workloadName w [] w
  | next {looks : List Look} {seen : Look} {w₁ w₂ w₃ : World B} :
    Looked config stop deadline set workloadName w looks w₁ →
    Yields (Process.pause stop deadline config.pollInterval) w₁ .over w₂ →
    Yields (look config stop set workloadName) w₂ seen w₃ →
    Looked config stop deadline set workloadName w (looks ++ [seen]) w₃

/-- The looks end with a window without an unclean one, in which at least the required number of
looks, and the last one, are clean. -/
def Stable (required : Nat) (looks : List Look) : Prop :=
  ∃ early window, looks = early ++ window ∧ (∀ seen ∈ window, seen.isUnclean = false) ∧
    required ≤ window.countP Look.isClean ∧ window.getLast? = some (.ok [])

/-- The number of clean looks since a node was missing. -/
def Counted (looks : List Look) (clean : Nat) : Prop :=
  ∃ early window, looks = early ++ window ∧ (∀ seen ∈ window, seen.isUnclean = false) ∧
    window.countP Look.isClean = clean

section

variable {looks : List Look} {seen : Look} {required : Nat} {l : Looks}

theorem Counted.next {l' : Looks} (h : Counted looks l.clean)
    (hl : l.after required seen = .inl l') : Counted (looks ++ [seen]) l'.clean := by
  obtain ⟨early, window, rfl, hclean, hcount⟩ := h
  rcases Looks.after_eq_inl_iff.mp hl with ⟨rfl, -, rfl⟩ | ⟨node, nodes, rfl, rfl⟩ |
    ⟨e, rfl, -, rfl⟩
  · refine ⟨early, window ++ [.ok []], by simp, ?_, by simp [← hcount, Look.isClean]⟩
    simpa [or_imp, forall_and, Look.isUnclean] using hclean
  · exact ⟨early ++ window ++ [.ok (node :: nodes)], [], by simp, by simp, rfl⟩
  · refine ⟨early, window ++ [.error e], by simp, ?_, by simp [← hcount, Look.isClean]⟩
    simpa [or_imp, forall_and, Look.isUnclean] using hclean

/-- Verification ends well only after a stable series of looks. -/
theorem Counted.stable {v : Verdict} (h : Counted looks l.clean)
    (hl : l.after required seen = .inr (.ok v)) :
    v = .covered ∧ Stable required (looks ++ [seen]) := by
  obtain ⟨early, window, rfl, hclean, hcount⟩ := h
  obtain ⟨rfl, henough, hv⟩ | ⟨_, -, -, hv⟩ := Looks.after_eq_inr_iff.mp hl
  · cases hv
    refine ⟨rfl, early, window ++ [.ok []], by simp, ?_, ?_, by simp⟩
    · simpa [or_imp, forall_and, Look.isUnclean] using hclean
    · simpa [hcount, Look.isClean] using henough
  · cases hv

end

variable {config : Config} {stop : Signal} {deadline : Nat} {set : ToleranceSet}
  {workloadName : String} {w w' : World B} {l : Looks}

theorem round_cases {x : Looks ⊕ Except CheckError Verdict} (hf : w.fired .shutdown = false)
    (h : Yields (round config stop deadline set workloadName l) w x w') :
    (∃ e, x = .inr (.error e)) ∨
      ∃ w₁ seen, Yields (Process.pause stop deadline config.pollInterval) w .over w₁ ∧
        Yields (look config stop set workloadName) w₁ seen w' ∧
        x = l.after config.stabilityTicks seen := by
  rcases finishes_round_iff.mp h with ⟨-, rfl⟩ | ⟨-, rfl⟩ | ⟨hpause, hfired, -⟩ |
    ⟨w₁, seen, hpause, -, hlook, rfl⟩
  · exact .inl ⟨_, rfl⟩
  · exact .inl ⟨_, rfl⟩
  · rw [Yields.fired_eq hpause, hf] at hfired
    cases hfired
  · exact .inr ⟨w₁, seen, hpause, hlook, rfl⟩

theorem looked_of_rounds {l' : Looks} (hf : w.fired .shutdown = false)
    (h : Rounds .alone (round config stop deadline set workloadName) .none w l' w') :
    w'.fired .shutdown = false ∧ ∃ looks,
      Looked config stop deadline set workloadName w looks w' ∧ Counted looks l'.clean := by
  induction h with
  | none => exact ⟨hf, [], .none, [], [], rfl, by simp, rfl⟩
  | next _ hb ih =>
    obtain ⟨hf₁, looks, hlooked, hcounted⟩ := ih
    refine ⟨by rw [Yields.fired_eq hb, hf₁], ?_⟩
    rcases round_cases hf₁ hb with ⟨_, hx⟩ | ⟨_, seen, hpause, hlook, hx⟩
    · cases hx
    · exact ⟨looks ++ [seen], hlooked.next hpause hlook, hcounted.next hx.symm⟩

/-- Without an interrupt, verification that does not fail has found a stable series of looks. -/
theorem stable_of_yields {v : Verdict} (hf : w.fired .shutdown = false)
    (h : Yields (run config stop deadline set workloadName) w (.ok v) w') :
    v = .covered ∧ ∃ looks, Looked config stop deadline set workloadName w looks w' ∧
      Stable config.stabilityTicks looks := by
  obtain ⟨l, w₁, hrounds, hlast⟩ := h.iterate_cases
  obtain ⟨hf₁, looks, hlooked, hcounted⟩ := looked_of_rounds hf hrounds
  rcases round_cases hf₁ hlast with ⟨_, hx⟩ | ⟨_, seen, hpause, hlook, hx⟩
  · cases hx
  · obtain ⟨rfl, hstable⟩ := hcounted.stable hx.symm
    exact ⟨rfl, looks ++ [seen], hlooked.next hpause hlook, hstable⟩

end Verification
end NodeCoverage
