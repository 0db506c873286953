import NodeCoverage.Check.Sweep
import NodeCoverage.Check.Verification
import NodeCoverage.Proofs.Process.Finishes
/-!
# Rounds

The sweeps before a run and the looks of verification are both repeated in rounds, with a pause in
each. What a round makes of its sweep or of its look, and how it ends, is said here once: nothing
else has to open a round to follow it.
-/

namespace NodeCoverage

open Process (Finishes)

variable {B : Behaviour Cluster} {E : Surroundings B} {config : Config} {stop : Signal}
  {deadline : Nat} {w w' : World B}

/-! ### Looks -/

namespace Looks

variable {required : Nat} {l l' : Looks} {seen : Except CheckError (List String)}

/-- After what looks verification goes on: after one that is clean while there are too few, after an
unclean one, and after one that failed and was not cancelled. -/
theorem after_eq_inl_iff : l.after required seen = .inl l' ↔
    (seen = .ok [] ∧ l.clean + 1 < required ∧ l' = ⟨l.clean + 1, l.missing⟩) ∨
    (∃ node nodes, seen = .ok (node :: nodes) ∧ l' = ⟨0, node :: nodes⟩) ∨
    ∃ e, seen = .error e ∧ e.isCancelled = false ∧ l' = l := by
  match seen with
  | .ok [] =>
    by_cases henough : required ≤ l.clean + 1
    · simp [after, henough, Nat.not_lt.mpr henough]
    · simp [after, henough, Nat.lt_of_not_le henough, eq_comm (a := l')]
  | .ok (node :: nodes) =>
    constructor
    · rintro ⟨⟩
      exact .inr (.inl ⟨node, nodes, rfl, rfl⟩)
    · rintro (⟨⟨⟩, -⟩ | ⟨_, _, ⟨⟩, rfl⟩ | ⟨_, ⟨⟩, -⟩)
      rfl
  | .error e => cases he : e.isCancelled <;> simp [after, he, eq_comm (a := l')]

/-- With what looks verification ends: with the clean one of which there then are enough, and with
one that was cancelled. -/
theorem after_eq_inr_iff {outcome : Except CheckError Verdict} :
    l.after required seen = .inr outcome ↔
      (seen = .ok [] ∧ required ≤ l.clean + 1 ∧ outcome = .ok .covered) ∨
      ∃ e, seen = .error e ∧ e.isCancelled = true ∧ outcome = .error e := by
  match seen with
  | .ok [] =>
    by_cases henough : required ≤ l.clean + 1 <;> simp [after, henough, eq_comm (a := outcome)]
  | .ok (_ :: _) => simp [after]
  | .error e => cases he : e.isCancelled <;> simp [after, he, eq_comm (a := outcome)]

end Looks

namespace Verification

variable {set : ToleranceSet} {workloadName : String} {l : Looks}

/-- How a round ends: with the pause, with an interrupt, or with a look. -/
theorem finishes_round_iff {x : Looks ⊕ Except CheckError Verdict} :
    Finishes E (round config stop deadline set workloadName l) w x w' ↔
      (Finishes E (Process.pause stop deadline config.pollInterval) w .stopped w' ∧
        x = .inr (.error (.cancelled "verify"))) ∨
      (Finishes E (Process.pause stop deadline config.pollInterval) w .overdue w' ∧
        x = .inr (.error (.timeout "verify" l.describe))) ∨
      (Finishes E (Process.pause stop deadline config.pollInterval) w .over w' ∧
        w'.fired .shutdown = true ∧ x = .inr (.ok .aborted)) ∨
      ∃ w₁ seen, Finishes E (Process.pause stop deadline config.pollInterval) w .over w₁ ∧
        w₁.fired .shutdown = false ∧ Finishes E (look config stop set workloadName) w₁ seen w' ∧
        x = l.after config.stabilityTicks seen := by
  unfold round
  constructor
  · intro h
    obtain ⟨how, w₁, hpause, h⟩ := Finishes.bind_iff.mp h
    cases how with
    | stopped =>
      obtain ⟨rfl, rfl⟩ := Finishes.pure_iff.mp h
      exact .inl ⟨hpause, rfl⟩
    | overdue =>
      obtain ⟨rfl, rfl⟩ := Finishes.pure_iff.mp h
      exact .inr (.inl ⟨hpause, rfl⟩)
    | «over» =>
      obtain ⟨interrupted, _, hfired, h⟩ := Finishes.bind_iff.mp h
      obtain ⟨hinterrupted, rfl⟩ := Finishes.fired_iff.mp hfired
      cases interrupted with
      | true =>
        obtain ⟨rfl, rfl⟩ := Finishes.pure_iff.mp h
        exact .inr (.inr (.inl ⟨hpause, hinterrupted.symm, rfl⟩))
      | false =>
        obtain ⟨seen, _, hlook, h⟩ := Finishes.bind_iff.mp h
        obtain ⟨rfl, rfl⟩ := Finishes.pure_iff.mp h
        exact .inr (.inr (.inr ⟨_, seen, hpause, hinterrupted.symm, hlook, rfl⟩))
  · rintro (⟨hpause, rfl⟩ | ⟨hpause, rfl⟩ | ⟨hpause, hfired, rfl⟩ |
      ⟨w₁, seen, hpause, hfired, hlook, rfl⟩)
    · exact Finishes.bind_iff.mpr ⟨_, _, hpause, Finishes.pure_iff.mpr ⟨rfl, rfl⟩⟩
    · exact Finishes.bind_iff.mpr ⟨_, _, hpause, Finishes.pure_iff.mpr ⟨rfl, rfl⟩⟩
    · exact Finishes.bind_iff.mpr ⟨_, _, hpause, Finishes.bind_iff.mpr ⟨true, _,
        Finishes.fired_iff.mpr ⟨hfired.symm, rfl⟩, Finishes.pure_iff.mpr ⟨rfl, rfl⟩⟩⟩
    · exact Finishes.bind_iff.mpr ⟨_, _, hpause, Finishes.bind_iff.mpr ⟨false, _,
        Finishes.fired_iff.mpr ⟨hfired.symm, rfl⟩, Finishes.bind_iff.mpr ⟨seen, w', hlook,
          Finishes.pure_iff.mpr ⟨rfl, rfl⟩⟩⟩⟩

end Verification

/-! ### Sweeps -/

namespace Sweep

variable {run : Run} {found found' : List String} {result : Except CheckError SweepReport}

/-- After what sweeps there is another one: after one that has found something, and after one that
failed and was not cancelled. -/
theorem round.afterSweep_eq_inl_iff : afterSweep found result = .inl found' ↔
    (∃ report, result = .ok report ∧ report.isClear = false ∧ found' = report.found) ∨
    ∃ e, result = .error e ∧ e.isCancelled = false ∧ found' = found := by
  cases result with
  | ok report => cases hclear : report.isClear <;> simp [afterSweep, hclear, eq_comm (a := found')]
  | error e => cases he : e.isCancelled <;> simp [afterSweep, he, eq_comm (a := found')]

/-- With what sweeps they end: with one that has found nothing, and with one that was cancelled. -/
theorem round.afterSweep_eq_inr_iff {outcome : Except CheckError Unit} :
    afterSweep found result = .inr outcome ↔
      (∃ report, result = .ok report ∧ report.isClear = true ∧ outcome = .ok ()) ∨
      ∃ e, result = .error e ∧ e.isCancelled = true ∧ outcome = .error e := by
  cases result with
  | ok report => cases hclear : report.isClear <;> simp [afterSweep, hclear, eq_comm (a := outcome)]
  | error e => cases he : e.isCancelled <;> simp [afterSweep, he, eq_comm (a := outcome)]

/-- How a round ends: with its sweep, or with the pause after it. -/
theorem finishes_round_iff {x : List String ⊕ Except CheckError Unit} :
    Finishes E (round config stop deadline run found) w x w' ↔
      ∃ result w₁, Finishes E (once config stop run) w result w₁ ∧
        ((∃ outcome, round.afterSweep found result = .inr outcome ∧ x = .inr outcome ∧ w' = w₁) ∨
        ∃ found' how, round.afterSweep found result = .inl found' ∧
          Finishes E (Process.pause stop deadline config.removalPollInterval) w₁ how w' ∧
          x = match how with
            | .stopped => .inr (.error (.cancelled "orphan cleanup"))
            | .overdue => .inr (.error (.timeout "orphan cleanup" (describe found')))
            | .over => .inl found') := by
  unfold round
  rw [Finishes.bind_iff]
  refine exists_congr fun result => exists_congr fun w₁ => and_congr_right fun _ => ?_
  cases hafter : round.afterSweep found result with
  | inr outcome =>
    simp only [Finishes.pure_iff, Sum.inr.injEq, reduceCtorEq, false_and, exists_false, or_false,
      exists_eq_left']
  | inl found' =>
    simp only [Finishes.bind_iff, Sum.inl.injEq, reduceCtorEq, false_and, exists_false, false_or,
      exists_and_left, exists_eq_left']
    constructor
    · rintro ⟨how, w₂, hpause, h⟩
      cases how <;> obtain ⟨rfl, rfl⟩ := Finishes.pure_iff.mp h <;> exact ⟨_, hpause, rfl⟩
    · rintro ⟨how, hpause, rfl⟩
      cases how <;> exact ⟨_, w', hpause, Finishes.pure_iff.mpr ⟨rfl, rfl⟩⟩

end Sweep
end NodeCoverage
