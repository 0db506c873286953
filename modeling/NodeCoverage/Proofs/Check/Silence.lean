import NodeCoverage.Proofs.Check.Course
import NodeCoverage.Proofs.Check.Promptness
/-!
# Nothing happens after an end by force

An end by force tells what it leaves running to stop at once. The worker is abandoned when it is
next woken, and a last sweep that it has begun heeds the signal. So the run makes no call any more,
nor an entry in the log, for however long it goes on.
-/

namespace NodeCoverage

variable {B : Behaviour Cluster} {w w' : World B}

theorem Status.Heeds.goOn_world {S : Service} {B : Behaviour S} {α : Type} {stop : Signal}
    {st : Status B α} {Q : α → Prop} {w : World B} (h : st.Heeds stop Q)
    (hw : w.fired stop = true) (fuel : Nat) : (st.goOn fuel none w).2 = w := by
  cases st with
  | suspended p => exact (Suspended.Heeds.runUntil_endsIn h hw).world_eq fuel
  | finished | crashed | exhausted => rfl

/-- What is left is over as soon as it is woken after the signal. -/
def Remnant.Heeds : Remnant B → Prop
  | nothing => True
  | worker st => st.Heeds .hardStop fun _ => True
  | sweep st => st.Heeds .hardStop fun _ => True

theorem Remnant.Heeds.goOn_world {left : Remnant B} (h : left.Heeds)
    (hw : w.fired .hardStop = true) (fuel : Nat) : (left.goOn fuel w).2 = w := by
  cases left with
  | nothing => rfl
  | worker st => exact Status.Heeds.goOn_world h hw fuel
  | sweep st => exact Status.Heeds.goOn_world h hw fuel

namespace Lifecycle

variable {fuel : Nat} {rt : Runtime} {a : Assignment} {config : Config} {r : Run}
  {interrupts : List Nat} {reporter : Reporter} {m : Aftermath B}

theorem beginSweep_heeds : (beginSweep fuel rt a w).1.Heeds .hardStop fun _ => True := by
  have hready : (Suspended.ready (B := B) (Sweep.once a.config .hardStop a.run)).Heeds .hardStop
      fun _ => True := by
    have hobeys : (Sweep.once a.config .hardStop a.run).Obeys .hardStop _ := Sweep.once_obeys
    exact ⟨hobeys.1.mono fun _ _ => trivial, hobeys.2.mono fun _ _ => trivial⟩
  simp only [beginSweep]
  split
  · exact Suspended.runUntil_heeds hready rfl
  · exact hready

theorem abandon_heeds (st : Status B (List Failure)) : (abandon fuel rt a w st).1.Heeds := by
  cases st with
  | finished => exact beginSweep_heeds
  | suspended => exact ⟨rfl, trivial⟩
  | crashed | exhausted => exact trivial

theorem forced_cases (h : run fuel rt config r interrupts reporter w = some m)
    (hexit : m.summary.exit = .forced) :
    ∃ cause st w₁, runToEnd fuel rt ⟨config, r, w.now + config.runBudget.nanos⟩ interrupts w =
        some (.forced cause st, w₁) ∧
      m = force fuel rt ⟨config, r, w.now + config.runBudget.nanos⟩ cause st w₁ := by
  obtain ⟨e, w₁, he, hfollows⟩ := run_follows h
  cases hfollows with
  | forced hm => exact ⟨_, _, _, he, hm⟩
  | crashed h => exact absurd hexit (conclude_summary h).1
  | done h => exact absurd hexit (conclude_summary h).1

theorem force_settle (cause : StopCause) (st : Status B (List Failure)) (fuel' : Nat) :
    ((force fuel rt a cause st w).settle fuel').world = (force fuel rt a cause st w).world :=
  (abandon_heeds st).goOn_world (by simp [force, World.fire]) fuel'

/-- After an end by force the world stays as it is. -/
theorem settle_of_forced (h : run fuel rt config r interrupts reporter w = some m)
    (hexit : m.summary.exit = .forced) (fuel' : Nat) : (m.settle fuel').world = m.world := by
  obtain ⟨cause, st, w₁, -, rfl⟩ := forced_cases h hexit
  exact force_settle cause st fuel'

theorem conclude_left {cause : Option StopCause} {own : List Failure}
    {sweep : Option (Status B (Except CheckError SweepReport))}
    (h : conclude fuel rt a reporter cause own sweep w = some m) : m.left = .nothing := by
  simp only [conclude] at h
  split at h <;> cases h
  rfl

/-- After any other end only the last sweep goes on. -/
theorem settle_of_ne_forced (h : run fuel rt config r interrupts reporter w = some m)
    (hexit : m.summary.exit ≠ .forced) (fuel' : Nat) :
    (m.settle fuel').world = (continueSweep fuel' none m.sweep m.world).2 := by
  have hleft : m.left = .nothing := by
    obtain ⟨e, w₁, -, hfollows⟩ := run_follows h
    cases hfollows with
    | forced hm => exact absurd (congrArg (·.summary.exit) hm) hexit
    | crashed h => exact conclude_left h
    | done h => exact conclude_left h
  simp only [Aftermath.settle, hleft, Remnant.goOn]

end Lifecycle
end NodeCoverage
