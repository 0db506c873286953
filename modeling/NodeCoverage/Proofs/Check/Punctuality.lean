import Mathlib.Data.List.Basic
import NodeCoverage.Proofs.Check.Reporting
import NodeCoverage.Proofs.Check.Timely
import NodeCoverage.Proofs.Cluster.Punctual
/-!
# The waits of a run and their deadlines

A wait looks at its deadline in the pause between two rounds and nowhere else. It ends with the
deadline's timer as long as nothing but the pause takes time in a round. Calls that take no time
themselves can still make a round last: one that is answered with a transient error is made again
after a sleep that does not know of the deadline. So every wait ends in time if there was no such
answer in the round that is under way at the deadline, however many there were in the rounds before,
and a run leaves PreCleanup in time if there was none since PreCleanup was entered.
-/

namespace NodeCoverage

open Cluster (Entry Phase)
open Process (EndsBy HeldUp Reaches Uses Yields)

variable {B : Behaviour Cluster} {α β : Type} {config : Config} {stop : Signal} {deadline t : Nat}
  {workloadName : String} {w w' : World B}

namespace Sweep

variable {run : Run} {kind : Sweepable}

theorem visit_punctual {m : Metadata} {h : HalfSweep} :
    (visit config stop run kind m h).Punctual t := by
  have hclassify : (classify config stop run m h).Punctual t := by
    unfold classify
    split
    · exact .pure _
    · next owner _ =>
      split
      · exact .pure _
      · have halive : (ownerAlive config stop owner h).Punctual t := by
          unfold ownerAlive
          split
          · exact .pure _
          · refine .bind (.call ..) fun found => ?_
            cases found <;> exact .pure _
        refine .bind halive fun found => ?_
        rcases found with e | ⟨_ | _, h⟩ <;> exact .pure _
  have hremove {name : String} {reason : OrphanReason} {h : HalfSweep} :
      (remove config stop kind name reason h).Punctual t := by
    have hdelete : (kind.delete stop config.apiBackoff name).Punctual t := by
      cases kind <;> exact .call ..
    refine .bind (.note _) fun _ => .bind hdelete fun deleted => ?_
    cases deleted with
    | ok => exact .pure _
    | error e =>
      dsimp only
      split <;> exact .pure _
  unfold visit
  split
  · exact .pure _
  · split
    · exact .pure _
    · refine .bind hclassify fun found => ?_
      rcases found with e | ⟨_ | reason, h⟩
      · exact .pure _
      · exact .pure _
      · exact hremove

theorem visitAll_punctual {ms : List Metadata} {h : HalfSweep} :
    (visitAll config stop run kind ms h).Punctual t := by
  induction ms generalizing h with
  | nil => exact .pure _
  | cons m ms ih =>
    refine .bind visit_punctual fun visited => ?_
    cases visited with
    | error e => exact .pure _
    | ok h => exact ih

theorem once_punctual : (once config stop run).Punctual t := by
  have hworkloads : (workloads config stop run).Punctual t := by
    refine .iterate fun (token, h) => .bind (.call ..) fun listing => ?_
    cases listing with
    | error e => exact .pure _
    | ok page =>
      refine .bind visitAll_punctual fun visited => ?_
      cases visited with
      | error e => exact .pure _
      | ok h =>
        dsimp only
        split <;> exact .pure _
  have hpods : (pods config stop run).Punctual t := by
    refine .bind (.call ..) fun listing => ?_
    cases listing with
    | error e => exact .pure _
    | ok pods =>
      refine .bind visitAll_punctual fun visited => ?_
      cases visited <;> exact .pure _
  exact .bind (.both hworkloads hpods) fun _ => .pure _

theorem round_punctual (ht : Clock.timer deadline ≤ t) (found : List String) :
    (round config stop deadline run found).Punctual t := by
  refine .bind once_punctual fun result => ?_
  split
  · exact .pure _
  · refine .bind (.pause ht) fun paused => ?_
    cases paused <;> exact .pure _

end Sweep

namespace Verification

variable {set : ToleranceSet}

theorem round_punctual (ht : Clock.timer deadline ≤ t) (l : Looks) :
    (round config stop deadline set workloadName l).Punctual t := by
  refine .bind (.pause ht) fun paused => ?_
  cases paused with
  | stopped | overdue => exact .pure _
  | «over» =>
    refine .bind (.fired _) fun interrupted => ?_
    cases interrupted with
    | true => exact .pure _
    | false =>
      refine .bind (.bind (.call ..) fun nodes => ?_) fun _ => .pure _
      cases nodes with
      | error e => exact .pure _
      | ok nodes =>
        refine .bind (.call ..) fun pods => ?_
        cases pods <;> exact .pure _

end Verification

namespace Teardown

theorem pause_punctual {outstanding : String} (ht : Clock.timer deadline ≤ t) :
    (pause config stop deadline outstanding).Punctual t := by
  refine .bind (.pause ht) fun paused => ?_
  cases paused <;> exact .pure _

theorem podRound_punctual (ht : Clock.timer deadline ≤ t) (l : Lingering) :
    (podRound config stop deadline workloadName l).Punctual t := by
  have again {l : Lingering} : (deleteAgain config stop workloadName l).Punctual t := by
    refine .bind .clock fun now => ?_
    split
    · exact .bind (.call ..) fun _ => .bind .clock fun _ => .pure _
    · exact .pure _
  refine .bind (.call ..) fun listing => ?_
  split
  · exact .pure _
  · refine .bind again fun l => .bind (pause_punctual ht) fun paused => ?_
    cases paused <;> exact .pure _

theorem parentRound_punctual (ht : Clock.timer deadline ≤ t) (u : Unit) :
    (parentRound config stop deadline workloadName u).Punctual t := by
  have wait : (parentRound.wait config stop deadline workloadName).Punctual t := by
    refine .bind (pause_punctual ht) fun paused => ?_
    cases paused <;> exact .pure _
  have hpresent : (present config stop workloadName).Punctual t := by
    refine .iterate fun token => .bind (.call ..) fun listing => ?_
    cases listing with
    | error e => exact .pure _
    | ok page =>
      dsimp only
      split
      · exact .pure _
      · split <;> exact .pure _
  refine .bind hpresent fun found => ?_
  rcases found with e | _ | _
  · dsimp only
    split
    · exact .pure _
    · exact wait
  · exact .pure _
  · exact wait

end Teardown

/-! ### The beginning of a phase -/

/-- The event is the entry of this phase. -/
def Event.Enters (phase : Phase) (e : Event Cluster) : Prop :=
  ∃ u, e = .noted u (.entered phase)

/-- By `t` the phase was entered. -/
def Event.EntersBy (t : Nat) (phase : Phase) (e : Event Cluster) : Prop :=
  ∃ u ≤ t, e = .noted u (.entered phase)

abbrev World.Skips (phase : Phase) (w w' : World B) : Prop :=
  w.Since (fun e => ¬ e.Enters phase) w'

section Skips

variable {phase : Phase} {calls : Cluster.Request → Prop} {notes : Entry → Prop}

theorem World.Skips.keeps (h : ¬ notes (.entered phase)) (w : World B) :
    Keeps calls notes (w.Skips phase ·) := by
  apply World.Since.keeps
  · rintro _ _ _ _ ⟨_, he⟩
    cases he
  · rintro _ _ _ _ _ ⟨_, he⟩
    cases he
  · rintro _ _ hentry ⟨_, he⟩
    cases he
    exact h hentry

theorem World.Passes.skips (hphase : phase ≠ .shuttingDown) (h : w.Passes w') :
    w.Skips phase w' := by
  obtain ⟨stops, hstops⟩ := h.trace_eq
  refine ⟨_, hstops, ?_⟩
  rintro _ he ⟨u, rfl⟩
  obtain ⟨_, -, he⟩ := List.mem_map.mp he
  cases he
  exact hphase rfl

end Skips

namespace Lifecycle

/-- Time passes and the run may be stopped, but nothing happens after the timer that the worker
waits for. -/
def unhurried : Surroundings B :=
  fun t w w' => w.Passes w' ∧ w'.now ≤ max w.now t

theorem flows_unhurried : Flows (unhurried (B := B)) where
  refl _ w := ⟨.refl w, Nat.le_max_left ..⟩
  trans _ _ _ _ h₁ h₂ := by
    refine ⟨h₁.1.trans h₂.1, ?_⟩
    have h₁ := h₁.2
    have h₂ := h₂.2
    omega
  advance hu := ⟨.advance .., Nat.max_le.mpr ⟨Nat.le_max_left .., hu⟩⟩

theorem unhurried_timely : (unhurried (B := B)).Timely := by
  rintro u w w' ⟨hpasses, hnow⟩
  obtain ⟨stops, hstops⟩ := hpasses.trace_eq
  exact ⟨⟨_, hstops, fun _ _ => trivial⟩, hnow⟩

end Lifecycle

open Lifecycle (unhurried unhurried_timely)

theorem Process.Reaches.skips {phase : Phase} {p : Process Cluster α} {st : Status B α}
    {calls : Cluster.Request → Prop} {notes : Entry → Prop} {faults : Fault → Prop}
    (hp : p.Uses calls notes faults)
    (hnotes : ¬ notes (.entered phase)) (hphase : phase ≠ .shuttingDown)
    (hr : Reaches unhurried p w st w') : w.Skips phase w' := by
  have hmoves (u : Nat) (w w' : World B) (h : unhurried u w w') : w.Skips phase w' :=
    h.1.skips hphase
  exact (World.Since.beside hmoves (World.Skips.keeps hnotes)).reaches hp hr

/-! ### From one phase to the next -/

/-- By `t` Deploying was entered since `v`, or a call was answered with a transient error; or it is
not later than `t`, nor is anything waited for that is later. -/
def Status.MovesOn (t : Nat) (v : World B) (st : Status B α) (w : World B) : Prop :=
  (w.now ≤ t ∧ st.OnTime t) ∨ v.Has (fun e => e.EntersBy t .deploying ∨ e.FaltersBy t) w

def Process.MovesOn (t : Nat) (p : Process Cluster α) (w : World B) : Prop :=
  ∀ st w', Reaches unhurried p w st w' → st.MovesOn t w w'

namespace Process.MovesOn

theorem pure {x : α} (hw : w.now ≤ t) : Process.MovesOn t (Pure.pure x) w := by
  intro st w' hr
  obtain ⟨rfl, rfl | rfl⟩ := hr.pure_cases <;> exact .inl ⟨hw, trivial⟩

theorem note {e : Entry} (hw : w.now ≤ t) : Process.MovesOn t (.note (S := Cluster) e) w := by
  intro st w' hr
  rcases hr.note_cases with ⟨rfl, rfl⟩ | ⟨rfl, rfl⟩ <;> exact .inl ⟨hw, trivial⟩

theorem enter_deploying {next : Unit → Process Cluster α} (hw : w.now ≤ t) :
    Process.MovesOn t (Worker.enter .deploying >>= next) w := by
  intro st w' hr
  rcases hr.bind_cases with ⟨st₁, henter, hend⟩ | ⟨_, w₁, henter, hrest⟩
  · rcases henter.note_cases with ⟨rfl, rfl⟩ | ⟨rfl, rfl⟩
    · cases hend
      exact .inl ⟨hw, trivial⟩
    · cases hend
  · rcases henter.note_cases with ⟨-, h⟩ | ⟨rfl, -⟩
    · cases h
    · have hentered : w.Has (fun e => e.EntersBy t .deploying ∨ e.FaltersBy t)
          (w.note (S := Cluster) (.entered .deploying)) :=
        .single (World.adds_note ..) (.inl ⟨w.now, hw, rfl⟩)
      exact .inr (hentered.mono (.refl w) (unhurried_timely.grows hrest))

theorem of_punctual {p : Process Cluster α} (hp : p.Punctual t) (hB : B.Immediate)
    (ht : Clock.timer t = t) (hw : w.now ≤ t) : Process.MovesOn t p w :=
  fun _ _ hr => (hp.keeps_of_timely hB ht hw unhurried_timely hr).imp id
    fun h => h.imp fun _ => .inr

theorem after {x : β} {p : Process Cluster α} {v w₁ : World B} {st : Status B α}
    (h : Status.MovesOn t v (.finished x : Status B β) w₁) (hv : v.Grows w₁)
    (hp : w₁.now ≤ t → Process.MovesOn t p w₁) (hr : Reaches unhurried p w₁ st w') :
    st.MovesOn t v w' := by
  rcases h with ⟨hnow, -⟩ | h
  · exact (hp hnow st w' hr).imp id fun h => h.mono hv (.refl _)
  · exact .inr (h.mono (.refl v) (unhurried_timely.grows hr))

theorem bind {p : Process Cluster α} {next : α → Process Cluster β} (hp : Process.MovesOn t p w)
    (hnext : ∀ x (w₁ : World B), w₁.now ≤ t → Process.MovesOn t (next x) w₁) :
    Process.MovesOn t (p >>= next) w := by
  intro st w' hr
  rcases hr.bind_cases with ⟨st₁, h, hend⟩ | ⟨x, w₁, h, hrest⟩
  · exact (hp st₁ w' h).imp (fun h => ⟨h.1, h.2.bind hend⟩) id
  · exact after (hp _ w₁ h) (unhurried_timely.grows h) (hnext x w₁) hrest

theorem clock_bind {next : Nat → Process Cluster α} (hw : w.now ≤ t)
    (h : Process.MovesOn t (next w.now) w) : Process.MovesOn t (Process.clock >>= next) w := by
  intro st w' hr
  rcases hr.clock_bind_cases with ⟨rfl, rfl⟩ | hr
  · exact .inl ⟨hw, trivial⟩
  · exact h st w' hr

end Process.MovesOn

theorem Status.OnTime.wake_le {st : Status B α} (h : st.OnTime t) : st.wake ≤ t := by
  cases st with
  | suspended s => exact h
  | finished | exhausted => exact Nat.zero_le t
  | crashed => exact False.elim h

namespace Worker

variable {a : Assignment}

/-- Until when there is time for sweeping up beforehand, if it is begun at `now`. -/
def cleanupEnd (config : Config) (now : Nat) : Nat :=
  Clock.timer (now + config.preCleanupTimeout.nanos)

theorem le_cleanupEnd (config : Config) (now : Nat) : now ≤ cleanupEnd config now :=
  Nat.le_trans (Nat.le_add_right ..) (Clock.le_timer _)

/-- Since `w` PreCleanup was not entered; or it was, once, and what was then done has moved on by
the end of the time for it. -/
def CleansUp (config : Config) (w : World B) (st : Status B α) (w' : World B) : Prop :=
  w.Skips .preCleanup w' ∨ ∃ w₁, w.Skips .preCleanup w₁ ∧
    (w₁.note (S := Cluster) (.entered .preCleanup)).Skips .preCleanup w' ∧
    st.MovesOn (cleanupEnd config w₁.now) (w₁.note (S := Cluster) (.entered .preCleanup)) w'

theorem CleansUp.since {w₁ : World B} {st : Status B α} (h : CleansUp config w₁ st w')
    (hw : w.Skips .preCleanup w₁) : CleansUp config w st w' := by
  rcases h with h | ⟨w₂, h, hrest⟩
  · exact .inl (hw.trans h)
  · exact .inr ⟨w₂, hw.trans h, hrest⟩

theorem CleansUp.moves {w₁ : World B} {st : Status B α} (h : CleansUp config w st w₁)
    (hmove : unhurried st.wake w₁ w') : CleansUp config w st w' := by
  have hskips : w₁.Skips .preCleanup w' := hmove.1.skips nofun
  rcases h with h | ⟨w₂, h₂, hbefore, hmoves⟩
  · exact .inl (h.trans hskips)
  · refine .inr ⟨w₂, h₂, hbefore.trans hskips, hmoves.imp (fun h => ⟨?_, h.2⟩) fun h => ?_⟩
    · exact Nat.le_trans hmove.2 (Nat.max_le.mpr ⟨h.1, h.2.wake_le⟩)
    · exact h.mono (.refl _) (hskips.mono fun _ _ => trivial)

theorem cleansUp_seq {p : Process Cluster α} {next : α → Process Cluster β}
    {calls : Cluster.Request → Prop} {notes : Entry → Prop} {faults : Fault → Prop}
    {st : Status B β} (hp : p.Uses calls notes faults) (hnotes : ¬ notes (.entered .preCleanup))
    (hnext : ∀ x w₁, Reaches unhurried (next x) w₁ st w' → CleansUp config w₁ st w')
    (hr : Reaches unhurried (p >>= next) w st w') : CleansUp config w st w' := by
  rcases hr.bind_cases with ⟨st₁, h, -⟩ | ⟨x, w₁, h, hrest⟩
  · exact .inl (h.skips hp hnotes nofun)
  · exact (hnext x w₁ hrest).since (h.skips hp hnotes nofun)

theorem cleansUp_enter (notes : Entry → Prop) (faults : Fault → Prop)
    {next : Unit → Process Cluster α} {st : Status B α}
    (hnext : (next ()).Uses (fun _ => True) notes faults) (hnotes : ¬ notes (.entered .preCleanup))
    (hmoves : ∀ w₁ : World B, (next ()).MovesOn (cleanupEnd config w₁.now)
      (w₁.note (S := Cluster) (.entered .preCleanup)))
    (hr : Reaches unhurried (enter .preCleanup >>= next) w st w') : CleansUp config w st w' := by
  rcases hr.bind_cases with ⟨st₁, henter, hend⟩ | ⟨_, w₁, henter, hrest⟩
  · rcases henter.note_cases with ⟨rfl, rfl⟩ | ⟨rfl, rfl⟩
    · exact .inl (.refl _)
    · cases hend
  · rcases henter.note_cases with ⟨-, h⟩ | ⟨rfl, -⟩
    · cases h
    · exact .inr ⟨w, .refl w, hrest.skips hnext hnotes nofun, hmoves w st w' hrest⟩

theorem cleansUp_work (hB : B.Immediate) {st : Status B (List Failure)}
    (hr : Reaches unhurried (work a) w st w') : CleansUp a.config w st w' := by
  have hinit : Uses (S := Cluster) (fun _ => True) (· = .entered .init) (fun _ => False)
      (enter .init) := rfl
  refine cleansUp_seq hinit nofun (fun _ w₁ hr => ?_) hr
  refine cleansUp_seq owner_uses id (fun owner w₁ hr => ?_) hr
  refine cleansUp_seq tolerances_uses id (fun set w₁ hr => ?_) hr
  refine cleansUp_enter (fun e => Sweep.Notes e ∨ Notes e) a.config.Faults ?_
    (by simp [Sweep.Notes, Notes]) (fun w₂ => ?_) hr
  · refine .bind .clock fun now => .bind (Sweep.untilClear_uses.mono (fun _ _ => trivial)
      fun _ h => .inl h) fun swept => ?_
    have hprobe {x : Workload} : (probe a set x).Uses (fun _ => True)
        (fun e => Sweep.Notes e ∨ Notes e) a.config.Faults :=
      probe_uses.mono (fun _ _ => trivial) fun _ h => .inr h
    cases swept with
    | ok => exact hprobe
    | error e =>
      dsimp only
      split
      · exact record_uses
      · exact .bind hprobe fun _ => .pure
  · have hnow : w₂.now ≤ cleanupEnd a.config w₂.now := le_cleanupEnd a.config w₂.now
    have htimer : Clock.timer (cleanupEnd a.config w₂.now) = cleanupEnd a.config w₂.now :=
      Clock.timer_timer _
    refine .clock_bind hnow (.bind (.of_punctual (.iterate (Sweep.round_punctual ?_)) hB htimer
      hnow) fun swept w₃ hw₃ => ?_)
    · exact Clock.timer_mono (Nat.min_le_right ..)
    · cases swept with
      | ok => exact .enter_deploying hw₃
      | error e =>
        dsimp only
        split
        · exact .of_punctual (.bind (.fired _) fun _ => .pure _) hB htimer hw₃
        · exact .bind (.enter_deploying hw₃) fun _ _ h => .pure h

/-- Whenever the run is stopped, its worker does not stay in PreCleanup for longer, unless a call is
answered with a transient error. -/
theorem cleansUp_run (hB : B.Immediate) {st : Status B (List Failure)}
    (hr : Reaches unhurried (run a) w st w') : CleansUp a.config w st w' := by
  rcases hr.bind_cases with ⟨st₁, hwork, hend⟩ | ⟨fs, w₁, hwork, hrest⟩
  · exact (cleansUp_work hB hwork).imp id fun ⟨w₁, h₁, hskips, hmoves⟩ =>
      ⟨w₁, h₁, hskips, hmoves.imp (fun h => ⟨h.1, h.2.bind hend⟩) id⟩
  · have hskips : w₁.Skips .preCleanup w' := by
      have huses : Uses (S := Cluster) (fun _ => True) (· = .entered .postCleanup)
          (fun _ => False) (enter .postCleanup >>= fun _ => pure fs) := ⟨rfl, fun _ => trivial⟩
      exact hrest.skips huses nofun nofun
    rcases cleansUp_work hB hwork with h | ⟨w₂, h₂, hbefore, hmoves⟩
    · exact .inl (h.trans hskips)
    · refine .inr ⟨w₂, h₂, hbefore.trans hskips, ?_⟩
      refine Process.MovesOn.after hmoves (hbefore.mono fun _ _ => trivial) (fun hnow => ?_) hrest
      exact .bind (.note hnow) fun _ _ h => .pure h

end Worker

namespace Lifecycle

variable {fuel : Nat} {rt : Runtime} {a : Assignment} {r : Run} {interrupts : List Nat}
  {reporter : Reporter} {e : WorkerEnd B} {m : Aftermath B}

theorem runToEnd_cleansUp (hB : B.Immediate) (h : runToEnd fuel rt a interrupts w = some (e, w')) :
    ∃ st : Status B (List Failure), Worker.CleansUp a.config w st w' := by
  obtain ⟨st, ⟨w₀, w₁, h₀, hr, h₁, -⟩, -⟩ := runToEnd_course flows_unhurried
    (fun t cause w₁ _ => ⟨.stop cause w₁, (stop_now cause w₁).symm ▸ Nat.le_max_left ..⟩) h
  exact ⟨st, ((Worker.cleansUp_run hB hr).moves h₁).since (h₀.1.skips nofun)⟩

theorem skips_keptBySweeps (v : World B) : KeptBySweeps (v.Skips .preCleanup ·) where
  keeps := World.Skips.keeps id v
  advance w t h := h.trans ((World.Passes.advance w t).skips nofun)

theorem skips_of_run (h : run fuel rt config r interrupts reporter w = some m) : ∃ e w',
    runToEnd fuel rt ⟨config, r, w.now + config.runBudget.nanos⟩ interrupts w = some (e, w') ∧
      m.summary.moment = w'.now ∧ w'.Skips .preCleanup m.world := by
  have enters {v w' : World B} {phase : Phase} (hphase : .preCleanup ≠ phase)
      (h : v.Skips .preCleanup w') :
      v.Skips .preCleanup (w'.note (S := Cluster) (.entered phase)) := by
    have hkeeps : Keeps (S := Cluster) (fun _ => True) (· = .entered phase)
        (v.Skips .preCleanup ·) := by
      refine World.Skips.keeps ?_ v
      exact fun h => hphase (Entry.entered.inj h)
    exact hkeeps.note rfl h
  obtain ⟨e, w', he, hfollows⟩ := run_follows h
  refine ⟨e, w', he, moment_of_follows hfollows, ?_⟩
  cases hfollows with
  | @forced cause st _ hm =>
    cases hm
    exact abandon_keeps (skips_keptBySweeps w') (.refl w') st
  | crashed h =>
    exact (conclude_keeps (skips_keptBySweeps w') (fun _ => enters (by decide))
      (fun st hst => by cases hst) (enters (by decide) (.refl w')) h).1
  | done h =>
    obtain ⟨hbegun, hsweeps⟩ := beginSweep_keeps (skips_keptBySweeps w') (.refl w')
    exact (conclude_keeps (skips_keptBySweeps w') (fun _ => enters (by decide))
      (fun st hst => by cases hst; exact hsweeps) (enters (by decide) hbegun) h).1

/-- In a run whose log has the entry of PreCleanup, Deploying follows before the time for it is
over, or the worker has ended by then, unless a call is answered with a transient error. -/
theorem moves_on_of_run (hB : B.Immediate)
    (h : run fuel rt config r interrupts reporter w = some m) {before after : List (Event Cluster)}
    (hlog : w.Adds (before ++ .noted t (.entered .preCleanup) :: after) m.world) :
    m.summary.moment ≤ Worker.cleanupEnd config t ∨ ∃ e ∈ after,
      e.EntersBy (Worker.cleanupEnd config t) .deploying ∨
        e.FaltersBy (Worker.cleanupEnd config t) := by
  obtain ⟨e, w', hend, hmoment, hafter⟩ := skips_of_run h
  obtain ⟨st, h | ⟨w₁, ⟨first, hfirst, hfirstSkips⟩, hskips, hmoves⟩⟩ := runToEnd_cleansUp hB hend
  · obtain ⟨events, hevents, hnone⟩ := h.trans hafter
    obtain rfl := hevents.unique hlog
    exact absurd ⟨t, rfl⟩ (hnone _ (by simp))
  · -- there is only one entry of PreCleanup
    obtain ⟨rest, hrest, hrestSkips⟩ := hskips.trans hafter
    have hsplit : first ++ .noted w₁.now (.entered .preCleanup) :: rest =
        before ++ .noted t (.entered .preCleanup) :: after := by
      have hadds := (hfirst.trans (World.adds_note ..)).trans hrest
      simpa using hadds.unique hlog
    obtain ⟨-, hentry, rfl⟩ := (List.append_cons_inj_of_notMem
      (fun h => hfirstSkips _ h ⟨t, rfl⟩) (fun h => hrestSkips _ h ⟨t, rfl⟩)).mp hsplit
    obtain rfl : w₁.now = t := by
      cases hentry
      rfl
    rcases hmoves with ⟨hnow, -⟩ | h
    · exact .inl (hmoment ▸ hnow)
    · obtain ⟨events, hevents, e, hmem, he⟩ := h.mono (.refl _) (hafter.mono fun _ _ => trivial)
      obtain rfl := hevents.unique hrest
      exact .inr ⟨e, hmem, he⟩

end Lifecycle

/-! ### The waits -/

/-- Each wait of a run that is begun in `w` under this deadline ends with the timer of the deadline
at the latest, or it is held up by then in one of its rounds. -/
structure KeepsDeadline (config : Config) (stop : Signal) (deadline : Nat) (w : World B) :
    Prop where
  sweep : ∀ run, EndsBy (Clock.timer deadline) (Sweep.untilClear config stop deadline run) w ∨
    HeldUp (Clock.timer deadline) (Sweep.round config stop deadline run) [] w
  verification : ∀ set name,
    EndsBy (Clock.timer deadline) (Verification.run config stop deadline set name) w ∨
      HeldUp (Clock.timer deadline) (Verification.round config stop deadline set name) .none w
  pods : ∀ name, EndsBy (Clock.timer deadline) (Teardown.awaitPods config stop deadline name) w ∨
    HeldUp (Clock.timer deadline) (Teardown.podRound config stop deadline name) ⟨w.now, []⟩ w
  parent : ∀ name,
    EndsBy (Clock.timer deadline) (Teardown.awaitParent config stop deadline name) w ∨
      HeldUp (Clock.timer deadline) (Teardown.parentRound config stop deadline name) () w

theorem keepsDeadline (hB : B.Immediate) (config : Config) (stop : Signal)
    (hw : w.now ≤ deadline) : KeepsDeadline config stop deadline w := by
  have ht : Clock.timer (Clock.timer deadline) = Clock.timer deadline := Clock.timer_timer deadline
  have hw : w.now ≤ Clock.timer deadline := Nat.le_trans hw (Clock.le_timer deadline)
  have hle : Clock.timer deadline ≤ Clock.timer deadline := Nat.le_refl _
  constructor
  · exact fun run => Process.endsBy_or_heldUp hB ht hw (fun _ _ => .inr)
      (Sweep.round_punctual hle) Sweep.untilClear_diligent
  · exact fun set name => Process.endsBy_or_heldUp hB ht hw (fun _ _ => .inr)
      (Verification.round_punctual hle) Verification.run_diligent
  · exact fun name => Process.endsBy_or_heldUp hB ht hw
      (fun _ _ hr => hr.clock_bind_cases.imp And.left id) (Teardown.podRound_punctual hle)
      Teardown.awaitPods_diligent
  · exact fun name => Process.endsBy_or_heldUp hB ht hw (fun _ _ => .inr)
      (Teardown.parentRound_punctual hle) Teardown.awaitParent_diligent

/-- If calls take no time, whatever their answers and whatever the policy for repeating them, a wait
that is begun by its deadline ends with the deadline's timer at the latest. Two things can keep it
from that: endlessly many calls in one instant, or a transient error in the very round that is under
way when the time is over. Hence a run that has entered PreCleanup enters Deploying, or its worker
has ended, when the time for PreCleanup is over, if there was no transient error by then. -/
theorem deadlines_kept (hB : B.Immediate) (config : Config) (w : World B) :
    (∀ stop deadline, w.now ≤ deadline → KeepsDeadline config stop deadline w) ∧
      ∀ fuel rt r interrupts reporter m t before after,
        Lifecycle.run fuel rt config r interrupts reporter w = some m →
        w.Adds (before ++ .noted t (.entered .preCleanup) :: after) m.world →
        m.summary.moment ≤ Worker.cleanupEnd config t ∨ ∃ e ∈ after,
          e.EntersBy (Worker.cleanupEnd config t) .deploying ∨
            e.FaltersBy (Worker.cleanupEnd config t) :=
  ⟨fun stop _ hw => keepsDeadline hB config stop hw,
    fun _ _ _ _ _ _ _ _ _ h hlog => Lifecycle.moves_on_of_run hB h hlog⟩

/-! ### A cluster that stutters -/

namespace Stuttering

/-- There is nothing in the cluster. So many listings of the workloads fail at first. -/
def stuttering : Behaviour Cluster where
  State := Nat
  Ticket := Unit
  start _ _ n := (.zero, (), n)
  answer _ r _ n :=
    match r with
    | .listWorkloads _ _ =>
      (if n = 0 then .ok ⟨[], none⟩
        else .error (.cluster (.api ⟨"Failure", "busy", "ServiceUnavailable", 503⟩)), n - 1)
    | .listNodes => (.ok [], n)
    | .listPods _ => (.ok [], n)
    | .createWorkload _ | .deleteWorkload _ | .deletePods _ | .deletePod _ => (.ok (), n)
    | .getPod _ => (.ok none, n)
    | .getWorkload _ => (.ok none, n)

def start : World stuttering :=
  .initial (2 : Nat)

theorem immediate : stuttering.Immediate :=
  fun _ _ _ => rfl

def cleanupStart : List (Event Cluster) → Option Nat
  | .noted t (.entered .preCleanup) :: _ => some t
  | _ :: events => cleanupStart events
  | [] => none

theorem exists_split {events : List (Event Cluster)} {t : Nat} (h : cleanupStart events = some t) :
    ∃ before after, events = before ++ .noted t (.entered .preCleanup) :: after := by
  apply List.append_of_mem
  fun_induction cleanupStart events with
  | case1 u events =>
    cases h
    exact List.mem_cons_self ..
  | case2 e events _ ih => exact List.mem_cons_of_mem e (ih h)
  | case3 => cases h

end Stuttering

open Stuttering in
/-- The theorem for a sweep that is begun in time, and for a run. -/
theorem deadlines_kept_stuttering : stuttering.Immediate ∧ start.now ≤ Clock.ofMillis 1000 ∧
    KeepsDeadline .standard .run (Clock.ofMillis 1000) start ∧ ∃ m before after,
      Lifecycle.run 400 .simulated .standard Leftovers.probe [] Leftovers.prompt start = some m ∧
      start.Adds (before ++ .noted 0 (.entered .preCleanup) :: after) m.world ∧
      (m.summary.moment ≤ Worker.cleanupEnd .standard 0 ∨ ∃ e ∈ after,
        e.EntersBy (Worker.cleanupEnd .standard 0) .deploying ∨
          e.FaltersBy (Worker.cleanupEnd .standard 0)) := by
  have hnow : start.now ≤ Clock.ofMillis 1000 := Nat.zero_le _
  obtain ⟨hwaits, hruns⟩ := deadlines_kept immediate .standard start
  refine ⟨immediate, hnow, hwaits .run _ hnow, ?_⟩
  have h : (Lifecycle.run 400 .simulated .standard Leftovers.probe [] Leftovers.prompt start).any
      (fun m => cleanupStart m.world.trace.toList = some 0) = true := by
    decide +kernel
  obtain ⟨m, hrun, hm⟩ := (Option.any_eq_true _ _).mp h
  obtain ⟨before, after, hsplit⟩ := exists_split (of_decide_eq_true hm)
  have hlog : start.Adds (before ++ .noted 0 (.entered .preCleanup) :: after) m.world := by
    simp [World.Adds, ← hsplit, start, World.initial]
  exact ⟨m, before, after, hrun, hlog, hruns _ _ _ _ _ _ _ _ _ hrun hlog⟩

/-- It is not so that a wait which is begun by its deadline ends by then, even if calls take no
time: the sweep repeats a listing until after the deadline. -/
theorem deadlines_not_always_kept : ¬ ∀ (B : Behaviour Cluster) (config : Config) (stop : Signal)
    (deadline : Nat) (run : Run) (w w' : World B) (o : Except CheckError Unit), B.Immediate →
    w.now ≤ deadline → Yields (Sweep.untilClear config stop deadline run) w o w' →
    w'.now ≤ deadline := by
  intro h
  have hyields : Yields (Sweep.untilClear .standard .run (Clock.ofMillis 1000) Leftovers.probe)
      Stuttering.start (.ok ()) _ := Yields.of_endsWith 200 20 (by decide +kernel)
  have hnow := h _ _ _ _ _ _ _ _ Stuttering.immediate (Nat.zero_le _) hyields
  revert hnow
  decide +kernel

end NodeCoverage
