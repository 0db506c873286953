import NodeCoverage.Proofs.Check.Outcome
import NodeCoverage.Proofs.Check.Reporting
import NodeCoverage.Proofs.Check.Timely
/-!
# Teardown that takes too long

Teardown has time until one grace period after the deadline of the run, or after the instant in
which it was entered, if the run had been stopped by then. The run itself waits for one grace period
from when it was stopped, and that is not later, but for what the timer of the deadline is late. So
teardown which goes on waiting is ended by the one timer or by the other, in whole milliseconds. If
it is that of the grace period the run ends by force and nothing is reported; if it is its own, the
report says what it was waiting for.
-/

namespace NodeCoverage

open Cluster (Entry)
open Process (Meets)

variable {B : Behaviour Cluster}

/-- What the log says of the times of a run. -/
structure Timetable where
  /-- The run has been stopped. -/
  stopped : Bool
  /-- Until when teardown has time, if it was entered. -/
  limit : Option Nat

namespace Timetable

def record (a : Assignment) (t : Timetable) (e : Event Cluster) : Timetable :=
  match e with
  | .noted _ (.entered .shuttingDown) => { t with stopped := true }
  | .noted now (.entered .tearingDown) =>
    let since := if t.stopped then now else a.deadline
    { t with limit := some (since + a.config.shutdownGracePeriod.nanos) }
  | _ => t

def ofEvents (a : Assignment) (events : List (Event Cluster)) : Timetable :=
  events.foldl (record a) ⟨false, none⟩

variable {a : Assignment}

theorem record_stops (t : Timetable) (stops : List Nat) :
    (stops.map fun now => Event.noted (S := Cluster) now (.entered .shuttingDown)).foldl
      (record a) t = { t with stopped := t.stopped || !stops.isEmpty } := by
  induction stops generalizing t with
  | nil => simp
  | cons now stops ih =>
    rw [List.map_cons, List.foldl_cons, ih]
    simp [record]

theorem record_steady {entry : Entry} (h : Worker.IsSteady entry) (t : Timetable) (now : Nat) :
    t.record a (.noted now entry) = t := by
  cases entry with
  | orphan => rfl
  | entered phase =>
    cases phase with
    | tearingDown => exact absurd rfl h.1
    | shuttingDown => exact absurd rfl h.2
    | _ => rfl

end Timetable

/-- The log since `v` tells whether the run was stopped, which was not before `c`, and until when
teardown has time, which is not before the grace period is over. -/
structure Allots (a : Assignment) (c : Option Nat) (v : World B) (limit : Option Nat)
    (w : World B) : Prop where
  hardStop : w.fired .hardStop = false
  log : ∃ events, v.Adds events w ∧ Timetable.ofEvents a events = ⟨w.fired .run, limit⟩
  stopped : w.fired .run = true → ∃ t ∈ c, t ≤ w.now
  late : ∀ t ∈ limit, (∃ t' ∈ c, t' + a.config.shutdownGracePeriod.nanos ≤ t) ∨
    a.deadline + a.config.shutdownGracePeriod.nanos ≤ t

namespace Allots

variable {a : Assignment} {c : Option Nat} {v w w' : World B} {limit : Option Nat}

theorem refl (hrun : v.fired .run = false) (hhardStop : v.fired .hardStop = false) :
    Allots a c v none v where
  hardStop := hhardStop
  log := ⟨[], .refl v, by rw [hrun]; rfl⟩
  stopped h := by
    rw [hrun] at h
    cases h
  late := nofun

theorem snoc {e : Event Cluster} (h : Allots a c v limit w) (hadds : w.Adds [e] w')
    (he : ∀ t : Timetable, t.record a e = t) (hfired : w'.fired = w.fired) (hnow : w'.now = w.now) :
    Allots a c v limit w' where
  hardStop := by rw [hfired, h.hardStop]
  log := by
    obtain ⟨events, hevents, htable⟩ := h.log
    refine ⟨_, hevents.trans hadds, ?_⟩
    rw [Timetable.ofEvents, List.foldl_append, ← Timetable.ofEvents, htable, hfired]
    exact he _
  stopped := by
    rw [hfired, hnow]
    exact h.stopped
  late := h.late

theorem keeps : Keeps (S := Cluster) (fun _ => True) Worker.IsSteady
    (Allots (B := B) a c v limit) where
  call _ h := h.snoc (World.adds_call ..) (fun _ => rfl) rfl rfl
  answer _ h := h.snoc (World.adds_answer ..) (fun _ => rfl) rfl rfl
  note hentry h :=
    h.snoc (World.adds_note ..) (fun t => Timetable.record_steady hentry t _) rfl rfl

theorem halts (h : Allots a c v limit w) (hw : w.Halts c w') : Allots a c v limit w' where
  hardStop := hw.passes.hardStop_eq.trans h.hardStop
  log := by
    obtain ⟨events, hevents, htable⟩ := h.log
    obtain ⟨stops, hstops⟩ := hw.passes.trace_eq
    refine ⟨_, hevents.trans hstops, ?_⟩
    rw [Timetable.ofEvents, List.foldl_append, ← Timetable.ofEvents, htable,
      Timetable.record_stops]
    rcases hw.stopped with ⟨htrace, hrun⟩ | ⟨hsize, hrun, -⟩
    · have hnone : stops = [] := by simpa [hstops] using htrace
      simp [hnone, hrun]
    · have hsome : stops ≠ [] := by
        rintro rfl
        simp [hstops] at hsize
      simp [hsome, hrun]
  stopped hfired := by
    rcases hw.stopped with ⟨-, hrun⟩ | ⟨-, -, hstopped⟩
    · obtain ⟨t, ht, hle⟩ := h.stopped (hrun ▸ hfired)
      exact ⟨t, ht, Nat.le_trans hle hw.passes.now_le⟩
    · exact hstopped
  late := h.late

theorem enter (h : Allots a c v none w) :
    Allots a c v (some ((if w.fired .run then w.now else a.deadline) +
      a.config.shutdownGracePeriod.nanos)) (w.note (S := Cluster) (.entered .tearingDown)) where
  hardStop := h.hardStop
  log := by
    obtain ⟨events, hevents, htable⟩ := h.log
    refine ⟨_, hevents.trans (World.adds_note ..), ?_⟩
    rw [Timetable.ofEvents, List.foldl_append, ← Timetable.ofEvents, htable]
    rfl
  stopped := h.stopped
  late := by
    rintro _ ⟨⟩
    cases hfired : w.fired .run with
    | false => exact .inr (Nat.le_refl _)
    | true =>
      obtain ⟨t, ht, hle⟩ := h.stopped hfired
      exact .inl ⟨t, ht, Nat.add_le_add_right hle _⟩

theorem throughout : Throughout c .hardStop v (Allots (B := B) a c v limit) where
  keeps := ⟨keeps.call, keeps.answer, fun h _ => h.elim⟩
  halts := halts
  log h := h.log.imp fun _ hevents => hevents.1
  unfired := hardStop

theorem limit_eq {events : List (Event Cluster)} (h : Allots a c v limit w)
    (hevents : v.Adds events w) : (Timetable.ofEvents a events).limit = limit := by
  obtain ⟨_, hevents', htable⟩ := h.log
  rw [hevents.unique hevents', htable]

theorem unique {limit' : Option Nat} (h : Allots a c v limit w) (h' : Allots a c v limit' w) :
    limit = limit' := by
  obtain ⟨events, hevents, -⟩ := h.log
  exact (h.limit_eq hevents).symm.trans (h'.limit_eq hevents)

end Allots

/-! ### The worker -/

namespace Worker

variable {a : Assignment} {c : Option Nat} {v w w' : World B}

/-- Teardown, which had time until `t`, was given up because that was over. -/
def Expired (a : Assignment) (c : Option Nat) (v : World B) (t : Nat) (names : String)
    (w : World B) : Prop :=
  ∃ w₀ w₁, v.Grows w₀ ∧ Teardown.TimedOut (fun _ => World.Halts c) a.config .hardStop t
    a.run.workloadName w₀ names w₁ ∧ w₁.Grows w

/-- Teardown, which had time until `t`, had ended so by `now`: on the grounds of what it was
answered, or because its time was over. -/
def Concluded (a : Assignment) (c : Option Nat) (v : World B) (t now : Nat)
    (o : Except CheckError Unit) (w : World B) : Prop :=
  Teardown.Grounds v a.run.workloadName w o ∨
    t ≤ now ∧ ∃ names, o = .error (.timeout "teardown" names) ∧ Expired a c v t names w

theorem Concluded.mono {t now now' : Nat} {o : Except CheckError Unit}
    (h : Concluded a c v t now o w) (hgrows : w.Grows w') (hnow : now ≤ now') :
    Concluded a c v t now' o w' := by
  rcases h with h | ⟨hle, names, rfl, w₀, w₁, hbegun, htimedOut, hended⟩
  · obtain ⟨events, hadds, -⟩ := hgrows
    exact .inl (h.mono hadds)
  · exact .inr ⟨Nat.le_trans hle hnow, names, rfl, w₀, w₁, hbegun, htimedOut,
      hended.trans hgrows⟩

/-- Teardown has ended with these failures, in its time or because that was over. -/
def TornDown (a : Assignment) (c : Option Nat) (v : World B) (fs : List Failure) (w : World B) :
    Prop :=
  ∃ t o, Allots a c v (some t) w ∧ Concluded a c v t w.now o w ∧
    ∀ e, .during .tearingDown e ∈ fs ↔ o = .error e

theorem meets_teardown (hw : Allots a c v none w) :
    Meets (fun _ => World.Halts c) (fun w => ∃ limit, Allots a c v limit w) (teardown a) w
      (TornDown a c v) := by
  refine .bind (.note (.bind (.fired (.bind (.clock ?_)))))
  obtain ⟨events, hevents, -⟩ := hw.enter.log
  have hbegun : v.Grows (w.note (S := Cluster) (.entered .tearingDown)) :=
    ⟨events, hevents, fun _ _ => trivial⟩
  apply ((Teardown.meets_run Allots.throughout hw.enter).within (fun _ _ _ h he => h.halts he)
    fun _ h => ⟨_, h⟩).seq
  rintro o w₁ ⟨hw₁, hends⟩
  have hconcluded : Concluded a c v _ w₁.now o w₁ :=
    hends.imp_right fun ⟨hlate, names, ho, htimedOut⟩ =>
      ⟨hlate, names, ho, _, w₁, hbegun, htimedOut, .refl w₁⟩
  cases o with
  | ok => exact .pure ⟨_, _, hw₁, hconcluded, fun e => ⟨nofun, nofun⟩⟩
  | error e =>
    refine .pure ⟨_, _, hw₁, hconcluded, fun e' => ?_⟩
    simp [eq_comm]

theorem TornDown.mono {fs : List Failure} (h : TornDown a c v fs w) (hgrows : w.Grows w')
    (hnow : w.now ≤ w'.now) (hallots : ∀ t, Allots a c v (some t) w → Allots a c v (some t) w') :
    TornDown a c v fs w' := by
  obtain ⟨t, o, hw, hconcluded, hfs⟩ := h
  exact ⟨t, o, hallots t hw, hconcluded.mono hgrows hnow, hfs⟩

/-- The worker keeps to the times of the log, and tells how its teardown has ended. -/
theorem meets_times (hw : Allots a c v none w) :
    Meets (fun _ => World.Halts c) (fun w => ∃ limit, Allots a c v limit w) (run a) w
      (EndsWith (Allots a c v none) (TornDown a c v)) := by
  have huntil : Until (fun _ => World.Halts c) (Allots (B := B) a c v none)
      fun w => ∃ limit, Allots a c v limit w :=
    ⟨Allots.keeps, fun h he => h.halts he, fun h => ⟨_, h⟩⟩
  refine huntil.meets_run (fun _ => meets_teardown) (fun fs w h => ?_) hw
  exact h.mono (.single (World.adds_note ..) trivial) (Nat.le_refl _) fun _ h =>
    Allots.keeps.note ⟨nofun, nofun⟩ h

end Worker

/-! ### The run -/

namespace Lifecycle

variable {fuel : Nat} {rt : Runtime} {a : Assignment} {interrupts : List Nat} {v w w' : World B}
  {e : WorkerEnd B} {c : Nat} {limit : Option Nat}

/-- However the worker ends, the log has its times; if it has come to its end it tells how its
teardown has ended. -/
theorem runToEnd_times (hrun : w.fired .run = false) (hhardStop : w.fired .hardStop = false)
    (h : runToEnd fuel rt a interrupts w = some (e, w')) :
    (∃ limit, Allots a (stopTime fuel rt a interrupts w) w limit w') ∧
      ∀ cause fs, e = .done cause fs →
        Worker.EndsWith (Allots a (stopTime fuel rt a interrupts w) w none)
          (Worker.TornDown a (stopTime fuel rt a interrupts w) w) fs w' := by
  obtain ⟨st, hstands, hend⟩ := runToEnd_halts h
  have hrefl := Allots.refl (a := a) (c := stopTime fuel rt a interrupts w) hrun hhardStop
  have hends := hstands.of_meets flows_halts (fun w₀ h₀ => Worker.meets_times (hrefl.halts h₀))
    (fun _ _ ⟨limit, h⟩ he => ⟨limit, h.halts he⟩) ⟨_, hrefl⟩ fun fs w₁ w₂ h he => by
      obtain ⟨stops, hstops⟩ := he.passes.trace_eq
      exact h.imp (fun h => ⟨h.1.halts he, h.2⟩) fun ⟨before, torn, hfs, hbefore, htorn⟩ =>
        ⟨before, torn, hfs, hbefore, htorn.mono ⟨_, hstops, fun _ _ => trivial⟩ he.passes.now_le
          fun _ h => h.halts he⟩
  have timed {fs : List Failure} {w₁ : World B}
      (h : Worker.EndsWith (Allots a (stopTime fuel rt a interrupts w) w none)
        (Worker.TornDown a (stopTime fuel rt a interrupts w) w) fs w₁) :
      ∃ limit, Allots a (stopTime fuel rt a interrupts w) w limit w₁ := by
    rcases h with ⟨h, -⟩ | ⟨-, -, -, -, t, o, h, -⟩
    · exact ⟨_, h⟩
    · exact ⟨_, h⟩
  cases hend with
  | done cause fs =>
    refine ⟨timed (hends.1 fs rfl), ?_⟩
    rintro _ _ ⟨⟩
    exact hends.1 fs rfl
  | crashed cause f => exact ⟨hends.2 nofun, nofun⟩
  | forced cause st =>
    refine ⟨?_, nofun⟩
    cases st with
    | finished fs => exact timed (hends.1 fs rfl)
    | suspended | crashed | exhausted => exact hends.2 nofun
  | unbegun cause => exact ⟨hends.2 nofun, nofun⟩

/-- The time of teardown is not over before the grace period is, but for what the timer of the
deadline is late. -/
theorem grace_le_limit {t : Nat} (h : Allots a (some c) v (some t) w)
    (hc : c ≤ Clock.timer a.deadline) :
    c + a.config.shutdownGracePeriod.nanos ≤ t + (Clock.timer a.deadline - a.deadline) := by
  rcases h.late t rfl with ⟨_, ⟨⟩, hle⟩ | hle
  · exact Nat.le_trans hle (Nat.le_add_right ..)
  · have hlate := Clock.le_timer a.deadline
    omega

def Timed (a : Assignment) (c : Option Nat) (v : World B) (limit : Option Nat) (w w' : World B) :
    Prop :=
  Allots a c v limit w' ∧ w.Since (fun _ => True) w'

namespace Timed

variable {c : Option Nat}

theorem refl (h : Allots a c v limit w) : Timed a c v limit w w :=
  ⟨h, .refl w⟩

theorem note (h : Timed a c v limit w w') {entry : Entry} (hentry : Worker.IsSteady entry) :
    Timed a c v limit w (w'.note entry) :=
  ⟨Allots.keeps.note hentry h.1, h.2.trans (.single (World.adds_note ..) trivial)⟩

theorem keptBySweeps : KeptBySweeps (Timed a c v limit w) where
  keeps :=
    have hgrows : Keeps Sweep.Asks Sweep.Notes w.Grows := World.Grows.keeps w
    { call := fun hr h => ⟨Allots.keeps.call trivial h.1, hgrows.call hr h.2⟩
      answer := fun hr h => ⟨Allots.keeps.answer trivial h.1, hgrows.answer hr h.2⟩
      note := fun hentry h => h.note (Worker.isSteady_of_notes hentry) }
  advance _ t h := ⟨h.1.halts (.advance _ t), h.2⟩

end Timed

variable {config : Config} {r : Run} {reporter : Reporter} {m : Aftermath B}

theorem conclude_times {c : Option Nat} {cause : Option StopCause} {own : List Failure}
    {sweep : Option (Status B (Except CheckError SweepReport))} (hsweep : ∀ st ∈ sweep, Sweeps st)
    (hw : Timed a c v limit w w') (h : conclude fuel rt a reporter cause own sweep w' = some m) :
    Timed a c v limit w m.world :=
  (conclude_keeps Timed.keptBySweeps (fun _ hw => hw.note ⟨nofun, nofun⟩) hsweep
    (hw.note ⟨nofun, nofun⟩) h).1

/-- From the end of the worker on the times stay as they are. -/
theorem times_of_follows {limit : Option Nat}
    (htimes : Allots a (stopTime fuel rt a interrupts w.reset) w.reset limit w')
    (h : Follows fuel rt a reporter m e w') :
    w'.Grows m.world ∧
      ∀ events, w.reset.Adds events m.world → (Timetable.ofEvents a events).limit = limit := by
  cases h with
  | @forced cause st _ hm =>
    cases hm
    obtain ⟨hleft, hgrows⟩ : Timed a _ w.reset limit w' (abandon fuel rt a w' st).2 :=
      abandon_keeps Timed.keptBySweeps (.refl htimes) st
    exact ⟨hgrows, fun _ => hleft.limit_eq⟩
  | crashed h =>
    obtain ⟨hworld, hgrows⟩ := conclude_times (fun st hst => by cases hst) (.refl htimes) h
    exact ⟨hgrows, fun _ => hworld.limit_eq⟩
  | done h =>
    obtain ⟨hbegun, hsweeps⟩ := beginSweep_keeps Timed.keptBySweeps (.refl htimes)
    obtain ⟨hworld, hgrows⟩ :=
      conclude_times (fun st hst => by cases hst; exact hsweeps) hbegun h
    exact ⟨hgrows, fun _ => hworld.limit_eq⟩

theorem during_mem_failures {cause : Option StopCause} {now : Nat} {own : List Failure}
    {phase : Cluster.Phase} {e : CheckError} :
    .during phase e ∈ failures a cause now own ↔ .during phase e ∈ own := by
  simp only [failures, List.mem_append, or_iff_right_iff_imp]
  rintro (h | h)
  · split at h <;> simp at h
  · split at h <;> simp at h

/-- The run was stopped and has ended by force, when its grace period was over or because of another
interrupt. No report was made, and all that is told is why it was stopped. -/
structure Overrun (fuel : Nat) (rt : Runtime) (a : Assignment) (interrupts : List Nat)
    (w : World B) (m : Aftermath B) : Prop where
  exit : m.summary.exit = .forced
  report : m.summary.report = none
  ended : ∃ cause c, stopping fuel rt a interrupts w = some (cause, c) ∧
    m.summary.failures = [forcedFailure a cause] ∧ m.summary.ended ≤ graceEnd a c ∧
    ((∀ i ∈ (cause.later interrupts).head?, graceEnd a c ≤ i) → m.summary.ended = graceEnd a c)

/-- The run has made its report at `u`: it was not stopped, or its grace period was not over, or
that was over in the same instant and the runtime let the end of the worker come first. Unless the
worker could not go on, the report says of teardown, which had time until `t`, how it had ended. -/
structure InTime (fuel : Nat) (rt : Runtime) (a : Assignment) (interrupts : List Nat)
    (w : World B) (m : Aftermath B) (t u : Nat) : Prop where
  exit : m.summary.exit ≠ .forced
  report : m.summary.report = some (u, .ofErrors (m.summary.failures.map Failure.message))
  ended : (stopping fuel rt a interrupts w = none ∧ u ≤ Clock.timer a.deadline) ∨
    ∃ cause c, stopping fuel rt a interrupts w = some (cause, c) ∧ c ≤ u ∧
      (u < graceEnd a c ∨ u = graceEnd a c ∧
        rt.pick (.of (some cause) c (graceEnd a c) (cause.later interrupts)) true = .worker)
  teardown : (∃ task f, .crashed task f ∈ m.summary.failures) ∨
    ∃ o, Worker.Concluded a (stopTime fuel rt a interrupts w) w t u o m.world ∧
      ∀ e, .during .tearingDown e ∈ m.summary.failures ↔ o = .error e

theorem inTime_ended (hw : w.now ≤ a.deadline)
    (h : runToEnd fuel rt a interrupts w = some (e, w'))
    (hforced : ∀ cause st, e ≠ .forced cause st) :
    (stopping fuel rt a interrupts w = none ∧ w'.now ≤ Clock.timer a.deadline) ∨
      ∃ cause c, stopping fuel rt a interrupts w = some (cause, c) ∧ c ≤ w'.now ∧
        (w'.now < graceEnd a c ∨ w'.now = graceEnd a c ∧
          rt.pick (.of (some cause) c (graceEnd a c) (cause.later interrupts)) true = .worker) := by
  rcases runToEnd_stopping hw h with ⟨hstopping, -, hle, -⟩ | ⟨cause, c, hstopping, hc, hending⟩
  · exact .inl ⟨hstopping, hle⟩
  · cases hending with
    | ended _ hu => exact .inr ⟨cause, c, hstopping, hc, hu⟩
    | forced => exact absurd rfl (hforced _ _)

/-- A run whose teardown has time until `t` is reported, and then the report says how teardown has
ended, be it that its time was over; or the run ends by force, and nobody is told. Which of the two
it is that ends a teardown which goes on waiting is decided between its own timer and that of the
grace period, which is set for the same instant or for an earlier one, but for what the timer of the
deadline is late. -/
theorem overrun_or_inTime {t : Nat} {events : List (Event Cluster)}
    (hrun : run fuel rt config r interrupts reporter w.reset = some m)
    (hlog : w.reset.Adds events m.world)
    (ht : (Timetable.ofEvents ⟨config, r, w.now + config.runBudget.nanos⟩ events).limit = some t) :
    let a : Assignment := ⟨config, r, w.now + config.runBudget.nanos⟩
    (∀ cause c, stopping fuel rt a interrupts w.reset = some (cause, c) →
        c + config.shutdownGracePeriod.nanos ≤ t + (Clock.timer a.deadline - a.deadline)) ∧
      (Overrun fuel rt a interrupts w.reset m ∨
        ∃ u, InTime fuel rt a interrupts w.reset m t u) := by
  intro a
  have hdeadline : w.reset.now ≤ a.deadline := Nat.le_add_right ..
  obtain ⟨e, w₁, hend, hfollows⟩ := run_follows hrun
  obtain ⟨⟨limit, htimes⟩, hdone⟩ := runToEnd_times rfl rfl hend
  obtain ⟨hgrows, hlimit⟩ := times_of_follows htimes hfollows
  obtain rfl : limit = some t := (hlimit events hlog).symm.trans ht
  refine ⟨fun cause c hc => ?_, ?_⟩
  · have htimes : Allots a (stopTime fuel rt a interrupts w.reset) w.reset (some t) w₁ := htimes
    rw [stopTime, hc, Option.map_some] at htimes
    exact grace_le_limit htimes (stopping_le hdeadline hc).1
  · cases hfollows with
    | @forced cause _ _ hm =>
      cases hm
      rcases runToEnd_stopping hdeadline hend with ⟨-, hforced, -⟩ | ⟨_, c, hc, -, hending⟩
      · exact absurd rfl (hforced _ _)
      · cases hending with
        | ended hforced _ => exact absurd rfl (hforced _ _)
        | forced hle hlater => exact .inl ⟨rfl, rfl, cause, c, hc, rfl, hle, hlater⟩
    | @crashed cause f _ hconclude =>
      obtain ⟨hexit, hfailures, hreport⟩ := conclude_summary hconclude
      have hforced (c : StopCause) (st : Status B (List Failure)) :
          WorkerEnd.crashed cause f ≠ .forced c st := by rintro ⟨⟩
      refine .inr ⟨w₁.now, hexit, hreport, inTime_ended hdeadline hend hforced,
        .inl ⟨rt.task, f, ?_⟩⟩
      rw [hfailures]
      exact List.mem_append_right _ (List.mem_singleton.mpr rfl)
    | @done cause own _ hconclude =>
      obtain ⟨hexit, hfailures, hreport⟩ := conclude_summary hconclude
      rw [beginSweep_now] at hreport
      have hforced (c : StopCause) (st : Status B (List Failure)) :
          WorkerEnd.done cause own ≠ .forced c st := by rintro ⟨⟩
      refine .inr ⟨w₁.now, hexit, hreport, inTime_ended hdeadline hend hforced, .inr ?_⟩
      rcases hdone cause own rfl with ⟨hnone, -⟩ |
        ⟨before, torn, rfl, hbefore, t', o, ht', hconcluded, htorn⟩
      · cases htimes.unique hnone
      · obtain rfl : t = t' := Option.some.inj (htimes.unique ht')
        refine ⟨o, hconcluded.mono hgrows (Nat.le_refl _), fun e => ?_⟩
        rw [hfailures, during_mem_failures, List.mem_append, htorn]
        exact or_iff_right fun hmem => hbefore _ hmem e rfl

end Lifecycle

namespace Overtime

theorem exists_forced : ∃ m : Aftermath clinging,
    Lifecycle.run 400 .simulated brief Leftovers.probe interrupts Leftovers.prompt start.reset =
        some m ∧
      m.summary.exit = .forced ∧ m.summary.report = none ∧
      (Timetable.ofEvents ⟨brief, Leftovers.probe, start.now + brief.runBudget.nanos⟩
        m.world.trace.toList).limit = some 3500000000 := by
  have h : (Lifecycle.run 400 .simulated brief Leftovers.probe interrupts Leftovers.prompt
      start.reset).any (fun m => m.summary.exit = .forced ∧ m.summary.report = none ∧
        (Timetable.ofEvents ⟨brief, Leftovers.probe, start.now + brief.runBudget.nanos⟩
          m.world.trace.toList).limit = some 3500000000) = true := by
    decide +kernel
  obtain ⟨m, hrun, hm⟩ := (Option.any_eq_true _ _).mp h
  exact ⟨m, hrun, of_decide_eq_true hm⟩

theorem adds_trace (w : World clinging) : start.reset.Adds w.trace.toList w := by
  simp [World.Adds, World.reset, start, World.initial]

end Overtime

namespace Lifecycle

/-- The theorem for a run that is interrupted once and whose pods do not go away. -/
theorem overrun_of_clinging : ∃ m : Aftermath Overtime.clinging,
    run 400 .simulated Overtime.brief Leftovers.probe Overtime.interrupts Leftovers.prompt
        Overtime.start.reset = some m ∧
      Overtime.start.reset.Adds m.world.trace.toList m.world ∧
      (Timetable.ofEvents
        ⟨Overtime.brief, Leftovers.probe, Overtime.start.now + Overtime.brief.runBudget.nanos⟩
        m.world.trace.toList).limit = some 3500000000 ∧
      Overrun 400 .simulated
        ⟨Overtime.brief, Leftovers.probe, Overtime.start.now + Overtime.brief.runBudget.nanos⟩
        Overtime.interrupts Overtime.start.reset m := by
  obtain ⟨m, hrun, hexit, -, hlimit⟩ := Overtime.exists_forced
  have hlog := Overtime.adds_trace m.world
  refine ⟨m, hrun, hlog, hlimit, ?_⟩
  exact (overrun_or_inTime hrun hlog hlimit).2.resolve_right fun ⟨_, h⟩ => h.exit hexit

/-- A deadline between two milliseconds, and half a millisecond in the grace period too: here the
time of teardown is over first, and the report names the pod. -/
example : (run 400 .simulated
    { Overtime.brief with runBudget := ⟨5000500000⟩, shutdownGracePeriod := ⟨2000500000⟩ }
    Leftovers.probe [] Leftovers.prompt Overtime.start.reset).any (fun m =>
      m.summary.exit = .completed ∧ m.summary.report.map Prod.fst = some 7001000000 ∧
      m.summary.failures.getLast? = some (.during .tearingDown
        (.timeout "teardown" "pods still present: <unnamed>"))) = true := by
  decide +kernel

/-- It is not so that teardown which goes on waiting until its time is over is reported, even if no
other interrupt comes. -/
theorem overtime_not_always_reported : ¬ ∀ (B : Behaviour Cluster) (fuel : Nat) (rt : Runtime)
    (config : Config) (r : Run) (interrupts : List Nat) (reporter : Reporter) (w : World B)
    (m : Aftermath B) (events : List (Event Cluster)) (t : Nat),
    run fuel rt config r interrupts reporter w.reset = some m → w.reset.Adds events m.world →
    (Timetable.ofEvents ⟨config, r, w.now + config.runBudget.nanos⟩ events).limit = some t →
    interrupts.length ≤ 1 →
    (∀ now k s, ∃ p ps,
      (B.answer now (.listPods (Labels.runSelector r.workloadName)) k s).1 = .ok (p :: ps)) →
    ∃ u outstanding,
      m.summary.report = some (u, .ofErrors (m.summary.failures.map Failure.message)) ∧
      .during .tearingDown (.timeout "teardown" ("pods still present: " ++ outstanding)) ∈
        m.summary.failures := by
  intro h
  have hselector : Labels.runSelector Leftovers.probe.workloadName ≠ Labels.systemSelector := by
    decide +kernel
  obtain ⟨m, hrun, -, hreport, hlimit⟩ := Overtime.exists_forced
  obtain ⟨u, _, hu, -⟩ := h _ _ _ _ _ _ _ _ m _ _ hrun (Overtime.adds_trace m.world) hlimit
    (Nat.le_refl 1) fun _ _ _ => ⟨{}, [], congrArg Except.ok (if_neg hselector)⟩
  rw [hreport] at hu
  cases hu

end Lifecycle
end NodeCoverage
