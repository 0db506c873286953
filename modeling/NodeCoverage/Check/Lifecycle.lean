import NodeCoverage.Check.Exit
import NodeCoverage.Check.Runtime
import NodeCoverage.Check.Worker
import NodeCoverage.Process.Execution
import NodeCoverage.Report.Basic
import NodeCoverage.Report.Environment
/-!
# The life of a run

The worker is given until the deadline. An interrupt before that, or the deadline, stops it: the run
is cancelled, and the worker has one grace period to tear down. If it needs longer, or if another
interrupt comes, the run ends by force and reports nothing: the worker is told to stop at once, and
is abandoned when it is next woken. Otherwise a last sweep begins, and the verdict is reported,
once, without waiting for the sweep.

What happens first at an instant at which several things are due is up to a `Runtime`. Instants have
no end here; that a clock may not be able to hold them is left out.
-/

namespace NodeCoverage

structure Reporter where
  /-- What becomes of a report that is made at an instant, and when that is known; nothing if it
  never is. -/
  deliver : Nat → Report → Option (Except ReportError Unit × Nat)

structure RunSummary where
  exit : RunExit
  workloadName : String
  failures : List Failure
  report : Option (Nat × Report)
  ended : Nat
deriving DecidableEq

/-- How the worker ended, and why it had been stopped if it had. -/
inductive WorkerEnd (B : Behaviour Cluster) where
  | done (cause : Option StopCause) (failures : List Failure)
  | crashed (cause : Option StopCause) (f : Fault)
  /-- It was not waited for any longer. -/
  | forced (cause : StopCause) (worker : Status B (List Failure))

namespace WorkerEnd

variable {B : Behaviour Cluster}

/-- The end that the worker has come to by itself. -/
def ended? (cause : Option StopCause) : Status B (List Failure) → Option (WorkerEnd B)
  | .finished failures => some (.done cause failures)
  | .crashed f => some (.crashed cause f)
  | .suspended _ | .exhausted => none

end WorkerEnd

/-- What an end by force leaves running, though nobody waits for it. -/
inductive Remnant (B : Behaviour Cluster) where
  | nothing
  /-- The worker, which is abandoned. -/
  | worker (st : Status B (Option (List Failure)))
  /-- The last sweep of a worker that had come to its end unnoticed. -/
  | sweep (st : Status B (Except CheckError SweepReport))

namespace Remnant

variable {B : Behaviour Cluster}

def goOn (fuel : Nat) : Remnant B → World B → Remnant B × World B
  | nothing, w => (nothing, w)
  | worker st, w =>
    let (st, w) := st.goOn fuel none w
    (worker st, w)
  | sweep st, w =>
    let (st, w) := st.goOn fuel none w
    (sweep st, w)

end Remnant

/-- A run that is over, and what is still under way. -/
structure Aftermath (B : Behaviour Cluster) where
  summary : RunSummary
  world : World B
  /-- The last sweep; there is none after an end by force or a crash of the worker. -/
  sweep : Option (Status B (Except CheckError SweepReport))
  left : Remnant B

namespace Lifecycle

variable {B : Behaviour Cluster}

/-- What the controller takes when the worker has come as far as this by the juncture. A worker that
is out of fuel is as far as it can come. -/
def takeAt (rt : Runtime) (j : Juncture) :
    Status B (List Failure) × World B → Branch × Status B (List Failure) × World B
  | (.exhausted, w) => (.worker, .exhausted, w)
  | (worker, w) =>
    if worker.hasEnded && decide (w.now < j.time) then (.worker, worker, w)
    else (rt.pick j worker.hasEnded, worker, w.advance j.time)

/-- Waits for the worker until the first of the interrupts has come or a timer has ended at `t`. The
result is what the controller takes, and how far the worker has come by then. -/
def await (fuel : Nat) (rt : Runtime) (cause : Option StopCause) (t : Nat) (interrupts : List Nat)
    (worker : Status B (List Failure)) (w : World B) :
    Branch × Status B (List Failure) × World B :=
  let j := Juncture.of cause w.now t interrupts
  takeAt rt j (worker.goOn fuel (some (rt.bound j)) w)

def stop (cause : StopCause) (w : World B) : World B :=
  let w := if cause = .interrupt then w.fire .shutdown else w
  (w.fire .run).note (S := Cluster) (.entered .shuttingDown)

def awaitTeardown (fuel : Nat) (rt : Runtime) (grace : Duration) (cause : StopCause)
    (interrupts : List Nat) (worker : Status B (List Failure)) (w : World B) :
    Option (WorkerEnd B × World B) :=
  match await fuel rt (some cause) (Clock.timer (Clock.after w.now grace)) interrupts worker w with
  | (.worker, worker, w) => (WorkerEnd.ended? (some cause) worker).map (·, w)
  | (_, worker, w) => some (.forced cause worker, w)

def runToEnd (fuel : Nat) (rt : Runtime) (a : Assignment) (interrupts : List Nat) (w : World B) :
    Option (WorkerEnd B × World B) :=
  let (taken, worker, w) := await fuel rt none (Clock.timer a.deadline) interrupts
    (.suspended (.ready (Worker.run a))) w
  match taken.cause? with
  | none => (WorkerEnd.ended? none worker).map (·, w)
  | some cause =>
    awaitTeardown fuel rt a.config.shutdownGracePeriod cause (cause.later interrupts) worker
      (stop cause w)

/-- The failures of a run whose worker came to its end at `now` with failures of its own. -/
def failures (a : Assignment) (cause : Option StopCause) (now : Nat) (own : List Failure) :
    List Failure :=
  let late := cause == some .deadline || (!own.isEmpty && decide (a.deadline ≤ now))
  (if cause = some .interrupt then [.interrupted] else []) ++
    (if late then [.overBudget a.config.runBudget] else []) ++ own

def forcedFailure (a : Assignment) : StopCause → Failure
  | .interrupt => .interrupted
  | .deadline => .overBudget a.config.runBudget

def exit (cause : Option StopCause) : Except ReportError Unit → RunExit
  | .error _ => .reportFailed
  | .ok () => if cause = some .interrupt then .interrupted else .completed

def forcedSummary (a : Assignment) (cause : StopCause) (now : Nat) : RunSummary :=
  ⟨.forced, a.run.workloadName, [forcedFailure a cause], none, now⟩

/-- Begins the last sweep. If the runtime lets it run at once, it does all that takes no time. -/
def beginSweep (fuel : Nat) (rt : Runtime) (a : Assignment) (w : World B) :
    Status B (Except CheckError SweepReport) × World B :=
  let sweep : Status B (Except CheckError SweepReport) :=
    .suspended (.ready (Sweep.once a.config .hardStop a.run))
  if rt.sweepBegins then sweep.goOn fuel (some (w.now + 1)) w else (sweep, w)

/-- Goes on with the last sweep, if there is one, until `bound`. -/
def continueSweep (fuel : Nat) (bound : Option Nat) :
    Option (Status B (Except CheckError SweepReport)) → World B →
      Option (Status B (Except CheckError SweepReport)) × World B
  | none, w => (none, w)
  | some sweep, w =>
    let (sweep, w) := sweep.goOn fuel bound w
    (some sweep, w)

/-- The report is made while the last sweep goes on. The answer comes at `ended`. -/
def awaitAnswer (fuel : Nat) (rt : Runtime) (ended : Nat)
    (sweep : Option (Status B (Except CheckError SweepReport))) (w : World B) :
    Option (Status B (Except CheckError SweepReport)) × World B :=
  let bound := if rt.sweepFirst then ended + 1 else ended
  let (sweep, w) :=
    continueSweep fuel (some bound) sweep (w.note (S := Cluster) (.entered .reporting))
  (sweep, (w.advance ended).note (S := Cluster) (.entered .done))

/-- The worker has ended with failures of its own, and the last sweep has begun if there is one. -/
def conclude (fuel : Nat) (rt : Runtime) (a : Assignment) (reporter : Reporter)
    (cause : Option StopCause) (own : List Failure)
    (sweep : Option (Status B (Except CheckError SweepReport))) (w : World B) :
    Option (Aftermath B) :=
  let fs := failures a cause w.now own
  let report := Report.ofErrors (fs.map Failure.message)
  match reporter.deliver w.now report with
  | none => none
  | some (result, t) =>
    let ended := max w.now t
    let (sweep, w') := awaitAnswer fuel rt ended sweep w
    some ⟨⟨exit cause result, a.run.workloadName, fs, some (w.now, report), ended⟩, w', sweep,
      .nothing⟩

/-- What the worker leaves when it is not waited for any longer. It is abandoned as soon as it is
woken after the signal; if it had come to its end it has begun the last sweep. -/
def abandon (fuel : Nat) (rt : Runtime) (a : Assignment) (w : World B) :
    Status B (List Failure) → Remnant B × World B
  | .suspended p => (.worker (.suspended (.abandonOn .hardStop p)), w)
  | .finished _ =>
    let (sweep, w) := beginSweep fuel rt a w
    (.sweep sweep, w)
  | .crashed _ | .exhausted => (.nothing, w)

def force (fuel : Nat) (rt : Runtime) (a : Assignment) (cause : StopCause)
    (worker : Status B (List Failure)) (w : World B) : Aftermath B :=
  let (left, w') := abandon fuel rt a w worker
  ⟨forcedSummary a cause w.now, w'.fire .hardStop, none, left⟩

def run (fuel : Nat) (rt : Runtime) (config : Config) (r : Run) (interrupts : List Nat)
    (reporter : Reporter) (w : World B) : Option (Aftermath B) :=
  let a : Assignment := ⟨config, r, w.now + config.runBudget.nanos⟩
  match runToEnd fuel rt a interrupts w with
  | none => none
  | some (.forced cause worker, w) => some (force fuel rt a cause worker w)
  | some (.crashed cause f, w) =>
    conclude fuel rt a reporter cause [.crashed rt.task f] none w
  | some (.done cause own, w) =>
    let (sweep, w) := beginSweep fuel rt a w
    conclude fuel rt a reporter cause own (some sweep) w

end Lifecycle

namespace Aftermath

variable {B : Behaviour Cluster}

/-- Goes on with what is still under way to its end. -/
def settle (fuel : Nat) (a : Aftermath B) : Aftermath B :=
  let (sweep, w) := Lifecycle.continueSweep fuel none a.sweep a.world
  let (left, w) := a.left.goOn fuel w
  { a with world := w, sweep := sweep, left := left }

def swept (a : Aftermath B) : Option Bool :=
  a.sweep.map fun
    | .finished _ => true
    | _ => false

end Aftermath
end NodeCoverage
