/-!
# What the runtime decides

While the worker is at work the controller of a run waits for three things: for the worker to end,
for an interrupt, and for a timer. At an instant at which several of them are due, the runtime
decides whether the worker goes on before the controller looks, and with which of the three the
controller begins to look. It also decides whether a task that has just begun runs at once. Nothing
is assumed about these decisions, nor about the numbers that tasks are given.
-/

namespace NodeCoverage

inductive StopCause where
  | interrupt
  | deadline
deriving DecidableEq

/-- The interrupts that may still come. -/
def StopCause.later : StopCause → List Nat → List Nat
  | interrupt, interrupts => interrupts.tail
  | deadline, interrupts => interrupts

inductive Branch where
  | worker
  | interrupt
  | timer
deriving DecidableEq

namespace Branch

def next : Branch → Branch
  | worker => interrupt
  | interrupt => timer
  | timer => worker

/-- The first of the branches that is ready, when they are looked at in turn, beginning with
`first`. -/
def pick (ready : Branch → Bool) (first : Branch) : Branch :=
  if ready first then first
  else if ready first.next then first.next
  else first.next.next

/-- Why the worker is stopped if this is what comes first. -/
def cause? : Branch → Option StopCause
  | worker => none
  | interrupt => some .interrupt
  | timer => some .deadline

end Branch

/-- The instant at which the controller stops waiting for the worker. -/
structure Juncture where
  /-- Why the worker has been stopped before. -/
  cause : Option StopCause
  time : Nat
  interrupt : Bool
  timer : Bool
  /-- The controller did not have to wait. -/
  atOnce : Bool

namespace Juncture

/-- When the controller waits from `now` on for one of the interrupts or a timer that ends
at `t`. -/
def of (cause : Option StopCause) (now t : Nat) (interrupts : List Nat) : Juncture :=
  let time := max now (interrupts.head?.elim t (min t))
  ⟨cause, time, interrupts.head?.any (· ≤ time), t ≤ time, time ≤ now⟩

def ready (j : Juncture) (ended : Bool) : Branch → Bool
  | .worker => ended
  | .interrupt => j.interrupt
  | .timer => j.timer

end Juncture

/-- All that is decided where several things are due, and the number under which a crash of the
worker is reported. -/
structure Runtime where
  /-- The number of the worker among all tasks. -/
  task : Nat
  /-- The worker goes on at the juncture before the controller looks. -/
  workerFirst : Juncture → Bool
  /-- Where the controller begins to look. -/
  first : Juncture → Branch
  /-- The last sweep begins before the report is made. -/
  sweepBegins : Bool
  /-- The last sweep goes on before the answer to the report is noticed, if both are due. -/
  sweepFirst : Bool

namespace Runtime

/-- What the controller takes; `ended` tells whether the worker has come to its end. -/
def pick (rt : Runtime) (j : Juncture) (ended : Bool) : Branch :=
  Branch.pick (j.ready ended) (rt.first j)

/-- The instant before which the worker goes on. -/
def bound (rt : Runtime) (j : Juncture) : Nat :=
  if rt.workerFirst j then j.time + 1 else j.time

/-- Timers come before the worker, and interrupts after it, unless they had come while the
controller dealt with another. The worker is the fifth task. -/
def simulated : Runtime where
  task := 5
  workerFirst j := !j.timer && !(j.cause == some .interrupt && j.atOnce)
  first _ := .timer
  sweepBegins := true
  sweepFirst := false

end Runtime
end NodeCoverage
