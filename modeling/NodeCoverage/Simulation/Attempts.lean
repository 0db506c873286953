import NodeCoverage.Process.Execution
import NodeCoverage.Process.Retry
/-!
# Attempts with given outcomes

An operation whose attempts take given times and have given outcomes is repeated under a policy. It
is recorded when each attempt began.
-/

namespace NodeCoverage
namespace Simulation

/-- A single operation that gives an `α` or fails with a text. -/
def Attempts (α : Type) : Service where
  Request := Unit
  Reply _ := Except String α
  Entry := Empty

structure AttemptPlan (α : Type) where
  delay : Duration
  outcome : Except String α

structure Series (α : Type) where
  attempts : List Nat
  finish : Nat
  outcome : Except Fault (Except String α)

namespace Attempts

variable {α : Type}

/-- The plan of the next attempt; the last one is followed again and again. -/
def next : List (AttemptPlan α) → AttemptPlan α × List (AttemptPlan α)
  | [] => (⟨.zero, .error ""⟩, [])
  | [plan] => (plan, [plan])
  | plan :: later => (plan, later)

def behaviour (α : Type) : Behaviour (Attempts α) where
  State := List (AttemptPlan α)
  Ticket := AttemptPlan α
  start _ _ plans :=
    let (plan, plans) := next plans
    (plan.delay, plan, plans)
  answer _ _ plan plans := (plan.outcome, plans)

/-- A failure that begins with this word is permanent. -/
def isPermanent (failure : String) : Bool :=
  "permanent".isPrefixOf failure

def process (policy : Backoff) : Process (Attempts α) (Except String α) :=
  Process.retry policy isPermanent (.call (S := Attempts α) ())

/-- When the attempts among the events began. -/
def starts (events : List (Event (Attempts α))) : List Nat :=
  events.filterMap fun
    | .called t _ _ => some t
    | _ => none

def run (fuel : Nat) (policy : Backoff) (plans : List (AttemptPlan α)) : Option (Series α) :=
  match Suspended.runWith fuel fuel [] (.ready (process policy))
    (World.initial (B := behaviour α) plans) with
  | (.finished outcome, w) => some ⟨starts w.trace.toList, w.now, .ok outcome⟩
  | (.crashed f, w) => some ⟨starts w.trace.toList, w.now, .error f⟩
  | (.suspended _, _) => none
  | (.exhausted, _) => none

end Attempts
end Simulation
end NodeCoverage
