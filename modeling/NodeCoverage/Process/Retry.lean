import NodeCoverage.Process.Basic
import NodeCoverage.Backoff
/-!
# Repeating an attempt

An attempt that may fail for a while is repeated until it succeeds, fails for good, or the next
delay would exceed the policy's bound on the elapsed time. The outcome is that of the last attempt.
-/

namespace NodeCoverage
namespace Process

variable {S : Service}

def sleep (d : Duration) : Process S Unit := do
  sleepUntil (Clock.after (← clock) d)

/-- One attempt, and the delay after it. The state is the interval to wait before the next one. -/
def retryRound {ε α : Type} (policy : Backoff) (isPermanent : ε → Bool) (started : Nat)
    (attempt : Process S (Except ε α)) (interval : Duration) :
    Process S (Duration ⊕ Except ε α) := do
  match ← attempt with
  | .ok a => pure (.inr (.ok a))
  | .error e =>
    if isPermanent e then pure (.inr (.error e))
    else
      let delay := policy.delay (← draw) interval
      if policy.exhausted ⟨(← clock) - started⟩ delay then pure (.inr (.error e))
      else
        sleep delay
        match policy.nextInterval? interval with
        | some next => pure (.inl next)
        | none => crash .negativeInterval

def retry {ε α : Type} (policy : Backoff) (isPermanent : ε → Bool)
    (attempt : Process S (Except ε α)) : Process S (Except ε α) := do
  let started ← clock
  iterate (retryRound policy isPermanent started attempt) policy.initialInterval

end Process
end NodeCoverage
