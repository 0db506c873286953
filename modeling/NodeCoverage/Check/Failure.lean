import NodeCoverage.Cluster.Api
import NodeCoverage.Process.Basic
import NodeCoverage.Text.Quoted
import NodeCoverage.Time.DurationText
/-!
# Failures of a run

A run fails because it was stopped, because it took too long, or because a part of it did not
succeed. All of its failures are reported, in this order.
-/

namespace NodeCoverage

inductive Failure where
  | interrupted
  | overBudget (budget : Duration)
  | during (phase : Cluster.Phase) (e : CheckError)
  /-- The worker, which was the task with this number, could not go on. -/
  | crashed (task : Nat) (f : Fault)
deriving DecidableEq

namespace Failure

def message : Failure → String
  | interrupted => "failed to complete check due to an interrupt signal"
  | overBudget budget => "check exceeded its time budget of " ++ DurationText.render budget
  | during _ e => e.message
  | crashed task f =>
    "check worker failed: task " ++ toString task ++ " panicked with message " ++
      Text.quoted f.message

end Failure
end NodeCoverage
