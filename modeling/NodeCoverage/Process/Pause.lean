import NodeCoverage.Process.Retry
/-!
# Pauses under a deadline

Between two looks at the cluster a process pauses. The pause is cut short when a signal fires or a
deadline comes. If several of these happen at one instant, the signal comes first, then the
deadline.
-/

namespace NodeCoverage

inductive Pause where
  | stopped
  /-- The deadline has come. -/
  | overdue
  | over
deriving DecidableEq

/-- Pauses for the interval, unless the signal fires or the deadline comes before its end. -/
def Process.pause {S : Service} (stop : Signal) (deadline : Nat) (interval : Duration) :
    Process S Pause := do
  let wait : Process S Unit := .sleepUntil (min deadline (Clock.after (← clock) interval))
  match ← abandonOn stop wait with
  | none => pure .stopped
  | some () => pure (if deadline ≤ (← clock) then .overdue else .over)

end NodeCoverage
