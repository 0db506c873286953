import NodeCoverage.Check.Labels
import NodeCoverage.Text.Integer
/-!
# Orphans

An object of the check is an orphan when its labels show that the run which created it is over:
they do not say who created it, or when, or they say that it was before the current run began. An
object with current labels is an orphan only if the process that created it is gone.
-/

namespace NodeCoverage

inductive OrphanReason where
  /-- The labels do not name the creating process. -/
  | unlabeled
  | ownerGone (owner : String)
  | stale (runTime : Int)
  /-- The labels do not say when the creating run began. -/
  | unreadableRunTime
deriving DecidableEq

namespace OrphanReason

def message : OrphanReason → String
  | unlabeled => "missing " ++ Labels.instanceKey ++ " label"
  | ownerGone owner => s!"creating instance {owner} no longer exists"
  | stale runTime => s!"stale run generation {runTime}"
  | unreadableRunTime => "unreadable " ++ Labels.runTimeKey ++ " label"

end OrphanReason

/-- What the labels of an object say about it. -/
inductive Triage where
  | orphan (reason : OrphanReason)
  /-- The labels are current; whether the creating process still exists must be looked up. -/
  | checkOwner (owner : String)
deriving DecidableEq

namespace Triage

def ofMetadata (m : Metadata) (current : Int) : Triage :=
  match m.label? Labels.instanceKey with
  | none => .orphan .unlabeled
  | some owner =>
    match m.label? Labels.runTimeKey with
    | none => .orphan .unreadableRunTime
    | some text =>
      match Text.readInt64 text with
      | .error _ => .orphan .unreadableRunTime
      | .ok runTime => if runTime < current then .orphan (.stale runTime) else .checkOwner owner

end Triage
end NodeCoverage
