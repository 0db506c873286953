import NodeCoverage.Cluster.Api
import NodeCoverage.Proofs.Process.Finishes
/-!
# Calls one after another

What a part of the check has done is the list of the calls it made, each with what came of it. A
call that was repeated counts once. Between the calls there may be entries in the log, and nothing
else.
-/

namespace NodeCoverage
namespace Cluster

open Process (Finishes)

/-- A call that was made, and what came of it. -/
structure Made where
  request : Request
  outcome : Except CheckError request.Result

namespace Made

def error? (m : Made) : Option CheckError :=
  match m.outcome with
  | .ok _ => none
  | .error e => some e

/-- A pod that was looked up, and what was found. -/
def lookup? : Made → Option (String × Option Pod)
  | ⟨.getPod name, .ok pod⟩ => some (name, pod)
  | _ => none

end Made

def Request.isListing : Request → Bool
  | listNodes | listPods _ | listWorkloads _ _ => true
  | _ => false

variable {B : Behaviour Cluster}

/-- The calls that were made since `w`, with entries in the log between them. -/
inductive Calls (E : Surroundings B) (stop : Signal) (policy : Backoff) (w : World B) :
    List Made → World B → Prop
  | none : Calls E stop policy w [] w
  | call {made : List Made} {r : Request} {x : Except CheckError r.Result} {w₁ w₂ : World B} :
    Calls E stop policy w made w₁ → Finishes E (Cluster.call stop policy r) w₁ x w₂ →
    Calls E stop policy w (made ++ [⟨r, x⟩]) w₂
  | note {made : List Made} {w₁ : World B} (entry : Entry) :
    Calls E stop policy w made w₁ → Calls E stop policy w made (w₁.note entry)

namespace Calls

variable {E : Surroundings B} {stop : Signal} {policy : Backoff} {w w₁ w₂ : World B}
  {made more : List Made}

theorem trans (h₁ : Calls E stop policy w made w₁) (h₂ : Calls E stop policy w₁ more w₂) :
    Calls E stop policy w (made ++ more) w₂ := by
  induction h₂ with
  | none => simpa using h₁
  | call _ hcall ih => simpa using ih.call hcall
  | note entry _ ih => exact ih.note entry

theorem single {r : Request} {x : Except CheckError r.Result}
    (h : Finishes E (Cluster.call stop policy r) w x w₁) : Calls E stop policy w [⟨r, x⟩] w₁ :=
  Calls.none.call h

end Calls
end Cluster
end NodeCoverage
