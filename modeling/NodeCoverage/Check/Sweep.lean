import NodeCoverage.Check.Config
import NodeCoverage.Check.Orphan
import NodeCoverage.Cluster.Api
import NodeCoverage.Process.Pause
/-!
# Sweeps

A sweep lists what the check has created and deletes the orphans. Its two halves, one for workloads
and one for pods, run side by side. An object that is being deleted already is passed over. Whether
a creating process still exists is looked up once in each half. A deletion that fails is noted and
left to the next sweep; a listing or a lookup that fails ends its half, but not the other one.
-/

namespace NodeCoverage

structure SweepReport where
  /-- The orphans, by kind and name, in the order in which they were met. -/
  found : List String
  failed : List String
deriving DecidableEq

namespace SweepReport

def empty : SweepReport := ⟨[], []⟩

def isClear (r : SweepReport) : Bool :=
  r.found.isEmpty

def append (r s : SweepReport) : SweepReport :=
  ⟨r.found ++ s.found, r.failed ++ s.failed⟩

end SweepReport

inductive Sweepable where
  | workload
  | pod
deriving DecidableEq

namespace Sweepable

/-- An object in words, by its name. -/
def path : Sweepable → String → String
  | workload, name => "daemonset/" ++ name
  | pod, name => "pod/" ++ name

def delete (stop : Signal) (policy : Backoff) : Sweepable → String →
    Process Cluster (Except CheckError Unit)
  | workload, name => Cluster.call stop policy (.deleteWorkload name)
  | pod, name => Cluster.call stop policy (.deletePod name)

end Sweepable

/-- How far one half of a sweep has come. -/
structure HalfSweep where
  /-- Creating processes that were looked up, and whether they exist. -/
  owners : List (String × Bool)
  report : SweepReport

namespace HalfSweep

def empty : HalfSweep := ⟨[], .empty⟩

def find (h : HalfSweep) (path : String) : HalfSweep :=
  { h with report := { h.report with found := h.report.found ++ [path] } }

def fail (h : HalfSweep) (path : String) : HalfSweep :=
  { h with report := { h.report with failed := h.report.failed ++ [path] } }

def learn (h : HalfSweep) (owner : String) (alive : Bool) : HalfSweep :=
  { h with owners := (owner, alive) :: h.owners }

end HalfSweep

namespace Sweep

def ownerAlive (config : Config) (stop : Signal) (owner : String) (h : HalfSweep) :
    Process Cluster (Except CheckError (Bool × HalfSweep)) := do
  match h.owners.lookup owner with
  | some alive => pure (.ok (alive, h))
  | none =>
    match ← Cluster.call stop config.apiBackoff (.getPod owner) with
    | .error e => pure (.error e)
    | .ok pod => pure (.ok (pod.isSome, h.learn owner pod.isSome))

def classify (config : Config) (stop : Signal) (run : Run) (m : Metadata) (h : HalfSweep) :
    Process Cluster (Except CheckError (Option OrphanReason × HalfSweep)) := do
  match Triage.ofMetadata m run.timestamp with
  | .orphan reason => pure (.ok (some reason, h))
  | .checkOwner owner =>
    if owner = run.host then pure (.ok (none, h))
    else
      match ← ownerAlive config stop owner h with
      | .error e => pure (.error e)
      | .ok (true, h) => pure (.ok (none, h))
      | .ok (false, h) => pure (.ok (some (.ownerGone owner), h))

def remove (config : Config) (stop : Signal) (kind : Sweepable) (name : String)
    (reason : OrphanReason) (h : HalfSweep) : Process Cluster (Except CheckError HalfSweep) := do
  let path := kind.path name
  Process.note (S := Cluster) (.orphan path reason.message)
  match ← kind.delete stop config.apiBackoff name with
  | .ok () => pure (.ok (h.find path))
  | .error e =>
    if e.isCancelled then pure (.error e) else pure (.ok ((h.find path).fail path))

/-- Deals with one object. One without a name, or which is being deleted, is passed over. -/
def visit (config : Config) (stop : Signal) (run : Run) (kind : Sweepable) (m : Metadata)
    (h : HalfSweep) : Process Cluster (Except CheckError HalfSweep) := do
  match m.name with
  | none => pure (.ok h)
  | some name =>
    if m.deletionTimestamp.isSome then pure (.ok h)
    else
      match ← classify config stop run m h with
      | .error e => pure (.error e)
      | .ok (none, h) => pure (.ok h)
      | .ok (some reason, h) => remove config stop kind name reason h

def visitAll (config : Config) (stop : Signal) (run : Run) (kind : Sweepable) :
    List Metadata → HalfSweep → Process Cluster (Except CheckError HalfSweep)
  | [], h => pure (.ok h)
  | m :: ms, h => do
    match ← visit config stop run kind m h with
    | .error e => pure (.error e)
    | .ok h => visitAll config stop run kind ms h

/-- Deals with one page of the workloads; the state holds the token of the page. -/
def workloadPage (config : Config) (stop : Signal) (run : Run) :
    Option String × HalfSweep →
      Process Cluster ((Option String × HalfSweep) ⊕ Except CheckError SweepReport)
  | (token, h) => do
    match ← Cluster.call stop config.apiBackoff (.listWorkloads Labels.systemSelector token) with
    | .error e => pure (.inr (.error e))
    | .ok page =>
      match ← visitAll config stop run .workload (page.items.map Workload.metadata) h with
      | .error e => pure (.inr (.error e))
      | .ok h =>
        match page.next with
        | some next => pure (.inl (some next, h))
        | none => pure (.inr (.ok h.report))

def workloads (config : Config) (stop : Signal) (run : Run) :
    Process Cluster (Except CheckError SweepReport) :=
  .iterate (workloadPage config stop run) (none, .empty)

def pods (config : Config) (stop : Signal) (run : Run) :
    Process Cluster (Except CheckError SweepReport) := do
  match ← Cluster.call stop config.apiBackoff (.listPods Labels.systemSelector) with
  | .error e => pure (.error e)
  | .ok pods =>
    match ← visitAll config stop run .pod (pods.map Pod.metadata) .empty with
    | .error e => pure (.error e)
    | .ok h => pure (.ok h.report)

/-- Both halves together; an error of the workloads comes first. -/
def merge : Except CheckError SweepReport × Except CheckError SweepReport →
    Except CheckError SweepReport
  | (workloads, pods) => do
    pure ((← workloads).append (← pods))

def once (config : Config) (stop : Signal) (run : Run) :
    Process Cluster (Except CheckError SweepReport) := do
  pure (merge (← Process.both (workloads config stop run) (pods config stop run)))

/-- What the last sweep has left to do, in words. -/
def describe (found : List String) : String :=
  if found.isEmpty then "sweeps did not complete"
  else "objects still present: " ++ String.intercalate ", " found

/-- One sweep and the pause after it; the state is what the last sweep that was carried through
has found. -/
def round (config : Config) (stop : Signal) (deadline : Nat) (run : Run) (found : List String) :
    Process Cluster (List String ⊕ Except CheckError Unit) := do
  let result ← once config stop run
  match afterSweep found result with
  | .inr outcome => pure (.inr outcome)
  | .inl found =>
    match ← Process.pause stop deadline config.removalPollInterval with
    | .stopped => pure (.inr (.error (.cancelled "orphan cleanup")))
    | .overdue => pure (.inr (.error (.timeout "orphan cleanup" (describe found))))
    | .over => pure (.inl found)
where
  /-- A clear sweep ends it, and so does a cancelled one. -/
  afterSweep (found : List String) :
      Except CheckError SweepReport → List String ⊕ Except CheckError Unit
    | .ok report => if report.isClear then .inr (.ok ()) else .inl report.found
    | .error e => if e.isCancelled then .inr (.error e) else .inl found

/-- Sweeps until nothing is found, or until the deadline. -/
def untilClear (config : Config) (stop : Signal) (deadline : Nat) (run : Run) :
    Process Cluster (Except CheckError Unit) :=
  .iterate (round config stop deadline run) []

end Sweep
end NodeCoverage
