import NodeCoverage.Cluster.Error
import NodeCoverage.Cluster.Object
import NodeCoverage.Process.Retry
/-!
# Calls to the cluster

The check uses nine kinds of requests. Deleting an object that does not exist succeeds. Every call
is repeated as long as its errors are transient and the policy allows, and is abandoned when a
signal fires.
-/

namespace NodeCoverage
namespace Cluster

inductive Request where
  | listNodes
  | listPods (selector : String)
  /-- One page; the token of the page before it tells where to go on. -/
  | listWorkloads (selector : String) (continueFrom : Option String)
  | createWorkload (workload : Workload)
  | deleteWorkload (name : String)
  | deletePods (selector : String)
  | deletePod (name : String)
  | getPod (name : String)
  | getWorkload (name : String)

structure Page where
  items : List Workload
  next : Option String

namespace Request

abbrev Result : Request → Type
  | listNodes => List Node
  | listPods _ => List Pod
  | listWorkloads _ _ => Page
  | createWorkload _ => Unit
  | deleteWorkload _ => Unit
  | deletePods _ => Unit
  | deletePod _ => Unit
  | getPod _ => Option Pod
  | getWorkload _ => Option Workload

def operation : Request → String
  | listNodes => "list nodes"
  | listPods _ => "list pods"
  | listWorkloads _ _ => "list workloads"
  | createWorkload _ => "create workload"
  | deleteWorkload _ => "delete workload"
  | deletePods _ => "delete pods"
  | deletePod _ => "delete pod"
  | getPod _ => "get pod"
  | getWorkload _ => "get workload"

end Request

inductive Phase where
  | init
  | preCleanup
  | deploying
  | verifying
  | tearingDown
  | postCleanup
  | reporting
  | done
  | shuttingDown
deriving DecidableEq

namespace Phase

def name : Phase → String
  | init => "Init"
  | preCleanup => "PreCleanup"
  | deploying => "Deploying"
  | verifying => "Verifying"
  | tearingDown => "TearingDown"
  | postCleanup => "PostCleanup"
  | reporting => "Reporting"
  | done => "Done"
  | shuttingDown => "ShuttingDown"

def all : List Phase :=
  [init, preCleanup, deploying, verifying, tearingDown, postCleanup, reporting, done, shuttingDown]

end Phase

inductive Entry where
  | entered (phase : Phase)
  /-- An orphan is about to be deleted. -/
  | orphan (object reason : String)

end Cluster

/-- The API server, as the check sees it. -/
def Cluster : Service where
  Request := Cluster.Request
  Reply r := Except CheckError r.Result
  Entry := Cluster.Entry

namespace Cluster

def callAs (stop : Signal) (policy : Backoff) (operation : String) (r : Request) :
    Process Cluster (Except CheckError r.Result) := do
  let attempt : Process Cluster (Except CheckError r.Result) := .call (S := Cluster) r
  match ← Process.abandonOn stop (Process.retry policy (fun e => !e.isTransient) attempt) with
  | some outcome => pure outcome
  | none => pure (.error (.cancelled operation))

def call (stop : Signal) (policy : Backoff) (r : Request) :
    Process Cluster (Except CheckError r.Result) :=
  callAs stop policy r.operation r

end Cluster
end NodeCoverage
