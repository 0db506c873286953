import NodeCoverage.Process.Execution
import NodeCoverage.Simulation.Store
/-!
# Scripted answers

A script overrides what the simulated cluster does. It has a list of steps for each kind of request,
and each request takes the first step that is left. A step may delay the answer, and may give the
answer itself, in which case the store is not asked. Requests for which no step is left are answered
by the store.
-/

namespace NodeCoverage
namespace Simulation

inductive Method where
  | listNodes
  | listPods
  | listWorkloads
  | createWorkload
  | deleteWorkload
  | deletePods
  | deletePod
  | getPod
  | getWorkload
deriving DecidableEq

namespace Method

def ofRequest : Cluster.Request → Method
  | .listNodes => listNodes
  | .listPods _ => listPods
  | .listWorkloads _ _ => listWorkloads
  | .createWorkload _ => createWorkload
  | .deleteWorkload _ => deleteWorkload
  | .deletePods _ => deletePods
  | .deletePod _ => deletePod
  | .getPod _ => getPod
  | .getWorkload _ => getWorkload

def name : Method → String
  | listNodes => "list_nodes"
  | listPods => "list_pods"
  | listWorkloads => "list_workloads"
  | createWorkload => "create_workload"
  | deleteWorkload => "delete_workload"
  | deletePods => "delete_pod_collection"
  | deletePod => "delete_pod"
  | getPod => "get_pod"
  | getWorkload => "get_workload"

def all : List Method :=
  [listNodes, listPods, listWorkloads, createWorkload, deleteWorkload, deletePods, deletePod,
    getPod, getWorkload]

def ofName? (s : String) : Option Method :=
  all.find? fun m => m.name == s

end Method

inductive Given where
  | nodes (items : List Node)
  | pods (items : List Pod)
  | page (page : Cluster.Page)
  | done
  | pod (found : Option Pod)
  | workload (found : Option Workload)

/-- The given answer as one to the request, if it is of its kind. -/
def Given.result? : (r : Cluster.Request) → Given → Option r.Result
  | .listNodes, .nodes items => some items
  | .listPods _, .pods items => some items
  | .listWorkloads _ _, .page p => some p
  | .createWorkload _, .done => some ()
  | .deleteWorkload _, .done => some ()
  | .deletePods _, .done => some ()
  | .deletePod _, .done => some ()
  | .getPod _, .pod found => some found
  | .getWorkload _, .workload found => some found
  | _, _ => none

/-- Where an answer comes from. -/
inductive Source where
  | store
  | given (answer : Given)
  /-- The request fails, although it may have been carried out. -/
  | failure (e : CheckError) (carriedOut : Bool)

/-- What a script says about one request. -/
structure ScriptStep where
  delay : Duration := .zero
  source : Source := .store

instance : Inhabited ScriptStep := ⟨{}⟩

/-- Steps for each kind of request, with the number of times that each is taken. -/
abbrev Script := Method → List (Nat × ScriptStep)

/-- Takes the first step that is left. -/
def takeStep {σ : Type} : List (Nat × σ) → Option σ × List (Nat × σ)
  | [] => (none, [])
  | (0, _) :: rest => takeStep rest
  | (n + 1, s) :: rest => (some s, if n = 0 then rest else (n, s) :: rest)

namespace Script

def next (script : Script) (m : Method) : ScriptStep × Script :=
  let (step, rest) := takeStep (script m)
  (step.getD {}, fun k => if k = m then rest else script k)

end Script

structure State where
  store : Store
  script : Script

def answer (now : Nat) (r : Cluster.Request) (step : ScriptStep) (s : State) :
    Except CheckError r.Result × State :=
  let store := s.store.upTo now
  match step.source with
  | .store =>
    let (result, store) := store.answer now r
    (result, { s with store := store })
  | .given g =>
    match g.result? r with
    | some result => (.ok result, { s with store := store })
    | none =>
      let (result, store) := store.answer now r
      (result, { s with store := store })
  | .failure e carriedOut =>
    (.error e, { s with store := if carriedOut then (store.answer now r).2 else store })

/-- A cluster that follows a script, as the other side of calls. -/
def behaviour : Behaviour Cluster where
  State := State
  Ticket := ScriptStep
  start _ r s :=
    let (step, script) := s.script.next (.ofRequest r)
    (step.delay, step, { s with script := script })
  answer now r step s := answer now r step s

end Simulation
end NodeCoverage
