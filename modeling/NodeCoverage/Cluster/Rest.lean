import NodeCoverage.Cluster.Api
import NodeCoverage.Cluster.Object.Json
import NodeCoverage.Http.Basic
import NodeCoverage.Http.Target
import NodeCoverage.Json.Parser
import NodeCoverage.Text.Quoted
/-!
# The cluster behind HTTP

How requests to the API server are written as HTTP, and how its responses are read. The objects of
a run are in one namespace; nodes are in none. A response that reports a failure says so by its
status, and its body says more if it can be read. A deletion of something that does not exist
succeeds, and looking it up finds nothing.
-/

namespace NodeCoverage
namespace Cluster
namespace Rest

/-! ### Requests -/

def nodesPath : String := "/api/v1/nodes"

def podsPath (nameSpace : String) : String :=
  "/api/v1/namespaces/" ++ nameSpace ++ "/pods"

def workloadsPath (nameSpace : String) : String :=
  "/apis/apps/v1/namespaces/" ++ nameSpace ++ "/daemonsets"

def pageSize : Nat := 100

/-- How objects are deleted: with a second of grace, and together with what they own. -/
def deletion : Json :=
  .object [("gracePeriodSeconds", .integer 1), ("propagationPolicy", .string "Foreground")]

def toPath (method : Http.Method) (path : String) (query : List (String × String))
    (body : Option Json) : Option Http.Request := do
  let target ← Http.Target.ofText? (path.toList ++ '?' :: Http.Form.encode query)
  pure ⟨method, target.path, target.query, body⟩

/-- A request to an object, which must have a name. What stands behind the name belongs to the
target as well. -/
def toObject (method : Http.Method) (path name after : String) (body : Option Json) :
    Option Http.Request := do
  if name.isEmpty then none
  else
    let target ← Http.Target.ofText? (path ++ "/" ++ name ++ after).toList
    pure ⟨method, target.path, target.query, body⟩

def pageQuery (selector : String) (token : Option String) : List (String × String) :=
  [("labelSelector", selector), ("limit", toString pageSize)] ++
    (token.map fun t => ("continue", t)).toList

def request? (nameSpace : String) : Cluster.Request → Option Http.Request
  | .listNodes => toPath .get nodesPath [] none
  | .listPods selector => toPath .get (podsPath nameSpace) [("labelSelector", selector)] none
  | .listWorkloads selector token =>
    toPath .get (workloadsPath nameSpace) (pageQuery selector token) none
  | .createWorkload w => toPath .post (workloadsPath nameSpace) [] (some w.toJson)
  | .deleteWorkload name => toObject .delete (workloadsPath nameSpace) name "?" (some deletion)
  | .deletePods selector =>
    toPath .delete (podsPath nameSpace) [("labelSelector", selector)] (some deletion)
  | .deletePod name => toObject .delete (podsPath nameSpace) name "?" (some deletion)
  | .getPod name => toObject .get (podsPath nameSpace) name "" none
  | .getWorkload name => toObject .get (workloadsPath nameSpace) name "" none

/-! ### Responses -/

/-- The value of a member that is there at most once. -/
def atMostOnce? (key : String) (j : Json) : Option (Option Json) :=
  match j.members key with
  | [] => some none
  | [v] => some (some v)
  | _ => none

/-- The members of an object, each there at most once, or the items of a list in the order of the
keys. -/
def fields? (keys : List String) : Json → Option (List (Option Json))
  | .object ms => keys.mapM fun key => atMostOnce? key (.object ms)
  | .array js => if js.length ≤ keys.length then some (js.map some) else none
  | _ => none

def field (fields : List (Option Json)) (i : Nat) : Option Json :=
  (fields[i]?).join

/-- A field that is read by `value`, and is `standard` when it is missing. -/
def readField {α : Type} (value : Json → Option α) (standard : α) : Option Json → Option α
  | none => some standard
  | some j => value j

def textField (j : Option Json) : Option String :=
  readField Json.string? "" j

def code? (j : Json) : Option Nat :=
  j.natural? 65535

/-- Reads the body of a failure. -/
def status? (j : Json) : Option ApiStatus := do
  let fields ← fields? ["status", "message", "reason", "code"] j
  pure ⟨← (field fields 0).bind Json.string?, ← textField (field fields 1),
    ← textField (field fields 2), ← (field fields 3).bind code?⟩

/-- What stands for a failure whose body cannot be read. -/
def unreadStatus (r : Http.Response) : ApiStatus where
  status := Http.statusText r.status
  message := Text.quoted r.body
  reason := "Failed to parse error data"
  code := r.status

def refusal (r : Http.Response) : ApiStatus :=
  ((Json.parse? r.body).bind status?).getD (unreadStatus r)

def read {α : Type} (value : Json → Option α) (r : Http.Response) : Except ClusterError α :=
  if r.isFailure then .error (.api (refusal r))
  else
    match (Json.parse? r.body).bind value with
    | some a => .ok a
    | none => .error .unreadable

/-- Where a listing goes on, as its metadata say. -/
def continuation? : Json → Option (Option String) :=
  Json.record? fun j => do
    let next ← j.optional? "continue" Json.string?
    let _ ← j.optional? "resourceVersion" Json.string?
    let _ ← j.optional? "selfLink" Json.string?
    let _ ← j.optional? "remainingItemCount" (Json.signed? 64)
    pure (next.filter fun t => !t.isEmpty)

/-- The members with other keys than these are readable. -/
def areOthersReadable (keys : List String) : Json → Bool
  | .object ms => ms.all fun (key, v) => keys.contains key || v.isReadable
  | _ => false

/-- Reads a listing: its items and where it goes on. There must be items, if only `null`. -/
def listing? {α : Type} (item : Json → Option α) : Json → Option (List α × Option String) :=
  Json.record? fun j => do
    if !areOthersReadable ["metadata", "items"] j then none
    let next ← continuation? ((← atMostOnce? "metadata" j).getD (.object []))
    match ← (← atMostOnce? "items" j) with
    | .null => pure ([], next)
    | items => pure (← items.list? item, next)

/-- A word, alone or as the only member of an object without a value. -/
def word? : Json → Option String
  | .string s => some s
  | .object [(s, .null)] => some s
  | _ => none

def summary? (j : Json) : Option Unit := do
  let w ← word? j
  if w = "Success" ∨ w = "Failure" then pure () else none

def orNull? (value : Json → Option Unit) : Json → Option Unit
  | .null => some ()
  | j => value j

def cause? (j : Json) : Option Unit := do
  let fields ← fields? ["reason", "message", "field"] j
  let _ ← (List.range 3).mapM fun i => textField (field fields i)
  pure ()

def details? (j : Json) : Option Unit := do
  let fields ← fields? ["name", "group", "kind", "uid", "causes", "retryAfterSeconds"] j
  let _ ← (List.range 4).mapM fun i => textField (field fields i)
  let _ ← readField (Json.list? cause?) [] (field fields 4)
  let _ ← readField (Json.natural? 4294967295) 0 (field fields 5)
  pure ()

def outcome? (j : Json) : Option Unit := do
  let fields ← fields? ["status", "code", "message", "reason", "details"] j
  readField (orNull? summary?) () (field fields 0)
  let _ ← readField code? 0 (field fields 1)
  let _ ← textField (field fields 2)
  let _ ← textField (field fields 3)
  readField (orNull? details?) () (field fields 4)

/-- The answer to a deletion is its outcome, or what was deleted. All of it must be readable. -/
def deleted? {α : Type} (value : Json → Option α) (j : Json) : Option Unit :=
  if !j.isReadable then none
  else if (j.member? "kind").bind Json.string? = some "Status" then outcome? j
  else (value j).map fun _ => ()

/-- Deleting what does not exist succeeds. -/
def orMissing : Except ClusterError Unit → Except ClusterError Unit
  | .error (.api a) => if a.code = 404 then .ok () else .error (.api a)
  | other => other

/-- Looking up what does not exist finds nothing. -/
def orNone {α : Type} : Except ClusterError α → Except ClusterError (Option α)
  | .ok a => .ok (some a)
  | .error (.api a) => if a.reason = "NotFound" then .ok none else .error (.api a)
  | .error e => .error e

def result : (r : Cluster.Request) → Http.Response → Except ClusterError r.Result
  | .listNodes, response => Prod.fst <$> read (listing? Node.ofJson?) response
  | .listPods _, response => Prod.fst <$> read (listing? Pod.ofJson?) response
  | .listWorkloads _ _, response =>
    (fun (items, next) => ⟨items, next⟩) <$> read (listing? Workload.ofJson?) response
  | .createWorkload _, response => (fun _ => ()) <$> read Workload.ofJson? response
  | .deleteWorkload _, response => orMissing (read (deleted? Workload.ofJson?) response)
  | .deletePods _, response => orMissing (read (deleted? (listing? Pod.ofJson?)) response)
  | .deletePod _, response => orMissing (read (deleted? Pod.ofJson?) response)
  | .getPod _, response => orNone (read Pod.ofJson? response)
  | .getWorkload _, response => orNone (read Workload.ofJson? response)

/-- What became of a request that was sent: a response, or words that say why there is none. -/
abbrev Reply := Except String Http.Response

def ofReply (r : Cluster.Request) : Reply → Except CheckError r.Result
  | .error m => .error (.cluster (.service m))
  | .ok response => (result r response).mapError .cluster

/-- Makes a request of the server that gives the replies in order. The result is what was sent, what
it means, and the replies that are left. -/
def exchange (nameSpace : String) (r : Cluster.Request) (replies : List Reply) :
    List Http.Request × Except CheckError r.Result × List Reply :=
  match request? nameSpace r with
  | none => ([], .error (.cluster .unwritable), replies)
  | some sent =>
    match replies with
    | [] => ([sent], ofReply r (.error "no scripted response"), [])
    | reply :: rest => ([sent], ofReply r reply, rest)

end Rest
end Cluster
end NodeCoverage
