import MeshLimiter.Cluster.Call
import MeshLimiter.Http.Message
import MeshLimiter.Json.Reader
import MeshLimiter.Resource.Document
/-!
# Calls over the wire

The request that a call makes, and what its answer says. Objects are read with a plain request for
their path; whoever writes is named in the parameters; a status is applied, so that what is no
longer in it goes away.
-/

namespace MeshLimiter

/-- How a cluster is spoken to. -/
structure ClusterClient where
  /-- The milliseconds that an answer may take. -/
  timeout : Nat
  /-- The name that writes are made under. -/
  manager : String
deriving DecidableEq, Repr

namespace ClusterCall

/-- The path of the objects of a kind in a namespace. -/
def collectionPath (root ns plural : String) : String :=
  root ++ "/namespaces/" ++ ns ++ "/" ++ plural

/-- The path of the proxy filters of a namespace. -/
def filtersPath (ns : String) : String :=
  collectionPath ("/apis/" ++ ProxyFilter.apiVersion) ns "envoyfilters"

/-- The path of the named texts of a namespace. -/
def configMapsPath (ns : String) : String :=
  collectionPath "/api/v1" ns "configmaps"

/-- The path of an object in its collection; an object without a name has none. -/
def objectPath? (collection name : String) : Option String :=
  if name.isEmpty then none else some (collection ++ "/" ++ name)

/-- The document that applies a status to a limiter. -/
def statusPatch (id : ResourceId) (status : LimiterStatus) : Json :=
  .obj [("apiVersion", .str Limiter.apiVersion), ("kind", .str Limiter.kind),
    ("metadata", .obj [("name", .str id.name)]), ("status", status.toJson)]

/-- The longest name that writes can be made under, in bytes. -/
def maxManagerLength : Nat := 128

/-- The parameters of a write, the given ones first. -/
def writeParameters? (manager : String) (first : List (String × String)) : Option String :=
  if manager.utf8ByteSize ≤ maxManagerLength then
    some (Http.parameters (first ++ [("fieldManager", manager)]))
  else none

def document (body : Json) : Http.Content :=
  { type := "application/json", body }

/-- The method, target and document of a call. -/
def parts? (manager : String) : ClusterCall → Option (Http.Method × String × Option Http.Content)
  | service id => do
    return (.get, ← objectPath? (collectionPath "/api/v1" id.ns "services") id.name, none)
  | pods ns selector =>
    some (.get, collectionPath "/api/v1" ns "pods"
      ++ Http.parameters [("labelSelector", selectorText selector)], none)
  | filter id => do return (.get, ← objectPath? (filtersPath id.ns) id.name, none)
  | createFilter f => do
    let id := f.metadata.id
    return (.post, filtersPath id.ns ++ (← writeParameters? manager []), some (document f.toJson))
  | replaceFilter f => do
    let id := f.metadata.id
    let path ← objectPath? (filtersPath id.ns) id.name
    return (.put, path ++ (← writeParameters? manager []), some (document f.toJson))
  | deleteFilter id => do
    let path ← objectPath? (filtersPath id.ns) id.name
    return (.delete, path ++ Http.parameters [], some (document (.obj [])))
  | configMap id => do return (.get, ← objectPath? (configMapsPath id.ns) id.name, none)
  | createConfigMap c => do
    let id := c.metadata.id
    return (.post, configMapsPath id.ns ++ (← writeParameters? manager []),
      some (document c.toJson))
  | replaceConfigMap c => do
    let id := c.metadata.id
    let path ← objectPath? (configMapsPath id.ns) id.name
    return (.put, path ++ (← writeParameters? manager []), some (document c.toJson))
  | patchStatus id status => do
    let path ← objectPath? (collectionPath ("/apis/" ++ Limiter.apiVersion) id.ns "smartlimiters")
        id.name
    return (.patch, path ++ "/status" ++ (← writeParameters? manager [("force", "true")]),
      some { type := "application/apply-patch+yaml", body := statusPatch id status })

/-- The request that a call makes, if one can be made. -/
def request? (manager : String) (c : ClusterCall) : Option Http.Request := do
  let (method, target, content) ← c.parts? manager
  return { method, target := ← Http.target? target, content }

end ClusterCall

/-- A refusal as the cluster tells it. -/
structure Refusal where
  reason : String
  code : UInt16
deriving DecidableEq, Repr

namespace Refusal

def ofJson? (v : Json) : Option Refusal := do
  let f ← Json.fields? 4 v
  let _ ← f.required 0 "status" Json.text?
  let _ ← f.withDefault 1 "message" "" Json.text?
  return {
    reason := ← f.withDefault 2 "reason" "" Json.text?
    code := ← f.required 3 "code" Json.uint16? }

/-- The refusal that an answer is; one without a document has the code of the status. -/
def ofResponse (r : Http.Response) : Refusal :=
  ((Json.parse? r.body).bind ofJson?).getD { reason := "", code := UInt16.ofNat r.status.code }

end Refusal

namespace Http.Response

/-- The document of an answer, or why there is none. -/
def document {α : Type} (r : Response) (read : Json → Option α) : Except ClusterError α :=
  if r.status.isFailure then .error (.refused (Refusal.ofResponse r).code)
  else
    match (Json.parse? r.body).bind read with
    | some x => .ok x
    | none => .error .unreadable

/-- The object of an answer; none if the cluster says that it is not found. -/
def object {α : Type} (r : Response) (read : Json → Option α) : Except ClusterError (Option α) :=
  if r.status.isFailure && (Refusal.ofResponse r).reason == "NotFound" then .ok none
  else (r.document read).map some

/-- Whether a write was done: its answer must be a document of the right kind. -/
def done {α : Type} (r : Response) (read : Json → Option α) : Except ClusterError Unit :=
  (r.document read).map fun _ => ()

end Http.Response

namespace ClusterCall

/-- Reads a list of pods; the items may be null for none. -/
def podList? (v : Json) : Option (List Pod) := do
  let f := Json.Fields.named (← v.members?)
  let _ ← f.withDefault 0 "metadata" [] Json.members?
  (f.required 1 "items" (Json.optional? (Json.listOf? Pod.ofJson?))).map (·.getD [])

def details? (v : Json) : Option Unit := do
  let f ← Json.fields? 6 v
  let texts := ["name", "group", "kind", "uid"]
  for (name, place) in texts.zipIdx do
    let _ ← f.withDefault place name "" Json.text?
  let _ ← f.withDefault 4 "causes" [] (Json.listOf? fun cause => do
    let f ← Json.fields? 3 cause
    for (name, place) in ["reason", "message", "field"].zipIdx do
      let _ ← f.withDefault place name "" Json.text?)
  let _ ← f.withDefault 5 "retryAfterSeconds" 0 (Json.natOfBits? 32)

/-- Reads an outcome, which may take the place of the object that was deleted. -/
def outcome? (v : Json) : Option Unit := do
  let f ← Json.fields? 5 v
  let status ← f.optional 0 "status" Json.name?
  if status.all fun s => s = "Success" || s = "Failure" then
    let _ ← f.withDefault 1 "code" 0 Json.uint16?
    let _ ← f.withDefault 2 "message" "" Json.text?
    let _ ← f.withDefault 3 "reason" "" Json.text?
    let _ ← f.optional 4 "details" details?
  else none

/-- The kind that a document names, the last name counting. -/
def documentKind? (v : Json) : Option String :=
  (v.members?.bind fun ms => (Json.lastByName ms)["kind"]?).bind Json.text?

/-- Reads what answers a deletion: the object, or an outcome. -/
def deleted? (v : Json) : Option Unit :=
  if documentKind? v = some "Status" then outcome? v
  else (ProxyFilter.ofJson? v).map fun _ => ()

def readReply (r : Http.Response) : (c : ClusterCall) → c.Reply
  | service _ => r.object Service.ofJson?
  | pods _ _ => r.document podList?
  | filter _ => r.object fun v => (ProxyFilter.ofJson? v).map fun f =>
      { f with spec := f.spec.normal }
  | createFilter _ => r.done ProxyFilter.ofJson?
  | replaceFilter _ => r.done ProxyFilter.ofJson?
  | deleteFilter _ => r.document deleted?
  | configMap _ => r.object ConfigMap.ofJson?
  | createConfigMap _ => r.done ConfigMap.ofJson?
  | replaceConfigMap _ => r.done ConfigMap.ofJson?
  | patchStatus _ _ => r.done Limiter.ofJson?

end ClusterCall

/-- An answer that comes after a number of milliseconds. -/
structure Arrival where
  after : Nat
  response : Http.Response
deriving DecidableEq, Repr

namespace ClusterClient

/-- Whether an answer comes in time. -/
def inTime (client : ClusterClient) (a : Arrival) : Bool :=
  0 < client.timeout && a.after ≤ client.timeout

/-- The requests that go out for a call and what it gives, when an answer arrives or none does. With
no time at all nothing goes out. -/
def exchange (client : ClusterClient) (c : ClusterCall) (arrival : Option Arrival) :
    List Http.Request × c.Reply :=
  match c.request? client.manager with
  | none => ([], .error .unreadable)
  | some request =>
    let sent := if client.timeout = 0 then [] else [request]
    match arrival.filter client.inTime with
    | some a => (sent, c.readReply a.response)
    | none => (sent, .error (.timedOut client.timeout))

end ClusterClient

end MeshLimiter
