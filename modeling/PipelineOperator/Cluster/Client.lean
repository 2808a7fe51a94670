import PipelineOperator.Cluster.Program
import PipelineOperator.Json.Kept
import PipelineOperator.Net.Exchange

/-!
The operator's requests as exchanges with the server of a cluster. `Request.exchange` says what is
sent for a request, `Request.understand` what the reply means, and `Client.backend` puts programs to
a server through the two. A refusal is known by its code, except that an absent object is known by
its reason.
-/

set_option autoImplicit false
set_option relaxedAutoImplicit false

namespace PipelineOperator

namespace Kind

/-- The path of the objects of the kind in a namespace. -/
def collectionPath (k : Kind) (ns : String) : String :=
  (if k.group = "" then "/api/" ++ k.version else "/apis/" ++ k.group ++ "/" ++ k.version) ++
    (if k.isClusterScoped then "" else "/namespaces/" ++ ns) ++ "/" ++ k.plural

end Kind

namespace Client

/-- The query of a list: the parameters, each after an ampersand. -/
def query (parameters : List (String × String)) : String :=
  String.join (parameters.map (fun (name, value) ↦
    "&" ++ Form.encode name ++ "=" ++ Form.encode value))

def send (method : HttpMethod) (target : String) (document : Option Json) :
    Except Fault HttpRequest :=
  match Target.ofText? target with
  | some target => .ok { method, target, document }
  | none => .error (.ofCause .brokenExchange)

/-- A request about one object, whose name must not be empty. -/
def sendTo (method : HttpMethod) (k : Kind) (key : Key) (tail : String) (document : Option Json) :
    Except Fault HttpRequest :=
  if key.name = "" then .error (.ofCause .brokenExchange)
  else send method (k.collectionPath key.ns ++ "/" ++ key.name ++ tail) document

/-- What is known of the outcome of a request from a reply that is a status report. -/
structure StatusReport where
  code : Nat := 0
  reason : String := ""
deriving DecidableEq

namespace StatusReport

open Json

def decodeCause (document : Json) : Option Unit := do
  let r ← document.record? ["reason", "message", "field"]
  let _ ← r.defaulted "reason" "" string?
  let _ ← r.defaulted "message" "" string?
  let _ ← r.defaulted "field" "" string?

def decodeDetails (document : Json) : Option Unit := do
  let r ← document.record? ["name", "group", "kind", "uid", "causes", "retryAfterSeconds"]
  let _ ← r.defaulted "name" "" string?
  let _ ← r.defaulted "group" "" string?
  let _ ← r.defaulted "kind" "" string?
  let _ ← r.defaulted "uid" "" string?
  let _ ← r.defaulted "causes" [] (list? decodeCause)
  let _ ← r.defaulted "retryAfterSeconds" 0 uint32?

/-- What is said of the pages of a list. -/
def decodeListMetadata (document : Json) : Option Unit := do
  let r ← document.members?
  let _ ← Members.optional r "continue" string?
  let _ ← Members.optional r "remainingItemCount" int64?
  let _ ← Members.optional r "resourceVersion" string?
  let _ ← Members.optional r "selfLink" string?

/-- Every part may be missing, and one of the wrong form makes the whole no status report. -/
def decode (document : Json) : Option StatusReport := do
  let r ← document.record? ["status", "code", "message", "metadata", "reason", "details"]
  let _ ← r.optional "status" (fun j ↦
    j.case?.bind (fun t ↦ if t = "Success" ∨ t = "Failure" then some t else none))
  let _ ← r.defaulted "message" "" string?
  let _ ← r.optional "metadata" decodeListMetadata
  let _ ← r.optional "details" decodeDetails
  return {
    code := ← r.defaulted "code" 0 (fun j ↦ (j.integerIn? 0 65535).map Int.toNat)
    reason := ← r.defaulted "reason" "" string? }

end StatusReport

/-- The document of a reply. Only what is looked at has to be legible. -/
def document? (reply : HttpReply) : Option Json := Json.ofLooseText? reply.body

/-- Replies of the fourth and fifth hundred are refusals. If the body does not report the code, the
reply's own counts. -/
def refusal? (reply : HttpReply) : Option StatusReport :=
  if 400 ≤ reply.status ∧ reply.status < 600 then
    some (((document? reply).bind StatusReport.decode).getD { code := reply.status })
  else none

/-- The content of a reply that is no refusal. -/
def content {α : Type} (decode : Json → Option α) (reply : HttpReply) : Except Fault α :=
  match (document? reply).bind decode with
  | some value => .ok value
  | none => .error (.ofCause .brokenExchange)

/-- A refusal stands for a reply of its own, or for a failure. -/
def unlessRefused {α : Type} (reply : HttpReply) (known : StatusReport → Option α)
    (accepted : Except Fault α) : Except Fault α :=
  match refusal? reply with
  | none => accepted
  | some report =>
    match known report with
    | some value => .ok value
    | none => .error (.ofCause (.refused report.code))

/-- The values of all members of that name. -/
def named (name : String) (document : Json) : List Json :=
  (document.members?.getD []).filterMap (fun (n, value) ↦ if n == name then some value else none)

/-- The fields of an object that its managers say are theirs. -/
def managedFields (document : Json) : List Json :=
  let metadata := match document with
    | .array items => items.take 1
    | other => named "metadata" other
  let managers := metadata.flatMap (fun m ↦ (named "managedFields" m).filterMap Json.array?)
  managers.flatten.flatMap (named "fieldsV1")

/-- Reads an object that stands within so many arrays and objects. Its managed fields, four levels
below it, are kept as they are. -/
def object? (k : Kind) (outer : Nat) (document : Json) : Option (Object k) :=
  if (managedFields document).all (fun fields ↦ (fields.kept? (outer + 4)).isSome) then
    Object.decode k document
  else none

/-- The items of a list, for which null stands when there are none. What else a list says is kept,
without a look at what it stands for. -/
def items {k : Kind} (document : Json) : Option (List (Object k)) := do
  let names := ["metadata", "items"]
  let r ← document.objectRecord? names
  if !r.all (fun (name, value) ↦ name ∈ names || value.isKeepable 1) then none
  let _ ← r.defaulted "metadata" () StatusReport.decodeListMetadata
  r.required "items" (fun j ↦ if j.isNull then some [] else j.list? (object? k 2))

/-- A deletion is answered with a report, or with the object as it was. To tell them apart the whole
document is kept. -/
def deletion (k : Kind) (document : Json) : Option Unit := do
  let kept ← document.kept? 0
  if (kept.field? "kind").bind Json.string? = some "Status" then
    (StatusReport.decode document).map (fun _ ↦ ())
  else (Object.decode k document).map (fun _ ↦ ())

end Client

namespace Request

open Client

/-- What is sent to the server. -/
def exchange : Request → Except Fault HttpRequest
  | .get k key => sendTo .get k key "" none
  | .create k o => send .post (k.collectionPath o.key.ns ++ "?") (some o.encode)
  | .replace k o => sendTo .put k o.key "?" (some o.encode)
  | .writeStatus k o =>
    let status := match o.status with
      | some s => k.encodeStatus s
      | none => .null
    sendTo .patch k o.key "/status?" (some (.object [("status", status)]))
  | .setJobConfig key config =>
    sendTo .patch .jenkinsJob key "?"
      (some (.object [("spec", .object [("job", .object [("config", .string config)])])]))
  | .delete k key => sendTo .delete k key "?" (some (.object []))
  | .listStages ns pipeline =>
    let selector := pipeline.toList.map (fun p ↦
      ("labelSelector", Naming.pipelineLabel ++ "=" ++ p))
    send .get (Kind.stage.collectionPath ns ++ "?" ++ query selector) none
  | .jenkinsEnabled ns =>
    send .get (Kind.jenkins.collectionPath ns ++ "?" ++ query [("limit", "1")]) none

/-- What the server's reply means. -/
def understand : (request : Request) → HttpReply → Except Fault request.Reply
  | .get k _, reply =>
    unlessRefused reply (fun r ↦ if r.reason = "NotFound" then some none else none)
      (content (fun d ↦ (object? k 0 d).map some) reply)
  | .create k _, reply =>
    unlessRefused reply (fun r ↦ if r.code = 409 then some .alreadyExists else none)
      (content (fun d ↦ (object? k 0 d).map (fun _ ↦ Creation.created)) reply)
  | .replace k _, reply => unlessRefused reply (fun _ ↦ none) (content (object? k 0) reply)
  | .writeStatus k _, reply => unlessRefused reply (fun _ ↦ none) (content (object? k 0) reply)
  | .setJobConfig .., reply =>
    unlessRefused reply (fun _ ↦ none)
      (content (fun d ↦ (object? .jenkinsJob 0 d).map (fun _ ↦ ())) reply)
  | .delete k _, reply =>
    unlessRefused reply (fun r ↦ if r.code = 404 then some () else none)
      (content (deletion k) reply)
  | .listStages .., reply => unlessRefused reply (fun _ ↦ none) (content items reply)
  | .jenkinsEnabled _, reply =>
    unlessRefused reply (fun _ ↦ none)
      (content (fun d ↦ (items d : Option (List Jenkins)).map (fun found ↦ !found.isEmpty)) reply)

/-- How a failure of the request is put into words. -/
def attempt? : Request → Option Attempt
  | .get k key => some (.getting k key.name)
  | .create k o => some (.creating k o.key.name)
  | .delete k key => some (.deleting k key.name)
  | _ => none

/-- What is counted when the server has carried out the request. A deletion that finds nothing and a
creation of what is there carry out nothing. -/
def observation? (request : Request) (reply : HttpReply) : Option Observation :=
  if (refusal? reply).isSome then none
  else match request with
    | .create k _ => some (.created k.name)
    | .replace k _ => some (.updated k.name)
    | .setJobConfig .. => some (.updated Kind.jenkinsJob.name)
    | .delete k _ => some (.deleted k.name)
    | _ => none

/-- An object without a proper name cannot be created. -/
def isNameless : Request → Bool
  | .create _ o => o.metadata.name.isNone
  | _ => false

end Request

/-- A server to which requests are sent, and from which a reply may fail to come. -/
structure Transport (σ : Type) where
  send : HttpRequest → σ → Option HttpReply × σ

namespace Client

/-- The operator's view of a server, and what it has counted. -/
structure Session (σ : Type) where
  server : σ
  metrics : Metrics := {}

variable {σ : Type}

/-- Carries out one exchange for a request. -/
def perform (transport : Transport σ) (request : Request) (s : Session σ) :
    Except Fault request.Reply × Session σ :=
  match request.exchange with
  | .error fault => (.error fault, s)
  | .ok message =>
    let (reply, server) := transport.send message s.server
    match reply with
    | none => (.error (.ofCause .brokenExchange), { s with server })
    | some reply =>
      match request.understand reply with
      | .error fault => (.error fault, { s with server })
      | .ok value =>
        let metrics := (request.observation? reply).toList.foldl Metrics.observe s.metrics
        (.ok value, { server, metrics })

def answer (transport : Transport σ) (request : Request) (s : Session σ) :
    Except Fault request.Reply × Session σ :=
  if request.isNameless then (.error (.ofCause .unnamed), s)
  else
    let (reply, s) := perform transport request s
    (reply.mapError (fun fault ↦
      match request.attempt? with
      | some attempt => fault.during attempt
      | none => fault), s)

def backend (transport : Transport σ) : Backend (Session σ) where
  answer := answer transport
  record observation s := { s with metrics := s.metrics.observe observation }

end Client

end PipelineOperator
