import ScriptLens.Project.Loader

/-!
# A remote

The loader that sends requests to a remote and waits for the answers. What the
remote does with a request is its own affair; it may also leave, and then nobody
answers any more.
-/

namespace ScriptLens

/-- A request to a remote. -/
inductive RemoteRequest
  | load (name : String)
  | save (name text : String)
  | compile (name : String)
deriving DecidableEq, Repr

/-- The name that a request is about. -/
def RemoteRequest.name : RemoteRequest → String
  | load name => name
  | save name _ => name
  | compile name => name

/-- What a remote does with a request. -/
inductive RemoteReaction
  /-- It answers, with a text or with the message of an error. -/
  | answer (reply : Except String String)
  /-- It keeps the request without an answer. -/
  | silence
  /-- It throws the request away. -/
  | discard
  /-- It leaves. -/
  | leave

/-- A remote. -/
structure Remote where
  /-- How long an answer may take, in milliseconds. -/
  timeout : Nat
  /-- Whether it compiles. -/
  canCompile : Bool
  /-- What it does with a request. -/
  react : RemoteRequest → RemoteReaction

/-- Whether a remote is there. -/
inductive Presence
  | present | gone
deriving DecidableEq, Repr

namespace Remote

/-- **Sends a request and waits for the answer.** -/
def ask (r : Remote) (request : RemoteRequest) : StateM Presence (Except LoadError String) := do
  match ← get, r.react request with
  | .gone, _ => return .error (.disconnected request.name)
  | .present, .answer (.ok text) => return .ok text
  | .present, .answer (.error message) => return .error (.remote request.name message)
  | .present, .silence => return .error (.timedOut request.name r.timeout)
  | .present, .discard => return .error (.disconnected request.name)
  | .present, .leave =>
    set Presence.gone
    return .error (.disconnected request.name)

end Remote

/-- **The loader that asks a remote.** -/
def Loader.remote (r : Remote) : Loader (StateM Presence) where
  load name := r.ask (.load name)
  save name text := return (← r.ask (.save name text)).map fun _ => ()
  canCompile := r.canCompile
  compile name := if r.canCompile then r.ask (.compile name) else refuseCompile name

end ScriptLens
