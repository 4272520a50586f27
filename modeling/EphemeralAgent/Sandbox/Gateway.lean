import EphemeralAgent.Contracts.JsonParse

/-!
# Requests to the sandbox gateway

The wire of `src/sandbox/gateway-client.ts`: one line of compact JSON goes out on a connection of
its own, and the text that comes back until the connection closes is the envelope.

* `GatewayRequest`, `encodeRequest`, `acquireLine` — the line of a request
* `GatewayResponse`, `decodeResponse` — the envelope of a text
* `resultOf`, `parseAcquire` — what `acquire` reads off an envelope
-/

namespace EphemeralAgent.Sandbox

open Json

/-- What the texts and numbers of the process depend on. -/
structure GatewayHost where
  numbers : NumberText
  reader : NumberReader numbers
  /-- The message of `JSON.parse` on a text that is no JSON. -/
  syntaxMessage : List Char → String
  /-- The message of `GatewayResponse.parse` on a value that is no envelope. -/
  envelopeMessage : Json → String
  /-- The message of `AcquireResult.parse`; `none` is `undefined`. -/
  acquireMessage : Option Json → String

/-- An `Error`, with the `code` that the errors of a socket carry. -/
structure CallError where
  message : String
  code : Option String
deriving DecidableEq

/-- `new Error(message)`. -/
def CallError.plain (message : String) : CallError :=
  { message, code := none }

/-- `isConnectionRefused`. -/
def isConnectionRefused (error : CallError) : Bool :=
  error.code == some "ECONNREFUSED"

/-! ## Requests -/

/-- `GatewayRequest`. -/
structure GatewayRequest where
  op : String
  sandboxId : String
  invocationId : Option String
  args : JsonObject

/-- `encodeRequest`; `uuid` is what `randomUUID` gives, without its hyphens. -/
def encodeRequest (n : NumberText) (uuid : String) (req : GatewayRequest) : List Char :=
  stringify n (.obj [
    ("op", .str req.op),
    ("sandbox_id", .str req.sandboxId),
    ("invocation_id", .str (req.invocationId.getD uuid)),
    ("args", .obj req.args)]) ++ ['\n']

/-- The line of `#callNoSandbox` for `sandbox.acquire`. -/
def acquireLine (n : NumberText) (uuid : String) (invocationId : Option String) : List Char :=
  stringify n (.obj [
    ("op", .str "sandbox.acquire"),
    ("invocation_id", .str (invocationId.getD uuid)),
    ("args", .obj [])]) ++ ['\n']

/-! ## Responses -/

/-- The statuses that carry a result. -/
inductive ResultStatus where
  | ok
  | running
  | cancelled
  | timedOut
deriving DecidableEq

def ResultStatus.ofString? : String → Option ResultStatus
  | "ok" => some .ok
  | "running" => some .running
  | "cancelled" => some .cancelled
  | "timed_out" => some .timedOut
  | _ => none

/-- The statuses that carry an error. -/
inductive ErrorStatus where
  | rejected
  | error
deriving DecidableEq

def ErrorStatus.ofString? : String → Option ErrorStatus
  | "rejected" => some .rejected
  | "error" => some .error
  | _ => none

/-- `GatewayError`. -/
structure GatewayError where
  kind : String
  message : String
  details : Option Json

/-- `GatewayError.parse`. -/
def GatewayError.parse? (value : Json) : Option GatewayError := do
  let object ← asObject value
  let kind ← stringField object "kind"
  let message ← stringField object "message"
  some { kind, message, details := field object "details" }

/-- `GatewayResponse`; the field `meta` is `metadata`. -/
inductive GatewayResponse where
  | carrying (status : ResultStatus) (result : Option Json) (metadata : Option Json)
  | failing (status : ErrorStatus) (error : GatewayError) (result : Option Json)
      (metadata : Option Json)

/-- `GatewayResponse.parse`. -/
def GatewayResponse.parse? (value : Json) : Option GatewayResponse := do
  let object ← asObject value
  let status ← stringField object "status"
  match ResultStatus.ofString? status, ErrorStatus.ofString? status with
  | some status, _ => some (.carrying status (field object "result") (field object "meta"))
  | none, some status =>
    let error ← (field object "error").bind GatewayError.parse?
    some (.failing status error (field object "result") (field object "meta"))
  | none, none => none

/-- `decodeResponse`. -/
def decodeResponse (host : GatewayHost) (raw : List Char) : Except CallError GatewayResponse :=
  match Json.parse host.reader.read raw with
  | none => .error (.plain (host.syntaxMessage raw))
  | some value =>
    match GatewayResponse.parse? value with
    | none => .error (.plain (host.envelopeMessage value))
    | some response => .ok response

/-- **A text that cannot be decoded is no refused connection.** -/
theorem decodeResponse_not_refused {host : GatewayHost} {raw : List Char} {error : CallError}
    (h : decodeResponse host raw = .error error) : isConnectionRefused error = false := by
  unfold decodeResponse at h
  split at h
  · cases h
    rfl
  · split at h
    · cases h
      rfl
    · cases h

/-- `resultOf`. -/
def resultOf : GatewayResponse → Except CallError (Option Json)
  | .failing _ error _ _ => .error (.plain s!"{error.kind}: {error.message}")
  | .carrying _ result _ => .ok result

/-- `AcquireResult.parse(...).sandbox_id`. -/
def parseAcquire (host : GatewayHost) (result : Option Json) : Except CallError String :=
  match (result.bind asObject).bind (stringField · "sandbox_id") with
  | some id => if id.length ≥ 1 then .ok id else .error (.plain (host.acquireMessage result))
  | none => .error (.plain (host.acquireMessage result))

end EphemeralAgent.Sandbox
