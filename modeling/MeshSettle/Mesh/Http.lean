import MeshSettle.Shared.Seal

/-!
# Requests and replies of the mesh services

FastAPI reads a request body with `json.loads` and validates it with the same
models as everything else. What it reports of a body that it refuses is a
parameter, as are pydantic's readers for Python values. A reply is one of the
response models, or a status that no handler builds.
-/

namespace MeshSettle

open Lib.Schema

/-! ## Replies -/

/-- What a mesh relay node reports after forwarding a packet onward. -/
structure RelayResponse where
  status : PacketStatus
  nodeId : String
  hopCount : Nat
  forwardedTo : String
  packetId : UUID

/-- What the bridge reports once a packet is durably on the queue. -/
structure BridgeResponse where
  status : PacketStatus
  queue : String
  packetId : UUID
  hopCount : Nat
  idempotencyKey : String

/-- Uniform error body. -/
structure ErrorResponse where
  code : ErrorCode
  detail : String

/-- A reply of a mesh service. `plain` is one that no handler builds, such as
the 500 of an unhandled exception. -/
inductive Reply where
  | relayed (r : RelayResponse)
  | bridged (r : BridgeResponse)
  | error (httpStatus : Nat) (r : ErrorResponse)
  | plain (httpStatus : Nat)

/-- The HTTP status of a reply. -/
def Reply.httpStatus : Reply → Nat
  | .relayed _ => 202
  | .bridged _ => 202
  | .error httpStatus _ => httpStatus
  | .plain httpStatus => httpStatus

/-- A 2xx status. -/
def isSuccess (httpStatus : Nat) : Bool := 200 ≤ httpStatus && httpStatus < 300

/-! ## Request bodies -/

/-- What FastAPI reports of a body that it refuses: validation errors, or that
it could not parse it. -/
inductive BodyFailure where
  | invalid (errors : List ErrorDetails)
  | unreadable

/-- FastAPI: `json.loads` and pydantic's readers for Python values, and the
report on a body that is refused. -/
structure FastApi where
  pydantic : Pydantic
  refusal : Bytes → BodyFailure

/-- `_first_validation_message`. -/
def firstValidationMessage : List ErrorDetails → String
  | [] => "request body failed validation"
  | first :: _ =>
      let location := ".".intercalate ((first.loc.filter fun part => part ≠ .field "body").map
        Loc.text)
      (if location = "" then "body" else location) ++ ": " ++ first.msg

/-- The reply to a request that fails validation. -/
def invalidRequest : BodyFailure → Reply
  | .invalid errors => .error 422 ⟨.malformedPayload, firstValidationMessage errors⟩
  | .unreadable => .plain 400

/-- The body of a request as a model, or the reply without it. -/
def readBody {α : Type} (web : FastApi) (validate : Pydantic → Json → Checked Exc α)
    (body : Bytes) : Except Reply α :=
  match web.pydantic.parseJson body with
  | .error _ => .error (invalidRequest (web.refusal body))
  | .ok j =>
      match validate web.pydantic j with
      | .ok a => .ok a
      | .error (.invalid _) => .error (invalidRequest (web.refusal body))
      | .error (.raised _) => .error (.plain 500)

/-- The `packet: PaymentPacket` of a request. -/
def readPacket (web : FastApi) (body : Bytes) : Except Reply PaymentPacket :=
  readBody web PaymentPacket.validate body

/-- A packet that was dumped is read by the next node. -/
theorem readPacket_modelDumpJson {web : FastApi} (h : web.pydantic.ReadsBack)
    (p : PaymentPacket) : readPacket web p.modelDumpJson = .ok p := by
  unfold readPacket readBody
  rw [PaymentPacket.modelDumpJson, h.json _ p.toJson_simple]
  dsimp only
  rw [p.validate_toJson h]

theorem invalidRequest_fails (failure : BodyFailure) :
    isSuccess (invalidRequest failure).httpStatus = false := by
  cases failure <;> rfl

/-- A body that is not read is never answered with a success. -/
theorem readBody_error {α : Type} {web : FastApi} {validate : Pydantic → Json → Checked Exc α}
    {body : Bytes} {reply : Reply} (h : readBody web validate body = .error reply) :
    isSuccess reply.httpStatus = false := by
  unfold readBody at h
  split at h
  · cases h
    exact invalidRequest_fails _
  · split at h
    · cases h
    · cases h
      exact invalidRequest_fails _
    · cases h
      rfl

end MeshSettle
