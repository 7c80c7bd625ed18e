import MeshSettle.Lib.Numeral
import MeshSettle.Mesh.Http

/-!
# The sender (`services/sender/app.py`)

The payer's device turns a request into a signed, sealed packet. It returns
the packet, or hands it to the first mesh node and reports what that node says
of its own handling. What a request draws at random or from the clock is an
argument of it.
-/

namespace MeshSettle

open Lib.Schema

/-! ## Requests and responses -/

/-- Public input to the sender service. -/
structure TransactionRequest where
  payerId : Identifier
  payeeId : Identifier
  amountMinor : AmountMinor
  currency : Currency
  payee_differs : payerId ≠ payeeId

/-- What a request draws: the packet's id, the clock when the instruction is
dated and when the packet is, and what the encryption needs. -/
structure Draws where
  packetId : UUID
  instructionAt : UtcTimestamp
  packetAt : UtcTimestamp
  draw : Draw

namespace TransactionRequest

/-- `TransactionRequest.model_validate`. -/
def validate (py : Pydantic) : Json → Checked Exc TransactionRequest :=
  object fun members =>
    let payer := field members "payer_id" readIdentifier
    let payee := field members "payee_id" fun j =>
      after Exc.valueErrorText j (readIdentifier j) (PaymentInstruction.payeeDiffersFromPayer payer)
    (both (combine payer payee fun p hp v => (⟨(p, v.1), PaymentInstruction.payee_ne p hp v⟩ :
        { parties : Identifier × Identifier // parties.1 ≠ parties.2 }))
      (both (field members "amount_minor" (readAmount py))
        (both (fieldOr members "currency" PaymentInstruction.inr readCurrency)
          (forbidExtra ["payer_id", "payee_id", "amount_minor", "currency"] members)))).map
      fun ⟨parties, a, c, _⟩ =>
        ⟨parties.1.1, parties.1.2, a, c, PaymentInstruction.parties_ne parties⟩

/-- A request as JSON. -/
def toJson (request : TransactionRequest) : Json :=
  .obj [("payer_id", .str request.payerId.1), ("payee_id", .str request.payeeId.1),
    ("amount_minor", .int request.amountMinor.1), ("currency", .str request.currency.1)]

theorem toJson_simple (request : TransactionRequest) : Lib.Document.Simple 8 request.toJson := by
  have hamount := request.amountMinor.2
  unfold maxAmountMinor at hamount
  have hlower : -2 ^ 63 ≤ request.amountMinor.1 := by omega
  have hupper : request.amountMinor.1 < 2 ^ 63 := by omega
  simp only [toJson, Lib.Document.Simple, Lib.Document.SimpleMembers, hlower, hupper]
  simp

theorem validate_toJson {py : Pydantic} (h : py.ReadsBack) (request : TransactionRequest) :
    validate py request.toJson = .ok request := by
  have hpayer : field [("payer_id", .str request.payerId.1), ("payee_id", .str request.payeeId.1),
      ("amount_minor", .int request.amountMinor.1), ("currency", .str request.currency.1)]
      "payer_id" readIdentifier = .ok request.payerId :=
    field_ok (by simp [lookup]) (readIdentifier_str request.payerId)
  unfold toJson validate object
  dsimp only
  rw [both_ok (combine_ok hpayer (field_ok (j := .str request.payeeId.1) (by simp [lookup])
      (after_ok (readIdentifier_str request.payeeId)
        (PaymentInstruction.payeeDiffersFromPayer_ok hpayer request.payee_differs))))
    (both_ok (field_ok (by simp [lookup]) (readAmount_int h request.amountMinor))
      (both_ok (fieldOr_ok (by simp [lookup]) (readCurrency_str request.currency))
        (forbidExtra_ok (by simp))))]
  rfl

/-- Turn a request into an instruction with a fresh packet id. -/
def toInstruction (request : TransactionRequest) (packetId : UUID) (now : UtcTimestamp)
    (createdAt : Option Datetime := none) : Except Exc PaymentInstruction :=
  match momentOf createdAt now with
  | .error e => .error e
  | .ok moment => .ok ⟨packetId, request.payerId, request.payeeId, request.amountMinor,
      request.currency, moment, request.payee_differs⟩

/-- The instruction of a request that is dated by the clock. -/
def instruction (request : TransactionRequest) (packetId : UUID) (now : UtcTimestamp) :
    PaymentInstruction :=
  ⟨packetId, request.payerId, request.payeeId, request.amountMinor, request.currency, now,
    request.payee_differs⟩

theorem toInstruction_ok {request : TransactionRequest} {packetId : UUID}
    {now moment : UtcTimestamp} {createdAt : Option Datetime}
    (h : momentOf createdAt now = .ok moment) :
    request.toInstruction packetId now createdAt = .ok (request.instruction packetId moment) := by
  unfold toInstruction
  rw [h]
  rfl

end TransactionRequest

/-- The packet plus its derived identifiers. -/
structure PacketCreatedResponse where
  packet : PaymentPacket
  idempotencyKey : String
  status : PacketStatus := .created

/-- `PacketCreatedResponse.of`. -/
def PacketCreatedResponse.of (prim : Primitives) (packet : PaymentPacket) :
    PacketCreatedResponse where
  packet := packet
  idempotencyKey := packet.idempotencyKey prim

/-- Result of creating a packet and handing it to the mesh. -/
structure PacketSubmittedResponse where
  packetId : UUID
  idempotencyKey : String
  submittedTo : String
  status : PacketStatus
  hopCount : Int

/-- A reply of the sender. -/
inductive SenderReply where
  | created (r : PacketCreatedResponse)
  | submitted (r : PacketSubmittedResponse)
  | failed (reply : Reply)

/-- The HTTP status of a reply. -/
def SenderReply.httpStatus : SenderReply → Nat
  | .created _ => 201
  | .submitted _ => 202
  | .failed reply => reply.httpStatus

/-- A request that was written as JSON is read. -/
theorem readBody_request {web : FastApi} (h : web.pydantic.ReadsBack)
    (request : TransactionRequest) :
    readBody web TransactionRequest.validate (document request.toJson) = .ok request := by
  unfold readBody
  rw [h.json _ request.toJson_simple]
  dsimp only
  rw [request.validate_toJson h]

/-! ## The identity of the device -/

/-- The key that signs packets, the service that may open them, and the node
they are handed to. -/
structure SenderNode where
  signingKey : Bytes
  recipientPublicKey : Bytes
  meshEntrypoint : String

/-- A short one-way fingerprint. -/
def safeFingerprint (prim : Primitives) (raw : Bytes) (length : Nat) : String :=
  String.ofList ((hexdigest (prim.sha256 raw)).toList.take length)

/-- Derive the device's logical id from the key that signs its packets. -/
def senderIdFor (prim : Primitives) (sealer : SealPrimitives) (signingKey : Bytes) : String :=
  "device-" ++ safeFingerprint prim (sealer.ed25519PublicKey signingKey) 8

/-- A fingerprint has hexadecimal digits only. -/
theorem hexdigest_identifier (digest : Vector UInt8 32) {c : Char}
    (h : c ∈ (hexdigest digest).toList) : identifierChar c = true := by
  have hdigit : ∀ d < 16, identifierChar (Nat.digitChar d) = true := by decide
  rw [hexdigest, String.toList_ofList] at h
  obtain ⟨b, -, hb⟩ := List.mem_flatMap.mp h
  obtain ⟨d, hd, rfl⟩ := List.mem_map.mp hb
  exact hdigit d (Lib.Text.digits_lt (by decide) _ _ d hd)

/-- The device's id is an identifier. -/
theorem senderIdFor_matches (prim : Primitives) (sealer : SealPrimitives) (signingKey : Bytes) :
    matchesIdentifier (senderIdFor prim sealer signingKey) = true := by
  have hlist : (senderIdFor prim sealer signingKey).toList = "device-".toList ++
      (hexdigest (prim.sha256 (sealer.ed25519PublicKey signingKey))).toList.take 8 := by
    simp only [senderIdFor, String.toList_append, safeFingerprint, String.toList_ofList]
  have hlength : (senderIdFor prim sealer signingKey).length ≤ 15 ∧
      1 ≤ (senderIdFor prim sealer signingKey).length := by
    rw [← String.length_toList, hlist, List.length_append, List.length_take]
    have hbegins : "device-".toList.length = 7 := rfl
    omega
  have hchars : (senderIdFor prim sealer signingKey).toList.all identifierChar = true := by
    rw [hlist, List.all_append, Bool.and_eq_true]
    refine ⟨by decide, List.all_eq_true.mpr fun c hc => ?_⟩
    exact hexdigest_identifier _ (List.mem_of_mem_take hc)
  simp only [matchesIdentifier, hchars, Bool.and_true, Bool.and_eq_true, decide_eq_true_eq]
  omega

/-- The device as the sender of a packet. -/
def deviceId (prim : Primitives) (sealer : SealPrimitives) (signingKey : Bytes) : Identifier :=
  ⟨senderIdFor prim sealer signingKey, senderIdFor_matches prim sealer signingKey⟩

/-! ## The endpoints -/

/-- `body.to_instruction()` and `PaymentPacket.create(...)`. -/
def buildPacket (prim : Primitives) (sealer : SealPrimitives) (node : SenderNode) (draws : Draws)
    (request : TransactionRequest) : Except Exc PaymentPacket :=
  request.toInstruction draws.packetId draws.instructionAt >>= fun instruction =>
    PaymentPacket.create sealer draws.draw draws.packetAt instruction
      (senderIdFor prim sealer node.signingKey) node.signingKey node.recipientPublicKey

/-- The handler of `CryptoError`, and what becomes of other exceptions. -/
def creationFailed : Exc → SenderReply
  | .decryptionError _ | .signatureVerificationError _ =>
      .failed (.error 500 ⟨.internalError, "packet could not be created"⟩)
  | _ => .failed (.plain 500)

/-- Go on with the packet, if there is one. -/
def withPacket (built : Except Exc PaymentPacket) (reply : PaymentPacket → SenderReply) :
    SenderReply :=
  match built with
  | .error e => creationFailed e
  | .ok packet => reply packet

/-- `POST /packets`: create a signed, encrypted packet for an offline payment. -/
def createPacket (prim : Primitives) (sealer : SealPrimitives) (web : FastApi) (node : SenderNode)
    (draws : Draws) (rawBody : Bytes) : SenderReply :=
  match readBody web TransactionRequest.validate rawBody with
  | .error reply => .failed reply
  | .ok request =>
      withPacket (buildPacket prim sealer node draws request) fun packet =>
        .created (.of prim packet)

/-- What the mesh node does with a post: no answer, or a status and the bytes
of a body. -/
inductive Reaction where
  | transportError
  | answered (httpStatus : Nat) (content : Bytes)

/-- `PacketStatus` values. -/
def PacketStatus.value : PacketStatus → String
  | .created => "created"
  | .relayed => "relayed"
  | .bridged => "bridged"
  | .settled => "settled"
  | .rejected => "rejected"

/-- `PacketStatus(value)`, if it does not raise. -/
def PacketStatus.ofJson : Json → Option PacketStatus
  | .str s => [created, relayed, bridged, settled, rejected].find? fun status => status.value = s
  | _ => none

/-- `response.json() if response.content else {}`, if it does not raise. -/
def reported (jsonLoads : Bytes → Except LoadsFailure Json) (content : Bytes) : Option Json :=
  if content = [] then some (.obj [])
  else
    match jsonLoads content with
    | .ok j => some j
    | .error _ => none

/-- The status and the hop count that the neighbour reports, if reading them
does not raise: only an object has a `get`. -/
def readReport (report : Json) : Option (PacketStatus × Int) :=
  match report.members with
  | none => none
  | some members =>
      match PacketStatus.ofJson ((lookup "status" members).getD (.str PacketStatus.relayed.value)),
        Lib.Numeral.toInt ((lookup "hop_count" members).getD (.int 0)) with
      | some status, some hopCount => some (status, hopCount)
      | _, _ => none

/-- The reply when no mesh node accepted the packet. -/
def handoffFailed : SenderReply :=
  .failed (.error 502 ⟨.internalError, "no mesh node accepted the packet"⟩)

/-- Hand the packet to the mesh and report what the neighbour says of it. -/
def handOver (prim : Primitives) (jsonLoads : Bytes → Except LoadsFailure Json)
    (node : SenderNode) (mesh : Bytes → Reaction) (packet : PaymentPacket) : SenderReply :=
  match mesh packet.modelDumpJson with
  | .transportError => handoffFailed
  | .answered httpStatus content =>
      if isSuccess httpStatus then
        match (reported jsonLoads content).bind readReport with
        | some (status, hopCount) =>
            .submitted ⟨packet.packetId, packet.idempotencyKey prim, node.meshEntrypoint,
              status, hopCount⟩
        | none => .failed (.plain 500)
      else handoffFailed

/-- `POST /packets/submit`: create a packet and hand it to the mesh in one
step. -/
def submitPacket (prim : Primitives) (sealer : SealPrimitives) (web : FastApi)
    (jsonLoads : Bytes → Except LoadsFailure Json) (node : SenderNode) (draws : Draws)
    (mesh : Bytes → Reaction) (rawBody : Bytes) : SenderReply :=
  match readBody web TransactionRequest.validate rawBody with
  | .error reply => .failed reply
  | .ok request =>
      withPacket (buildPacket prim sealer node draws request)
        (handOver prim jsonLoads node mesh)

/-! ## The packet of a request -/

/-- An instruction that could be made. -/
theorem ok_bind {α β : Type} (a : α) (f : α → Except Exc β) : (Except.ok a >>= f) = f a := rfl

section Built

variable (prim : Primitives) (sealer : SealPrimitives) (node : SenderNode) (draws : Draws)
  (request : TransactionRequest)

/-- The packet that a request becomes. -/
def builtPacket : PaymentPacket :=
  PaymentPacket.sealed sealer draws.draw draws.packetAt
    (request.instruction draws.packetId draws.instructionAt) (deviceId prim sealer node.signingKey)
    node.signingKey node.recipientPublicKey

/-- Construction succeeds for a device. -/
theorem create_device (instruction : PaymentInstruction) :
    PaymentPacket.create sealer draws.draw draws.packetAt instruction
      (deviceId prim sealer node.signingKey).1 node.signingKey node.recipientPublicKey =
    .ok (PaymentPacket.sealed sealer draws.draw draws.packetAt instruction
      (deviceId prim sealer node.signingKey) node.signingKey node.recipientPublicKey) :=
  PaymentPacket.create_ok (momentOf_none draws.packetAt)

/-- **A valid request always becomes a packet.** -/
theorem buildPacket_ok : buildPacket prim sealer node draws request =
    .ok (builtPacket prim sealer node draws request) := by
  have hinstruction : request.toInstruction draws.packetId draws.instructionAt =
      .ok (request.instruction draws.packetId draws.instructionAt) :=
    TransactionRequest.toInstruction_ok (momentOf_none draws.instructionAt)
  unfold buildPacket builtPacket
  rw [hinstruction, ok_bind]
  exact create_device _ _ _ _ _

end Built

/-- What is answered to a valid request for a packet. -/
theorem createPacket_ok {prim : Primitives} {sealer : SealPrimitives} {web : FastApi}
    {node : SenderNode} {draws : Draws} {rawBody : Bytes} {request : TransactionRequest}
    (h : readBody web TransactionRequest.validate rawBody = .ok request) :
    createPacket prim sealer web node draws rawBody =
      .created (.of prim (builtPacket prim sealer node draws request)) := by
  unfold createPacket
  rw [h]
  dsimp only
  rw [buildPacket_ok]
  rfl

/-- And to a valid submission. -/
theorem submitPacket_ok {prim : Primitives} {sealer : SealPrimitives} {web : FastApi}
    {jsonLoads : Bytes → Except LoadsFailure Json} {node : SenderNode} {draws : Draws}
    {mesh : Bytes → Reaction} {rawBody : Bytes} {request : TransactionRequest}
    (h : readBody web TransactionRequest.validate rawBody = .ok request) :
    submitPacket prim sealer web jsonLoads node draws mesh rawBody =
      handOver prim jsonLoads node mesh (builtPacket prim sealer node draws request) := by
  unfold submitPacket
  rw [h]
  dsimp only
  rw [buildPacket_ok]
  rfl

end MeshSettle
