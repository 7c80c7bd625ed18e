import MeshSettle.Mesh.Http

/-!
# The bridge (`services/bridge/app.py`, `publisher.py`)

The bridge verifies a packet, writes it again from the validated model, and
publishes it under its idempotency key. It answers 202 only for a message that
the broker has confirmed.
-/

namespace MeshSettle

/-- A message that the broker confirmed. -/
structure Publication where
  body : Bytes
  messageId : String
  deriving DecidableEq

/-- How a publish goes: the publisher is not connected, the broker does not
confirm the message, or it does. -/
inductive PublishFate where
  | notConnected
  | unconfirmed
  | confirmed
  deriving DecidableEq

/-- `RabbitMQPublisher.publish`: the text of the `PublishError`, or the
confirmed message. -/
def RabbitMQPublisher.publish (fate : PublishFate) (body : Bytes) (messageId : String) :
    Except String Publication :=
  match fate with
  | .notConnected => .error "publisher is not connected"
  | .unconfirmed => .error "broker did not confirm the message"
  | .confirmed => .ok ⟨body, messageId⟩

/-- What the bridge is configured with. -/
structure BridgeNode where
  senderPublicKey : Bytes
  queueName : String

/-- Verify a relayed packet and publish it to the settlement queue: the reply,
and what the publisher returned for. -/
def bridge (prim : Primitives) (web : FastApi) (node : BridgeNode) (fate : PublishFate)
    (rawBody : Bytes) : Reply × List Publication :=
  match readPacket web rawBody with
  | .error reply => (reply, [])
  | .ok packet =>
      match packet.verify prim node.senderPublicKey with
      | .error (.signatureVerificationError _) =>
          (.error 400 ⟨.invalidSignature, "packet signature did not verify"⟩, [])
      | .error _ => (.plain 500, [])
      | .ok () =>
          let body := packet.modelDumpJson
          let idempotencyKey := packet.idempotencyKey prim
          match RabbitMQPublisher.publish fate body idempotencyKey with
          | .error _ =>
              (.error 503 ⟨.internalError, "packet could not be queued for settlement"⟩, [])
          | .ok published =>
              (.bridged ⟨.bridged, node.queueName, packet.packetId, packet.hopCount,
                idempotencyKey⟩, [published])

section Bridge

variable {prim : Primitives} {web : FastApi} {node : BridgeNode} {fate : PublishFate}
  {rawBody : Bytes}

/-- What the bridge can do: answer without a success and publish nothing, or
publish the verified packet it has read. -/
theorem bridge_cases (prim : Primitives) (web : FastApi) (node : BridgeNode) (fate : PublishFate)
    (rawBody : Bytes) :
    (isSuccess (bridge prim web node fate rawBody).1.httpStatus = false ∧
      (bridge prim web node fate rawBody).2 = []) ∨
    ∃ p, readPacket web rawBody = .ok p ∧ p.verify prim node.senderPublicKey = .ok () ∧
      fate = .confirmed ∧
      bridge prim web node fate rawBody =
        (.bridged ⟨.bridged, node.queueName, p.packetId, p.hopCount, p.idempotencyKey prim⟩,
          [⟨p.modelDumpJson, p.idempotencyKey prim⟩]) := by
  unfold bridge
  cases hread : readPacket web rawBody with
  | error reply => exact .inl ⟨readBody_error hread, rfl⟩
  | ok p =>
      dsimp only
      split
      · exact .inl ⟨rfl, rfl⟩
      · exact .inl ⟨rfl, rfl⟩
      · next hverify =>
          cases fate with
          | notConnected => exact .inl ⟨rfl, rfl⟩
          | unconfirmed => exact .inl ⟨rfl, rfl⟩
          | confirmed => exact .inr ⟨p, rfl, hverify, rfl, rfl⟩

/-- A verified packet whose message is confirmed is published. -/
theorem bridge_confirmed {p : PaymentPacket} (hread : readPacket web rawBody = .ok p)
    (hverify : p.verify prim node.senderPublicKey = .ok ()) :
    bridge prim web node .confirmed rawBody =
      (.bridged ⟨.bridged, node.queueName, p.packetId, p.hopCount, p.idempotencyKey prim⟩,
        [⟨p.modelDumpJson, p.idempotencyKey prim⟩]) := by
  simp only [bridge, hread, hverify, RabbitMQPublisher.publish]

theorem mem_bridge_confirmed {p : PaymentPacket} (hread : readPacket web rawBody = .ok p)
    (hverify : p.verify prim node.senderPublicKey = .ok ()) :
    (⟨p.modelDumpJson, p.idempotencyKey prim⟩ : Publication) ∈
      (bridge prim web node .confirmed rawBody).2 := by
  rw [bridge_confirmed hread hverify]
  exact List.mem_singleton_self _

end Bridge

end MeshSettle
