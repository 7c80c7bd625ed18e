import MeshSettle.Lib.Chain
import MeshSettle.Mesh.Bridge

/-!
# The mesh relay (`services/mesh_relay/app.py`)

A relay verifies a packet, refuses one with too many hops, appends its own hop
and forwards the packet to the next relay, or to the bridge once the target is
reached. It answers 202 only if the next node did.

A network is a set of relays and one bridge behind URLs. `post` follows a
packet through it: a chain of nested calls, each of which may fail before or
after the next node has done its work.
-/

namespace MeshSettle

open Lib.Chain

/-- A relay's identity and forwarding targets. -/
structure RelayConfig where
  nodeId : String
  nextRelayUrl : String
  bridgeUrl : String
  hopCountTarget : Int
  hopLimit : Int

/-- `url.rstrip("/")`. -/
def rstripSlash (url : String) : String := String.ofList (url.toList.rdropWhile (· = '/'))

/-- Where a packet goes after this hop, and the status to report. -/
def RelayConfig.nextDestination (config : RelayConfig) (hopCount : Nat) : String × PacketStatus :=
  if hopCount ≥ config.hopCountTarget then (rstripSlash config.bridgeUrl ++ "/bridge", .bridged)
  else (rstripSlash config.nextRelayUrl ++ "/relay", .relayed)

/-- A node of the network. -/
inductive MeshNode (ι : Type) where
  | relay (i : ι)
  | bridge
  deriving DecidableEq

/-- What a URL leads to: the route of a node, nothing that answers, or no URL
at all. -/
inductive Destination (ι : Type) where
  | node (n : MeshNode ι)
  | unreachable
  | invalidUrl

/-- Why a forwarding was not served by the next node: the connection failed, or
something in front of the node answered, not with a 2xx. -/
inductive Unserved where
  | connectError
  | turnedAway (httpStatus : Nat) (failed : isSuccess httpStatus = false)

/-- `response.raise_for_status()` lets the answer through. -/
def Accepted : Answer Unserved Reply → Bool
  | .reply reply => isSuccess reply.httpStatus
  | _ => false

/-- A relay: its configuration and the sender's key that it verifies with. -/
structure RelayNode where
  config : RelayConfig
  senderPublicKey : Bytes

/-- `HopRecord(node_id=..., received_at=...)`, if the id is well-formed. -/
def hopRecord (nodeId : String) (receivedAt : UtcTimestamp) : Option HopRecord :=
  if h : matchesIdentifier nodeId = true then some ⟨⟨nodeId, h⟩, receivedAt⟩ else none

/-- The reply of a relay that could not forward. -/
def forwardFailed : Reply :=
  .error 502 ⟨.internalError, "could not forward the packet to the next node"⟩

/-- Accept a packet, record the hop, and forward it onward. `now` is the clock
at the append. -/
def relay {ι : Type} (prim : Primitives) (web : FastApi) (resolve : String → Destination ι)
    (node : RelayNode) (now : UtcTimestamp) (rawBody : Bytes) :
    Action (MeshNode ι) Bytes Unserved Reply Publication :=
  match readPacket web rawBody with
  | .error reply => .answer reply []
  | .ok packet =>
      match packet.verify prim node.senderPublicKey with
      | .error (.signatureVerificationError _) =>
          .answer (.error 400 ⟨.invalidSignature, "packet signature did not verify"⟩) []
      | .error _ => .answer (.plain 500) []
      | .ok () =>
          if packet.hopCount ≥ node.config.hopLimit then
            .answer (.error 400 ⟨.malformedPayload, "packet exceeded the hop limit of " ++
              toString node.config.hopLimit⟩) []
          else
            match hopRecord node.config.nodeId now with
            | none => .answer (.plain 500) []
            | some hop =>
                let forwarded := packet.appendHop hop
                let onward := node.config.nextDestination forwarded.hopCount
                let body := forwarded.modelDumpJson
                match resolve onward.1 with
                | .invalidUrl => .answer (.plain 500) []
                | .unreachable => .answer forwardFailed []
                | .node next => .pass next body fun answer =>
                    if Accepted answer then
                      .relayed ⟨onward.2, node.config.nodeId, forwarded.hopCount, onward.1,
                        forwarded.packetId⟩
                    else forwardFailed

/-- A network of relays and one bridge. -/
structure Network (ι : Type) where
  prim : Primitives
  web : FastApi
  resolve : String → Destination ι
  relays : ι → RelayNode
  bridge : BridgeNode

/-- What a packet meets on its way: how each forwarding goes, how the publish
goes, and the clock of the node that appends the next hop. -/
structure Journey where
  forwarding : Nat → Fate Unserved
  publish : PublishFate
  now : Nat → UtcTimestamp

namespace Network

variable {ι : Type}

/-- What a node does with a request, as the `i`-th node of a journey. -/
def handle (net : Network ι) (journey : Journey) (i : Nat) (node : MeshNode ι)
    (rawBody : Bytes) : Action (MeshNode ι) Bytes Unserved Reply Publication :=
  match node with
  | .relay r => MeshSettle.relay net.prim net.web net.resolve (net.relays r) (journey.now i) rawBody
  | .bridge =>
      let answered := MeshSettle.bridge net.prim net.web net.bridge journey.publish rawBody
      .answer answered.1 answered.2

/-- A body posted to a relay: its reply, the confirmed publications, and the
nodes that got the packet with the bodies they got. -/
def post (net : Network ι) (journey : Journey) (fuel : Nat) (entry : ι) (rawBody : Bytes) :
    Option (Outcome (MeshNode ι) Bytes Reply Publication) :=
  call (net.handle journey) journey.forwarding fuel 0 (.relay entry) rawBody

end Network

/-! ## What a relay can do -/

section Relay

variable {ι : Type} {prim : Primitives} {web : FastApi} {resolve : String → Destination ι}
  {node : RelayNode} {now : UtcTimestamp} {rawBody : Bytes}

/-- The reply of a relay that forwarded a packet with this many hops. -/
def relayReply (config : RelayConfig) (forwarded : PaymentPacket)
    (answer : Answer Unserved Reply) : Reply :=
  if Accepted answer then
    .relayed ⟨(config.nextDestination forwarded.hopCount).2, config.nodeId, forwarded.hopCount,
      (config.nextDestination forwarded.hopCount).1, forwarded.packetId⟩
  else forwardFailed

/-- What a relay can do: answer without a success, or pass on the verified
packet with its own hop appended. -/
inductive RelayCase (prim : Primitives) (web : FastApi) (resolve : String → Destination ι)
    (node : RelayNode) (now : UtcTimestamp) (rawBody : Bytes) :
    Action (MeshNode ι) Bytes Unserved Reply Publication → Prop
  | refused {reply : Reply} : isSuccess reply.httpStatus = false →
      RelayCase prim web resolve node now rawBody (.answer reply [])
  | forwarded {p : PaymentPacket} {hop : HopRecord} {next : MeshNode ι} :
      readPacket web rawBody = .ok p → p.verify prim node.senderPublicKey = .ok () →
      (p.hopCount : Int) < node.config.hopLimit → hop.nodeId.1 = node.config.nodeId →
      resolve (node.config.nextDestination (p.hopCount + 1)).1 = .node next →
      RelayCase prim web resolve node now rawBody
        (.pass next (p.appendHop hop).modelDumpJson
          (relayReply node.config (p.appendHop hop)))

/-- **Inversion of a relay.** -/
theorem relay_cases (prim : Primitives) (web : FastApi) (resolve : String → Destination ι)
    (node : RelayNode) (now : UtcTimestamp) (rawBody : Bytes) :
    RelayCase prim web resolve node now rawBody (relay prim web resolve node now rawBody) := by
  unfold relay
  cases hread : readPacket web rawBody with
  | error reply => exact .refused (readBody_error hread)
  | ok p =>
      dsimp only
      split
      · exact .refused rfl
      · exact .refused rfl
      · next hverify =>
          split
          · exact .refused rfl
          · next hlimit =>
              unfold hopRecord
              split
              · exact .refused rfl
              · next hop hsome =>
                  split at hsome
                  · next hid =>
                      cases hsome
                      split
                      · exact .refused rfl
                      · exact .refused rfl
                      · next next hnext =>
                          rw [PaymentPacket.appendHop_hopCount] at hnext
                          exact .forwarded hread hverify (by omega) rfl hnext
                  · cases hsome

/-- A relay with a well-formed id passes on a verified packet below its limit. -/
theorem relay_forwards {p : PaymentPacket} {next : MeshNode ι}
    (hread : readPacket web rawBody = .ok p)
    (hverify : p.verify prim node.senderPublicKey = .ok ())
    (hlimit : (p.hopCount : Int) < node.config.hopLimit)
    (hid : matchesIdentifier node.config.nodeId = true)
    (hnext : resolve (node.config.nextDestination (p.hopCount + 1)).1 = .node next) :
    relay prim web resolve node now rawBody =
      .pass next (p.appendHop ⟨⟨node.config.nodeId, hid⟩, now⟩).modelDumpJson
        (relayReply node.config (p.appendHop ⟨⟨node.config.nodeId, hid⟩, now⟩)) := by
  have hbelow : ¬ ((p.hopCount : Int) ≥ node.config.hopLimit) := by omega
  unfold relay
  simp only [hread, hverify, hbelow, if_false, hopRecord, hid, dite_true,
    PaymentPacket.appendHop_hopCount, hnext]
  refine congrArg (Action.pass next _) (funext fun answer => ?_)
  simp only [relayReply, PaymentPacket.appendHop_hopCount]

/-- A packet at the limit is refused. -/
theorem relay_refuses {p : PaymentPacket} (hread : readPacket web rawBody = .ok p)
    (hverify : p.verify prim node.senderPublicKey = .ok ())
    (hlimit : node.config.hopLimit ≤ p.hopCount) :
    relay prim web resolve node now rawBody =
      .answer (.error 400 ⟨.malformedPayload, "packet exceeded the hop limit of " ++
        toString node.config.hopLimit⟩) [] := by
  unfold relay
  simp only [hread, hverify, ge_iff_le, hlimit, if_true]

theorem relayReply_httpStatus (config : RelayConfig) (p : PaymentPacket)
    (answer : Answer Unserved Reply) : (relayReply config p answer).httpStatus =
      if Accepted answer then 202 else 502 := by
  unfold relayReply forwardFailed
  split <;> rfl

/-- A relay answers with a success only if the next node did. -/
theorem relayReply_success {config : RelayConfig} {p : PaymentPacket}
    {answer : Answer Unserved Reply}
    (h : isSuccess (relayReply config p answer).httpStatus = true) :
    ∃ reply, answer = .reply reply ∧ isSuccess reply.httpStatus = true := by
  rw [relayReply_httpStatus] at h
  split at h
  · next hacc =>
      cases answer with
      | reply reply => exact ⟨reply, rfl, hacc⟩
      | refused r => cases hacc
      | lost => cases hacc
  · cases h

end Relay

end MeshSettle
