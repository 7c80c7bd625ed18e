import MeshSettle.Mesh.Deployment
import MeshSettle.Mesh.Relay

/-!
# The device in front of the mesh

What a mesh service answers is JSON, and the device reads it. `Network.submit`
is `POST /packets/submit` with the network behind it: the device's own post to
the entry relay is one more forwarding, which may fail or lose its reply.
-/

namespace MeshSettle

open Lib.Chain Lib.Schema

/-! ## Replies as JSON -/

/-- `RelayResponse` as JSON. -/
def RelayResponse.toJson (r : RelayResponse) : Json :=
  .obj [("status", .str r.status.value), ("node_id", .str r.nodeId), ("hop_count", .int r.hopCount),
    ("forwarded_to", .str r.forwardedTo), ("packet_id", .str r.packetId.str)]

/-- `BridgeResponse` as JSON. -/
def BridgeResponse.toJson (r : BridgeResponse) : Json :=
  .obj [("status", .str r.status.value), ("queue", .str r.queue),
    ("packet_id", .str r.packetId.str), ("hop_count", .int r.hopCount),
    ("idempotency_key", .str r.idempotencyKey)]

/-- `ErrorResponse` as JSON. -/
def ErrorResponse.toJson (r : ErrorResponse) : Json :=
  .obj [("code", .str r.code.value), ("detail", .str r.detail)]

/-- The body of a reply. `plain` is what the framework sends with a status of
its own. -/
def Reply.content (plain : Nat → Bytes) : Reply → Bytes
  | .relayed r => document r.toJson
  | .bridged r => document r.toJson
  | .error _ r => document r.toJson
  | .plain httpStatus => plain httpStatus

/-! ## The device's own post -/

/-- What the device sees of its post, and what its post has led to. The body of
an answer that is not a 2xx is not read. -/
def posted {ι : Type} (plain : Nat → Bytes) (fate : Fate Unserved)
    (o : Outcome (MeshNode ι) Bytes Reply Publication) : Reaction × List Publication :=
  match fate with
  | .refused .connectError => (.transportError, [])
  | .refused (.turnedAway httpStatus _) => (.answered httpStatus [], [])
  | .delivered => (.answered o.reply.httpStatus (o.reply.content plain), o.effects)
  | .replyLost => (.transportError, o.effects)

/-- `POST /packets/submit` of a device whose neighbour is a relay of the network:
its reply, and the confirmed publications. -/
def Network.submit {ι : Type} (net : Network ι) (device : Device)
    (jsonLoads : Bytes → Except LoadsFailure Json) (plain : Nat → Bytes) (journey : Journey)
    (fate : Fate Unserved) (fuel : Nat) (entry : ι) (draws : Draws) (rawBody : Bytes) :
    Option (SenderReply × List Publication) :=
  match readBody device.web TransactionRequest.validate rawBody with
  | .error reply => some (.failed reply, [])
  | .ok request =>
      let body := (Order.packet net.prim device ⟨request, draws⟩).modelDumpJson
      (net.post journey fuel entry body).map fun o =>
        (submitPacket net.prim device.sealer device.web jsonLoads device.node draws
          (fun _ => (posted plain fate o).1) rawBody, (posted plain fate o).2)

/-- No reply is lost on the way back to the device. -/
def Lossless (fate : Fate Unserved) (journey : Journey) : Prop :=
  fate ≠ .replyLost ∧ ∀ i, journey.forwarding i ≠ .replyLost

/-! ## What the device reads -/

/-- The report of a relay is read back. -/
theorem readReport_relayed {r : RelayResponse} : readReport r.toJson =
    some (r.status, (r.hopCount : Int)) := by
  have hstatus : PacketStatus.ofJson (.str r.status.value) = some r.status := by
    cases r.status <;> decide
  simp [readReport, Json.members, RelayResponse.toJson, lookup, hstatus, Lib.Numeral.toInt]

/-- A document is never empty. -/
theorem document_ne {j : Json} (h : Lib.Document.Simple 8 j) : document j ≠ [] := by
  intro hempty
  have htext : String.ofList (Lib.Document.render j) = "" :=
    utf8_inj (hempty.trans (show utf8 "" = [] from rfl).symm)
  obtain ⟨c, cs, hrender, -⟩ := Lib.Document.render_cons h
  rw [hrender, String.ofList_eq_empty_iff] at htext
  cases htext

/-- And so is the body that carries it. -/
theorem reported_relayed {jsonLoads : Bytes → Except LoadsFailure Json} (h : LoadsBack jsonLoads)
    (plain : Nat → Bytes) {r : RelayResponse} (hhops : (r.hopCount : Int) < 2 ^ 63) :
    (reported jsonLoads (Reply.content plain (.relayed r))).bind readReport =
      some (r.status, (r.hopCount : Int)) := by
  have hsimple : Lib.Document.Simple 8 r.toJson := by
    have hlower : -2 ^ 63 ≤ (r.hopCount : Int) := by omega
    simp only [RelayResponse.toJson, Lib.Document.Simple, Lib.Document.SimpleMembers, hhops, hlower]
    simp
  show (reported jsonLoads (document r.toJson)).bind readReport = _
  unfold reported
  rw [if_neg (document_ne hsimple), h _ hsimple]
  exact readReport_relayed

end MeshSettle
