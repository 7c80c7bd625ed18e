import MeshSettle.Mesh.Deployment
import MeshSettle.Mesh.Relay
import MeshSettle.Mesh.Sender
import MeshSettle.Settlement.Reference

/-!
# A reference mesh

One relay that is its own neighbour, and the bridge. The relay visits a packet
twice before it hands it to the bridge. The device in front of them signs with
a key of its own. Requests are read as settlement reads the queue.
-/

namespace MeshSettle.Reference

open Lib.Chain

/-- FastAPI with the readers of the reference settlement. -/
noncomputable def web : FastApi := ⟨pydantic, fun _ => .unreadable⟩

theorem web_readsBack : web.pydantic.ReadsBack := pydantic_readsBack

noncomputable def bridgeNode : BridgeNode :=
  ⟨onePayment.senderPublicKey, "meshsettle.settlements"⟩

/-- A packet visits the relay until it has two hops. -/
def relayConfig : RelayConfig :=
  ⟨"mesh-node-1", "http://mesh-relay/", "http://bridge/", 2, 5⟩

/-- The two routes of the mesh. -/
def route (url : String) : Destination Unit :=
  if url = "http://mesh-relay/relay" then .node (.relay ())
  else if url = "http://bridge/bridge" then .node .bridge
  else .unreachable

theorem route_relay : route (rstripSlash relayConfig.nextRelayUrl ++ "/relay") =
    .node (.relay ()) :=
  if_pos (by decide)

theorem route_bridge : route (rstripSlash relayConfig.bridgeUrl ++ "/bridge") = .node .bridge := by
  unfold route
  rw [if_neg (by decide), if_pos (by decide)]

noncomputable def network : Network Unit where
  prim := onePayment.prim
  web := web
  resolve := route
  relays _ := ⟨relayConfig, onePayment.senderPublicKey⟩
  bridge := bridgeNode

theorem network_relayUrl (i : Unit) : network.resolve
    (rstripSlash (network.relays i).config.nextRelayUrl ++ "/relay") = .node (.relay ()) := by
  dsimp only [network]
  exact route_relay

theorem network_bridgeUrl (i : Unit) : network.resolve
    (rstripSlash (network.relays i).config.bridgeUrl ++ "/bridge") = .node .bridge := by
  dsimp only [network]
  exact route_bridge

theorem payer_ne_payee : payer ≠ payee := by decide

/-- A request of the payer's device. -/
def request : TransactionRequest :=
  ⟨payer, payee, ⟨4200, by decide⟩, PaymentInstruction.inr, payer_ne_payee⟩

/-- What the device draws for it. -/
def draws : Draws :=
  ⟨⟨7⟩, instant, instant, List.replicate 32 1, List.replicate 12 2, [3], by simp [aesKeyBytes],
    by simp [gcmNonceBytes]⟩

def device : SenderNode := ⟨[], [], "http://mesh-relay/relay"⟩

/-- The device with the libraries that the mesh has. -/
noncomputable def payerDevice : Device := ⟨sealer, web, device⟩

/-- Every forwarding is delivered, and the publish is confirmed. -/
def smooth : Journey := ⟨fun _ => .delivered, .confirmed, fun _ => instant⟩

/-- A node of the mesh reads the payment. -/
theorem read_payment : readPacket web payment.modelDumpJson = .ok payment :=
  readPacket_modelDumpJson web_readsBack _

end MeshSettle.Reference
