import MeshSettle.Mesh.Reference

/-!
# Bridge and settlement agree on the wire format

The bridge accepts many spellings of a packet and writes the one it has read
in its own. Settlement reads that text back as the same packet, so the
signature it checks and the key it derives are those of the bridge.
-/

namespace MeshSettle.Theorems.WireAgreement

/-- **Bridge and settlement agree.** A packet is read back from its dump; and
whatever body the bridge publishes for, settlement with the same sender key
reads the published bytes as the packet that the bridge had read, verifies it,
and derives the message id that the bridge has attached. -/
theorem bridge_agrees {env : Env} (hreads : env.pydantic.ReadsBack) :
    (∀ p : PaymentPacket,
      PaymentPacket.modelValidateJson env.pydantic p.modelDumpJson = .ok p) ∧
    ∀ (web : FastApi) (node : BridgeNode) (fate : PublishFate) (rawBody : Bytes)
      (pub : Publication), node.senderPublicKey = env.senderPublicKey →
      pub ∈ (bridge env.prim web node fate rawBody).2 →
      ∃ p, readPacket web rawBody = .ok p ∧ SignedBody env pub.body p ∧
        p.idempotencyKey env.prim = pub.messageId := by
  have hback : ∀ p : PaymentPacket,
      PaymentPacket.modelValidateJson env.pydantic p.modelDumpJson = .ok p :=
    fun p => p.modelValidateJson_modelDumpJson hreads
  refine ⟨hback, fun web node fate rawBody pub hkey hpub => ?_⟩
  rcases bridge_cases env.prim web node fate rawBody with ⟨-, hnone⟩ | ⟨p, hread, hverify, -, hout⟩
  · rw [hnone] at hpub
    cases hpub
  · rw [hout] at hpub
    rw [hkey] at hverify
    have hbody : pub.body = p.modelDumpJson := by rw [List.mem_singleton.mp hpub]
    have hid : pub.messageId = p.idempotencyKey env.prim := by rw [List.mem_singleton.mp hpub]
    rw [hbody, hid]
    exact ⟨p, hread, ⟨hback p, hverify⟩, rfl⟩

theorem bridge_agrees_payment : ∃ p,
    readPacket Reference.web Reference.payment.modelDumpJson = .ok p ∧
    SignedBody Reference.onePayment Reference.payment.modelDumpJson p ∧
    p.idempotencyKey Reference.onePayment.prim =
      Reference.payment.idempotencyKey Reference.onePayment.prim := by
  have hread := Reference.read_payment
  have hverify := Reference.genuine_payment.verified
  generalize Reference.payment = p at hread hverify ⊢
  have hreads : Reference.onePayment.pydantic.ReadsBack := Reference.pydantic_readsBack
  have hagree := (bridge_agrees hreads).2 Reference.web Reference.bridgeNode .confirmed
    p.modelDumpJson ⟨p.modelDumpJson, p.idempotencyKey Reference.onePayment.prim⟩ rfl
    (mem_bridge_confirmed hread hverify)
  dsimp only at hagree
  exact hagree

end MeshSettle.Theorems.WireAgreement
