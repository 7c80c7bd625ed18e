import MeshSettle.Mesh.Reference
import MeshSettle.Settlement.Alone
import MeshSettle.Settlement.Clock

/-!
# Honest payments settle as requested

The sender computes the AAD, the signed region and the key of a packet from the
request; settlement computes them again from what arrives, after any number of
nodes have read the packet and written it anew. Both sides agree, so that a
call in which nothing fails inserts the row that was asked for.
-/

namespace MeshSettle.Theorems.Honest

open Lib.Await Lib.Interleave

/-! ## Hops -/

/-- What a node makes of a body: it reads the packet and writes it anew. -/
def rewritten (web : FastApi) (change : PaymentPacket → PaymentPacket) (rawBody : Bytes) :
    Except Reply Bytes :=
  match readPacket web rawBody with
  | .error reply => .error reply
  | .ok packet => .ok (change packet).modelDumpJson

/-- Relays that append these hops one after the other, and the bridge, which
appends none. -/
def carried (web : FastApi) : List HopRecord → Bytes → Except Reply Bytes
  | [], rawBody => rewritten web id rawBody
  | hop :: hops, rawBody =>
      match rewritten web (fun p => p.appendHop hop) rawBody with
      | .error reply => .error reply
      | .ok body => carried web hops body

section Nodes

variable {ι : Type} {prim : Primitives} {web : FastApi} {rawBody : Bytes}

/-- A relay that passes a body on has rewritten it with a hop. -/
theorem relay_rewrites {resolve : String → Destination ι} {node : RelayNode} {now : UtcTimestamp}
    {next : MeshNode ι} {body : Bytes} {finish : Lib.Chain.Answer Unserved Reply → Reply}
    (h : relay prim web resolve node now rawBody = .pass next body finish) :
    ∃ hop, rewritten web (fun p => p.appendHop hop) rawBody = .ok body := by
  have hcase := relay_cases prim web resolve node now rawBody
  rw [h] at hcase
  cases hcase with
  | @forwarded p hop _ hread =>
      refine ⟨hop, ?_⟩
      unfold rewritten
      rw [hread]

/-- A bridge that publishes a body has rewritten it. -/
theorem bridge_rewrites {node : BridgeNode} {fate : PublishFate} {pub : Publication}
    (h : pub ∈ (bridge prim web node fate rawBody).2) :
    rewritten web id rawBody = .ok pub.body := by
  rcases bridge_cases prim web node fate rawBody with ⟨-, hnone⟩ | ⟨p, hread, -, -, hout⟩
  · rw [hnone] at h
    cases h
  · rw [hout] at h
    have hbody : pub.body = p.modelDumpJson := by rw [List.mem_singleton.mp h]
    unfold rewritten
    rw [hread, hbody]
    rfl

end Nodes

/-- The packet behind more hops. -/
def withHops (p : PaymentPacket) (hops : List HopRecord) : PaymentPacket :=
  { p with hops := p.hops ++ hops }

section Hops

variable {env : Env} {web : FastApi} {p : PaymentPacket} {hops : List HopRecord}

theorem withHops_nil : withHops p [] = p := by
  unfold withHops
  rw [List.append_nil]

theorem withHops_cons (hop : HopRecord) :
    withHops (p.appendHop hop) hops = withHops p (hop :: hops) := by
  unfold withHops PaymentPacket.appendHop
  rw [List.append_assoc]
  rfl

theorem withHops_alike : Alike env p (withHops p hops) := alike_of_signingBytes env rfl

theorem withHops_verify (publicKey : Bytes) :
    (withHops p hops).verify env.prim publicKey = p.verify env.prim publicKey := rfl

/-- **Hops leave a packet as it is**, but for the hops. -/
theorem carried_modelDumpJson (hreads : web.pydantic.ReadsBack) :
    carried web hops p.modelDumpJson = .ok (withHops p hops).modelDumpJson := by
  have hrewritten : ∀ (p : PaymentPacket) change,
      rewritten web change p.modelDumpJson = .ok (change p).modelDumpJson := by
    intro p change
    unfold rewritten
    rw [readPacket_modelDumpJson hreads]
  induction hops generalizing p with
  | nil =>
      rw [carried, hrewritten, withHops_nil]
      rfl
  | cons hop hops ih =>
      rw [carried, hrewritten]
      dsimp only
      rw [ih, withHops_cons]

end Hops

/-! ## Settlement -/

/-- The row of a request: what was asked for, under the identity of the packet
and of the device. -/
structure Requested (prim : Primitives) (sealer : SealPrimitives) (node : SenderNode)
    (request : TransactionRequest) (created : PacketCreatedResponse) (hops : List HopRecord)
    (row : SettlementRow) : Prop where
  payer : row.payerId = request.payerId.1
  payee : row.payeeId = request.payeeId.1
  amount : row.amountMinor = request.amountMinor.1
  currency : row.currency = request.currency.1
  packetId : row.packetId = created.packet.packetId
  sender : row.senderId = senderIdFor prim sealer node.signingKey
  hopCount : row.hopCount = hops.length
  key : row.idempotencyKey = created.idempotencyKey

section Settles

variable {env : Env} {sealer : SealPrimitives} {node : SenderNode} {draws : Draws}
  {request : TransactionRequest}

theorem built_verified (draws : Draws) (request : TransactionRequest)
    (honest : Honest env.prim sealer node.recipientPublicKey
      env.settlementPrivateKey node.signingKey)
    (hkey : env.senderPublicKey = sealer.ed25519PublicKey node.signingKey) :
    (builtPacket env.prim sealer node draws request).verify env.prim env.senderPublicKey =
      .ok () := by
  rw [hkey]
  unfold builtPacket
  exact PaymentPacket.verify_sealed honest

theorem built_bound (prim : Primitives) (sealer : SealPrimitives) (node : SenderNode)
    (draws : Draws) (request : TransactionRequest) :
    (builtPacket prim sealer node draws request).envelope.aad =
      (builtPacket prim sealer node draws request).expectedAad := by
  unfold builtPacket
  exact PaymentPacket.bound_sealed

theorem built_opened (draws : Draws) (request : TransactionRequest)
    (hreads : env.pydantic.ReadsBack) (hloads : LoadsBack env.jsonLoads)
    (honest : Honest env.prim sealer node.recipientPublicKey env.settlementPrivateKey
      node.signingKey) :
    (builtPacket env.prim sealer node draws request).opened env =
      .ok (request.instruction draws.packetId draws.instructionAt) := by
  unfold builtPacket PaymentPacket.opened
  exact PaymentPacket.openInstruction_sealed hreads hloads honest

/-- A packet that passes every check, as evidence. -/
theorem exists_opened {body : Bytes} {now : Int} {packet : PaymentPacket}
    {instruction : PaymentInstruction}
    (parsed : PaymentPacket.modelValidateJson env.pydantic body = .ok packet)
    (verified : packet.verify env.prim env.senderPublicKey = .ok ())
    (fresh : staleness env packet now = none)
    (bound : packet.envelope.aad = packet.expectedAad)
    (opened : packet.opened env = .ok instruction) :
    ∃ o : Opened env, o.packet = packet ∧ o.body = body ∧ o.now = now ∧
      o.instruction = instruction :=
  ⟨⟨⟨body, now, packet, parsed, verified, fresh, bound⟩, instruction, opened⟩, rfl, rfl, rfl, rfl⟩

/-- The packet of a request, admitted and opened after its hops. -/
theorem opened_built (hreads : env.pydantic.ReadsBack) (hloads : LoadsBack env.jsonLoads)
    (honest : Honest env.prim sealer node.recipientPublicKey env.settlementPrivateKey
      node.signingKey)
    (hkey : env.senderPublicKey = sealer.ed25519PublicKey node.signingKey)
    (hops : List HopRecord) {now : Int}
    (hin : InWindow env (builtPacket env.prim sealer node draws request) now) :
    ∃ o : Opened env, o.packet = withHops (builtPacket env.prim sealer node draws request) hops ∧
      o.body = (withHops (builtPacket env.prim sealer node draws request) hops).modelDumpJson ∧
      o.now = now ∧ o.instruction = request.instruction draws.packetId draws.instructionAt := by
  have hverify := built_verified draws request honest hkey
  have hbound := built_bound env.prim sealer node draws request
  have hopened := built_opened draws request hreads hloads honest
  -- from here on only the packet counts, not how it was built
  generalize builtPacket env.prim sealer node draws request = p at *
  have halike : Alike env p (withHops p hops) := withHops_alike
  refine exists_opened ((withHops p hops).modelValidateJson_modelDumpJson hreads) ?_ ?_
    (halike.bound.mpr hbound) (halike.opened.trans hopened)
  · rw [withHops_verify, hverify]
  · rw [halike.stale, staleness_none.mpr hin]

/-- **Honest payments settle as requested.** -/
theorem honest_payment_settles (ι : Type) [DecidableEq ι] (draws : Draws) {web : FastApi}
    (hreads : env.pydantic.ReadsBack) (hweb : web.pydantic.ReadsBack)
    (hloads : LoadsBack env.jsonLoads)
    (honest : Honest env.prim sealer node.recipientPublicKey env.settlementPrivateKey
      node.signingKey)
    (hkey : env.senderPublicKey = sealer.ed25519PublicKey node.signingKey)
    {rawRequest : Bytes}
    (hrequest : readBody web TransactionRequest.validate rawRequest = .ok request)
    (hops : List HopRecord) (hcount : hops.length < 2 ^ 31) :
    ∃ created body, createPacket env.prim sealer web node draws rawRequest = .created created ∧
      carried web hops created.packet.modelDumpJson = .ok body ∧
      ∀ (d : Delivery ι) (clock : Nat → Int) (w : World ι), d.body = body →
        AcceptsEx env.claimTtl (clock 0) → AcceptsEx env.settledTtl (clock 2) →
        InWindow env created.packet d.now → w.redis created.idempotencyKey = none →
        (∀ row ∈ w.settlements.rows, row.idempotencyKey ≠ created.idempotencyKey ∧
          row.packetId ≠ created.packet.packetId) →
        ∃ outcome row, (processAlone env d (fun _ => .served) clock w).2 = .ok outcome ∧
          outcome.status = .settled ∧
          (processAlone env d (fun _ => .served) clock w).1.settlements.rows =
            w.settlements.rows ++ [row] ∧
          Requested env.prim sealer node request created hops row := by
  refine ⟨_, _, createPacket_ok hrequest, carried_modelDumpJson hweb, ?_⟩
  intro d clock w hbody hclaim hsettled hin hfree hnew
  obtain ⟨o, hpacket, hobody, hnow, hinstruction⟩ :=
    opened_built hreads hloads honest hkey hops hin
  have hsender : (builtPacket env.prim sealer node draws request).senderId.1 =
      senderIdFor env.prim sealer node.signingKey := rfl
  have hnone : (builtPacket env.prim sealer node draws request).hops = [] := rfl
  dsimp only [PacketCreatedResponse.of] at hbody hin hfree hnew ⊢
  -- from here on only the packet counts, not how it was built
  generalize builtPacket env.prim sealer node draws request = p at *
  have halike : Alike env p (withHops p hops) := withHops_alike
  have hokey : o.key = p.idempotencyKey env.prim := by
    rw [Admitted.key, hpacket, halike.key]
  have hcount' : o.packet.hopCount = hops.length := by
    rw [hpacket, PaymentPacket.hopCount, withHops, hnone, List.nil_append]
  have hfits : o.row.fits = true := (row_fits_iff o).mpr (by rw [hcount']; exact hcount)
  have hacc : w.settlements.Accepts o.row := by
    refine ⟨o.instruction.amountMinor.2.1, fun row hrow => ?_⟩
    have hrowkey : o.row.idempotencyKey = p.idempotencyKey env.prim := hokey
    have hrowid : o.row.packetId = p.packetId := by
      rw [Opened.row, settlementOf, hpacket]
      exact halike.id
    rw [hrowkey, hrowid]
    exact hnew row hrow
  have hfor : o.toAdmitted.For d := ⟨hobody.trans hbody.symm, hnow⟩
  have hexec := exec_settles hclaim hsettled (by rw [hokey]; exact hfree) hfits hacc
  refine ⟨settledOutcome env o.packet w.settlements.nextId,
    { o.row with id := w.settlements.nextId, settledAt := clock 1 }, ?_, rfl, ?_, ?_⟩
  · rw [processAlone_snd, exec_process, hfor.start, hexec]
  · rw [processAlone_fst, exec_process, hfor.start, hexec]
    rfl
  · have hrow : o.row = settlementOf env (withHops p hops)
        (request.instruction draws.packetId draws.instructionAt) := by
      rw [Opened.row, hpacket, hinstruction]
    rw [hrow]
    exact ⟨rfl, rfl, rfl, rfl, halike.id, hsender, hcount' ▸ hpacket ▸ rfl, halike.key⟩

/-- A packet is dated by the clock of its device. -/
theorem built_createdAt {prim : Primitives} :
    (builtPacket prim sealer node draws request).createdAt = draws.packetAt := by
  unfold builtPacket
  rfl

end Settles

/-- The configuration in which every packet of the device is signed. -/
noncomputable def deviceEnv : Env := Reference.env (fun _ => true) fun _ => Vector.replicate 32 0

theorem deviceEnv_loadsBack : LoadsBack deviceEnv.jsonLoads := Reference.loads_loadsBack

/-- The reference request, after one hop. -/
theorem honest_payment_settles_request :
    ∃ created body, createPacket deviceEnv.prim Reference.sealer Reference.web Reference.device
        Reference.draws (document Reference.request.toJson) = .created created ∧
      carried Reference.web [⟨Reference.payer, Reference.instant⟩] created.packet.modelDumpJson =
        .ok body ∧
      ∃ outcome row, (processAlone deviceEnv (⟨(), body, Reference.instant.micros⟩ : Delivery Unit)
          (fun _ => .served) (fun _ => Reference.instant.micros) World.empty).2 = .ok outcome ∧
        outcome.status = .settled ∧
        (processAlone deviceEnv (⟨(), body, Reference.instant.micros⟩ : Delivery Unit)
          (fun _ => .served) (fun _ => Reference.instant.micros) World.empty).1.settlements.rows =
            [row] ∧
        Requested deviceEnv.prim Reference.sealer Reference.device Reference.request created
          [⟨Reference.payer, Reference.instant⟩] row := by
  have hrequest := readBody_request Reference.web_readsBack Reference.request
  have hreads : deviceEnv.pydantic.ReadsBack := Reference.pydantic_readsBack
  have honest : Honest deviceEnv.prim Reference.sealer Reference.device.recipientPublicKey
      deviceEnv.settlementPrivateKey Reference.device.signingKey :=
    Reference.sealer_honest fun _ => Vector.replicate 32 0
  have hkey : deviceEnv.senderPublicKey =
      Reference.sealer.ed25519PublicKey Reference.device.signingKey := rfl
  obtain ⟨created, body, hcreate, hcarried, hsettles⟩ := honest_payment_settles Unit
    Reference.draws hreads Reference.web_readsBack deviceEnv_loadsBack honest hkey
    hrequest [⟨Reference.payer, Reference.instant⟩] (by decide)
  refine ⟨created, body, hcreate, hcarried, ?_⟩
  have hdated : created.packet.createdAt = Reference.instant := by
    have hcreated := hcreate.symm.trans (createPacket_ok hrequest)
    rw [SenderReply.created.inj hcreated]
    exact built_createdAt
  refine hsettles ⟨(), body, Reference.instant.micros⟩ (fun _ => Reference.instant.micros)
    World.empty rfl Reference.acceptsEx_claim Reference.acceptsEx_settled ?_ rfl
    (fun row hrow => nomatch hrow)
  unfold InWindow
  rw [hdated]
  have htolerance : deviceEnv.clockSkewToleranceSeconds = 300 := rfl
  have hwindow : deviceEnv.freshnessWindowSeconds = 86400 := rfl
  rw [htolerance, hwindow]
  dsimp only
  omega

end MeshSettle.Theorems.Honest
