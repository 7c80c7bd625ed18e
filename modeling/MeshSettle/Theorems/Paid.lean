import MeshSettle.Settlement.Api
import MeshSettle.Theorems.Balance
import MeshSettle.Theorems.Routing
import MeshSettle.Theorems.Uplink

/-!
# What the payer is told is what is paid

From the request on the device to the row in the table. Any number of requests
is sent, each with its own fortune on the way, and what has been published of
them is on the queue of the consumers. Once the queue is drained, a request that
was answered with 202 is paid, and found under the key that the reply reports;
one that failed without a lost reply is not; and the table pays nothing else.
-/

namespace MeshSettle.Theorems.Paid

open Lib.Await Lib.Chain Lib.Interleave Lib.Transition Confluence Agreement Balance Uplink

/-! ## Lists -/

section Lists

variable {α β γ : Type}

/-- Every element of the second list is related to one of the first. -/
theorem exists_related {R : α → β → Prop} {as : List α} {bs : List β} (h : List.Forall₂ R as bs) :
    ∀ b ∈ bs, ∃ a ∈ as, R a b := by
  induction h with
  | nil =>
      intro b hb
      cases hb
  | @cons a b as bs hab _ ih =>
      intro b' hb'
      rcases List.mem_cons.mp hb' with rfl | hb'
      · exact ⟨a, List.mem_cons_self, hab⟩
      · obtain ⟨a', ha', hab'⟩ := ih b' hb'
        exact ⟨a', List.mem_cons_of_mem _ ha', hab'⟩

/-- What is selected is a part of what there is. -/
theorem map_filterMap_sublist {f : α → Option β} {g : β → γ} {h : α → γ}
    (hf : ∀ a b, f a = some b → g b = h a) (as : List α) :
    ((as.filterMap f).map g).Sublist (as.map h) := by
  induction as with
  | nil => exact .slnil
  | cons a as ih =>
      rw [List.map_cons]
      cases ha : f a with
      | none =>
          rw [List.filterMap_cons_none ha]
          exact ih.cons _
      | some b =>
          rw [List.filterMap_cons_some ha, List.map_cons, hf a b ha]
          exact ih.cons_cons _

end Lists

/-! ## Requests and the queue -/

/-- A request that is sent to the device: what the device draws for it, what
happens on the way, and how it ends. -/
structure Submission (κ : Type) where
  rawBody : Bytes
  draws : Draws
  entry : κ
  journey : Journey
  fate : Fate Unserved
  reply : SenderReply
  published : List Publication

section Batch

variable {κ : Type}

/-- The submission ends so. -/
def Submission.Ends (net : Network κ) (device : Device)
    (jsonLoads : Bytes → Except LoadsFailure Lib.Schema.Json) (plain : Nat → Bytes)
    (x : Submission κ) : Prop :=
  ∃ fuel, net.submit device jsonLoads plain x.journey x.fate fuel x.entry x.draws x.rawBody =
    some (x.reply, x.published)

/-- The order that the device makes of a valid request. -/
def Submission.order (device : Device) (x : Submission κ) : Option Order :=
  match readBody device.web TransactionRequest.validate x.rawBody with
  | .error _ => none
  | .ok request => some ⟨request, x.draws⟩

/-- What has been published waits for the consumers, perhaps among other
bodies. -/
structure Queued (batch : List (Submission κ)) (messages : ℕ → Option Message) : Prop where
  ready : ∀ m msg, messages m = some msg → msg.state = .ready
  published : ∀ x ∈ batch, ∀ pub ∈ x.published, ∃ m, messages m = some ⟨pub.body, .ready⟩

/-- The orders of which something has been published. -/
def publishedOrders (device : Device) (batch : List (Submission κ)) : List Order :=
  batch.filterMap fun x => if x.published.isEmpty then none else x.order device

/-- The payer has been told the truth about the table. -/
structure Told (device : Device) (env : Env) {ι : Type} (w : World ι) (x : Submission κ) :
    Prop where
  /-- On a 202 the payment is found under the key of the reply. -/
  paid : x.reply.httpStatus = 202 → ∃ r o row, x.reply = .submitted r ∧ x.order device = some o ∧
    Api.readSettlement w true r.idempotencyKey = .settlement (.modelValidate row) ∧
    row ∈ w.settlements.rows ∧ Pays env device row o
  /-- On anything else there is none, unless a reply was lost. -/
  unpaid : x.reply.httpStatus ≠ 202 → Lossless x.fate x.journey → ∀ o, x.order device = some o →
    ∀ row ∈ w.settlements.rows, row.packetId ≠ o.draws.packetId

variable {net : Network κ} {device : Device} {plain : Nat → Bytes}
  {jsonLoads : Bytes → Except LoadsFailure Lib.Schema.Json} {x : Submission κ}
  {batch : List (Submission κ)} {o : Order} {messages : ℕ → Option Message}

theorem order_draws (h : x.order device = some o) : o.draws = x.draws := by
  unfold Submission.order at h
  split at h
  · cases h
  · cases h
    rfl

/-- A valid request is submitted as its order. -/
theorem Submission.Ends.submitted (hreads : net.web.pydantic.ReadsBack)
    (hloads : LoadsBack jsonLoads) (h : x.Ends net device jsonLoads plain)
    (ho : x.order device = some o) :
    Submitted net.prim (o.packet net.prim device) (Lossless x.fate x.journey) x.reply
      x.published := by
  obtain ⟨fuel, hsubmit⟩ := h
  unfold Submission.order at ho
  split at ho
  · cases ho
  · next request hrequest =>
      cases ho
      exact submitted_of_submit hreads hloads hrequest hsubmit

/-- A request that is no order is not answered with 202. -/
theorem Submission.Ends.ordered (h : x.Ends net device jsonLoads plain)
    (haccepted : x.reply.httpStatus = 202) : ∃ o, x.order device = some o := by
  unfold Submission.order
  split
  · next reply hread =>
      obtain ⟨fuel, hsubmit⟩ := h
      unfold Network.submit at hsubmit
      rw [hread] at hsubmit
      have hreply : SenderReply.failed reply = x.reply :=
        (Prod.mk.inj (Option.some.inj hsubmit)).1
      have hfails := readBody_error hread
      rw [← hreply] at haccepted
      rw [show reply.httpStatus = 202 from haccepted] at hfails
      cases hfails
  · exact ⟨_, rfl⟩

theorem mem_publishedOrders : o ∈ publishedOrders device batch ↔
    ∃ x ∈ batch, x.published ≠ [] ∧ x.order device = some o := by
  unfold publishedOrders
  rw [List.mem_filterMap]
  apply exists_congr
  intro x
  apply and_congr_right
  intro _
  cases hpub : x.published with
  | nil => simp
  | cons pub pubs => simp

/-- The queue holds a packet of each order of which something was published. -/
theorem placed {env : Env} (hprim : net.prim = env.prim) (hreads : net.web.pydantic.ReadsBack)
    (hloads : LoadsBack jsonLoads) (hended : ∀ x ∈ batch, x.Ends net device jsonLoads plain)
    (hdistinct : (batch.map fun x => x.draws.packetId).Nodup) (hqueued : Queued batch messages) :
    Placed env device (publishedOrders device batch) messages where
  ready := hqueued.ready
  distinct := by
    refine (map_filterMap_sublist ?_ batch).nodup hdistinct
    intro x o ho
    split at ho
    · cases ho
    · rw [order_draws ho]
  queued := by
    intro o ho
    obtain ⟨x, hx, hpublished, horder⟩ := mem_publishedOrders.mp ho
    obtain ⟨pub, hpub⟩ := List.exists_mem_of_ne_nil _ hpublished
    have hsubmitted := (hended x hx).submitted hreads hloads horder
    obtain ⟨-, hops, hbody⟩ := hsubmitted.carried pub hpub
    obtain ⟨m, hm⟩ := hqueued.published x hx pub hpub
    rw [hbody, hprim] at hm
    exact ⟨m, hops, hm⟩

end Batch

/-! ## Once the queue is drained -/

section Drained

variable {κ ι : Type} [DecidableEq ι] {device : Device} {env : Env}
  {plain : Nat → Bytes} {jsonLoads : Bytes → Except LoadsFailure Lib.Schema.Json}
  {batch : List (Submission κ)} {messages : ℕ → Option Message}

end Drained

/-! ## The reference request -/

section Reference

open MeshSettle.Theorems.Honest (withHops deviceEnv deviceEnv_loadsBack)
open MeshSettle.Reference (payerDevice)

theorem relay_nodeId : matchesIdentifier Reference.relayConfig.nodeId = true := by decide

/-- The reference mesh, in which every packet of the device is signed. -/
noncomputable def deviceRing : Routing.Ring Unit where
  prim := deviceEnv.prim
  web := Reference.web
  resolve := Reference.route
  relays _ := ⟨Reference.relayConfig, deviceEnv.senderPublicKey⟩
  bridge := ⟨deviceEnv.senderPublicKey, "meshsettle.settlements"⟩
  next _ := ()
  target := 2
  limit := 5
  target_eq _ := rfl
  limit_eq _ := rfl
  key_eq _ := rfl
  nodeId_ok _ := relay_nodeId
  relayUrl _ := Reference.route_relay
  bridgeUrl _ := Reference.route_bridge

/-- A packet without hops goes around a ring to the bridge. -/
theorem post_ring {κ : Type} (ring : Routing.Ring κ) (hreads : ring.web.pydantic.ReadsBack)
    {journey : Journey} (hsmooth : Routing.Journey.Smooth journey) (entry : κ) {rawBody : Bytes}
    {p : PaymentPacket} (hread : readPacket ring.web rawBody = .ok p) (hnew : p.hops = [])
    (hverify : p.verify ring.prim ring.bridge.senderPublicKey = .ok ())
    (htarget : 0 < ring.target) (hlimit : ring.target ≤ ring.limit) :
    ∃ fuel reply hops visited, hops.length = ring.target ∧
      ring.post journey fuel entry rawBody = some ⟨reply,
        [⟨(withHops p hops).modelDumpJson, p.idempotencyKey ring.prim⟩], visited⟩ := by
  obtain ⟨n, hn⟩ : ∃ n, ring.target = n + 1 := ⟨ring.target - 1, by omega⟩
  have hcount : p.hopCount = 0 := congrArg List.length hnew
  obtain ⟨reply, -, hcall⟩ := Routing.travels_to_bridge journey entry hreads hread hverify
    hsmooth (n := n) (k := 0) (by omega) (by omega)
  obtain ⟨hsigned, hsignature⟩ : (ring.packetAt journey entry p (0 + n + 1)).signingBytes =
      p.signingBytes ∧ (ring.packetAt journey entry p (0 + n + 1)).signature = p.signature :=
    Routing.packetAt_signed _
  rw [eq_withHops hsigned hsignature (Routing.packetAt_hops (0 + n + 1))] at hcall
  refine ⟨_, reply, _, _, ?_, hcall⟩
  rw [List.length_map, List.length_range, hn, Nat.zero_add]

/-- In a ring that works a valid request is answered with 202, and its packet is
published. -/
theorem smooth_submission {κ : Type} (ring : Routing.Ring κ) (device : Device)
    (hreads : ring.web.pydantic.ReadsBack)
    {jsonLoads : Bytes → Except LoadsFailure Lib.Schema.Json} (hloads : LoadsBack jsonLoads)
    (plain : Nat → Bytes) {journey : Journey} (hsmooth : Routing.Journey.Smooth journey)
    (entry : κ) (draws : Draws) {rawBody : Bytes} {request : TransactionRequest}
    (hrequest : readBody device.web TransactionRequest.validate rawBody = .ok request)
    (hverify : (Order.packet ring.prim device ⟨request, draws⟩).verify ring.prim
      ring.bridge.senderPublicKey = .ok ())
    (htarget : 0 < ring.target) (hlimit : ring.target ≤ ring.limit) :
    ∃ x : Submission κ, x.Ends ring.toNetwork device jsonLoads plain ∧
      x.order device = some ⟨request, draws⟩ ∧ x.reply.httpStatus = 202 ∧
      ∃ hops key, hops.length = ring.target ∧
        x.published = [⟨(withHops (Order.packet ring.prim device ⟨request, draws⟩)
          hops).modelDumpJson, key⟩] := by
  obtain ⟨fuel, reply, hops, visited, hlength, hpost⟩ := post_ring ring hreads hsmooth entry
    (readPacket_modelDumpJson hreads (Order.packet ring.prim device ⟨request, draws⟩)) rfl
    hverify
    htarget hlimit
  have hsubmit : ∃ reply, ring.toNetwork.submit device jsonLoads plain journey .delivered fuel
      entry draws rawBody = some (reply,
        [⟨(withHops (Order.packet ring.prim device ⟨request, draws⟩) hops).modelDumpJson,
          (Order.packet ring.prim device ⟨request, draws⟩).idempotencyKey ring.prim⟩]) := by
    unfold Network.submit
    rw [hrequest]
    dsimp only
    rw [hpost]
    exact ⟨_, rfl⟩
  obtain ⟨answer, hsubmit⟩ := hsubmit
  have hsubmitted := submitted_of_submit hreads hloads hrequest hsubmit
  have hlossless : Lossless .delivered journey := by
    constructor
    · intro h
      cases h
    · intro i h
      rw [hsmooth.delivered i] at h
      cases h
  refine ⟨⟨rawBody, draws, entry, journey, .delivered, answer, _⟩, ⟨fuel, hsubmit⟩, ?_, ?_, hops,
    _, hlength, rfl⟩
  · unfold Submission.order
    dsimp only
    rw [hrequest]
  · rcases hsubmitted.answered with h | h
    · exact h
    · exact absurd (hsubmitted.refused hlossless h) (List.cons_ne_nil _ _)

/-- A queue with the one message that has been published. -/
theorem queued_single {κ : Type} {x : Submission κ} {body : Bytes} {key : String}
    (h : x.published = [⟨body, key⟩]) : Queued [x] (single body) where
  ready := by
    intro m msg hm
    exact (single_cases hm).2.2
  published := by
    intro y hy pub hpub
    rw [List.mem_singleton.mp hy, h, List.mem_singleton] at hpub
    rw [hpub]
    exact ⟨0, Function.update_self ..⟩

theorem publishedOrders_single {κ : Type} {device : Device} {x : Submission κ} {o : Order}
    (hpublished : x.published ≠ []) (ho : x.order device = some o) :
    publishedOrders device [x] = [o] := by
  unfold publishedOrders
  cases hpub : x.published with
  | nil => exact absurd hpub hpublished
  | cons pub pubs => simp [hpub, ho]

end Reference

end MeshSettle.Theorems.Paid
