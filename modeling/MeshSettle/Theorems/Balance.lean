import MeshSettle.Theorems.Agreement
import MeshSettle.Theorems.Confluence

/-!
# The books balance

A queue holds packets of the device, with any hops and any number of copies,
beside bodies that fail a check. In a run in which no consumer crashes and no
call to a store fails, once every message is acked, every order is paid, once:
what was settled is what was ordered, for any payer, payee or currency.
-/

namespace MeshSettle.Theorems.Balance

open Lib.Await Lib.Interleave Lib.Transition Confluence Agreement
open MeshSettle.Theorems.Honest (withHops withHops_alike built_verified built_bound built_opened)

/-- Every element of a list is related to one of another. -/
theorem exists_forall₂ {α β : Type} {R : α → β → Prop} {bs : List β} {as : List α}
    (h : ∀ a ∈ as, ∃ b ∈ bs, R a b) : ∃ cs, List.Forall₂ R as cs ∧ ∀ c ∈ cs, c ∈ bs := by
  induction as with
  | nil => exact ⟨[], .nil, fun c hc => nomatch hc⟩
  | cons a as ih =>
      obtain ⟨b, hb, hab⟩ := h a (List.mem_cons_self ..)
      obtain ⟨cs, hcs, hsub⟩ := ih fun a' ha' => h a' (List.mem_cons_of_mem _ ha')
      refine ⟨b :: cs, .cons hab hcs, fun c hc => ?_⟩
      rcases List.mem_cons.mp hc with rfl | hc
      · exact hb
      · exact hsub c hc

section Queue

variable {ι : Type} [DecidableEq ι] {env : Env} {device : Device} {orders : List Order}
  {messages : Nat → Option Message}

/-- A queue with a packet of each of the orders, after any hops. -/
structure Placed (env : Env) (device : Device) (orders : List Order)
    (messages : Nat → Option Message) : Prop where
  ready : ∀ m msg, messages m = some msg → msg.state = .ready
  distinct : (orders.map fun o => o.draws.packetId).Nodup
  queued : ∀ o ∈ orders, ∃ m hops,
    messages m = some ⟨(withHops (o.packet env.prim device) hops).modelDumpJson, .ready⟩

/-- The packet of an order has the id that was drawn for it. -/
theorem packet_id (prim : Primitives) (device : Device) (o : Order) :
    (o.packet prim device).packetId = o.draws.packetId := by
  unfold Order.packet builtPacket
  rfl

/-- The packet of an order is genuine. -/
theorem genuine_order (hreads : env.pydantic.ReadsBack) (hloads : LoadsBack env.jsonLoads)
    (honest : Honest env.prim device.sealer device.node.recipientPublicKey
      env.settlementPrivateKey device.node.signingKey)
    (hkey : env.senderPublicKey = device.sealer.ed25519PublicKey device.node.signingKey)
    (o : Order) : Genuine env (o.packet env.prim device) where
  verified := built_verified o.draws o.request honest hkey
  bound := built_bound env.prim device.sealer device.node o.draws o.request
  opens := ⟨_, built_opened o.draws o.request hreads hloads honest⟩

/-- A body with the packet, after any hops, is a copy of it. -/
theorem copy_withHops (hreads : env.pydantic.ReadsBack) {p : PaymentPacket}
    (hp : p.verify env.prim env.senderPublicKey = .ok ()) (hops : List HopRecord) :
    IsCopy env p (withHops p hops).modelDumpJson :=
  ⟨withHops p hops, ⟨(withHops p hops).modelValidateJson_modelDumpJson hreads, hp⟩, rfl⟩

/-- The orders are a workload of the consumers. -/
theorem Placed.workload (h : Placed env device orders messages)
    (hreads : env.pydantic.ReadsBack) (hloads : LoadsBack env.jsonLoads)
    (honest : Honest env.prim device.sealer device.node.recipientPublicKey
      env.settlementPrivateKey device.node.signingKey)
    (hkey : env.senderPublicKey = device.sealer.ed25519PublicKey device.node.signingKey) :
    Workload env (orders.map (Order.packet env.prim device)) messages where
  ready := h.ready
  genuine := by
    intro p hp
    obtain ⟨o, -, rfl⟩ := List.mem_map.mp hp
    exact genuine_order hreads hloads honest hkey o
  distinct := by
    refine List.pairwise_map.mpr ((List.pairwise_map.mp h.distinct).imp ?_)
    intro o o' hne
    rw [packet_id, packet_id]
    exact hne
  queued := by
    intro p hp
    obtain ⟨o, ho, rfl⟩ := List.mem_map.mp hp
    obtain ⟨m, hops, hm⟩ := h.queued o ho
    refine ⟨m, _, hm, ?_⟩
    dsimp only
    exact copy_withHops hreads (genuine_order hreads hloads honest hkey o).verified hops

/-- Every state of an uneventful run is in order. -/
theorem reach_ordered {packets : List PaymentPacket} (hload : Workload env packets messages)
    (hsha : ∀ p ∈ packets, CollisionFree env (Broker.loaded messages : ConsumerPhases ι env) p)
    {s : ConsumerPhases ι env}
    (h : Reach (ConsumerPhases.step env) (fun l s => Uneventful env packets l (s.map Phase.prog))
      (Broker.loaded messages) s) : Ordered packets messages s := by
  refine h.invariant (P := Ordered packets messages) ?_ ?_
  · -- before the first delivery no call has tried a claim
    exact
      { loaded := fun m body state hm => ⟨state, hm⟩
        kept := fun m body state hm => ⟨state, hm⟩
        judged := fun c call hc => nomatch hc
        attended := by
          rintro p - (⟨c, call, hc, -⟩ | hmarker)
          · cases hc
          · exact absurd rfl hmarker }
  · intro u l u' hu hordered hok hstep
    exact hordered.step hload hsha (ConsumerPhases.holding hload.ready hu)
      (ConsumerPhases.reach_core hu) hok (ConsumerPhases.step_cases hstep)

/-- A row of a packet of the device pays its order. -/
theorem pays_ownRow (hreads : env.pydantic.ReadsBack) (hloads : LoadsBack env.jsonLoads)
    (honest : Honest env.prim device.sealer device.node.recipientPublicKey
      env.settlementPrivateKey device.node.signingKey) {o : Order} {row : SettlementRow}
    (h : ownRow env (o.packet env.prim device) = some row.toSettlement.core) :
    Pays env device row o := by
  have hopened : (o.packet env.prim device).opened env = .ok o.instruction :=
    built_opened o.draws o.request hreads hloads honest
  unfold ownRow at h
  rw [hopened] at h
  exact (Option.some.inj h).symm

/-- Orders in another order come to as much. -/
theorem orderedTotal_perm (select : String → String → String → Bool) {paid : List Order}
    (h : paid.Perm orders) : orderedTotal select paid = orderedTotal select orders :=
  ((h.filter _).map _).sum_eq

/-- When every message of the queue is acked, the rows pay the orders, each
once. -/
theorem orders_paid (hreads : env.pydantic.ReadsBack) (hloads : LoadsBack env.jsonLoads)
    (honest : Honest env.prim device.sealer device.node.recipientPublicKey
      env.settlementPrivateKey device.node.signingKey)
    (hkey : env.senderPublicKey = device.sealer.ed25519PublicKey device.node.signingKey)
    (hplaced : Placed env device orders messages)
    (hsha : ∀ o ∈ orders,
      CollisionFree env (Broker.loaded messages : Consumers ι) (o.packet env.prim device))
    {s : Consumers ι}
    (h : Reach (Consumers.step env)
      (Uneventful env (orders.map (Order.packet env.prim device))) (Broker.loaded messages) s)
    (hacked : ∀ m msg, s.messages m = some msg → msg.state = .acked) :
    ∃ paid : List Order, paid.Perm orders ∧
      List.Forall₂ (Pays env device) s.core.store.settlements.rows paid := by
  obtain ⟨s, rfl, hreach⟩ := Consumers.reach_phases h
  have hload := hplaced.workload hreads hloads honest hkey
  have hfree : ∀ p ∈ orders.map (Order.packet env.prim device),
      CollisionFree env (Broker.loaded messages : ConsumerPhases ι env) p := by
    intro p hp
    obtain ⟨o, ho, rfl⟩ := List.mem_map.mp hp
    exact hsha o ho
  have hs : Holding s := ConsumerPhases.holding hload.ready hreach
  have hr := ConsumerPhases.reach_core hreach
  have hordered : Ordered (orders.map (Order.packet env.prim device)) messages s :=
    reach_ordered hload hfree hreach
  have hrows : ∀ row ∈ s.core.store.settlements.rows, ∃ o ∈ orders,
      row.idempotencyKey = (o.packet env.prim device).idempotencyKey env.prim ∧
        Pays env device row o := by
    intro row hrow
    obtain ⟨q, hq, hqkey, -, hown⟩ := hordered.row hr hrow
    obtain ⟨o, ho, rfl⟩ := List.mem_map.mp hq
    exact ⟨o, ho, hqkey, pays_ownRow hreads hloads honest hown⟩
  obtain ⟨paid, hpaid, hsub⟩ : ∃ paid,
      List.Forall₂ (Pays env device) s.core.store.settlements.rows paid ∧
        ∀ o ∈ paid, o ∈ orders := by
    apply exists_forall₂
    intro row hrow
    obtain ⟨o, ho, -, hpays⟩ := hrows row hrow
    exact ⟨o, ho, hpays⟩
  have hids := packetIds_paid hpaid
  have hnodup : paid.Nodup := by
    have huq := s.core.store.settlements.uqPacketId
    rw [hids] at huq
    exact List.Nodup.of_map _ huq
  have hperm : paid.Perm orders := by
    refine (List.perm_ext_iff_of_nodup hnodup (List.Nodup.of_map _ hplaced.distinct)).mpr ?_
    intro o
    constructor
    · exact hsub o
    · intro ho
      -- the packet of the order has a row, whose packet id is nobody else's
      obtain ⟨row, hrow, hrowkey⟩ := hordered.settled hload hs hacked (List.mem_map_of_mem ho)
      obtain ⟨o', ho', hkey', hpays⟩ := hrows row hrow
      have hpacket : o'.packet env.prim device = o.packet env.prim device :=
        hload.of_key (hfree _ (List.mem_map_of_mem ho)) (List.mem_map_of_mem ho)
          (List.mem_map_of_mem ho') (hkey'.symm.trans hrowkey)
      have hid : row.packetId = o.draws.packetId :=
        by
        rw [hpays.packetId, ← packet_id env.prim device o', hpacket, packet_id]
      have hmem : o.draws.packetId ∈ paid.map fun o => o.draws.packetId := by
        rw [← hids, ← hid]
        exact List.mem_map_of_mem hrow
      obtain ⟨o'', ho'', hsame⟩ := List.mem_map.mp hmem
      have heq : o'' = o := List.inj_on_of_nodup_map hplaced.distinct (hsub _ ho'') ho hsame
      exact heq ▸ ho''
  exact ⟨paid, hperm, hpaid⟩

end Queue

/-! ## The reference request -/

section Reference

open MeshSettle.Theorems.Honest (deviceEnv deviceEnv_loadsBack)
open MeshSettle.Reference (payerDevice)

/-- The packet of the reference request. -/
noncomputable def packet : PaymentPacket := order.packet deviceEnv.prim payerDevice

/-- A queue with one message. -/
def single (body : Bytes) : Nat → Option Message :=
  Function.update (fun _ => none) 0 (some ⟨body, .ready⟩)

theorem single_cases {body : Bytes} {m : Nat} {msg : Message} (h : single body m = some msg) :
    m = 0 ∧ msg.body = body ∧ msg.state = .ready := by
  unfold single at h
  rw [Function.update_apply] at h
  split at h
  · next hm =>
      cases h
      exact ⟨hm, rfl, rfl⟩
  · cases h

/-- The packet is the only one on the queue. -/
theorem collisionFree_single {env : Env} (hreads : env.pydantic.ReadsBack) (p : PaymentPacket)
    (hops : List HopRecord) :
    CollisionFree env (Broker.loaded (single (withHops p hops).modelDumpJson) : Consumers Unit)
      p := by
  rintro q ⟨m, body, state, hm, hparsed, -⟩ -
  obtain ⟨-, hbody, -⟩ := single_cases hm
  dsimp only at hbody
  rw [hbody] at hparsed
  have hread := (withHops p hops).modelValidateJson_modelDumpJson hreads
  rw [Except.ok.inj (hparsed.symm.trans hread)]
  rfl

theorem genuine_packet : Genuine deviceEnv packet :=
  genuine_order Reference.pydantic_readsBack deviceEnv_loadsBack honest_device rfl order

theorem placed_order : Placed deviceEnv payerDevice [order] (single packet.modelDumpJson) where
  ready := by
    intro m msg hm
    exact (single_cases hm).2.2
  distinct := List.nodup_singleton _
  queued := by
    intro o ho
    rw [List.mem_singleton.mp ho]
    refine ⟨0, [], ?_⟩
    rw [Honest.withHops_nil]
    exact Function.update_self ..

/-- A queue with the packet behind some hops runs to its end. -/
theorem drained_packet (hops : List HopRecord) (hhops : hops.length < 2 ^ 31) :
    ∃ s : Consumers Unit,
      Reach (Consumers.step deviceEnv)
        (Uneventful deviceEnv ([order].map (Order.packet deviceEnv.prim payerDevice)))
        (Broker.loaded (single (withHops packet hops).modelDumpJson)) s ∧
      ∀ m msg, s.messages m = some msg → msg.state = .acked := by
  have hreads : deviceEnv.pydantic.ReadsBack := Reference.pydantic_readsBack
  have hdated : packet.createdAt = Reference.instant := Honest.built_createdAt
  have hin : InWindow deviceEnv packet Reference.instant.micros := by
    have htolerance : deviceEnv.clockSkewToleranceSeconds = 300 := rfl
    have hwindow : deviceEnv.freshnessWindowSeconds = 86400 := rfl
    unfold InWindow
    rw [hdated, htolerance, hwindow]
    omega
  have hcopy : IsCopy deviceEnv packet (withHops packet hops).modelDumpJson :=
    copy_withHops hreads genuine_packet.verified hops
  have hjudged : Judged deviceEnv [packet] (withHops packet hops).modelDumpJson
      Reference.instant.micros :=
    { fresh := by
        intro p hp _
        rw [List.mem_singleton.mp hp]
        exact staleness_none.mpr hin
      known := .inl ⟨packet, List.mem_singleton_self _, hcopy⟩ }
  have hopens : ∃ i, (withHops packet hops).opened deviceEnv = .ok i := by
    obtain ⟨i, hi⟩ := genuine_packet.opens
    exact ⟨i, Honest.withHops_alike.opened.trans hi⟩
  refine exists_drained (n := 1) () Reference.acceptsEx_claim Reference.acceptsEx_settled ?_ ?_ ?_
    ?_
  · intro m msg hm
    exact (single_cases hm).2.2
  · intro m hm
    exact Function.update_of_ne (by omega) _ _
  · intro m msg hm
    rw [(single_cases hm).2.1]
    exact hjudged
  · intro m msg hm
    rw [(single_cases hm).2.1]
    exact ⟨_, (withHops packet hops).modelValidateJson_modelDumpJson hreads, fun _ => hopens, hhops⟩

end Reference

end MeshSettle.Theorems.Balance
