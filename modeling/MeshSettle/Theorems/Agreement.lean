import MeshSettle.Lib.Ledger
import MeshSettle.Lib.Simulation
import MeshSettle.Mesh.Deployment
import MeshSettle.Settlement.Serving
import MeshSettle.Theorems.Honest

/-!
# What is settled is what was ordered

The whole system refines a ledger that pays every order at most once: the
settlements table is the list of its payments. Any number of consumers may
crash, Redis may be wiped, replies may be lost, and anything may be published
on the queue, as long as nobody else signs with the key of the device. So no
payer is charged, and no payee credited, with more than was ordered.
-/

namespace MeshSettle.Theorems.Agreement

open Lib Lib.Await Lib.Interleave Lib.Transition

section Steps

variable {ι : Type} [DecidableEq ι] {env : Env}

/-- A step commits one row at most, the row of an opened packet. -/
theorem rows_one {l : ProcessorLabel ι} {s s' : Phases ι env} (h : PhaseStep s l s') :
    s'.store.settlements.rows = s.store.settlements.rows ∨
      ∃ c d log row, ∃ o : Opened env, s.calls c = some ⟨d, .running (.inserting o), log⟩ ∧
        row.toSettlement = o.row ∧
        s'.store.settlements.rows = s.store.settlements.rows ++ [row] := by
  cases h with
  | start => exact .inl (by simp only [Phases.enter, World.after_settlements])
  | crash => exact .inl rfl
  | @disturb e => cases e <;> exact .inl rfl
  | io hc hadv =>
      simp only [Phases.enter, World.after_settlements]
      rcases hadv.rows with hsame | ⟨o, hacc, rfl, rfl⟩
      · exact .inl (by rw [hsame])
      · exact .inr ⟨_, _, _, _, o, hc, rfl, rfl⟩

/-- What is on the queue after a step was there before it, or is published by
it. -/
theorem published_before {l : BrokerLabel ι} {s s' : ConsumerPhases ι env}
    (h : BrokerStep s l s') {q : PaymentPacket} (hq : Published env s' q) :
    Published env s q ∨ ∃ m body, l = .publish m body ∧ SignedBody env body q := by
  obtain ⟨m, body, state, hm, hsigned⟩ := hq
  -- a message that is replaced keeps its body
  have hput : ∀ {s0 : ConsumerPhases ι env} {m' body' state' old}, s0.messages = s.messages →
      s.messages m' = some ⟨body', old⟩ → (s0.put m' body' state').messages m = some ⟨body, state⟩ →
      Published env s q := by
    intro s0 m' body' state' old hsame hold hnew
    rw [Broker.put_messages] at hnew
    split at hnew
    · cases hnew
      exact ⟨m', body, old, hold, hsigned⟩
    · exact ⟨m, body, state, hsame ▸ hnew, hsigned⟩
  cases h with
  | @publish m' body' _ =>
      rw [Broker.put_messages] at hm
      split at hm
      · cases hm
        exact .inr ⟨m', body, rfl, hsigned⟩
      · exact .inl ⟨m, body, state, hm, hsigned⟩
  | deliver hready _ => exact .inl (hput rfl hready hm)
  | io _ => exact .inl ⟨m, body, state, hm, hsigned⟩
  | settle hheld _ _ => exact .inl (hput rfl hheld hm)
  | @crash i core _ =>
      obtain ⟨msg, hold, hmsg⟩ := Option.map_eq_some_iff.mp hm
      have hbody : msg.body = body := by
        rcases returned_cases s.core i msg with ⟨hret, -⟩ | ⟨c, -, -, hret⟩
        · rw [hret] at hmsg
          rw [hmsg]
        · rw [hret] at hmsg
          exact congrArg Message.body hmsg
      exact .inl ⟨m, msg.body, msg.state, hold, hbody ▸ hsigned⟩
  | disturb _ => exact .inl ⟨m, body, state, hm, hsigned⟩

end Steps

/-! ## Every payment was ordered -/

section Refinement

variable {ι : Type} [DecidableEq ι] {env : Env} {device : Device}

/-- The packets of the device that are on the queue were made by it. -/
theorem published_ordered {s : PaymentPhases ι env}
    (h : Reach (PaymentPhases.step env device) (Unforged env device) Deployment.init s) :
    ∀ q, Published env s.broker q →
      ∃ o ∈ s.orders, q.signingBytes = (o.packet env.prim device).signingBytes := by
  refine h.invariant (P := fun s : PaymentPhases ι env => ∀ q, Published env s.broker q →
    ∃ o ∈ s.orders, q.signingBytes = (o.packet env.prim device).signingBytes) ?_ ?_
  · rintro q ⟨m, body, state, hm, -⟩
    cases hm
  · intro s l s' _ ih hunforged hstep q hq
    cases PaymentPhases.step_cases hstep with
    | refused => exact ih q hq
    | created hread =>
        obtain ⟨o, ho, hsame⟩ := ih q hq
        exact ⟨o, List.mem_append_left _ ho, hsame⟩
    | queue hbroker =>
        rcases published_before (ConsumerPhases.step_cases hbroker) hq with
          hold | ⟨m, body, rfl, hs⟩
        · exact ih q hold
        · exact hunforged q hs

/-- An opened packet with the signed region of an order pays the order. -/
theorem pays_of_opened (hreads : env.pydantic.ReadsBack) (hloads : LoadsBack env.jsonLoads)
    (honest : Honest env.prim device.sealer device.node.recipientPublicKey
      env.settlementPrivateKey device.node.signingKey) {o : Opened env} {order : Order}
    (hsame : o.packet.signingBytes = (order.packet env.prim device).signingBytes)
    {row : SettlementRow} (hrow : row.toSettlement = o.row) : Pays env device row order := by
  have halike := alike_of_signingBytes env hsame
  have hopened : (order.packet env.prim device).opened env = .ok order.instruction :=
    Honest.built_opened order.draws order.request hreads hloads honest
  have hinstruction : o.instruction = order.instruction :=
    Except.ok.inj (o.opened.symm.trans (halike.opened.trans hopened))
  unfold Pays
  rw [hrow, Opened.row, hinstruction]
  exact settlementOf_alike halike order.instruction

/-- The table is the list of the ledger's payments. -/
structure Refines (env : Env) (device : Device) {P : Type} (s : Deployment ι P)
    (t : Ledger Order) : Prop where
  orders : t.ordered = s.orders
  rows : List.Forall₂ (Pays env device) s.broker.core.store.settlements.rows t.paid

/-- Rows have the packet ids of the orders that they pay. -/
theorem packetIds_paid {rows : List SettlementRow} {paid : List Order}
    (h : List.Forall₂ (Pays env device) rows paid) :
    rows.map (fun row => row.packetId) = paid.map fun o => o.draws.packetId := by
  induction h with
  | nil => rfl
  | cons hpays _ ih => rw [List.map_cons, List.map_cons, hpays.packetId, ih]

/-- **A step of the system** is a step of the ledger, or none. -/
theorem Refines.step (hreads : env.pydantic.ReadsBack) (hloads : LoadsBack env.jsonLoads)
    (honest : Honest env.prim device.sealer device.node.recipientPublicKey
      env.settlementPrivateKey device.node.signingKey) {s s' : PaymentPhases ι env}
    {l : DeploymentLabel ι} {t : Ledger Order}
    (hr : Reach (PaymentPhases.step env device) (Unforged env device) Deployment.init s)
    (hstep : PaymentPhases.step env device l s = some s') (h : Refines env device s t) :
    Refines env device s' t ∨
      ∃ k t', Ledger.step (fun o : Order => o.draws.packetId) k t = some t' ∧
        Refines env device s' t' := by
  cases PaymentPhases.step_cases hstep with
  | refused => exact .inl h
  | @created rawBody draws request hread =>
      refine .inr ⟨.order ⟨request, draws⟩, _, Ledger.step_order _ _ _, ?_, h.rows⟩
      rw [h.orders]
  | @queue l broker hbroker =>
      have hbs := ConsumerPhases.step_cases hbroker
      rcases hbs.core with hcore | ⟨l', hcore⟩
      · exact .inl ⟨h.orders, by rw [hcore]; exact h.rows⟩
      · rcases rows_one (Phases.step_cases hcore) with hsame | ⟨c, d, log, row, o, hc, hrow, happ⟩
        · exact .inl ⟨h.orders, by rw [hsame]; exact h.rows⟩
        · -- the packet that is inserted is on the queue, so it was ordered
          have hbr := PaymentPhases.reach_broker hr
          have hs := ConsumerPhases.holding empty_ready hbr
          have hfor : o.toAdmitted.For d :=
            Phases.coherent (ConsumerPhases.reach_core hbr) c _ hc
          obtain ⟨order, horder, hsigned⟩ := published_ordered hr _ (hs.published hc hfor)
          have hpays := pays_of_opened hreads hloads honest hsigned hrow
          -- the table has no other row with its packet id
          have hfresh : order.draws.packetId ∉ t.paid.map fun o => o.draws.packetId := by
            rw [← packetIds_paid h.rows, ← hpays.packetId]
            have huq := broker.core.store.settlements.uqPacketId
            rw [happ, List.map_append, List.nodup_append] at huq
            intro hmem
            exact huq.2.2 _ hmem _ (List.mem_singleton_self _) rfl
          have hpay :=
            Ledger.step_pay (fun o : Order => o.draws.packetId) (h.orders ▸ horder) hfresh
          refine .inr ⟨.pay order, _, hpay, h.orders, ?_⟩
          dsimp only
          rw [happ]
          exact List.rel_append h.rows (.cons hpays .nil)

theorem PaymentPhases.refines (hreads : env.pydantic.ReadsBack) (hloads : LoadsBack env.jsonLoads)
    (honest : Honest env.prim device.sealer device.node.recipientPublicKey
      env.settlementPrivateKey device.node.signingKey) {s : PaymentPhases ι env}
    (h : Reach (PaymentPhases.step env device) (Unforged env device) Deployment.init s) :
    ∃ t, Reach (Ledger.step fun o : Order => o.draws.packetId) free Ledger.empty t ∧
      Refines env device s t :=
  h.refines (fun s t => Refines env device s t) ⟨rfl, .nil⟩
    fun _ _ _ _ hreach _ hstep hR => hR.step hreads hloads honest hreach hstep

/-- **The system refines the ledger.** Whatever fails and whatever is published,
the settlements table is the list of payments of a run of the ledger that pays
every order at most once. -/
theorem settlements_refine_ledger (hreads : env.pydantic.ReadsBack)
    (hloads : LoadsBack env.jsonLoads)
    (honest : Honest env.prim device.sealer device.node.recipientPublicKey
      env.settlementPrivateKey device.node.signingKey) {s : Payments ι}
    (h : Reach (Payments.step env device) (Unforged env device) Deployment.init s) :
    ∃ t, Reach (Ledger.step fun o : Order => o.draws.packetId) free Ledger.empty t ∧
      Refines env device s t := by
  obtain ⟨s, rfl, hr⟩ := Payments.reach_unforged h
  obtain ⟨t, ht, href⟩ := PaymentPhases.refines hreads hloads honest hr
  exact ⟨t, ht, href.orders, href.rows⟩

/-! ## Money -/

/-- What was settled for the selected parties and currencies, in minor units. -/
def settledTotal (select : String → String → String → Bool) (rows : List SettlementRow) : Int :=
  ((rows.filter fun row => select row.payerId row.payeeId row.currency).map fun row =>
    row.amountMinor).sum

/-- What was ordered for them. -/
def orderedTotal (select : String → String → String → Bool) (orders : List Order) : Int :=
  ((orders.filter fun o => select o.request.payerId.1 o.request.payeeId.1 o.request.currency.1).map
    fun o => o.request.amountMinor.1).sum

/-- Rows come to what the orders come to that they pay. -/
theorem settledTotal_paid (select : String → String → String → Bool) {rows : List SettlementRow}
    {paid : List Order} (h : List.Forall₂ (Pays env device) rows paid) :
    settledTotal select rows = orderedTotal select paid := by
  unfold settledTotal orderedTotal
  induction h with
  | nil => rfl
  | @cons row o rows paid hpays _ ih =>
      rw [List.filter_cons, List.filter_cons, hpays.payer, hpays.payee, hpays.currency]
      split
      · rw [List.map_cons, List.map_cons, List.sum_cons, List.sum_cons, hpays.amount, ih]
      · exact ih

/-- **No money is made.** For any selection of payers, payees and currencies,
what is settled comes to no more than what was ordered. -/
theorem settled_within_orders (hreads : env.pydantic.ReadsBack) (hloads : LoadsBack env.jsonLoads)
    (honest : Honest env.prim device.sealer device.node.recipientPublicKey
      env.settlementPrivateKey device.node.signingKey) {s : Payments ι}
    (h : Reach (Payments.step env device) (Unforged env device) Deployment.init s)
    (select : String → String → String → Bool) :
    settledTotal select s.broker.core.store.settlements.rows ≤ orderedTotal select s.orders := by
  obtain ⟨s, rfl, hr⟩ := Payments.reach_unforged h
  obtain ⟨t, ht, href⟩ := PaymentPhases.refines hreads hloads honest hr
  have hsum := (Ledger.sound ht).sum_le (fun o : Order => select o.request.payerId.1
    o.request.payeeId.1 o.request.currency.1) (fun o => o.request.amountMinor.1) fun o => by
      have hpos := o.request.amountMinor.2.1
      omega
  rw [href.orders] at hsum
  exact (settledTotal_paid select href.rows).le.trans hsum

end Refinement

/-! ## The reference request -/

section Reference

open MeshSettle.Theorems.Honest (deviceEnv deviceEnv_loadsBack)
open MeshSettle.Reference (payerDevice)

/-- The order of the reference request. -/
def order : Order := ⟨Reference.request, Reference.draws⟩

theorem honest_device : Honest deviceEnv.prim payerDevice.sealer
    payerDevice.node.recipientPublicKey deviceEnv.settlementPrivateKey
    payerDevice.node.signingKey :=
  Reference.sealer_honest fun _ => Vector.replicate 32 0

/-- The order is placed, its packet published, and its row committed. -/
theorem reach_paid : ∃ s : Payments Unit,
    Reach (Payments.step deviceEnv payerDevice) (Unforged deviceEnv payerDevice)
      Deployment.init s ∧ s.orders = [order] ∧
      settledTotal (fun _ _ _ => true) s.broker.core.store.settlements.rows = 4200 := by
  have hreads : deviceEnv.pydantic.ReadsBack := Reference.pydantic_readsBack
  have hdated : (order.packet deviceEnv.prim payerDevice).createdAt = Reference.instant :=
    Honest.built_createdAt
  have hin : InWindow deviceEnv (order.packet deviceEnv.prim payerDevice)
      Reference.instant.micros := by
    have htolerance : deviceEnv.clockSkewToleranceSeconds = 300 := rfl
    have hwindow : deviceEnv.freshnessWindowSeconds = 86400 := rfl
    unfold InWindow
    rw [hdated, htolerance, hwindow]
    omega
  obtain ⟨o, hpacket, hbody, -, hinstruction⟩ := Honest.opened_built hreads
    deviceEnv_loadsBack honest_device rfl [] hin
  rw [Honest.withHops_nil] at hpacket hbody
  -- the device answers the request, and the packet is published
  have hcreated : PaymentPhases.step (ι := Unit) deviceEnv payerDevice
      (.create (document Reference.request.toJson) Reference.draws) Deployment.init =
        some ⟨[order], Broker.init⟩ := by
    unfold PaymentPhases.step Deployment.step
    dsimp only [payerDevice]
    rw [readBody_request Reference.web_readsBack]
    rfl
  have hpublished : PaymentPhases.step (ι := Unit) deviceEnv payerDevice
      (.queue (.publish 0 o.body)) ⟨[order], Broker.init⟩ =
      some ⟨[order], Broker.init.put 0 o.body .ready⟩ := rfl
  have hown : Unforged deviceEnv payerDevice (.queue (.publish 0 o.body))
      (⟨[order], Broker.init⟩ : PaymentPhases Unit deviceEnv) := by
    intro q hq
    refine ⟨order, List.mem_singleton_self _, ?_⟩
    rw [Except.ok.inj (hq.1.symm.trans o.parsed), hpacket]
    rfl
  have hfits : o.row.fits = true := by
    rw [row_fits_iff, hpacket]
    exact Nat.two_pow_pos 31
  -- it is delivered, and nothing fails
  let published : ConsumerPhases Unit deviceEnv := Broker.init.put 0 o.body .ready
  obtain ⟨broker, hrun, hserved⟩ := ConsumerPhases.run_message
    (fun l _ => ∀ m body, l ≠ .publish m body) (s := published) (m := 0) (c := 0)
    ⟨(), o.body, o.now⟩ (fun _ => .served) (fun _ => Reference.instant.micros) nofun
    (fun _ _ _ => nofun) (fun _ => nofun) ((Broker.put_messages ..).trans (if_pos rfl)) rfl
  obtain ⟨-, -, hrows⟩ := processAlone_settles (w := published.core.store) (o := o)
    (d := ⟨(), o.body, o.now⟩) ⟨rfl, rfl⟩ (fun _ => Reference.instant.micros)
    Reference.acceptsEx_claim Reference.acceptsEx_settled rfl hfits (o.accepted rfl)
  have hordered : Reach (PaymentPhases.step deviceEnv payerDevice) (Unforged deviceEnv payerDevice)
      Deployment.init (⟨[order], Broker.init⟩ : PaymentPhases Unit deviceEnv) :=
    .next (l := .create (document Reference.request.toJson) Reference.draws) .start trivial hcreated
  have hreach : Reach (PaymentPhases.step deviceEnv payerDevice) (Unforged deviceEnv payerDevice)
      Deployment.init (⟨[order], broker⟩ : PaymentPhases Unit deviceEnv) :=
    Reach.trans (.next hordered hown hpublished)
      (PaymentPhases.reach_quiet (s := ⟨[order], Broker.init.put 0 o.body .ready⟩) hrun)
  refine ⟨Deployment.map Phase.prog ⟨[order], broker⟩, Payments.reach_coroutines hreach, rfl, ?_⟩
  have hamount : o.row.amountMinor = 4200 := by
    show o.instruction.amountMinor.1 = 4200
    rw [hinstruction]
    rfl
  show settledTotal _ broker.core.store.settlements.rows = 4200
  rw [hserved.store, hrows]
  show o.row.amountMinor + 0 = 4200
  rw [hamount]
  rfl

/-- The table with the row of the order is a ledger's. -/
theorem settlements_refine_ledger_order : ∃ (s : Payments Unit) (t : Ledger Order),
    Reach (Payments.step deviceEnv payerDevice) (Unforged deviceEnv payerDevice)
      Deployment.init s ∧
      Reach (Ledger.step fun o : Order => o.draws.packetId) free Ledger.empty t ∧
      Refines deviceEnv payerDevice s t ∧ s.broker.core.store.settlements.rows ≠ [] := by
  obtain ⟨s, hs, -, htotal⟩ := reach_paid
  obtain ⟨t, ht, href⟩ := settlements_refine_ledger Reference.pydantic_readsBack
    deviceEnv_loadsBack honest_device hs
  refine ⟨s, t, hs, ht, href, fun hnone => ?_⟩
  rw [hnone] at htotal
  cases htotal

/-- What was settled of it is what was ordered. -/
theorem settled_within_orders_order : ∃ s : Payments Unit,
    Reach (Payments.step deviceEnv payerDevice) (Unforged deviceEnv payerDevice)
      Deployment.init s ∧
      settledTotal (fun _ _ _ => true) s.broker.core.store.settlements.rows = 4200 ∧
      (4200 : Int) ≤ orderedTotal (fun _ _ _ => true) s.orders := by
  obtain ⟨s, hs, -, htotal⟩ := reach_paid
  refine ⟨s, hs, htotal, ?_⟩
  rw [← htotal]
  exact settled_within_orders Reference.pydantic_readsBack deviceEnv_loadsBack
    honest_device hs _

end Reference

end MeshSettle.Theorems.Agreement
