import MeshSettle.Settlement.Backing
import MeshSettle.Settlement.Holding

/-!
# Genuine packets and their copies

A genuine packet is signed, bound to its envelope, and opens. Its copies are
the bodies that carry the same signed region, with any hops. `Distinct` says
that among the messages of a queue the packet id and the digest of the packet
belong to its copies alone; then its key stays backed in every run
(`ConsumerPhases.backed`), and whatever carries its key is a copy.
-/

namespace MeshSettle

open Lib.Await Lib.Interleave Lib.Transition

section Packets

variable {ι : Type} {env : Env} {p q : PaymentPacket}

/-- The packet passes every check but the freshness window. -/
structure Genuine (env : Env) (p : PaymentPacket) : Prop where
  verified : p.verify env.prim env.senderPublicKey = .ok ()
  bound : p.envelope.aad = p.expectedAad
  opens : ∃ instruction, p.opened env = .ok instruction

/-- The body parses to a packet that the sender key signed. -/
def SignedBody (env : Env) (body : Bytes) (q : PaymentPacket) : Prop :=
  PaymentPacket.modelValidateJson env.pydantic body = .ok q ∧
    q.verify env.prim env.senderPublicKey = .ok ()

/-- The body is a copy of the packet: signed, with the same signed region. -/
def IsCopy (env : Env) (p : PaymentPacket) (body : Bytes) : Prop :=
  ∃ q, SignedBody env body q ∧ q.signingBytes = p.signingBytes

/-- What the pipeline reads of a packet is in its signed region. -/
structure Alike (env : Env) (p q : PaymentPacket) : Prop where
  id : q.packetId = p.packetId
  sender : q.senderId = p.senderId
  key : q.idempotencyKey env.prim = p.idempotencyKey env.prim
  stale : ∀ now, staleness env q now = staleness env p now
  bound : q.envelope.aad = q.expectedAad ↔ p.envelope.aad = p.expectedAad
  opened : q.opened env = p.opened env

theorem alike_of_signingBytes (env : Env) (h : q.signingBytes = p.signingBytes) :
    Alike env p q := by
  obtain ⟨hid, hsender, hcreated, henvelope⟩ := PaymentPacket.signed_eq h
  refine ⟨hid, hsender, ?_, fun now => ?_, ?_, ?_⟩
  · simp only [PaymentPacket.idempotencyKey, h]
  · have hage : ageMicros q now = ageMicros p now := by
      unfold ageMicros
      rw [hcreated]
    unfold staleness
    rw [hage]
  · simp only [PaymentPacket.expectedAad, hid, hsender, henvelope]
  · simp only [PaymentPacket.opened, PaymentPacket.openInstruction, hid, henvelope]

/-- A row without the hop count, the one column that is not signed. -/
def Settlement.core (row : Settlement) : Settlement := { row with hopCount := 0 }

/-- The row is the packet's own: the header of the packet and the payment sealed
in it. -/
def PaymentPacket.SettlesAs (env : Env) (p : PaymentPacket) (row : Settlement) : Prop :=
  ∃ instruction, p.opened env = .ok instruction ∧
    row.core = (settlementOf env p instruction).core

/-- The table has one row with the packet's key, and it is the packet's own. -/
def SettledOnce (env : Env) (p : PaymentPacket) (w : World ι) : Prop :=
  ∃ row ∈ w.settlements.rows, row.idempotencyKey = p.idempotencyKey env.prim ∧
    p.SettlesAs env row.toSettlement ∧
    ∀ row' ∈ w.settlements.rows, row'.idempotencyKey = p.idempotencyKey env.prim → row' = row

/-- One key, one digest. -/
theorem sha256_of_key {prim : Primitives}
    (h : q.idempotencyKey prim = p.idempotencyKey prim) :
    prim.sha256 q.signingBytes = prim.sha256 p.signingBytes :=
  deriveIdempotencyKey_inj h

/-! ## Packets on a queue -/

/-- Some message carries the signed packet. -/
def Published {P : Type} (env : Env) (s : Broker ι P) (q : PaymentPacket) : Prop :=
  ∃ m body state, s.messages m = some ⟨body, state⟩ ∧ SignedBody env body q

/-- No other signed packet on the queue carries the packet's id. -/
def OwnPacketId {P : Type} (env : Env) (s : Broker ι P) (p : PaymentPacket) : Prop :=
  ∀ q, Published env s q → q.packetId = p.packetId → q.signingBytes = p.signingBytes

/-- SHA-256 does not collide between the packet and a signed packet on the
queue. -/
def CollisionFree {P : Type} (env : Env) (s : Broker ι P) (p : PaymentPacket) : Prop :=
  ∀ q, Published env s q →
    env.prim.sha256 q.signingBytes = env.prim.sha256 p.signingBytes →
      q.signingBytes = p.signingBytes

/-- The packet id and the digest are the packet's own. -/
structure Distinct {P : Type} (env : Env) (s : Broker ι P) (p : PaymentPacket) : Prop where
  own_id : OwnPacketId env s p
  collision_free : CollisionFree env s p

/-- What is published with the packet's key is a copy of it. -/
theorem Distinct.of_key {P : Type} {s : Broker ι P} (hd : Distinct env s p)
    (hq : Published env s q) (hkey : q.idempotencyKey env.prim = p.idempotencyKey env.prim) :
    q.signingBytes = p.signingBytes :=
  hd.collision_free q hq (sha256_of_key hkey)

/-- A message that moves on keeps its body. -/
theorem Distinct.put {P : Type} {s : Broker ι P} (h : Distinct env s p) {m : Nat} {body : Bytes}
    {state : MessageState} (hm : s.messages m = some ⟨body, state⟩) (state' : MessageState) :
    Distinct env (s.put m body state') p := by
  have hold : ∀ q, Published env (s.put m body state') q → Published env s q := by
    rintro q ⟨m', body', st, hm', hq⟩
    rw [Broker.put_messages] at hm'
    split at hm'
    · cases hm'
      exact ⟨m, body, state, hm, hq⟩
    · exact ⟨m', body', st, hm', hq⟩
  exact ⟨fun q hq => h.own_id q (hold q hq), fun q hq => h.collision_free q (hold q hq)⟩

/-- It is about the messages alone. -/
theorem Distinct.congr {P Q : Type} {s : Broker ι P} {s' : Broker ι Q} (h : Distinct env s p)
    (hmessages : s'.messages = s.messages) : Distinct env s' p := by
  have hold : ∀ q, Published env s' q → Published env s q := by
    rintro q ⟨m, body, state, hm, hq⟩
    exact ⟨m, body, state, hmessages ▸ hm, hq⟩
  exact ⟨fun q hq => h.own_id q (hold q hq), fun q hq => h.collision_free q (hold q hq)⟩

/-- The programs of the calls play no part in it. -/
theorem Distinct.of_map {P Q : Type} {f : P → Q} {s : Broker ι P}
    (h : Distinct env (s.map f) p) : Distinct env s p :=
  h.congr rfl

/-- What a call was made for is published. -/
theorem Holding.published {s : ConsumerPhases ι env} (hs : Holding s) {c : Nat}
    {call : PhaseCall ι env} (hc : s.core.calls c = some call) {a : Admitted env}
    (ha : a.For call.tag) : Published env s a.packet := by
  obtain ⟨m, state, hm⟩ := hs.delivered c call hc
  exact ⟨m, _, state, hm, ha.1 ▸ a.parsed, a.verified⟩

/-- Bodies stay on the queue. -/
theorem BrokerStep.bodies_stay [DecidableEq ι] {l : BrokerLabel ι} {s s' : ConsumerPhases ι env}
    (h : BrokerStep s l s') {m : Nat} {body : Bytes} {state : MessageState}
    (hm : s.messages m = some ⟨body, state⟩) :
    ∃ state', s'.messages m = some ⟨body, state'⟩ := by
  have hput : ∀ {s0 : ConsumerPhases ι env} {m' body' state'}, s0.messages = s.messages →
      (∀ state, s.messages m' = some ⟨body, state⟩ → body' = body) →
      ∃ state'', (s0.put m' body' state').messages m = some ⟨body, state''⟩ := by
    intro s0 m' body' state' hsame hbody
    rw [Broker.put_messages]
    split
    · next hmm =>
        subst hmm
        exact ⟨state', by rw [hbody state hm]⟩
    · exact ⟨state, by rw [hsame]; exact hm⟩
  cases h with
  | publish hnone => exact hput rfl fun state h => by rw [hnone] at h; cases h
  | deliver hready _ => exact hput rfl fun state h => by rw [hready] at h; cases h; rfl
  | io _ => exact ⟨state, hm⟩
  | settle hheld _ _ => exact hput rfl fun state h => by rw [hheld] at h; cases h; rfl
  | @crash i _ _ =>
      rcases returned_cases s.core i ⟨body, state⟩ with ⟨heq, -⟩ | ⟨c, -, -, heq⟩
      · exact ⟨state, by simp only [hm, Option.map_some, heq]⟩
      · exact ⟨.ready, by simp only [hm, Option.map_some, heq]⟩
  | disturb _ => exact ⟨state, hm⟩

theorem Published.step [DecidableEq ι] {l : BrokerLabel ι} {s s' : ConsumerPhases ι env}
    (hstep : BrokerStep s l s') (h : Published env s q) : Published env s' q := by
  obtain ⟨m, body, state, hm, hq⟩ := h
  obtain ⟨state', hm'⟩ := hstep.bodies_stay hm
  exact ⟨m, body, state', hm', hq⟩

/-- What is distinct after a step was distinct before it. -/
theorem Distinct.before [DecidableEq ι] {l : BrokerLabel ι} {s s' : ConsumerPhases ι env}
    (hstep : BrokerStep s l s') (h : Distinct env s' p) : Distinct env s p :=
  ⟨fun q hq => h.own_id q (hq.step hstep), fun q hq => h.collision_free q (hq.step hstep)⟩

/-! ## The key of a distinct packet is backed -/

variable [DecidableEq ι]

/-- A delivery publishes nothing. -/
theorem Distinct.deliver {s s' : ConsumerPhases ι env} (h : Distinct env s p) {m c : Nat} {i : ι}
    {now : Int} (hstep : BrokerStep s (.deliver m c i now) s') : Distinct env s' p := by
  cases hstep with
  | @deliver _ _ _ _ body core hm _ =>
      have hcore : Distinct env { s with core := core } p := ⟨h.own_id, h.collision_free⟩
      exact hcore.put hm _

/-- A row with the packet's id has its key. -/
theorem hasKey_of_packetId {s : ConsumerPhases ι env} (hs : Holding s)
    (hr : Reach (Phases.step env) free Phases.init s.core) (hd : Distinct env s p)
    (h : HasPacket s.core.store p.packetId) :
    HasKey s.core.store (p.idempotencyKey env.prim) := by
  obtain ⟨row, hrow, hid⟩ := h
  obtain ⟨o, ho, c, call, hc, hfor⟩ := Phases.rows_opened hr row hrow
  have hkey : row.idempotencyKey = o.key := congrArg Settlement.idempotencyKey ho
  have hpid : o.packet.packetId = p.packetId :=
    (congrArg Settlement.packetId ho).symm.trans hid
  have hsame := hd.own_id _ (hs.published hc hfor) hpid
  exact ⟨row, hrow, hkey.trans (alike_of_signingBytes env hsame).key⟩

/-- Inserts with the key of a distinct packet are clean. -/
theorem cleanInsert_of_distinct {s : ConsumerPhases ι env} (hs : Holding s)
    (hr : Reach (Phases.step env) free Phases.init s.core) (hd : Distinct env s p)
    (l : ProcessorLabel ι) :
    CleanInsert env (p.idempotencyKey env.prim) l (s.core.map Phase.prog) := by
  rintro c clock call row rfl hcall hpending - hkey hpacket
  obtain ⟨old, hc, rfl⟩ := State.of_map_calls hcall
  rw [Call.pending_map (processCode_same env)] at hpending
  obtain ⟨d, status, log⟩ := old
  cases status with
  | running ph =>
      cases ph with
      | inserting o =>
          obtain rfl : o.row = row := by simpa [Call.pending, phaseCode, Phase.view] using hpending
          have hfor : o.toAdmitted.For d := Phases.coherent hr c _ hc
          have hsame := hd.of_key (hs.published hc hfor) hkey
          have hpid : o.packet.packetId = p.packetId := (alike_of_signingBytes env hsame).id
          exact hasKey_of_packetId hs hr hd (hpid ▸ hpacket)
      | _ => simp [Call.pending, phaseCode, Phase.view] at hpending
  | _ => simp [Call.pending] at hpending

/-- The processors behind the queue insert cleanly, for the key of a distinct
packet. -/
theorem ConsumerPhases.reach_clean {ok : BrokerLabel ι → ConsumerPhases ι env → Prop}
    {messages : Nat → Option Message}
    (hready : ∀ m msg, messages m = some msg → msg.state = .ready) {s : ConsumerPhases ι env}
    (h : Reach (ConsumerPhases.step env) ok (Broker.loaded messages) s) :
    Distinct env s p → Reach (Phases.step env) (fun l s =>
      CleanInsert env (p.idempotencyKey env.prim) l (s.map Phase.prog)) Phases.init s.core := by
  refine h.invariant (P := fun s : ConsumerPhases ι env => Distinct env s p →
    Reach (Phases.step env) (fun l s => CleanInsert env (p.idempotencyKey env.prim) l
      (s.map Phase.prog)) Phases.init s.core) (fun _ => .start) ?_
  intro s l s' hr ih _ hstep hd'
  have hs := ConsumerPhases.step_cases hstep
  have hd := hd'.before hs
  rcases hs.core with heq | ⟨l', hl'⟩
  · rw [heq]
    exact ih hd
  · exact .next (ih hd) (cleanInsert_of_distinct (ConsumerPhases.holding hready hr)
      (ConsumerPhases.reach_core hr) hd l') hl'

/-- **The key of a distinct packet stays backed**, whatever fails. -/
theorem ConsumerPhases.backed {ok : BrokerLabel ι → ConsumerPhases ι env → Prop}
    {messages : Nat → Option Message}
    (hready : ∀ m msg, messages m = some msg → msg.state = .ready) {s : ConsumerPhases ι env}
    (h : Reach (ConsumerPhases.step env) ok (Broker.loaded messages) s) (hd : Distinct env s p) :
    Backed (p.idempotencyKey env.prim) s.core :=
  Phases.backed (fun _ _ hclean => hclean) (ConsumerPhases.reach_clean hready h hd)

/-! ## The row of a distinct packet -/

omit [DecidableEq ι] in
/-- Copies settle as one row, the hop count apart. -/
theorem settlementOf_alike (h : Alike env p q) (instruction : PaymentInstruction) :
    (settlementOf env q instruction).core = (settlementOf env p instruction).core := by
  simp only [settlementOf, Settlement.core, h.key, h.id, h.sender]

/-- **A row with the key of a distinct packet is its row.** -/
theorem settlesAs_of_key {s : ConsumerPhases ι env} (hs : Holding s)
    (hr : Reach (Phases.step env) free Phases.init s.core) (hd : Distinct env s p)
    {row : SettlementRow} (hrow : row ∈ s.core.store.settlements.rows)
    (hkey : row.idempotencyKey = p.idempotencyKey env.prim) : p.SettlesAs env row.toSettlement := by
  obtain ⟨o, ho, c, call, hc, hfor⟩ := Phases.rows_opened hr row hrow
  have hokey : o.key = p.idempotencyKey env.prim :=
    (congrArg Settlement.idempotencyKey ho).symm.trans hkey
  have halike := alike_of_signingBytes env (hd.of_key (hs.published hc hfor) hokey)
  have hopened : p.opened env = .ok o.instruction := halike.opened.symm.trans o.opened
  have hcore : row.toSettlement.core = (settlementOf env o.packet o.instruction).core :=
    congrArg Settlement.core ho
  exact ⟨o.instruction, hopened, hcore.trans (settlementOf_alike halike o.instruction)⟩

/-- A distinct packet with a row is settled once. -/
theorem settledOnce_of_hasKey {s : ConsumerPhases ι env} (hs : Holding s)
    (hr : Reach (Phases.step env) free Phases.init s.core) (hd : Distinct env s p)
    (h : HasKey s.core.store (p.idempotencyKey env.prim)) : SettledOnce env p s.core.store := by
  obtain ⟨row, hrow, hkey⟩ := h
  refine ⟨row, hrow, hkey, settlesAs_of_key hs hr hd hrow hkey, fun row' hrow' hkey' => ?_⟩
  exact List.inj_on_of_nodup_map s.core.store.settlements.uqIdempotencyKey hrow' hrow
    (hkey'.trans hkey.symm)

end Packets

end MeshSettle
