import MeshSettle.Settlement.Coverage
import MeshSettle.Settlement.Reference
import MeshSettle.Settlement.Serving
import MeshSettle.Theorems.NoPoison

/-!
# The final table does not depend on the order

A queue holds copies of some genuine packets, with any hops, and bodies that
fail a check. Whatever the order of the deliveries and the interleaving of the
processors, and whenever Redis loses keys, once every message is acked the
table has one row for each of the packets and no other.

A copy is acked without a row only after it has found a marker. So the packet
has a row, or a call that won the claim and has not inserted yet; that call
still holds its message.
-/

namespace MeshSettle.Theorems.Confluence

open Lib.Await Lib.Interleave Lib.Transition

section Statement

variable {ι : Type}

/-- The row of a packet, without the columns that depend on the run. -/
def ownRow (env : Env) (p : PaymentPacket) : Option Settlement :=
  match p.opened env with
  | .ok instruction => some (settlementOf env p instruction).core
  | .error _ => none

/-- A queue of copies of genuine packets with ids of their own, beside other
bodies. -/
structure Workload (env : Env) (packets : List PaymentPacket) (messages : Nat → Option Message) :
    Prop where
  ready : ∀ m msg, messages m = some msg → msg.state = .ready
  genuine : ∀ p ∈ packets, Genuine env p
  distinct : packets.Pairwise fun p q => p.packetId ≠ q.packetId
  queued : ∀ p ∈ packets, ∃ m msg, messages m = some msg ∧ IsCopy env p msg.body

/-- What is delivered now is a copy of one of the packets, in its window, or
fails a check. -/
structure Judged (env : Env) (packets : List PaymentPacket) (body : Bytes) (now : Int) : Prop where
  fresh : ∀ p ∈ packets, IsCopy env p body → staleness env p now = none
  known : (∃ p ∈ packets, IsCopy env p body) ∨
    ∀ o : Opened env, ¬ (o.body = body ∧ o.now = now)

/-- A step of a run in which no consumer crashes and no call to Redis or
Postgres fails. Redis may lose keys. -/
def Uneventful [DecidableEq ι] (env : Env) (packets : List PaymentPacket) :
    BrokerLabel ι → Consumers ι → Prop
  | .publish _ _, _ => False
  | .deliver m _ _ now, s => ∀ msg, s.messages m = some msg → Judged env packets msg.body now
  | .io c mode clock, s => ∀ ev,
      Processors.performed env (.io c mode clock) s.core = some ev → ¬ CutShort ev
  | .crash _, _ => False
  | _, _ => True

end Statement

variable {ι : Type} {env : Env} {p : PaymentPacket} {packets : List PaymentPacket}

/-! ## One packet -/

/-- A call on a copy of the packet has tried its claim. -/
def Tried (p : PaymentPacket) (s : Phases ι env) : Prop :=
  ∃ c call, s.calls c = some call ∧ IsCopy env p call.tag.body ∧
    ∀ a, call.status ≠ .running (.claiming a)

/-- The packet has its row, or a call is about to insert it. -/
def Handled (p : PaymentPacket) (s : Phases ι env) : Prop :=
  HasKey s.store (p.idempotencyKey env.prim) ∨
    ∃ c d o log, s.calls c = some ⟨d, .running (.inserting o), log⟩ ∧ IsCopy env p d.body

/-- A marker, or a copy that tried its claim, says that the packet is handled. -/
def Attended (p : PaymentPacket) (s : Phases ι env) : Prop :=
  Tried p s ∨ s.store.redis (p.idempotencyKey env.prim) ≠ none → Handled p s

variable [DecidableEq ι]

/-- An operation of a call on a copy that is not cut short handles the packet. -/
theorem handled_of_copy (hp : Genuine env p) {s : Phases ι env} {c : Nat} {mode : Mode}
    {clock : Int} {d : Delivery ι} {ph ph' : Phase env} {log : List IoEvent} {w' : World ι}
    {ev : IoEvent} (hc : s.calls c = some ⟨d, .running ph, log⟩) (hfor : ph.For d)
    (hcopy : IsCopy env p d.body) (hadv : Advance env mode clock s.store ph w' ph' ev)
    (hclean : ¬ CutShort ev) (h : Attended p s) :
    Handled p s ∨ Handled p (s.enter c d ph' w' (ev :: log)) := by
  by_cases hclaiming : ∃ a, ph = .claiming a
  · obtain ⟨a, rfl⟩ := hclaiming
    have hkey : a.key = p.idempotencyKey env.prim :=
      (alike_of_signingBytes env (hcopy.admitted hfor)).key
    cases hadv with
    | claimWon =>
        obtain ⟨o, -, hinsert⟩ := hp.claimed (hcopy.admitted hfor)
        have hcall : (s.enter c d (Phase.claimed a)
            (s.store.mark a.key .claimed env.claimTtl clock)
            (⟨.setNx a.key .claimed env.claimTtl, .ok true⟩ :: log)).calls c =
            some ⟨d, .running (.inserting o),
              ⟨.setNx a.key .claimed env.claimTtl, .ok true⟩ :: log⟩ := by
          rw [Phases.enter_calls, if_pos rfl, hinsert]
          rfl
        exact .inr (.inr ⟨c, d, o, _, hcall, hcopy⟩)
    | claimLost _ _ htaken => exact .inl (h (.inr (hkey ▸ htaken)))
    | claimFailed => exact absurd trivial hclean
  · refine .inl (h (.inl ⟨c, _, hc, hcopy, fun a ha => hclaiming ⟨a, ?_⟩⟩))
    exact Status.running.inj ha

/-- What is handled stays handled by an operation that is not cut short. -/
theorem Handled.io {s : Phases ι env} {c : Nat} {mode : Mode}
    {clock : Int} {d : Delivery ι} {ph ph' : Phase env} {log : List IoEvent} {w' : World ι}
    {ev : IoEvent} (hc : s.calls c = some ⟨d, .running ph, log⟩) (hfor : ph.For d)
    (hadv : Advance env mode clock s.store ph w' ph' ev) (hclean : ¬ CutShort ev)
    (hid : HasPacket s.store p.packetId → HasKey s.store (p.idempotencyKey env.prim))
    (h : Handled p s) : Handled p (s.enter c d ph' w' (ev :: log)) := by
  have hgrow : HasKey s.store (p.idempotencyKey env.prim) →
      HasKey (s.enter c d ph' w' (ev :: log)).store (p.idempotencyKey env.prim) :=
    HasKey.mono (PhaseStep.io hc hadv).rows_grow
  rcases h with hrow | ⟨b, e, o, log', hb, hcopy⟩
  · exact .inl (hgrow hrow)
  · by_cases hbc : b = c
    · -- the call that is about to insert makes its move
      subst hbc
      rw [hc] at hb
      cases hb
      have halike := alike_of_signingBytes env (hcopy.admitted hfor)
      have hkey : o.key = p.idempotencyKey env.prim := halike.key
      cases hadv with
      | @inserted _ haccepts _ _ =>
          have hnew : HasKey (s.store.commit o.row clock haccepts) o.key :=
            hasKey_commit s.store o.row clock haccepts
          rw [hkey] at hnew
          exact .inl (by simpa [Phases.enter, HasKey] using hnew)
      | duplicate _ _ hrefused =>
          rcases refused_taken hrefused with htaken | htaken
          · exact .inl (hgrow (hkey ▸ htaken))
          · exact .inl (hgrow (hid (halike.id ▸ htaken)))
      | @insertFailed _ _ e he =>
          cases e <;> first | exact absurd rfl he | exact absurd trivial hclean
    · refine .inr ⟨b, e, o, log', ?_, hcopy⟩
      rw [Phases.enter_calls, if_neg hbc]
      exact hb

/-- An operation of a call leaves the packet attended. -/
theorem Attended.io (hp : Genuine env p) {s : Phases ι env} {c : Nat} {mode : Mode}
    {clock : Int} {d : Delivery ι} {ph ph' : Phase env} {log : List IoEvent} {w' : World ι}
    {ev : IoEvent} (hc : s.calls c = some ⟨d, .running ph, log⟩) (hfor : ph.For d)
    (hadv : Advance env mode clock s.store ph w' ph' ev) (hclean : ¬ CutShort ev)
    (hown : ∀ a : Admitted env, a.For d → a.key = p.idempotencyKey env.prim →
      IsCopy env p d.body)
    (hid : HasPacket s.store p.packetId → HasKey s.store (p.idempotencyKey env.prim))
    (h : Attended p s) : Attended p (s.enter c d ph' w' (ev :: log)) := by
  intro hdemand
  by_cases hcopy : IsCopy env p d.body
  · rcases handled_of_copy hp hc hfor hcopy hadv hclean h with hold | hnew
    · exact hold.io hc hfor hadv hclean hid
    · exact hnew
  · -- a call on another packet touches neither the key nor the copies
    have hframe : w'.redis (p.idempotencyKey env.prim) =
        s.store.redis (p.idempotencyKey env.prim) :=
      hadv.redis_frame hfor fun a ha hkey => hcopy (hown a ha hkey)
    refine Handled.io hc hfor hadv hclean hid (h (hdemand.imp ?_ ?_))
    · rintro ⟨b, call, hb, hbody, htried⟩
      rw [Phases.enter_calls] at hb
      split at hb
      · cases hb
        exact absurd hbody hcopy
      · exact ⟨b, call, hb, hbody, htried⟩
    · intro hmarker
      simpa [Phases.enter, hframe] using hmarker

/-- A delivery leaves the packet attended: a copy has not tried its claim yet. -/
theorem Attended.start (hp : Genuine env p) {s : Phases ι env} {c : Nat} {d : Delivery ι}
    (hc : s.calls c = none) (hfresh : IsCopy env p d.body → staleness env p d.now = none)
    (h : Attended p s) :
    Attended p (s.enter c d (Phase.start env d.body d.now) s.store []) := by
  intro hdemand
  have hold : Tried p s ∨ s.store.redis (p.idempotencyKey env.prim) ≠ none := by
    refine hdemand.imp ?_ ?_
    · rintro ⟨b, call, hb, hbody, htried⟩
      rw [Phases.enter_calls] at hb
      split at hb
      · cases hb
        obtain ⟨a, -, hstart⟩ := hp.admits hbody (hfresh hbody)
        exact absurd (congrArg Phase.status hstart) (htried a)
      · exact ⟨b, call, hb, hbody, htried⟩
    · intro hmarker
      simpa [Phases.enter] using hmarker
  rcases h hold with hrow | ⟨b, e, o, log, hb, hcopy⟩
  · exact .inl (by simpa [Phases.enter, HasKey] using hrow)
  · refine .inr ⟨b, e, o, log, ?_, hcopy⟩
    have hbc : b ≠ c := by
      rintro rfl
      rw [hc] at hb
      cases hb
    rw [Phases.enter_calls, if_neg hbc]
    exact hb

omit [DecidableEq ι] in
/-- So does a loss of keys. -/
theorem Attended.disturb {s : Phases ι env} (e : Disturbance) (h : Attended p s) :
    Attended p { s with store := s.store.disturb e } := by
  have hmarker : (s.store.disturb e).redis (p.idempotencyKey env.prim) ≠ none →
      s.store.redis (p.idempotencyKey env.prim) ≠ none := by
    intro hafter hbefore
    refine hafter ?_
    cases e with
    | flush => rfl
    | expire key =>
        show s.store.redis.delete key _ = none
        rw [Redis.delete, Function.update_apply]
        split
        · rfl
        · exact hbefore
  have hrows : (s.store.disturb e).settlements = s.store.settlements := by
    cases e <;> rfl
  intro hdemand
  rcases h (hdemand.imp id hmarker) with hrow | hinserting
  · exact .inl (by simpa [HasKey, hrows] using hrow)
  · exact .inr hinserting

/-! ## The whole queue -/

/-- A queue that was loaded with `messages`: the bodies stay, every call is
judged, and every packet is attended. -/
structure Ordered (packets : List PaymentPacket) (messages : Nat → Option Message)
    (s : ConsumerPhases ι env) : Prop where
  loaded : ∀ m body state, s.messages m = some ⟨body, state⟩ →
    ∃ state', messages m = some ⟨body, state'⟩
  kept : ∀ m body state, messages m = some ⟨body, state⟩ →
    ∃ state', s.messages m = some ⟨body, state'⟩
  judged : ∀ c call, s.core.calls c = some call →
    Judged env packets call.tag.body call.tag.now
  attended : ∀ p ∈ packets, Attended p s.core

section Queue

variable {messages : Nat → Option Message} {s s' : ConsumerPhases ι env}

omit [DecidableEq ι] in
/-- The packets have ids of their own. -/
theorem Workload.unique (h : Workload env packets messages) {q : PaymentPacket}
    (hp : p ∈ packets) (hq : q ∈ packets) (hid : q.packetId = p.packetId) : q = p := by
  have hnodup : (packets.map PaymentPacket.packetId).Nodup := List.pairwise_map.mpr h.distinct
  exact List.inj_on_of_nodup_map hnodup hq hp hid

/-- A row is one of the packets' own. -/
theorem Ordered.row (h : Ordered packets messages s)
    (hr : Reach (Phases.step env) free Phases.init s.core) {row : SettlementRow}
    (hrow : row ∈ s.core.store.settlements.rows) :
    ∃ q ∈ packets, row.idempotencyKey = q.idempotencyKey env.prim ∧ row.packetId = q.packetId ∧
      ownRow env q = some row.toSettlement.core := by
  obtain ⟨o, ho, c, call, hc, hfor⟩ := Phases.rows_opened hr row hrow
  rcases (h.judged c call hc).known with ⟨q, hq, hcopy⟩ | hfails
  · have halike := alike_of_signingBytes env (hcopy.admitted hfor)
    have hopened : q.opened env = .ok o.instruction := halike.opened.symm.trans o.opened
    have hkey : row.idempotencyKey = o.packet.idempotencyKey env.prim :=
      congrArg Settlement.idempotencyKey ho
    have hid : row.packetId = o.packet.packetId := congrArg Settlement.packetId ho
    refine ⟨q, hq, hkey.trans halike.key, hid.trans halike.id, ?_⟩
    unfold ownRow
    rw [hopened, ho]
    exact congrArg some (settlementOf_alike halike o.instruction).symm
  · exact absurd hfor (hfails o)

/-- A row with the packet's id has its key. -/
theorem Ordered.hasKey (h : Ordered packets messages s) (hload : Workload env packets messages)
    (hr : Reach (Phases.step env) free Phases.init s.core) (hp : p ∈ packets)
    (hid : HasPacket s.core.store p.packetId) :
    HasKey s.core.store (p.idempotencyKey env.prim) := by
  obtain ⟨row, hrow, hrowId⟩ := hid
  obtain ⟨q, hq, hkey, hqId, -⟩ := h.row hr hrow
  have hsame : q = p := hload.unique hp hq (hqId.symm.trans hrowId)
  exact ⟨row, hrow, hsame ▸ hkey⟩

omit [DecidableEq ι] in
/-- What carries the packet's key is a copy of it. -/
theorem Ordered.own (h : Ordered packets messages s) (hs : Holding s)
    (hsha : CollisionFree env (Broker.loaded messages : ConsumerPhases ι env) p) {c : Nat}
    {call : PhaseCall ι env} (hc : s.core.calls c = some call) {a : Admitted env}
    (ha : a.For call.tag) (hkey : a.key = p.idempotencyKey env.prim) :
    IsCopy env p call.tag.body := by
  obtain ⟨m, body, state, hm, hsigned⟩ := hs.published hc ha
  obtain ⟨state', hm'⟩ := h.loaded m body state hm
  have hsame : a.packet.signingBytes = p.signingBytes :=
    hsha a.packet ⟨m, body, state', hm', hsigned⟩ (sha256_of_key hkey)
  exact ⟨a.packet, ⟨ha.1 ▸ a.parsed, a.verified⟩, hsame⟩

omit [DecidableEq ι] in
/-- A message that moves on keeps its body. -/
theorem Ordered.put (h : Ordered packets messages s) {m : Nat} {body : Bytes}
    {state : MessageState} (hm : s.messages m = some ⟨body, state⟩) (state' : MessageState) :
    Ordered packets messages (s.put m body state') where
  loaded := by
    intro n body' st hn
    rw [Broker.put_messages] at hn
    split at hn
    · next hnm =>
        cases hn
        exact h.loaded n body state (hnm ▸ hm)
    · exact h.loaded n body' st hn
  kept := by
    intro n body' st hn
    rw [Broker.put_messages]
    split
    · next hnm =>
        obtain ⟨st', hst⟩ := h.kept n body' st hn
        rw [hnm, hm] at hst
        cases hst
        exact ⟨state', rfl⟩
    · exact h.kept n body' st hn
  judged := h.judged
  attended := h.attended

/-- **Every step of an uneventful run keeps the queue in order.** -/
theorem Ordered.step (hload : Workload env packets messages)
    (hsha : ∀ p ∈ packets, CollisionFree env (Broker.loaded messages : ConsumerPhases ι env) p)
    (hs : Holding s) (hr : Reach (Phases.step env) free Phases.init s.core) {l : BrokerLabel ι}
    (hok : Uneventful env packets l (s.map Phase.prog)) (hstep : BrokerStep s l s')
    (h : Ordered packets messages s) : Ordered packets messages s' := by
  cases hstep with
  | publish => exact hok.elim
  | @deliver m c i now body core hm hcore =>
      have hjudged : Judged env packets body now := hok ⟨body, .ready⟩ hm
      cases Phases.step_cases hcore with
      | start hc =>
          have hbegun : Ordered packets messages { s with
              core := Phases.enter s.core c ⟨i, body, now⟩ (Phase.start env body now)
                s.core.store [] } :=
            { h with
              judged := (Phases.forall_enter ..).mpr
                ⟨hjudged, fun b call _ hb => h.judged b call hb⟩
              attended := fun p hp =>
                @Attended.start ι env p _ (hload.genuine p hp) s.core c ⟨i, body, now⟩ hc
                  (hjudged.fresh p hp) (h.attended p hp) }
          exact hbegun.put hm (.held c)
  | @io c mode clock core hcore =>
      obtain ⟨d, ph, ph', log, w', ev, hc, hadv, hev, rfl⟩ := Phases.step_performed hcore
      have hclean : ¬ CutShort ev := hok ev ((Processors.performed_phases _ _).trans hev)
      have hfor : ph.For d := Phases.coherent hr c _ hc
      have hjudged : Judged env packets d.body d.now := h.judged c _ hc
      exact
        { h with
          judged := (Phases.forall_enter ..).mpr
            ⟨hjudged, fun b call _ hb => h.judged b call hb⟩
          attended := fun p hp => (h.attended p hp).io (hload.genuine p hp) hc hfor hadv hclean
            (fun a ha hkey => h.own hs (hsha p hp) hc ha hkey) (h.hasKey hload hr hp) }
  | settle hm => exact h.put hm _
  | crash => exact hok.elim
  | @disturb e core hcore =>
      cases Phases.step_cases hcore with
      | disturb => exact { h with attended := fun p hp => (h.attended p hp).disturb e }

omit [DecidableEq ι] in
/-- Once every message is acked, each packet has its row. -/
theorem Ordered.settled (h : Ordered packets messages s) (hload : Workload env packets messages)
    (hs : Holding s) (hacked : ∀ m msg, s.messages m = some msg → msg.state = .acked)
    (hp : p ∈ packets) : HasKey s.core.store (p.idempotencyKey env.prim) := by
  obtain ⟨m, ⟨body, state⟩, hm, hcopy⟩ := hload.queued p hp
  obtain ⟨state', hm'⟩ := h.kept m body state hm
  obtain rfl : state' = .acked := hacked m _ hm'
  obtain ⟨c, call, o, hc, hbody, ho, -⟩ := hs.acked m body hm'
  have htried : Tried p s.core := by
    refine ⟨c, call, hc, hbody ▸ hcopy, fun a ha => ?_⟩
    rw [ho] at ha
    cases ha
  rcases h.attended p hp (.inl htried) with hrow | ⟨b, d, o', log, hb, -⟩
  · exact hrow
  · -- a call that is about to insert holds its message
    obtain ⟨n, hn⟩ := hs.running b _ _ hb rfl
    cases hacked n _ hn

omit [DecidableEq ι] in
/-- The key of a packet is its own. -/
theorem Workload.of_key (h : Workload env packets messages)
    (hsha : CollisionFree env (Broker.loaded messages : ConsumerPhases ι env) p)
    {q : PaymentPacket} (hp : p ∈ packets) (hq : q ∈ packets)
    (hkey : q.idempotencyKey env.prim = p.idempotencyKey env.prim) : q = p := by
  obtain ⟨m, ⟨body, state⟩, hm, q', hsigned, hsame⟩ := h.queued q hq
  have hdigest : env.prim.sha256 q'.signingBytes = env.prim.sha256 p.signingBytes := by
    rw [hsame]
    exact sha256_of_key hkey
  have hcopy : q'.signingBytes = p.signingBytes := hsha q' ⟨m, body, state, hm, hsigned⟩ hdigest
  exact h.unique hp hq (alike_of_signingBytes env (hsame.symm.trans hcopy)).id

end Queue

/-- A genuine packet has a row of its own, with its id. -/
theorem Genuine.ownRow (h : Genuine env p) :
    ∃ row, ownRow env p = some row ∧ row.packetId = p.packetId := by
  obtain ⟨instruction, hopens⟩ := h.opens
  refine ⟨(settlementOf env p instruction).core, ?_, rfl⟩
  unfold Confluence.ownRow
  rw [hopens]

/-- Packets with ids of their own have rows of their own. -/
theorem Workload.rows_nodup {messages : Nat → Option Message}
    (h : Workload env packets messages) : (packets.map (ownRow env)).Nodup := by
  refine List.pairwise_map.mpr (List.Pairwise.imp_of_mem ?_ h.distinct)
  intro p q hp hq hne hsame
  obtain ⟨row, hrow, hid⟩ := Genuine.ownRow (h.genuine p hp)
  obtain ⟨row', hrow', hid'⟩ := Genuine.ownRow (h.genuine q hq)
  have heq : row = row' := Option.some.inj (hrow.symm.trans (hsame.trans hrow'))
  exact hne (hid.symm.trans ((congrArg Settlement.packetId heq).trans hid'))

/-! ## The theorem -/

/-- **The final table does not depend on the order.** When every message of the
queue is acked, the table, its ids, times and hop counts apart, has one row for
each of the packets and no other. -/
theorem final_table {messages : Nat → Option Message} (hload : Workload env packets messages)
    (hsha : ∀ p ∈ packets, CollisionFree env (Broker.loaded messages : Consumers ι) p)
    {s : Consumers ι}
    (h : Reach (Consumers.step env) (Uneventful env packets) (Broker.loaded messages) s)
    (hacked : ∀ m msg, s.messages m = some msg → msg.state = .acked) :
    (s.core.store.settlements.rows.map fun row => some row.toSettlement.core).Perm
      (packets.map (ownRow env)) := by
  obtain ⟨s, rfl, hreach⟩ := Consumers.reach_phases h
  have hs : Holding s := ConsumerPhases.holding hload.ready hreach
  have hr := ConsumerPhases.reach_core hreach
  have hordered : Ordered packets messages s := by
    refine hreach.invariant (P := Ordered packets messages) ?_ ?_
    · exact
        { loaded := fun m body state hm => ⟨state, hm⟩
          kept := fun m body state hm => ⟨state, hm⟩
          judged := fun c call hc => by cases hc
          attended := by
            rintro p - (⟨c, call, hc, -⟩ | hmarker)
            · cases hc
            · exact absurd rfl hmarker }
    · intro u l u' hu hordered hok hstep
      exact hordered.step hload hsha (ConsumerPhases.holding hload.ready hu)
        (ConsumerPhases.reach_core hu) hok (ConsumerPhases.step_cases hstep)
  have hrows : (s.core.store.settlements.rows.map fun row =>
      some row.toSettlement.core).Nodup := by
    have hkeys := s.core.store.settlements.uqIdempotencyKey
    refine List.Nodup.of_map (Option.map Settlement.idempotencyKey) ?_
    rw [List.map_map]
    refine List.Nodup.of_map (fun key => key.getD "") ?_
    rw [List.map_map]
    exact hkeys
  refine (List.perm_ext_iff_of_nodup hrows hload.rows_nodup).mpr fun row => ?_
  rw [List.mem_map, List.mem_map]
  constructor
  · rintro ⟨settled, hsettled, rfl⟩
    obtain ⟨q, hq, -, -, hrow⟩ := hordered.row hr hsettled
    exact ⟨q, hq, hrow⟩
  · rintro ⟨p, hp, rfl⟩
    obtain ⟨settled, hsettled, hkey⟩ := hordered.settled hload hs hacked hp
    obtain ⟨q, hq, hqkey, -, hqrow⟩ := hordered.row hr hsettled
    -- the row with the packet's key is nobody else's
    have hfree : CollisionFree env (Broker.loaded messages : ConsumerPhases ι env) p := hsha p hp
    obtain rfl : q = p := hload.of_key hfree hp hq (hqkey.symm.trans hkey)
    exact ⟨settled, hsettled, hqrow.symm⟩

/-! ## A queue with two payments -/

/-- A served operation is uneventful, if Redis takes the lifetimes and the rows of
the call fit. -/
theorem uneventful_served {s : ConsumerPhases ι env}
    (hr : Reach (Phases.step env) free Phases.init s.core) {c : Nat} {d : Delivery ι}
    {ph : Phase env} {log : List IoEvent} (hc : s.core.calls c = some ⟨d, .running ph, log⟩)
    {clock : Int} (hclaim : AcceptsEx env.claimTtl clock)
    (hsettled : AcceptsEx env.settledTtl clock)
    (hfits : ∀ o : Opened env, o.toAdmitted.For d → o.row.fits = true) :
    Uneventful env packets (.io c .served clock) (s.map Phase.prog) := by
  intro ev hev
  obtain ⟨d', ph', ph'', log', w', hc', hadv⟩ :=
    Phases.performed_cases ((Processors.performed_phases _ _).symm.trans hev)
  cases hc.symm.trans hc'
  exact hadv.uncut (Phases.coherent hr c _ hc) hclaim hsettled hfits

/-- **A queue runs to its end** when its bodies hold packets with fewer than 2^31
hops, which open if their signatures are right. -/
theorem exists_drained {messages : Nat → Option Message} (i : ι) {now : Int}
    (hclaim : AcceptsEx env.claimTtl now) (hsettled : AcceptsEx env.settledTtl now) {n : Nat}
    (hready : ∀ m msg, messages m = some msg → msg.state = .ready)
    (hbounded : ∀ m, n ≤ m → messages m = none)
    (hjudged : ∀ m msg, messages m = some msg → Judged env packets msg.body now)
    (hparse : ∀ m msg, messages m = some msg → ∃ q,
      PaymentPacket.modelValidateJson env.pydantic msg.body = .ok q ∧
        (q.verify env.prim env.senderPublicKey = .ok () → ∃ i, q.opened env = .ok i) ∧
        q.hopCount < 2 ^ 31) :
    ∃ s : Consumers ι,
      Reach (Consumers.step env) (Uneventful env packets) (Broker.loaded messages) s ∧
      ∀ m msg, s.messages m = some msg → msg.state = .acked := by
  have hacks : ∀ m msg, messages m = some msg → ∀ w : World ι, handleMessage (processAlone env
      ⟨i, msg.body, now⟩ (fun _ => .served) (fun _ => now) w).2 = .ack := by
    intro m msg hm w
    obtain ⟨q, hq, hopens, hhops⟩ := hparse m msg hm
    have hiff : ∀ clock : Nat → Int, AcceptsEx env.claimTtl (clock 0) →
        AcceptsEx env.settledTtl (clock 2) → _ := fun clock h0 h2 =>
      NoPoison.process_acked h0 h2 (⟨i, msg.body, now⟩ : Delivery ι) w
    rw [processAlone_snd]
    exact (hiff (fun _ => now) hclaim hsettled).mpr (NoPoison.not_poison hq hopens hhops w)
  let ok : BrokerLabel ι → ConsumerPhases ι env → Prop :=
    fun l s => Uneventful env packets l (s.map Phase.prog)
  have hdeliver : ∀ m c msg (s : ConsumerPhases ι env), messages m = some msg →
      s.messages m = some msg → ok (.deliver m c i now) s := by
    intro m c msg s hm hsm msg' hsm'
    cases hsm.symm.trans hsm'
    exact hjudged m msg hm
  have hio : ∀ m c msg ph log (s : ConsumerPhases ι env), messages m = some msg →
      Reach (ConsumerPhases.step env) ok (Broker.loaded messages) s →
      s.core.calls c = some ⟨⟨i, msg.body, now⟩, .running ph, log⟩ → ok (.io c .served now) s := by
    intro m c msg ph log s hm hs hc
    obtain ⟨q, hq, -, hhops⟩ := hparse m msg hm
    refine uneventful_served (ConsumerPhases.reach_core hs) hc hclaim hsettled fun o ho => ?_
    have hpacket : o.packet = q := Except.ok.inj ((ho.1 ▸ o.parsed).symm.trans hq)
    rw [row_fits_iff, hpacket]
    exact hhops
  obtain ⟨s, hs, -, hmessages⟩ := ConsumerPhases.run_queue ok i now hready hacks hdeliver hio
    (fun _ _ => trivial) n
  refine ⟨s.map Phase.prog, ConsumerPhases.reach_consumers hs, fun m msg hm => ?_⟩
  have hmsg : s.messages m = some msg := hm
  rw [hmessages] at hmsg
  split at hmsg
  · obtain ⟨old, -, rfl⟩ := Option.map_eq_some_iff.mp hmsg
    rfl
  · next hle =>
      rw [hbounded m (Nat.le_of_not_lt hle)] at hmsg
      cases hmsg

section Payments

open Reference (payer sender instant packet)

/-- A payment with its own number. -/
def paying (n : BitVec 128) : PaymentInstruction :=
  { Reference.instruction with packetId := ⟨n⟩ }

/-- Its packet, behind some hops. -/
def numbered (n : BitVec 128) (hops : List HopRecord) : PaymentPacket :=
  packet ⟨n⟩ sender instant (paying n) hops

theorem numbered_signed (n : BitVec 128) (hops : List HopRecord) :
    (numbered n hops).signingBytes = (numbered n []).signingBytes := rfl

theorem numbered_inj {n n' : BitVec 128} {hops hops' : List HopRecord}
    (h : (numbered n hops).signingBytes = (numbered n' hops').signingBytes) : n = n' :=
  UUID.mk.inj (PaymentPacket.signed_eq h).1

/-- The queue: the second payment, the first one behind a hop, the first one, and a
payment that nobody has signed. -/
def queued : List PaymentPacket :=
  [numbered 2 [], numbered 1 [⟨payer, instant⟩], numbered 1 [], numbered 3 []]

def messages (m : Nat) : Option Message :=
  (queued[m]?).map fun p => ⟨p.modelDumpJson, .ready⟩

theorem messages_of {m : Nat} {p : PaymentPacket} (h : queued[m]? = some p) :
    messages m = some ⟨p.modelDumpJson, .ready⟩ := by
  rw [messages, h, Option.map_some]

theorem messages_cases {m : Nat} {msg : Message} (h : messages m = some msg) :
    ∃ n hops, hops.length ≤ 1 ∧ (n = 1 ∨ n = 2 ∨ n = 3) ∧
      msg = ⟨(numbered n hops).modelDumpJson, .ready⟩ := by
  obtain ⟨p, hp, rfl⟩ := Option.map_eq_some_iff.mp h
  have hmem : p ∈ queued := List.mem_of_getElem? hp
  simp only [queued, List.mem_cons, List.not_mem_nil, or_false] at hmem
  rcases hmem with rfl | rfl | rfl | rfl
  · exact ⟨2, [], by simp, by simp, rfl⟩
  · exact ⟨1, [_], by simp, by simp, rfl⟩
  · exact ⟨1, [], by simp, by simp, rfl⟩
  · exact ⟨3, [], by simp, by simp, rfl⟩

/-- The payments 1 and 2. -/
def payments : List PaymentPacket := [numbered 1 [], numbered 2 []]

theorem payments_cases {p : PaymentPacket} (h : p ∈ payments) :
    ∃ n, (n = 1 ∨ n = 2) ∧ p = numbered n [] := by
  simp only [payments, List.mem_cons, List.not_mem_nil, or_false] at h
  rcases h with rfl | rfl
  · exact ⟨1, .inl rfl, rfl⟩
  · exact ⟨2, .inr rfl, rfl⟩

/-- Just these two are signed, and the digest tells them apart. -/
structure TwoSigned (signed : Bytes → Bool) (digest : Bytes → Vector UInt8 32) : Prop where
  signed_iff : ∀ message, signed message = true ↔
    message = (numbered 1 []).signingBytes ∨ message = (numbered 2 []).signingBytes
  digest_ne : digest (numbered 1 []).signingBytes ≠ digest (numbered 2 []).signingBytes

section Numbered

variable {signed : Bytes → Bool} {digest : Bytes → Vector UInt8 32}

theorem parsed_numbered (n : BitVec 128) (hops : List HopRecord) :
    PaymentPacket.modelValidateJson (Reference.env signed digest).pydantic
      (numbered n hops).modelDumpJson = .ok (numbered n hops) :=
  Reference.body_packet _

theorem opened_numbered (n : BitVec 128) (hops : List HopRecord) :
    (numbered n hops).opened (Reference.env signed digest) = .ok (paying n) :=
  Reference.opened_packet (i := paying n)

theorem fresh_numbered (n : BitVec 128) (hops : List HopRecord) :
    staleness (Reference.env signed digest) (numbered n hops) instant.micros = none := by
  have hage : ageMicros (numbered n hops) instant.micros = 0 := by
    simp [ageMicros, numbered, packet]
  unfold staleness
  simp only [hage]
  rfl

namespace TwoSigned

theorem cases (h : TwoSigned signed digest) {q : PaymentPacket}
    (hverified : q.verify (Reference.env signed digest).prim
      (Reference.env signed digest).senderPublicKey = .ok ()) :
    q.signingBytes = (numbered 1 []).signingBytes ∨
      q.signingBytes = (numbered 2 []).signingBytes :=
  (h.signed_iff _).mp (Reference.signed_of_verify hverified)

theorem genuine (h : TwoSigned signed digest) {n : BitVec 128} (hn : n = 1 ∨ n = 2) :
    Genuine (Reference.env signed digest) (numbered n []) := by
  refine Reference.genuine_packet (i := paying n) ((h.signed_iff _).mpr ?_)
  rcases hn with rfl | rfl
  · exact .inl rfl
  · exact .inr rfl

theorem copy (h : TwoSigned signed digest) {n : BitVec 128} (hn : n = 1 ∨ n = 2)
    (hops : List HopRecord) :
    IsCopy (Reference.env signed digest) (numbered n []) (numbered n hops).modelDumpJson :=
  ⟨numbered n hops, ⟨parsed_numbered n hops, (h.genuine hn).verified⟩, numbered_signed n hops⟩

theorem workload (h : TwoSigned signed digest) :
    Workload (Reference.env signed digest) payments messages where
  ready := by
    intro m msg hm
    obtain ⟨n, hops, -, -, rfl⟩ := messages_cases hm
    rfl
  genuine := by
    intro p hp
    obtain ⟨n, hn, rfl⟩ := payments_cases hp
    exact h.genuine hn
  distinct := by
    refine List.pairwise_pair.mpr fun hsame => ?_
    have hnumber : (1 : BitVec 128) = 2 := UUID.mk.inj hsame
    exact absurd hnumber (by decide)
  queued := by
    intro p hp
    obtain ⟨n, hn, rfl⟩ := payments_cases hp
    have hcopy := h.copy hn []
    have hqueued : ∃ m, messages m = some ⟨(numbered n []).modelDumpJson, .ready⟩ := by
      rcases hn with rfl | rfl
      · exact ⟨2, messages_of rfl⟩
      · exact ⟨0, messages_of rfl⟩
    obtain ⟨m, hm⟩ := hqueued
    refine ⟨m, _, hm, ?_⟩
    dsimp only
    exact hcopy

/-- A copy is that of a signed payment, and the unsigned one is never opened. -/
theorem judged (h : TwoSigned signed digest) {n : BitVec 128} (hn : n = 1 ∨ n = 2 ∨ n = 3)
    (hops : List HopRecord) : Judged (Reference.env signed digest) payments
      (numbered n hops).modelDumpJson instant.micros where
  fresh := by
    intro p hp _
    obtain ⟨n', -, rfl⟩ := payments_cases hp
    exact fresh_numbered n' []
  known := by
    rcases or_assoc.mpr hn with hn | rfl
    · refine .inl ⟨numbered n [], ?_, h.copy hn hops⟩
      rcases hn with rfl | rfl <;> simp [payments]
    · refine .inr fun o ho => ?_
      have hpacket : o.packet = numbered 3 hops :=
        Except.ok.inj ((ho.1 ▸ o.parsed).symm.trans (parsed_numbered 3 hops))
      have hverified := o.verified
      rw [hpacket] at hverified
      rcases h.cases hverified with hsame | hsame
      · exact absurd (numbered_inj hsame) (by decide)
      · exact absurd (numbered_inj hsame) (by decide)

theorem collisionFree (h : TwoSigned signed digest) {n : BitVec 128} (hn : n = 1 ∨ n = 2) :
    CollisionFree (Reference.env signed digest) (Broker.loaded messages : Consumers Unit)
      (numbered n []) := by
  rintro q ⟨m, body, state, -, -, hverified⟩ hdigest
  have hsame : digest q.signingBytes = digest (numbered n []).signingBytes := hdigest
  rcases h.cases hverified with hq | hq <;> rcases hn with rfl | rfl
  · exact hq
  · rw [hq] at hsame
    exact absurd hsame h.digest_ne
  · rw [hq] at hsame
    exact absurd hsame.symm h.digest_ne
  · exact hq

/-- The queue runs to its end. -/
theorem drained (h : TwoSigned signed digest) : ∃ s : Consumers Unit,
    Reach (Consumers.step (Reference.env signed digest))
      (Uneventful (Reference.env signed digest) payments) (Broker.loaded messages) s ∧
    ∀ m msg, s.messages m = some msg → msg.state = .acked := by
  have hclaim : AcceptsEx (Reference.env signed digest).claimTtl instant.micros :=
    (by decide : AcceptsEx 60 instant.micros)
  have hsettled : AcceptsEx (Reference.env signed digest).settledTtl instant.micros :=
    (by decide : AcceptsEx 86400 instant.micros)
  have hbounded : ∀ m, 4 ≤ m → messages m = none := by
    intro m hm
    rw [messages, List.getElem?_eq_none hm, Option.map_none]
  refine exists_drained () hclaim hsettled h.workload.ready hbounded ?_ ?_
  · intro m msg hm
    obtain ⟨n, hops, -, hn, rfl⟩ := messages_cases hm
    dsimp only
    exact h.judged hn hops
  · intro m msg hm
    obtain ⟨n, hops, hhops, -, rfl⟩ := messages_cases hm
    have hcount : (numbered n hops).hopCount ≤ 1 := hhops
    dsimp only
    exact ⟨numbered n hops, parsed_numbered n hops, fun _ => ⟨_, opened_numbered n hops⟩,
      by omega⟩

end TwoSigned

end Numbered

/-- A configuration in which the two are signed. -/
noncomputable def signed (message : Bytes) : Bool :=
  message = (numbered 1 []).signingBytes ∨ message = (numbered 2 []).signingBytes

noncomputable def digest (message : Bytes) : Vector UInt8 32 :=
  if message = (numbered 1 []).signingBytes then Vector.replicate 32 0 else Vector.replicate 32 1

theorem twoSigned : TwoSigned signed digest where
  signed_iff message := by
    unfold signed
    exact decide_eq_true_iff
  digest_ne := by
    have hother : (numbered 2 []).signingBytes ≠ (numbered 1 []).signingBytes :=
      fun h => absurd (numbered_inj h) (by decide)
    unfold digest
    rw [if_pos rfl, if_neg hother]
    decide

/-- Two payments, a second copy of one of them and an unsigned packet leave two
rows. -/
theorem final_table_payment : ∃ s : Consumers Unit,
    (∀ m msg, s.messages m = some msg → msg.state = .acked) ∧
      (s.core.store.settlements.rows.map fun row => some row.toSettlement.core).Perm
        (payments.map (ownRow (Reference.env signed digest))) := by
  obtain ⟨s, hs, hacked⟩ := twoSigned.drained
  refine ⟨s, hacked, final_table twoSigned.workload (fun p hp => ?_) hs hacked⟩
  obtain ⟨n, hn, rfl⟩ := payments_cases hp
  exact twoSigned.collisionFree hn

end Payments

end MeshSettle.Theorems.Confluence
