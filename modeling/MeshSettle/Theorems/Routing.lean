import MeshSettle.Mesh.Reference

/-!
# Routing around a ring

The loop of a packet around a ring is spread over nested calls and guarded by
two counters: the limit is checked before the hop is appended, the target
after it. With `h` hops at the entry, the packet leaves the ring with
`max (h + 1) t` of them, or meets the limit before.
-/

namespace MeshSettle.Theorems.Routing

open Lib.Chain

/-- Relays that share their target, their limit and the sender's key, each with
a neighbour to forward to. -/
structure Ring (ι : Type) extends Network ι where
  next : ι → ι
  target : Nat
  limit : Nat
  target_eq : ∀ i, (relays i).config.hopCountTarget = target
  limit_eq : ∀ i, (relays i).config.hopLimit = limit
  key_eq : ∀ i, (relays i).senderPublicKey = bridge.senderPublicKey
  nodeId_ok : ∀ i, matchesIdentifier (relays i).config.nodeId = true
  relayUrl : ∀ i, resolve (rstripSlash (relays i).config.nextRelayUrl ++ "/relay") =
    .node (.relay (next i))
  bridgeUrl : ∀ i, resolve (rstripSlash (relays i).config.bridgeUrl ++ "/bridge") = .node .bridge

/-- No forwarding fails, and the broker confirms the message. -/
structure Journey.Smooth (journey : Journey) : Prop where
  delivered : ∀ i, journey.forwarding i = .delivered
  confirmed : journey.publish = .confirmed

variable {ι : Type}

namespace Ring

/-- The relay at the `k`-th place of a journey. -/
def relayAt (ring : Ring ι) (entry : ι) (k : Nat) : ι := ring.next^[k] entry

/-- The hop that the `k`-th relay records. -/
def hopAt (ring : Ring ι) (journey : Journey) (entry : ι) (k : Nat) : HopRecord :=
  ⟨⟨(ring.relays (ring.relayAt entry k)).config.nodeId, ring.nodeId_ok _⟩, journey.now k⟩

/-- The packet as it gets to the `k`-th place: each relay before has appended
its hop, and nothing else is changed. -/
def packetAt (ring : Ring ι) (journey : Journey) (entry : ι) (p : PaymentPacket) :
    Nat → PaymentPacket
  | 0 => p
  | k + 1 => (ring.packetAt journey entry p k).appendHop (ring.hopAt journey entry k)

/-- The body that the `k`-th place gets: the posted one, or what the relay
before has written. -/
def bodyAt (ring : Ring ι) (journey : Journey) (entry : ι) (p : PaymentPacket) (rawBody : Bytes) :
    Nat → Bytes
  | 0 => rawBody
  | k + 1 => (ring.packetAt journey entry p (k + 1)).modelDumpJson

/-- The visit of the `k`-th relay. -/
def visit (ring : Ring ι) (journey : Journey) (entry : ι) (p : PaymentPacket) (rawBody : Bytes)
    (k : Nat) : MeshNode ι × Bytes :=
  (.relay (ring.relayAt entry k), ring.bodyAt journey entry p rawBody k)

/-- The answer to a packet that has too many hops. -/
def limitReply (ring : Ring ι) : Reply :=
  .error 400 ⟨.malformedPayload, "packet exceeded the hop limit of " ++ toString (ring.limit : Int)⟩

end Ring

section Journeys

variable {ring : Ring ι} {journey : Journey} {entry : ι} {p : PaymentPacket} {rawBody : Bytes}

/-- What the next relay finds appended. -/
theorem packetAt_succ (k : Nat) : ring.packetAt journey entry p (k + 1) =
    (ring.packetAt journey entry p k).appendHop (ring.hopAt journey entry k) := rfl

theorem packetAt_hopCount (k : Nat) :
    (ring.packetAt journey entry p k).hopCount = p.hopCount + k := by
  induction k with
  | zero => rfl
  | succ k ih => rw [packetAt_succ, PaymentPacket.appendHop_hopCount, ih, Nat.add_assoc]

theorem packetAt_signed (k : Nat) :
    (ring.packetAt journey entry p k).signingBytes = p.signingBytes ∧
      (ring.packetAt journey entry p k).signature = p.signature := by
  induction k with
  | zero => exact ⟨rfl, rfl⟩
  | succ k ih => exact ih

/-- The hops of the entry stay in front. -/
theorem packetAt_hops (k : Nat) : (ring.packetAt journey entry p k).hops =
    p.hops ++ (List.range k).map (ring.hopAt journey entry) := by
  induction k with
  | zero => exact (List.append_nil _).symm
  | succ k ih =>
      rw [packetAt_succ, PaymentPacket.appendHop_hops, ih, List.range_succ, List.map_append,
        List.append_assoc]
      rfl

/-- A packet that is verified at the entry is verified everywhere. -/
theorem packetAt_verify {publicKey : Bytes} (k : Nat) :
    (ring.packetAt journey entry p k).verify ring.prim publicKey =
      p.verify ring.prim publicKey := by
  unfold PaymentPacket.verify
  rw [(packetAt_signed k).1, (packetAt_signed k).2]

theorem visit_succ_fst (k : Nat) : (ring.visit journey entry p rawBody (k + 1)).1 =
    .relay (ring.next (ring.relayAt entry k)) := by
  unfold Ring.visit Ring.relayAt
  rw [Function.iterate_succ_apply']

theorem visit_succ_snd (k : Nat) : (ring.visit journey entry p rawBody (k + 1)).2 =
    (ring.packetAt journey entry p (k + 1)).modelDumpJson := by
  unfold Ring.visit
  rw [Ring.bodyAt]

theorem handle_visit (k : Nat) :
    ring.handle journey k (ring.visit journey entry p rawBody k).1
      (ring.visit journey entry p rawBody k).2 =
    relay ring.prim ring.web ring.resolve (ring.relays (ring.relayAt entry k)) (journey.now k)
      (ring.visit journey entry p rawBody k).2 := rfl

/-- The visits from the `k`-th place on. -/
theorem visits_succ (k n : Nat) :
    (List.range' k (n + 1)).map (ring.visit journey entry p rawBody) =
      ((ring.visit journey entry p rawBody k).1, (ring.visit journey entry p rawBody k).2) ::
        (List.range' (k + 1) n).map (ring.visit journey entry p rawBody) := by
  rw [List.range'_succ, List.map_cons]

theorem packetAt_idempotencyKey (k : Nat) :
    (ring.packetAt journey entry p k).idempotencyKey ring.prim = p.idempotencyKey ring.prim := by
  unfold PaymentPacket.idempotencyKey
  rw [(packetAt_signed k).1]

variable (hreads : ring.web.pydantic.ReadsBack) (hread : readPacket ring.web rawBody = .ok p)
  (hverify : p.verify ring.prim ring.bridge.senderPublicKey = .ok ())

variable (journey entry)

include hreads hread in
/-- Every visit reads the packet of its place. -/
theorem read_visit (k : Nat) : readPacket ring.web (ring.visit journey entry p rawBody k).2 =
    .ok (ring.packetAt journey entry p k) := by
  cases k with
  | zero => exact hread
  | succ k =>
      rw [visit_succ_snd]
      exact readPacket_modelDumpJson hreads _

/-- Where the `k`-th relay forwards to. -/
theorem resolve_onward (ring : Ring ι) (i : ι) (hopCount : Nat) :
    ring.resolve ((ring.relays i).config.nextDestination hopCount).1 =
      .node (if ring.target ≤ hopCount then .bridge else .relay (ring.next i)) := by
  unfold RelayConfig.nextDestination
  rw [ring.target_eq i]
  by_cases h : ring.target ≤ hopCount
  · rw [if_pos (Int.ofNat_le.mpr h), if_pos h]
    exact ring.bridgeUrl i
  · rw [if_neg (mt Int.ofNat_le.mp h), if_neg h]
    exact ring.relayUrl i

include hreads hverify in
/-- The bridge publishes the packet of its place. -/
theorem bridge_publishes (hsmooth : Journey.Smooth journey) (k : Nat) :
    ∃ reply, reply.httpStatus = 202 ∧
      ring.handle journey k .bridge (ring.packetAt journey entry p k).modelDumpJson =
        .answer reply [⟨(ring.packetAt journey entry p k).modelDumpJson,
          p.idempotencyKey ring.prim⟩] := by
  have hbridge : bridge ring.prim ring.web ring.bridge .confirmed
      (ring.packetAt journey entry p k).modelDumpJson = _ := bridge_confirmed
    (readPacket_modelDumpJson hreads (ring.packetAt journey entry p k))
    (by rw [packetAt_verify, hverify])
  rw [packetAt_idempotencyKey] at hbridge
  refine ⟨.bridged ⟨.bridged, ring.bridge.queueName, (ring.packetAt journey entry p k).packetId,
    (ring.packetAt journey entry p k).hopCount, p.idempotencyKey ring.prim⟩, rfl, ?_⟩
  rw [Network.handle, hsmooth.confirmed, hbridge]

include hreads hread hverify

/-- **A visit below the limit** passes the packet of the next place on: to the
bridge if it has reached the target, to the next relay otherwise. -/
theorem visit_passes {k : Nat} (hlimit : p.hopCount + k < ring.limit) :
    ∃ finish, (∀ answer, (finish answer).httpStatus = if Accepted answer then 202 else 502) ∧
      ring.handle journey k (ring.visit journey entry p rawBody k).1
        (ring.visit journey entry p rawBody k).2 =
        .pass (if ring.target ≤ p.hopCount + k + 1 then .bridge
          else (ring.visit journey entry p rawBody (k + 1)).1)
          (ring.visit journey entry p rawBody (k + 1)).2 finish := by
  have hnext := resolve_onward ring (ring.relayAt entry k) (p.hopCount + k + 1)
  have hforward : relay ring.prim ring.web ring.resolve (ring.relays (ring.relayAt entry k))
      (journey.now k) (ring.visit journey entry p rawBody k).2 = _ := relay_forwards
    (read_visit journey entry hreads hread k)
    (by rw [ring.key_eq, packetAt_verify, hverify])
    (by rw [packetAt_hopCount, ring.limit_eq]; exact Int.ofNat_lt.mpr hlimit)
    (ring.nodeId_ok _) (by rw [packetAt_hopCount]; exact hnext)
  refine ⟨relayReply (ring.relays (ring.relayAt entry k)).config
    (ring.packetAt journey entry p (k + 1)), relayReply_httpStatus _ _, ?_⟩
  rw [handle_visit, hforward, visit_succ_fst, visit_succ_snd, packetAt_succ, Ring.hopAt]

/-- **A visit at the limit** is refused. -/
theorem visit_refused {k : Nat} (hlimit : ring.limit ≤ p.hopCount + k) :
    ring.handle journey k (ring.visit journey entry p rawBody k).1
      (ring.visit journey entry p rawBody k).2 = .answer ring.limitReply [] := by
  have hrefuse : relay ring.prim ring.web ring.resolve (ring.relays (ring.relayAt entry k))
      (journey.now k) (ring.visit journey entry p rawBody k).2 = _ := relay_refuses
    (read_visit journey entry hreads hread k)
    (by rw [ring.key_eq, packetAt_verify, hverify])
    (by rw [packetAt_hopCount, ring.limit_eq]; exact Int.ofNat_le.mpr hlimit)
  rw [handle_visit, hrefuse, ring.limit_eq]
  rfl

/-- **The way to the bridge.** From the `k`-th place on, with `n` more relays to
come before the hops are `max (h + 1) t`, within the limit. -/
theorem travels_to_bridge (hsmooth : Journey.Smooth journey) {n k : Nat}
    (hhops : p.hopCount + k + (n + 1) = max (p.hopCount + 1) ring.target)
    (hlimit : max (p.hopCount + 1) ring.target ≤ ring.limit) :
    ∃ reply, reply.httpStatus = 202 ∧
      call (ring.handle journey) journey.forwarding (n + 2) k
        (ring.visit journey entry p rawBody k).1 (ring.visit journey entry p rawBody k).2 =
      some ⟨reply, [⟨(ring.packetAt journey entry p (k + n + 1)).modelDumpJson,
          p.idempotencyKey ring.prim⟩],
        (List.range' k (n + 1)).map (ring.visit journey entry p rawBody) ++
          [(.bridge, (ring.packetAt journey entry p (k + n + 1)).modelDumpJson)]⟩ := by
  induction n generalizing k with
  | zero =>
      obtain ⟨finish, hstatus, hpass⟩ := visit_passes journey entry hreads hread
        hverify (k := k) (by omega)
      obtain ⟨reply, hreply, hanswer⟩ := bridge_publishes journey entry hreads hverify hsmooth
        (k + 1)
      rw [if_pos (by omega), visit_succ_snd] at hpass
      refine ⟨finish (.reply reply), ?_, ?_⟩
      · rw [hstatus, Accepted, hreply]
        rfl
      · rw [call_delivered hpass (hsmooth.delivered k) (call_answer hanswer), visits_succ k 0]
        rfl
  | succ n ih =>
      obtain ⟨finish, hstatus, hpass⟩ := visit_passes journey entry hreads hread
        hverify (k := k) (by omega)
      obtain ⟨reply, hreply, hcall⟩ := ih (k := k + 1) (by omega)
      rw [if_neg (by omega)] at hpass
      rw [show k + 1 + n + 1 = k + (n + 1) + 1 by omega] at hcall
      refine ⟨finish (.reply reply), ?_, ?_⟩
      · rw [hstatus, Accepted, hreply]
        rfl
      · rw [call_delivered hpass (hsmooth.delivered k) hcall, visits_succ k (n + 1),
          List.cons_append]

/-- **The way to the limit.** From the `k`-th place on, with `n` more relays to
come before the hops are at the limit, below the target. -/
theorem travels_to_limit (hsmooth : Journey.Smooth journey) {n k : Nat}
    (hhops : p.hopCount + k + n = ring.limit)
    (hlimit : ring.limit < max (p.hopCount + 1) ring.target) (hentry : p.hopCount < ring.limit) :
    ∃ reply, isSuccess reply.httpStatus = false ∧
      call (ring.handle journey) journey.forwarding (n + 1) k
        (ring.visit journey entry p rawBody k).1 (ring.visit journey entry p rawBody k).2 =
      some ⟨reply, [], (List.range' k (n + 1)).map (ring.visit journey entry p rawBody)⟩ := by
  induction n generalizing k with
  | zero =>
      exact ⟨ring.limitReply, rfl,
        call_answer (visit_refused journey entry hreads hread hverify (by omega))⟩
  | succ n ih =>
      obtain ⟨finish, hstatus, hpass⟩ := visit_passes journey entry hreads hread
        hverify (k := k) (by omega)
      obtain ⟨reply, hreply, hcall⟩ := ih (k := k + 1) (by omega)
      rw [if_neg (by omega)] at hpass
      refine ⟨finish (.reply reply), ?_, ?_⟩
      · rw [hstatus, Accepted, hreply]
        rfl
      · rw [call_delivered hpass (hsmooth.delivered k) hcall, visits_succ k (n + 1)]

end Journeys

/-- What becomes of a packet that enters the ring with `p.hopCount` hops. -/
structure Routed (ring : Ring ι) (journey : Journey) (entry : ι) (p : PaymentPacket)
    (rawBody : Bytes) (o : Outcome (MeshNode ι) Bytes Reply Publication) : Prop where
  /-- At the limit it is refused at once. -/
  refused : ring.limit ≤ p.hopCount →
    o = ⟨ring.limitReply, [], [ring.visit journey entry p rawBody 0]⟩
  /-- Within the limit it is published once, with the target's hops. -/
  published : ∀ c, c = max (p.hopCount + 1) ring.target → p.hopCount < ring.limit →
    c ≤ ring.limit →
    o.reply.httpStatus = 202 ∧
    o.visited = (List.range (c - p.hopCount)).map (ring.visit journey entry p rawBody) ++
      [(.bridge, (ring.packetAt journey entry p (c - p.hopCount)).modelDumpJson)] ∧
    o.effects = [⟨(ring.packetAt journey entry p (c - p.hopCount)).modelDumpJson,
      p.idempotencyKey ring.prim⟩] ∧
    (ring.packetAt journey entry p (c - p.hopCount)).hopCount = c
  /-- Beyond the limit it is dropped by the relay that sees the limit's hops. -/
  dropped : ∀ c, c = max (p.hopCount + 1) ring.target → p.hopCount < ring.limit →
    ring.limit < c →
    isSuccess o.reply.httpStatus = false ∧ o.effects = [] ∧
    o.visited = (List.range (ring.limit - p.hopCount + 1)).map
      (ring.visit journey entry p rawBody) ∧
    (ring.packetAt journey entry p (ring.limit - p.hopCount)).hopCount = ring.limit ∧
    ring.handle journey (ring.limit - p.hopCount)
      (ring.visit journey entry p rawBody (ring.limit - p.hopCount)).1
      (ring.visit journey entry p rawBody (ring.limit - p.hopCount)).2 =
        .answer ring.limitReply []
  /-- Each visit finds the packet with one record more for each visit before, in
  their order, behind the hops of the entry; the signed region and the signature
  are those of the entry. -/
  visits : ∀ k, readPacket ring.web (ring.visit journey entry p rawBody k).2 =
      .ok (ring.packetAt journey entry p k) ∧
    (ring.packetAt journey entry p k).hops =
      p.hops ++ (List.range k).map (ring.hopAt journey entry) ∧
    (ring.packetAt journey entry p k).signingBytes = p.signingBytes ∧
    (ring.packetAt journey entry p k).signature = p.signature

/-- **Routing around a ring ends, with exact hop arithmetic.** -/
theorem ring_routing (ring : Ring ι) (hreads : ring.web.pydantic.ReadsBack) (journey : Journey)
    (hsmooth : Journey.Smooth journey) (entry : ι) (rawBody : Bytes) (p : PaymentPacket)
    (hread : readPacket ring.web rawBody = .ok p)
    (hverify : p.verify ring.prim ring.bridge.senderPublicKey = .ok ()) :
    ∃ o, (∃ fuel₀, ∀ fuel, fuel₀ ≤ fuel → ring.post journey fuel entry rawBody = some o) ∧
      Routed ring journey entry p rawBody o := by
  have hvisits : ∀ k, readPacket ring.web (ring.visit journey entry p rawBody k).2 =
        .ok (ring.packetAt journey entry p k) ∧
      (ring.packetAt journey entry p k).hops =
        p.hops ++ (List.range k).map (ring.hopAt journey entry) ∧
      (ring.packetAt journey entry p k).signingBytes = p.signingBytes ∧
      (ring.packetAt journey entry p k).signature = p.signature :=
    fun k => ⟨read_visit journey entry hreads hread k, packetAt_hops k, packetAt_signed k⟩
  by_cases hentry : p.hopCount < ring.limit
  · by_cases hlimit : max (p.hopCount + 1) ring.target ≤ ring.limit
    · obtain ⟨n, hn⟩ : ∃ n, max (p.hopCount + 1) ring.target = p.hopCount + (n + 1) :=
        ⟨max (p.hopCount + 1) ring.target - p.hopCount - 1, by omega⟩
      obtain ⟨reply, hreply, hcall⟩ := travels_to_bridge journey entry hreads hread hverify
        hsmooth (n := n) (k := 0) (by omega) hlimit
      refine ⟨_, ⟨_, fun fuel hfuel => call_stable hcall hfuel⟩, fun h => by omega, ?_,
        fun c hc _ h => by omega, hvisits⟩
      intro c hc _ _
      obtain rfl : c = p.hopCount + (n + 1) := hc.trans hn
      rw [Nat.add_sub_cancel_left, Nat.zero_add]
      exact ⟨hreply, by rw [List.range_eq_range'], rfl, packetAt_hopCount _⟩
    · obtain ⟨reply, hreply, hcall⟩ := travels_to_limit journey entry hreads hread hverify
        hsmooth (n := ring.limit - p.hopCount) (k := 0) (by omega) (by omega) hentry
      refine ⟨_, ⟨_, fun fuel hfuel => call_stable hcall hfuel⟩, fun h => by omega,
        fun c hc _ h => by omega, ?_, hvisits⟩
      intro c hc _ _
      refine ⟨hreply, rfl, by rw [List.range_eq_range'], ?_,
        visit_refused journey entry hreads hread hverify (by omega)⟩
      rw [packetAt_hopCount]
      omega
  · refine ⟨⟨ring.limitReply, [], [ring.visit journey entry p rawBody 0]⟩,
      ⟨1, fun fuel hfuel => call_stable
        (call_answer (visit_refused journey entry hreads hread hverify (by omega))) hfuel⟩,
      fun _ => rfl, fun c hc h => absurd h hentry, fun c hc h => absurd h hentry, hvisits⟩

/-- The reference mesh as a ring of one relay. -/
noncomputable def referenceRing : Ring Unit where
  toNetwork := Reference.network
  next _ := ()
  target := 2
  limit := 5
  target_eq _ := rfl
  limit_eq _ := rfl
  key_eq _ := rfl
  nodeId_ok _ := show matchesIdentifier "mesh-node-1" = true by decide
  relayUrl := Reference.network_relayUrl
  bridgeUrl := Reference.network_bridgeUrl

/-- The payment visits the relay twice before it is published. -/
theorem ring_routing_payment :
    ∃ o, (∃ fuel₀, ∀ fuel, fuel₀ ≤ fuel → referenceRing.post Reference.smooth fuel ()
        Reference.payment.modelDumpJson = some o) ∧
      Routed referenceRing Reference.smooth () Reference.payment Reference.payment.modelDumpJson
        o :=
  ring_routing referenceRing Reference.web_readsBack Reference.smooth ⟨fun _ => rfl, rfl⟩ ()
    Reference.payment.modelDumpJson Reference.payment Reference.read_payment
    Reference.genuine_payment.verified

end MeshSettle.Theorems.Routing
