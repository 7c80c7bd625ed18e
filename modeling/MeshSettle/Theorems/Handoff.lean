import Mathlib.Data.Fintype.Lattice
import Mathlib.Order.ConditionallyCompleteLattice.Finset
import Mathlib.Order.Lattice.Nat
import MeshSettle.Mesh.Reference

/-!
# An accepted handoff is a queued packet

Whatever happens to the forwardings, a relay answers 202 only if the bridge's
publisher has returned for the packet, with one hop more for each relay on the
way. While no reply is lost, the converse holds too. The proof is the
induction over the chain of calls: `HandedOff` is what a call of one node leaves
behind.
-/

namespace MeshSettle.Theorems.Handoff

open Lib.Chain

variable {ι : Type}

/-- The relays among the nodes of a chain. -/
def relaysOf (visited : List (MeshNode ι × Bytes)) : List ι :=
  visited.filterMap fun v =>
    match v.1 with
    | .relay i => some i
    | .bridge => none

/-- The message is the packet, with its signed region and its signature, behind
one more hop for each relay on its way, in their order. -/
def Carries (net : Network ι) (p : PaymentPacket) (visited : List (MeshNode ι × Bytes))
    (pub : Publication) : Prop :=
  ∃ (q : PaymentPacket) (records : List HopRecord), pub.body = q.modelDumpJson ∧
    q.signingBytes = p.signingBytes ∧ q.signature = p.signature ∧ q.hops = p.hops ++ records ∧
    records.map (fun hop => hop.nodeId.1) =
      (relaysOf visited).map fun i => (net.relays i).config.nodeId

/-- What a call leaves behind: at most one message, which carries the packet of
the request; a success only with a message; and, unless replies are lost, a
message only with a success. -/
structure HandedOff (net : Network ι) (journey : Journey) (rawBody : Bytes)
    (o : Outcome (MeshNode ι) Bytes Reply Publication) : Prop where
  carried : ∀ pub ∈ o.effects, ∃ p, readPacket net.web rawBody = .ok p ∧
    Carries net p o.visited pub
  once : o.effects.length ≤ 1
  accepted : isSuccess o.reply.httpStatus = true → o.reply.httpStatus = 202 ∧ o.effects ≠ []
  failed : (∀ i, journey.forwarding i ≠ .replyLost) → isSuccess o.reply.httpStatus = false →
    o.effects = []

section Chain

variable {net : Network ι} {journey : Journey} {rawBody : Bytes}

/-- A failure without a message. -/
theorem handoff_failed {reply : Reply} {visited : List (MeshNode ι × Bytes)}
    (h : isSuccess reply.httpStatus = false) :
    HandedOff net journey rawBody ⟨reply, [], visited⟩ where
  carried pub hpub := by cases hpub
  once := Nat.zero_le 1
  accepted hsuccess := by cases hsuccess.symm.trans h
  failed _ _ := rfl

/-- The bridge's message is the packet as it arrived. -/
theorem Carries.self {p : PaymentPacket} {pub : Publication} (h : pub.body = p.modelDumpJson) :
    Carries net p [(.bridge, rawBody)] pub :=
  ⟨p, [], h, rfl, rfl, (List.append_nil _).symm, rfl⟩

/-- The bridge at the end of a chain. -/
theorem handoff_bridge (net : Network ι) (journey : Journey) (rawBody : Bytes) :
    HandedOff net journey rawBody
      ⟨(bridge net.prim net.web net.bridge journey.publish rawBody).1,
        (bridge net.prim net.web net.bridge journey.publish rawBody).2,
        [(.bridge, rawBody)]⟩ := by
  rcases bridge_cases net.prim net.web net.bridge journey.publish rawBody with
    ⟨hfail, hnone⟩ | ⟨p, hread, -, -, hout⟩
  · rw [hnone]
    exact handoff_failed hfail
  · rw [hout]
    refine ⟨fun pub hpub => ?_, Nat.le_refl 1, fun _ => ⟨rfl, by simp⟩, fun _ h => by cases h⟩
    exact ⟨p, hread, .self (by rw [List.mem_singleton.mp hpub])⟩

/-- A relay in front of a chain: its hop comes first. -/
theorem Carries.cons {p : PaymentPacket} {i : ι} {hop : HopRecord}
    {visited : List (MeshNode ι × Bytes)} {pub : Publication}
    (h : Carries net (p.appendHop hop) visited pub)
    (hid : hop.nodeId.1 = (net.relays i).config.nodeId) :
    Carries net p ((.relay i, rawBody) :: visited) pub := by
  obtain ⟨q, records, hbody, hsigned, hsignature, hhops, hnodes⟩ := h
  refine ⟨q, hop :: records, hbody, hsigned, hsignature, ?_, ?_⟩
  · rw [hhops, PaymentPacket.appendHop_hops, List.append_assoc]
    rfl
  · rw [List.map_cons, hid, hnodes]
    rfl

/-- What a relay passes on is read by the next node as the packet with the
relay's hop. -/
theorem handle_pass (hreads : net.web.pydantic.ReadsBack) {i : Nat} {node next : MeshNode ι}
    {req' : Bytes} {finish : Answer Unserved Reply → Reply}
    (h : net.handle journey i node rawBody = .pass next req' finish) :
    ∃ r p hop, node = .relay r ∧ readPacket net.web rawBody = .ok p ∧
      (p.hopCount : Int) < (net.relays r).config.hopLimit ∧
      hop.nodeId.1 = (net.relays r).config.nodeId ∧
      readPacket net.web req' = .ok (p.appendHop hop) ∧
      finish = relayReply (net.relays r).config (p.appendHop hop) := by
  cases node with
  | bridge => cases h
  | relay r =>
      have hcase := relay_cases net.prim net.web net.resolve (net.relays r) (journey.now i) rawBody
      rw [show relay net.prim net.web net.resolve (net.relays r) (journey.now i) rawBody = _
        from h] at hcase
      cases hcase with
      | @forwarded p hop _ hread _ hlimit hid _ =>
          exact ⟨r, p, hop, rfl, hread, hlimit, hid, readPacket_modelDumpJson hreads _, rfl⟩

/-- A node that answers. -/
theorem handle_answer {i : Nat} {node : MeshNode ι} {reply : Reply}
    {effects : List Publication} (h : net.handle journey i node rawBody = .answer reply effects) :
    HandedOff net journey rawBody ⟨reply, effects, [(node, rawBody)]⟩ := by
  cases node with
  | bridge =>
      cases h
      exact handoff_bridge net journey rawBody
  | relay r =>
      have hcase := relay_cases net.prim net.web net.resolve (net.relays r) (journey.now i) rawBody
      rw [show relay net.prim net.web net.resolve (net.relays r) (journey.now i) rawBody = _
        from h] at hcase
      cases hcase with
      | refused hfail => exact handoff_failed hfail

/-- A relay whose forwarding was not accepted answers 502. -/
theorem relayReply_rejected {config : RelayConfig} {p : PaymentPacket}
    {answer : Answer Unserved Reply} (h : Accepted answer = false) :
    isSuccess (relayReply config p answer).httpStatus = false := by
  rw [relayReply_httpStatus, h]
  rfl

/-- **What holds of the rest of the chain holds of the relay before it.** -/
theorem HandedOff.relay (hreads : net.web.pydantic.ReadsBack) {i : Nat} {node next : MeshNode ι}
    {req' : Bytes} {finish : Answer Unserved Reply → Reply}
    {o : Outcome (MeshNode ι) Bytes Reply Publication} {answer : Answer Unserved Reply}
    (hpass : net.handle journey i node rawBody = .pass next req' finish)
    (h : HandedOff net journey req' o)
    (hanswer : answer = .reply o.reply ∨ answer = .lost ∧ journey.forwarding i = .replyLost) :
    HandedOff net journey rawBody ⟨finish answer, o.effects, (node, rawBody) :: o.visited⟩ := by
  obtain ⟨r, p, hop, rfl, hread, -, hid, hread', rfl⟩ := handle_pass hreads hpass
  refine ⟨fun pub hpub => ?_, h.once, fun hsuccess => ?_, fun hnone hfail => ?_⟩
  · obtain ⟨p', hp', hcarries⟩ := h.carried pub hpub
    obtain rfl : p.appendHop hop = p' := Except.ok.inj (hread'.symm.trans hp')
    exact ⟨p, hread, hcarries.cons hid⟩
  · -- a success is the next node's success
    have hstatus :
        (relayReply (net.relays r).config (p.appendHop hop) answer).httpStatus = 202 := by
      rw [relayReply_httpStatus] at hsuccess ⊢
      split at hsuccess
      · next hacc => rw [if_pos hacc]
      · cases hsuccess
    obtain ⟨reply, hreply, hok⟩ := relayReply_success hsuccess
    rcases hanswer with rfl | ⟨rfl, -⟩
    · cases hreply
      exact ⟨hstatus, (h.accepted hok).2⟩
    · cases hreply
  · rcases hanswer with rfl | ⟨-, hlost⟩
    · refine h.failed hnone ?_
      rw [relayReply_httpStatus] at hfail
      split at hfail
      · cases hfail
      · next hacc => exact Bool.not_eq_true _ |>.mp hacc
    · exact absurd hlost (hnone i)

/-- **Every chain of calls is a handoff.** -/
theorem handoff (hreads : net.web.pydantic.ReadsBack) {fuel i : Nat} {node : MeshNode ι}
    {o : Outcome (MeshNode ι) Bytes Reply Publication}
    (h : call (net.handle journey) journey.forwarding fuel i node rawBody = some o) :
    HandedOff net journey rawBody o := by
  refine call_rule (P := fun _ _ body o => HandedOff net journey body o) ?_ ?_ ?_ ?_ h
  · intro i node body reply effects hanswer
    exact handle_answer hanswer
  · intro i node body next req' finish r hpass _
    obtain ⟨r', p, hop, -, -, -, -, -, rfl⟩ := handle_pass hreads hpass
    exact handoff_failed (relayReply_rejected rfl)
  · intro i node body next req' finish o hpass _ ih
    exact ih.relay hreads hpass (.inl rfl)
  · intro i node body next req' finish o hpass hlost ih
    exact ih.relay hreads hpass (.inr ⟨rfl, hlost⟩)

/-! ## Every chain ends -/

variable [Fintype ι]

/-- The largest hop limit of the network. -/
def maxHopLimit (net : Network ι) : Nat :=
  Finset.univ.sup fun i => (net.relays i).config.hopLimit.toNat

/-- How many more relays can pass a body on. -/
def hopsLeft (net : Network ι) (node : MeshNode ι) (rawBody : Bytes) : Nat :=
  match node, readPacket net.web rawBody with
  | .relay _, .ok p => maxHopLimit net - p.hopCount + 1
  | .relay _, .error _ => 1
  | .bridge, _ => 0

/-- Every forwarding uses up a hop. -/
theorem hopsLeft_pass (hreads : net.web.pydantic.ReadsBack) (i : Nat) (node : MeshNode ι)
    (rawBody : Bytes) (next : MeshNode ι) (req' : Bytes)
    (finish : Answer Unserved Reply → Reply)
    (h : net.handle journey i node rawBody = .pass next req' finish) :
    hopsLeft net next req' < hopsLeft net node rawBody := by
  obtain ⟨r, p, hop, rfl, hread, hlimit, -, hread', -⟩ := handle_pass hreads h
  have hmax : (net.relays r).config.hopLimit.toNat ≤ maxHopLimit net :=
    Finset.le_sup (f := fun i => (net.relays i).config.hopLimit.toNat) (Finset.mem_univ r)
  have hnode : hopsLeft net (.relay r) rawBody = maxHopLimit net - p.hopCount + 1 := by
    simp only [hopsLeft, hread]
  rw [hnode]
  cases next with
  | bridge =>
      rw [hopsLeft]
      omega
  | relay r' =>
      simp only [hopsLeft, hread', PaymentPacket.appendHop_hopCount]
      omega

end Chain

/-- **An accepted handoff is a queued packet.** A packet posted to any relay of
a finite network travels to an end. If the relay answers 202, the publisher
has returned for a message that carries the packet; and if no reply is lost,
it has returned exactly once on a 202, and not at all otherwise. -/
theorem accepted_handoff_is_queued [Fintype ι] (net : Network ι)
    (hreads : net.web.pydantic.ReadsBack) (journey : Journey) (entry : ι) (rawBody : Bytes) :
    ∃ o : Outcome (MeshNode ι) Bytes Reply Publication,
      (∃ fuel₀, ∀ fuel, fuel₀ ≤ fuel → net.post journey fuel entry rawBody = some o) ∧
      (o.reply.httpStatus = 202 → ∃ p, readPacket net.web rawBody = .ok p ∧
        ∃ pub ∈ o.effects, Carries net p o.visited pub) ∧
      ((∀ i, journey.forwarding i ≠ .replyLost) →
        (o.reply.httpStatus = 202 → o.effects.length = 1) ∧
        (o.reply.httpStatus ≠ 202 → o.effects = [])) := by
  obtain ⟨o, ho⟩ : ∃ o, net.post journey (hopsLeft net (.relay entry) rawBody + 1) entry rawBody =
      some o :=
    call_total (hopsLeft net) (hopsLeft_pass hreads) (Nat.lt_succ_self _)
  have h := handoff hreads ho
  have hqueued : o.reply.httpStatus = 202 → o.effects ≠ [] := by
    intro hstatus
    refine (h.accepted ?_).2
    rw [hstatus]
    rfl
  refine ⟨o, ⟨_, fun fuel hfuel => call_stable ho hfuel⟩, fun hstatus => ?_,
    fun hnone => ⟨fun hstatus => ?_, fun hstatus => ?_⟩⟩
  · obtain ⟨pub, hpub⟩ := List.exists_mem_of_ne_nil _ (hqueued hstatus)
    obtain ⟨p, hread, hcarries⟩ := h.carried pub hpub
    exact ⟨p, hread, pub, hpub, hcarries⟩
  · exact Nat.le_antisymm h.once (List.length_pos_iff.mpr (hqueued hstatus))
  · refine h.failed hnone (Bool.not_eq_true _ |>.mp fun hsuccess => ?_)
    exact hstatus (h.accepted hsuccess).1

theorem accepted_handoff_is_queued_payment :
    ∃ o : Outcome (MeshNode Unit) Bytes Reply Publication,
      (∃ fuel₀, ∀ fuel, fuel₀ ≤ fuel → Reference.network.post Reference.smooth fuel ()
        Reference.payment.modelDumpJson = some o) ∧
      (o.reply.httpStatus = 202 →
        ∃ p, readPacket Reference.web Reference.payment.modelDumpJson = .ok p ∧
          ∃ pub ∈ o.effects, Carries Reference.network p o.visited pub) ∧
      ((∀ i, Reference.smooth.forwarding i ≠ .replyLost) →
        (o.reply.httpStatus = 202 → o.effects.length = 1) ∧
        (o.reply.httpStatus ≠ 202 → o.effects = [])) :=
  accepted_handoff_is_queued Reference.network Reference.web_readsBack Reference.smooth ()
    Reference.payment.modelDumpJson

end MeshSettle.Theorems.Handoff
