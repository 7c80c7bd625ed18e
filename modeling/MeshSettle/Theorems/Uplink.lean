import MeshSettle.Mesh.Uplink
import MeshSettle.Theorems.Handoff
import MeshSettle.Theorems.Honest

/-!
# What the device is told of its submission

The device, the relays and the bridge together: when the device answers 202, the
packet of the request is on the queue, under the identity the device reports,
and behind one hop for each relay. When it answers 502 and no reply was lost on
the way, nothing is on the queue, and the payer may ask again. A mesh of honest
relays never makes a submission fail in another way.
-/

namespace MeshSettle.Theorems.Uplink

open Lib.Chain
open MeshSettle.Theorems.Honest (withHops)
open MeshSettle.Theorems.Handoff (handoff handle_pass hopsLeft hopsLeft_pass)

section Chain

variable {ι : Type} {net : Network ι} {journey : Journey} {rawBody : Bytes}

/-- A relay that accepts a packet reports its id and the hop it has added. -/
theorem accepted_reply (hreads : net.web.pydantic.ReadsBack) {fuel : Nat} {entry : ι}
    {p : PaymentPacket} {o : Outcome (MeshNode ι) Bytes Reply Publication}
    (h : net.post journey fuel entry p.modelDumpJson = some o)
    (hsuccess : isSuccess o.reply.httpStatus = true) :
    ∃ r, o.reply = .relayed r ∧ r.hopCount = p.hopCount + 1 ∧
      (r.status = .relayed ∨ r.status = .bridged) := by
  have hpassed : ∀ {next req' finish} {answer : Answer Unserved Reply}, net.handle journey 0
      (.relay entry) p.modelDumpJson = .pass next req' finish →
      isSuccess (finish answer).httpStatus = true → ∃ r, finish answer = .relayed r ∧
        r.hopCount = p.hopCount + 1 ∧ (r.status = .relayed ∨ r.status = .bridged) := by
    intro next req' finish answer hpass hok
    obtain ⟨i, q, hop, -, hread, -, -, -, rfl⟩ := handle_pass hreads hpass
    obtain rfl : p = q := Except.ok.inj ((readPacket_modelDumpJson hreads p).symm.trans hread)
    rw [relayReply_httpStatus] at hok
    split at hok
    · next hacc =>
        refine ⟨_, if_pos hacc, PaymentPacket.appendHop_hopCount .., ?_⟩
        dsimp only [RelayConfig.nextDestination]
        split
        · exact .inr rfl
        · exact .inl rfl
    · cases hok
  unfold Network.post at h
  cases fuel with
  | zero => cases h
  | succ fuel =>
      cases call_cases h with
      | @answered reply effects hhandle =>
          -- a relay that answers on its own has refused
          have hcase := relay_cases net.prim net.web net.resolve (net.relays entry) (journey.now 0)
            p.modelDumpJson
          rw [show relay net.prim net.web net.resolve (net.relays entry) (journey.now 0)
            p.modelDumpJson = .answer reply effects from hhandle] at hcase
          cases hcase with
          | refused hfail => cases hsuccess.symm.trans hfail
      | refused hhandle _ => exact hpassed hhandle hsuccess
      | delivered hhandle _ _ => exact hpassed hhandle hsuccess
      | replyLost hhandle _ _ => exact hpassed hhandle hsuccess

/-- A message is named after the packet in it. -/
theorem message_named {fuel i : Nat} {node : MeshNode ι}
    {o : Outcome (MeshNode ι) Bytes Reply Publication}
    (h : call (net.handle journey) journey.forwarding fuel i node rawBody = some o) :
    ∀ pub ∈ o.effects, ∃ q : PaymentPacket, pub = ⟨q.modelDumpJson, q.idempotencyKey net.prim⟩ := by
  refine call_rule (P := fun _ _ _ o => ∀ pub ∈ o.effects, ∃ q : PaymentPacket,
    pub = ⟨q.modelDumpJson, q.idempotencyKey net.prim⟩) ?_ ?_ ?_ ?_ h
  · intro i node body reply effects hanswer pub hpub
    cases node with
    | relay r =>
        have hcase := relay_cases net.prim net.web net.resolve (net.relays r) (journey.now i) body
        rw [show relay net.prim net.web net.resolve (net.relays r) (journey.now i) body =
          .answer reply effects from hanswer] at hcase
        cases hcase with
        | refused _ => cases hpub
    | bridge =>
        cases hanswer
        rcases bridge_cases net.prim net.web net.bridge journey.publish body with
          ⟨-, hnone⟩ | ⟨q, -, -, -, hout⟩
        · rw [hnone] at hpub
          cases hpub
        · rw [hout] at hpub
          exact ⟨q, List.mem_singleton.mp hpub⟩
  · intro i node body next req' finish r _ _ pub hpub
    cases hpub
  · intro i node body next req' finish o _ _ ih
    exact ih
  · intro i node body next req' finish o _ _ ih
    exact ih

/-- What agrees with a packet but for more hops is the packet behind them. -/
theorem eq_withHops {p q : PaymentPacket} {hops : List HopRecord}
    (hsigned : q.signingBytes = p.signingBytes) (hsignature : q.signature = p.signature)
    (hhops : q.hops = p.hops ++ hops) : q = withHops p hops := by
  obtain ⟨hid, hsender, hcreated, henvelope⟩ := PaymentPacket.signed_eq hsigned
  obtain ⟨id, sender, created, envelope, signature, hops', length⟩ := q
  dsimp only at hid hsender hcreated henvelope hsignature hhops
  subst hid hsender hcreated henvelope hsignature hhops
  rfl

/-- Every message carries the packet that was posted, behind some hops, and is
named after it. -/
theorem message_carries (hreads : net.web.pydantic.ReadsBack) {fuel : Nat} {entry : ι}
    {p : PaymentPacket} {o : Outcome (MeshNode ι) Bytes Reply Publication}
    (h : net.post journey fuel entry p.modelDumpJson = some o) {pub : Publication}
    (hpub : pub ∈ o.effects) : pub.messageId = p.idempotencyKey net.prim ∧
      ∃ hops, pub.body = (withHops p hops).modelDumpJson := by
  obtain ⟨p', hread, q, hops, hbody, hsigned, hsignature, hhops, -⟩ :=
    (handoff hreads h).carried pub hpub
  obtain rfl : p = p' := Except.ok.inj ((readPacket_modelDumpJson hreads p).symm.trans hread)
  obtain ⟨q', hpub'⟩ := message_named h pub hpub
  have hdump : q'.modelDumpJson = q.modelDumpJson := by rw [← hbody, hpub']
  have hread' := readPacket_modelDumpJson hreads q'
  rw [hdump, readPacket_modelDumpJson hreads q] at hread'
  refine ⟨?_, hops, ?_⟩
  · rw [hpub', ← Except.ok.inj hread']
    simp only [PaymentPacket.idempotencyKey, hsigned]
  · rw [hbody, eq_withHops hsigned hsignature hhops]

end Chain

/-- What a submission leaves behind. -/
structure Submitted (prim : Primitives) (p : PaymentPacket) (lossless : Prop) (reply : SenderReply)
    (published : List Publication) : Prop where
  /-- It answers 202 or 502, and nothing else. -/
  answered : reply.httpStatus = 202 ∨ reply.httpStatus = 502
  /-- On a 202 the packet is on the queue, and the reply is about the packet. -/
  accepted : reply.httpStatus = 202 → published ≠ [] ∧ ∃ r, reply = .submitted r ∧
    r.packetId = p.packetId ∧ r.idempotencyKey = p.idempotencyKey prim ∧
    (r.status = .relayed ∨ r.status = .bridged) ∧ r.hopCount = 1
  /-- On a 502 it is not, unless a reply was lost. -/
  refused : lossless → reply.httpStatus = 502 → published = []
  /-- What is on the queue is the packet, under its key. -/
  carried : ∀ pub ∈ published, pub.messageId = p.idempotencyKey prim ∧
    ∃ hops, pub.body = (withHops p hops).modelDumpJson
  once : published.length ≤ 1

/-- What the device makes of its post. -/
theorem submitted_posted {ι : Type} {net : Network ι} (hreads : net.web.pydantic.ReadsBack)
    {jsonLoads : Bytes → Except LoadsFailure Lib.Schema.Json} (hloads : LoadsBack jsonLoads)
    (plain : Nat → Bytes) {journey : Journey} (fate : Fate Unserved) {fuel : Nat} {entry : ι}
    {p : PaymentPacket} (hhops : p.hops = []) (node : SenderNode)
    {o : Outcome (MeshNode ι) Bytes Reply Publication}
    (h : net.post journey fuel entry p.modelDumpJson = some o) :
    Submitted net.prim p (Lossless fate journey)
      (handOver net.prim jsonLoads node (fun _ => (posted plain fate o).1) p)
      (posted plain fate o).2 := by
  have hhanded := handoff hreads h
  -- what was posted in vain: the device answers 502
  have hfailed : ∀ published : List Publication, (∀ pub ∈ published, pub ∈ o.effects) →
      published.length ≤ 1 → (Lossless fate journey → published = []) →
      Submitted net.prim p (Lossless fate journey) handoffFailed published := by
    intro published hsub hlength hnone
    exact
      { answered := .inr rfl
        accepted := fun h => by cases h
        refused := fun hlossless _ => hnone hlossless
        carried := fun pub hpub => message_carries hreads h (hsub pub hpub)
        once := hlength }
  cases fate with
  | refused r =>
      cases r with
      | connectError => exact hfailed [] (fun pub hpub => nomatch hpub) (Nat.zero_le 1) fun _ => rfl
      | turnedAway httpStatus hturned =>
          unfold handOver
          dsimp only [posted]
          rw [hturned]
          exact hfailed [] (fun pub hpub => nomatch hpub) (Nat.zero_le 1) fun _ => rfl
  | replyLost =>
      exact hfailed o.effects (fun pub hpub => hpub) hhanded.once fun hlossless =>
        absurd rfl hlossless.1
  | delivered =>
      unfold handOver
      dsimp only [posted]
      by_cases hsuccess : isSuccess o.reply.httpStatus = true
      · -- the relay has accepted the packet, and the device reads its report
        obtain ⟨r, hreply, hcount, hstatus⟩ := accepted_reply hreads h hsuccess
        have hone : r.hopCount = 1 := by
          rw [hcount, PaymentPacket.hopCount, hhops]
          rfl
        have hreport := reported_relayed hloads plain (r := r) (by omega)
        rw [if_pos hsuccess, hreply, hreport]
        exact
          { answered := .inl rfl
            accepted := fun _ => ⟨(hhanded.accepted hsuccess).2, _, rfl, rfl, rfl, hstatus, by
              rw [hone]
              rfl⟩
            refused := fun _ hfail => by cases hfail
            carried := fun pub hpub => message_carries hreads h hpub
            once := hhanded.once }
      · rw [if_neg hsuccess]
        refine hfailed o.effects (fun pub hpub => hpub) hhanded.once fun hlossless => ?_
        exact hhanded.failed hlossless.2 (Bool.not_eq_true _ |>.mp hsuccess)

/-- What an accepted request leaves behind, with any fuel that is enough. -/
theorem submitted_of_submit {ι : Type} {net : Network ι} (hreads : net.web.pydantic.ReadsBack)
    {device : Device} {jsonLoads : Bytes → Except LoadsFailure Lib.Schema.Json}
    (hloads : LoadsBack jsonLoads) {plain : Nat → Bytes} {journey : Journey} {fate : Fate Unserved}
    {fuel : Nat} {entry : ι} {draws : Draws} {rawBody : Bytes} {request : TransactionRequest}
    (hrequest : readBody device.web TransactionRequest.validate rawBody = .ok request)
    {answer : SenderReply × List Publication}
    (h : net.submit device jsonLoads plain journey fate fuel entry draws rawBody = some answer) :
    Submitted net.prim (Order.packet net.prim device ⟨request, draws⟩) (Lossless fate journey)
      answer.1 answer.2 := by
  have hsubmit : ∀ mesh, submitPacket net.prim device.sealer device.web jsonLoads device.node draws
      mesh rawBody = handOver net.prim jsonLoads device.node mesh
        (Order.packet net.prim device ⟨request, draws⟩) := fun mesh => submitPacket_ok hrequest
  have hhops : (Order.packet net.prim device ⟨request, draws⟩).hops = [] := rfl
  unfold Network.submit at h
  rw [hrequest] at h
  dsimp only at h
  obtain ⟨o, ho, rfl⟩ := Option.map_eq_some_iff.mp h
  rw [hsubmit]
  exact submitted_posted hreads hloads plain fate hhops device.node ho

end MeshSettle.Theorems.Uplink
