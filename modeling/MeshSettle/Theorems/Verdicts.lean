import MeshSettle.Settlement.Genuine
import MeshSettle.Theorems.Evidence

/-!
# The two tables never contradict each other

Every row of `rejected_packets` tells the truth about a body that was
delivered: its reason is a check that the body fails, and its key and packet id
are the packet's. So a packet that is settled is never on record as malformed
or as impossible to decrypt. It may be on record with a forged signature, which
anyone can put on its signed region, or as stale, which only time decides.
-/

namespace MeshSettle.Theorems.Verdicts

open Lib.Await Lib.Interleave Lib.Transition

/-! ## What a rejection row says -/

section Rows

variable {ι : Type} {env : Env}

/-- The row is the record of a check that the delivery fails. -/
inductive Records (env : Env) (d : Delivery ι) : RejectedPacket → Prop
  | refused {r : Refusal} : Refused env d r → Records env d r.row
  | flawed {f : Flawed env} : f.toAdmitted.For d →
      Records env d (rejectedRow env f.packet f.code f.detail)

/-- What a call is about to record is so. -/
theorem Phase.For.records {d : Delivery ι} {ph : Phase env} {row : RejectedPacket}
    {k : Except Exc (Resp (.insertRejection row)) → Phase env} (h : ph.For d)
    (hview : ph.view = .await (.insertRejection row) k) : Records env d row := by
  cases ph with
  | refusing r =>
      cases hview
      exact .refused (refused_of_start h)
  | rejecting f =>
      cases hview
      exact .flawed h
  | _ => cases hview

/-- A packet outside its window is refused with one of two codes. -/
theorem staleness_code {packet : PaymentPacket} {now : Int} {code : ErrorCode} {detail : String}
    (h : staleness env packet now = some (code, detail)) :
    code = .packetExpired ∨ code = .packetNotYetValid := by
  unfold staleness at h
  dsimp only at h
  split at h
  · cases h
    exact .inl rfl
  · split at h
    · cases h
      exact .inr rfl
    · cases h

end Rows

/-! ## Every row is the record of a delivery -/

section Runs

variable {ι : Type} [DecidableEq ι] {env : Env}

/-- A step adds one row at most, the one that a call asks for. -/
theorem rejected_new {l : ProcessorLabel ι} {s s' : Phases ι env}
    (h : Phases.step env l s = some s') :
    s'.store.rejected = s.store.rejected ∨
      ∃ c clock d ph log row k, s.calls c = some ⟨d, .running ph, log⟩ ∧
        ph.view = .await (.insertRejection row) k ∧
        s'.store.rejected = s.store.rejected ++ [⟨row, clock⟩] := by
  have hafter : ∀ d (ph : Phase env) (w : World ι), (w.after d ph).rejected = w.rejected := by
    intro d ph w
    cases ph <;> rfl
  cases l with
  | start c d =>
      cases Phases.step_cases h with
      | start _ => exact .inl (hafter _ _ _)
  | crash i =>
      cases h
      exact .inl rfl
  | disturb e =>
      cases h
      cases e <;> exact .inl rfl
  | io c mode clock =>
      obtain ⟨d, ph, log, op, k, hc, hview⟩ := Phases.step_io_inv h
      rw [Phases.step_io mode clock hc hview] at h
      cases h
      rw [Phases.enter, hafter]
      cases op with
      | insertRejection row =>
          have hperform : (perform (.insertRejection row) clock s.store).1.rejected =
              s.store.rejected ∨ (perform (.insertRejection row) clock s.store).1.rejected =
              s.store.rejected ++ [⟨row, clock⟩] := by
            simp only [perform]
            split
            · exact .inr rfl
            · exact .inl rfl
          -- a lost reply leaves what a served call leaves
          have hadded : ∀ w : World ι, w.rejected = s.store.rejected ∨
              w.rejected = s.store.rejected ++ [⟨row, clock⟩] →
              w.rejected = s.store.rejected ∨ ∃ c clock d ph log row k,
                s.calls c = some ⟨d, .running ph, log⟩ ∧
                ph.view = .await (.insertRejection row) k ∧
                w.rejected = s.store.rejected ++ [⟨row, clock⟩] := fun w hw =>
            hw.imp_right fun hnew => ⟨c, clock, d, ph, log, row, k, hc, hview, hnew⟩
          cases mode with
          | served => exact hadded _ hperform
          | refused => exact .inl rfl
          | lost => exact hadded _ hperform
      | _ => cases mode <;> exact .inl (by simp [platform, Platform.answer, perform])

/-- The rows of the phases are records. -/
theorem rejected_records {ok : ProcessorLabel ι → Phases ι env → Prop} {s : Phases ι env}
    (h : Reach (Phases.step env) ok Phases.init s) :
    ∀ row ∈ s.store.rejected, ∃ c call, s.calls c = some call ∧
      Records env call.tag row.toRejectedPacket := by
  refine h.invariant (P := fun s : Phases ι env => ∀ row ∈ s.store.rejected,
    ∃ c call, s.calls c = some call ∧ Records env call.tag row.toRejectedPacket) ?_ ?_
  · intro row hrow
    cases hrow
  · intro s l s' hr ih _ hstep row hrow
    have hstay : ∀ {c call}, s.calls c = some call → Records env call.tag row.toRejectedPacket →
        ∃ c' call', s'.calls c' = some call' ∧ Records env call'.tag row.toRejectedPacket := by
      intro c call hc hrec
      obtain ⟨call', hc', htag⟩ := (Phases.step_cases hstep).calls_stay hc
      exact ⟨c, call', hc', by rw [htag]; exact hrec⟩
    have hold : row ∈ s.store.rejected → ∃ c' call', s'.calls c' = some call' ∧
        Records env call'.tag row.toRejectedPacket := by
      intro hmem
      obtain ⟨c, call, hc, hrec⟩ := ih row hmem
      exact hstay hc hrec
    rcases rejected_new hstep with hsame | ⟨c, clock, d, ph, log, row', k, hc, hview, hnew⟩
    · exact hold (hsame ▸ hrow)
    · rw [hnew] at hrow
      rcases List.mem_append.mp hrow with hmem | hmem
      · exact hold hmem
      · obtain rfl : row = ⟨row', clock⟩ := List.mem_singleton.mp hmem
        have hfor : ph.For d := Phases.coherent hr c _ hc
        exact hstay hc (Phase.For.records hfor hview)

/-- A signed packet was delivered. -/
def Delivered {P : Type} (env : Env)
    (s : State Op Resp Exc SettlementOutcome (Delivery ι) (World ι) P) (q : PaymentPacket) : Prop :=
  ∃ c call, s.calls c = some call ∧ SignedBody env call.tag.body q

/-- SHA-256 does not collide between signed packets that were delivered. -/
def NoCollision {P : Type} (env : Env)
    (s : State Op Resp Exc SettlementOutcome (Delivery ι) (World ι) P) : Prop :=
  ∀ q q', Delivered env s q → Delivered env s q' →
    env.prim.sha256 q.signingBytes = env.prim.sha256 q'.signingBytes →
      q.signingBytes = q'.signingBytes

omit [DecidableEq ι] in
/-- An admitted packet was delivered. -/
theorem delivered_admitted {s : Phases ι env} {c : Nat} {call : PhaseCall ι env}
    (hc : s.calls c = some call) {a : Admitted env} (ha : a.For call.tag) :
    Delivered env s a.packet :=
  ⟨c, call, hc, ha.1 ▸ a.parsed, a.verified⟩

/-- **The two tables never contradict each other.** In every run, whatever fails,
a key with a settlement has no rejection as malformed or as impossible to
decrypt. -/
theorem verdicts_agree {ok : ProcessorLabel ι → Processors ι → Prop} {s : Processors ι}
    (h : Reach (Processors.step env) ok Processors.init s) (hsha : NoCollision env s)
    {settled : SettlementRow} (hsettled : settled ∈ s.store.settlements.rows)
    {row : RejectedRow} (hrow : row ∈ s.store.rejected)
    (hkey : row.idempotencyKey = some settled.idempotencyKey) :
    row.reason ≠ ErrorCode.malformedPayload.value ∧
      row.reason ≠ ErrorCode.decryptionFailed.value := by
  obtain ⟨s, rfl, hr⟩ := Processors.reach_phases h
  obtain ⟨o, ho, c, call, hc, hfor⟩ := Phases.rows_opened hr settled hsettled
  obtain ⟨c', call', hc', hrec⟩ := rejected_records hr row hrow
  have hsettledKey : settled.idempotencyKey = o.key := congrArg Settlement.idempotencyKey ho
  rw [hsettledKey] at hkey
  -- a signed packet with the key is a copy of the settled one
  have hcopy : ∀ q, Delivered env s q → q.idempotencyKey env.prim = o.key →
      Alike env o.packet q := by
    intro q hq hqkey
    have hsame := hsha q o.packet (by
      obtain ⟨b, qcall, hb, hsigned⟩ := hq
      exact ⟨b, qcall.map Phase.prog, congrArg (Option.map (Call.map Phase.prog)) hb, hsigned⟩)
      ⟨c, call.map Phase.prog, congrArg (Option.map (Call.map Phase.prog)) hc,
        hfor.1 ▸ o.parsed, o.verified⟩ (sha256_of_key hqkey)
    exact alike_of_signingBytes env hsame
  generalize row.toRejectedPacket = packet at hrec hkey ⊢
  cases hrec with
  | refused href =>
      cases href with
      | body _ => cases hkey
      | signature _ _ =>
          show ErrorCode.invalidSignature.value ≠ _ ∧ ErrorCode.invalidSignature.value ≠ _
          exact ⟨by decide, by decide⟩
      | stale _ _ hs =>
          rcases staleness_code hs with rfl | rfl
          · show ErrorCode.packetExpired.value ≠ _ ∧ ErrorCode.packetExpired.value ≠ _
            exact ⟨by decide, by decide⟩
          · show ErrorCode.packetNotYetValid.value ≠ _ ∧ ErrorCode.packetNotYetValid.value ≠ _
            exact ⟨by decide, by decide⟩
      | @unbound p hp hv _ hb =>
          -- the settled copy is bound
          have halike := hcopy p ⟨c', call', hc', hp, hv⟩ (Option.some.inj hkey)
          exact absurd (halike.bound.mpr o.bound) hb
  | @flawed f hf =>
      -- the settled copy opened
      have halike := hcopy f.packet (delivered_admitted hc' hf) (Option.some.inj hkey)
      have hopens := halike.opened.symm.trans f.opened
      cases o.opened.symm.trans hopens

end Runs

/-! ## A settled packet and a forgery of it -/

section Forgery

open Reference

variable {env : Env}

/-- The packet under another signature. -/
def forgery (p : PaymentPacket) : PaymentPacket :=
  { p with signature := List.replicate 64 1, signature_length := rfl }

theorem forgery_unsigned {signed : Bytes → Bool} {digest : Bytes → Vector UInt8 32}
    (p : PaymentPacket) : ∃ msg, (forgery p).verify (primitives signed digest) [] =
      .error (.signatureVerificationError msg) := by
  have hne : ¬ (List.replicate 64 1 : Bytes) = stamp := by decide
  unfold PaymentPacket.verify verifySignature forgery
  simp only [primitives, hne, and_false, if_false]
  exact ⟨_, rfl⟩

/-- A packet that does not verify is refused. -/
theorem start_unsigned {rawBody : Bytes} {now : Int} {p : PaymentPacket} {msg : String}
    (hp : PaymentPacket.modelValidateJson env.pydantic rawBody = .ok p)
    (hv : p.verify env.prim env.senderPublicKey = .error (.signatureVerificationError msg)) :
    Phase.start env rawBody now = .refusing (refusePacket env p .invalidSignature
      "packet signature did not verify" (by decide)) := by
  unfold Phase.start
  split
  · next h => cases hp.symm.trans h
  · next h => cases hp.symm.trans h
  · next q h =>
      obtain rfl : p = q := Except.ok.inj (hp.symm.trans h)
      split
      · rfl
      · next hne h' =>
          exact absurd (Except.error.inj (hv.symm.trans h')) (fun heq => hne _ heq.symm)
      · next h' => cases hv.symm.trans h'

/-- What is recorded of it. -/
def unsignedRow (env : Env) (p : PaymentPacket) : RejectedPacket :=
  rejectedRow env p .invalidSignature "packet signature did not verify"

/-- A delivery of it to a new call of the one processor, which refuses and
records it. -/
theorem reach_unsigned {s : Phases Unit env} {c : Nat} {rawBody : Bytes} {p : PaymentPacket}
    {msg : String} (now : Int) (hp : PaymentPacket.modelValidateJson env.pydantic rawBody = .ok p)
    (hv : p.verify env.prim env.senderPublicKey = .error (.signatureVerificationError msg))
    (hs : Reach (Phases.step env) free Phases.init s) (hc : s.calls c = none) :
    ∃ s', Reach (Phases.step env) free Phases.init s' ∧
      s'.store.settlements = s.store.settlements ∧
      s'.store.rejected = s.store.rejected ++ [⟨unsignedRow env p, 0⟩] ∧
      ∀ b call, s'.calls b = some call → s.calls b = some call ∨ call.tag.body = rawBody := by
  let d : Delivery Unit := ⟨(), rawBody, now⟩
  let refusal : Refusal := refusePacket env p .invalidSignature "packet signature did not verify"
    (by decide)
  have hstart := Phases.step_start d hc
  rw [start_unsigned hp hv] at hstart
  have hcall : ∀ (s : Phases Unit env) ph w log,
      (Phases.enter s c d ph w log).calls c = some ⟨d, ph.status, log⟩ :=
    fun s ph w log => (Phases.enter_calls ..).trans (if_pos rfl)
  have hfits : (unsignedRow env p).fits = true :=
    (Evidence.rejectedRow_fits ..).mpr (Evidence.storable_of_clean (by decide))
  have hanswer : platform.answer .served (.insertRejection (unsignedRow env p)) 0 s.store =
      ({ s.store with rejected := s.store.rejected ++ [⟨unsignedRow env p, 0⟩] }, .ok ()) := by
    show perform (.insertRejection (unsignedRow env p)) 0 s.store = _
    simp only [perform, hfits, if_true]
  have hio := Phases.step_answer (hcall s (.refusing refusal) s.store []) rfl hanswer
  refine ⟨_, .next (.next hs trivial hstart) trivial hio, rfl, rfl, fun b call hb => ?_⟩
  rw [Phases.enter_calls, Phases.enter_calls] at hb
  split at hb
  · cases hb
    exact .inr rfl
  · exact .inl hb

/-- The settled call was made for the payment. -/
theorem settled_body {b : Nat} {call : PhaseCall Unit onePayment}
    (h : settled.core.calls b = some call) : call.tag.body = body := by
  by_cases hb : b = 0
  · subst hb
    rw [← Option.some.inj (settled_call.symm.trans h)]
    dsimp only [delivery]
  · simp [settled, committed, claimed, delivered, published, Broker.init, Phases.enter_calls,
      hb] at h

/-- The forgery of the payment, delivered after the payment has settled. -/
theorem reach_forgery : ∃ s : Phases Unit onePayment,
    Reach (Phases.step onePayment) free Phases.init s ∧
      (∃ row ∈ s.store.settlements.rows, row.idempotencyKey = opened.row.idempotencyKey) ∧
      ⟨unsignedRow onePayment (forgery payment), 0⟩ ∈ s.store.rejected ∧
      NoCollision onePayment s := by
  obtain ⟨msg, hunsigned⟩ := forgery_unsigned payment
  have hparsed : PaymentPacket.modelValidateJson onePayment.pydantic
      (forgery payment).modelDumpJson = .ok (forgery payment) := body_packet (forgery payment)
  have hother : settled.core.calls 1 = none := by
    simp [settled, committed, claimed, delivered, published, Broker.init, Phases.enter_calls]
  obtain ⟨s, hs, hsettlements, hrejected, hcalls⟩ := reach_unsigned instant.micros hparsed
    hunsigned (ConsumerPhases.reach_core reach_settled) hother
  refine ⟨s, hs, ?_, ?_, ?_⟩
  · rw [hsettlements, settled_rows]
    exact ⟨_, List.mem_singleton_self _, rfl⟩
  · rw [hrejected]
    exact List.mem_append_right _ (List.mem_singleton_self _)
  · -- the one signed packet that was delivered is the payment
    have honly : ∀ q, Delivered onePayment s q → q = payment := by
      rintro q ⟨b, call, hb, hq, hverified⟩
      rcases hcalls b call hb with hold | hforged
      · rw [settled_body hold] at hq
        exact Except.ok.inj (hq.symm.trans body_payment)
      · rw [hforged] at hq
        obtain rfl : q = forgery payment := Except.ok.inj (hq.symm.trans hparsed)
        cases hverified.symm.trans hunsigned
    intro q q' hq hq' _
    rw [honly q hq, honly q' hq']

/-- It has the key of the settled payment, and another reason. -/
theorem verdicts_agree_forgery :
    (unsignedRow onePayment (forgery payment)).idempotencyKey =
        some opened.row.idempotencyKey ∧
      (unsignedRow onePayment (forgery payment)).reason ≠ ErrorCode.malformedPayload.value ∧
      (unsignedRow onePayment (forgery payment)).reason ≠ ErrorCode.decryptionFailed.value := by
  obtain ⟨s, hs, ⟨row, hsettled, hkey⟩, hrow, hsha⟩ := reach_forgery
  have hsame : (unsignedRow onePayment (forgery payment)).idempotencyKey =
      some opened.row.idempotencyKey := rfl
  have hcollision : NoCollision onePayment (s.map Phase.prog) := by
    have hbefore : ∀ q, Delivered onePayment (s.map Phase.prog) q → Delivered onePayment s q := by
      rintro q ⟨c, call, hc, hsigned⟩
      obtain ⟨old, hold, rfl⟩ := State.of_map_calls hc
      exact ⟨c, old, hold, hsigned⟩
    exact fun q q' hq hq' => hsha q q' (hbefore q hq) (hbefore q' hq')
  have hr : Reach (Processors.step onePayment) free Processors.init (s.map Phase.prog) :=
    Phases.reach_processors hs
  exact ⟨hsame, verdicts_agree hr hcollision hsettled hrow
    (hsame.trans (congrArg some hkey.symm))⟩

end Forgery

end MeshSettle.Theorems.Verdicts
