import MeshSettle.Settlement.Section
import MeshSettle.Settlement.Reference
import MeshSettle.Shared.Seal

/-!
# A sealed envelope settles only under its own header

A packet that reuses what was sealed for another header meets one of two
defences. With the AAD of the sealing, it is refused before the claim, for the
AAD is not that of its header. With any other AAD it may win the claim, but
does not decrypt: the claim is released when the rejection is returned.
-/

namespace MeshSettle.Theorems.Resealed

open Lib.Await Lib.Interleave Lib.Transition

variable {ι : Type} {env : Env}

/-- The packet carries the wrapped key, the nonce and the ciphertext of the
payload. -/
structure Reuses (payload : EncryptedPayload) (q : PaymentPacket) : Prop where
  encryptedKey : q.envelope.encryptedKey = payload.encryptedKey.1
  nonce : q.envelope.nonce = payload.nonce.1
  ciphertext : q.envelope.ciphertext = payload.ciphertext.1

/-- The header of a packet, as the AAD has it. -/
def header (q : PaymentPacket) : String × String := (q.packetId.str, q.senderId.1)

section Payload

variable {sealer : SealPrimitives} {publicKey : Bytes} {draw : Draw} {plaintext : Bytes}
  {packetId senderId : String} {q : PaymentPacket}

/-- Under another header, the AAD of the sealing is not the expected one. -/
theorem expectedAad_ne (hheader : header q ≠ (packetId, senderId)) :
    q.expectedAad ≠ buildAad packetId senderId := by
  intro h
  obtain ⟨hid, hsender⟩ := buildAad_inj h
  exact hheader (Prod.ext hid hsender)

/-- **Bound to its own header, the packet does not open.** -/
theorem opened_error (hbinding : Binding env.prim sealer publicKey env.settlementPrivateKey)
    (hreuses : Reuses (encryptPayload sealer draw plaintext publicKey
      (buildAad packetId senderId)) q)
    (hheader : header q ≠ (packetId, senderId)) (hbound : q.envelope.aad = q.expectedAad) :
    ∃ msg, q.opened env = .error (.decryptionError msg) := by
  have haad : q.envelope.aad ≠ buildAad packetId senderId := by
    rw [hbound]
    exact expectedAad_ne hheader
  obtain ⟨msg, hdecrypt⟩ := decryptPayload_other_aad hbinding draw plaintext haad
  refine ⟨msg, ?_⟩
  unfold PaymentPacket.opened PaymentPacket.openInstruction
  rw [hreuses.encryptedKey, hreuses.nonce, hreuses.ciphertext, hdecrypt]

/-- With the AAD of the sealing, the delivery is refused. -/
theorem start_refused {d : Delivery ι}
    (hparsed : PaymentPacket.modelValidateJson env.pydantic d.body = .ok q)
    (hheader : header q ≠ (packetId, senderId))
    (haad : q.envelope.aad = buildAad packetId senderId) :
    ∃ r, Phase.start env d.body d.now = .refusing r := by
  rcases Phase.start_cases env d with h | ⟨a, ha, -⟩ | ⟨e, he, -⟩
  · exact h
  · obtain rfl : a.packet = q := Except.ok.inj (a.parsed.symm.trans (ha.1 ▸ hparsed))
    exact absurd (a.bound.symm.trans haad) (expectedAad_ne hheader)
  · cases hparsed.symm.trans he

end Payload

/-! ## The calls of a packet that does not open -/

/-- Where the call of a packet that does not open stands, and that it has won
the claim only where it still holds it. -/
def Barred (q : PaymentPacket) (log : List IoEvent) :
    Status Exc SettlementOutcome (Phase env) → Prop
  | .running (.refusing _) => ∀ ev ∈ log, ¬ Wins (q.idempotencyKey env.prim) ev
  | .running (.claiming a) =>
      a.packet = q ∧ ∀ ev ∈ log, ¬ Wins (q.idempotencyKey env.prim) ev
  | .running (.looking a) =>
      a.packet = q ∧ ∀ ev ∈ log, ¬ Wins (q.idempotencyKey env.prim) ev
  | .running (.rejecting f) => f.packet = q
  | .running (.releasing f) => f.packet = q
  | .running (.recovering a) => a.packet = q
  | .running _ => False
  | .returned o => o.status = .rejected
  | .raised _ => True
  | .crashed => True

/-- The log holds no insert of a settlement. -/
def NoInsert (log : List IoEvent) : Prop :=
  ∀ row ans, (⟨.insertSettlement row, ans⟩ : IoEvent) ∉ log

theorem NoInsert.cons {log : List IoEvent} {ev : IoEvent} (h : NoInsert log)
    (hev : ∀ row ans, ev ≠ (⟨.insertSettlement row, ans⟩ : IoEvent)) : NoInsert (ev :: log) := by
  intro row ans hmem
  rcases List.mem_cons.mp hmem with heq | hold
  · exact hev row ans heq.symm
  · exact h row ans hold

theorem lostOutcome_rejected (a : Admitted env) (marker : Option Marker) :
    (Phase.lostOutcome a marker).status = .rejected := by
  unfold Phase.lostOutcome
  split <;> rfl

/-- An operation keeps the call barred, and inserts nothing. -/
theorem Barred.advance {q : PaymentPacket} (hopened : q.envelope.aad = q.expectedAad →
      ∃ msg, q.opened env = .error (.decryptionError msg))
    {mode : Mode} {clock : Int} {w w' : World ι} {ph ph' : Phase env} {ev : IoEvent}
    {log : List IoEvent} (h : Barred q log (.running ph))
    (hadv : Advance env mode clock w ph w' ph' ev) :
    Barred q (ev :: log) ph'.status ∧
      ∀ row ans, ev ≠ (⟨.insertSettlement row, ans⟩ : IoEvent) := by
  cases hadv with
  | @refused r _ _ _ =>
      exact ⟨r.rejected, fun row ans heq => by cases heq⟩
  | @claimWon a _ _ _ =>
      refine ⟨?_, fun row ans heq => by cases heq⟩
      obtain ⟨rfl, -⟩ := h
      rw [Phase.status_claimed]
      rcases Phase.claimed_cases a with ⟨o, rfl, -⟩ | ⟨f, rfl, hf⟩ | ⟨e, -, -, he⟩
      · -- the packet is bound to its header, so it does not open
        obtain ⟨msg, herror⟩ := hopened o.bound
        cases herror.symm.trans o.opened
      · rw [hf]
        exact rfl
      · rw [he]
        exact rfl
  | claimLost _ _ _ =>
      refine ⟨⟨h.1, fun ev hev => ?_⟩, fun row ans heq => by cases heq⟩
      rcases List.mem_cons.mp hev with rfl | hold
      · exact id
      · exact h.2 ev hold
  | claimFailed _ _ => exact ⟨trivial, fun row ans heq => by cases heq⟩
  | @found a _ => exact ⟨lostOutcome_rejected a _, fun row ans heq => by cases heq⟩
  | lookFailed _ => exact ⟨trivial, fun row ans heq => by cases heq⟩
  | noted _ => exact ⟨h, fun row ans heq => by cases heq⟩
  | released _ => exact ⟨rfl, fun row ans heq => by cases heq⟩
  | releaseFailed _ _ => exact ⟨h, fun row ans heq => by cases heq⟩
  | inserted _ _ _ => exact h.elim
  | duplicate _ _ _ => exact h.elim
  | insertFailed _ _ _ => exact h.elim
  | marked _ _ => exact h.elim
  | markFailed _ _ => exact h.elim
  | recovered _ => exact ⟨rfl, fun row ans heq => by cases heq⟩
  | recoverFailed _ _ => exact ⟨trivial, fun row ans heq => by cases heq⟩

/-- The call that returns after it won the claim has deleted the key. -/
theorem Barred.released {q : PaymentPacket} {mode : Mode} {clock : Int} {w w' : World ι}
    {ph ph' : Phase env} {ev : IoEvent} {log : List IoEvent} (h : Barred q log (.running ph))
    (hadv : Advance env mode clock w ph w' ph' ev) {o : SettlementOutcome}
    (hreturned : ph'.status = .returned o)
    (hwon : ∃ ev' ∈ ev :: log, Wins (q.idempotencyKey env.prim) ev') :
    w'.redis (q.idempotencyKey env.prim) = none := by
  obtain ⟨ev', hev', hwins⟩ := hwon
  cases hadv with
  | refused _ =>
      rcases List.mem_cons.mp hev' with rfl | hold
      · exact hwins.elim
      · exact absurd hwins (h ev' hold)
  | @claimWon a _ _ _ =>
      rw [Phase.status_claimed] at hreturned
      cases hreturned
  | found _ =>
      rcases List.mem_cons.mp hev' with rfl | hold
      · exact hwins.elim
      · exact absurd hwins (h.2 ev' hold)
  | @released f _ =>
      obtain rfl : f.packet = q := h
      exact Function.update_self ..
  | @recovered a _ =>
      obtain rfl : a.packet = q := h
      exact Function.update_self ..
  | marked _ _ => exact h.elim
  | _ => cases hreturned

variable [DecidableEq ι]

/-- The deliveries of the packet: every call of one is barred. -/
theorem barred {q : PaymentPacket} (hopened : q.envelope.aad = q.expectedAad →
      ∃ msg, q.opened env = .error (.decryptionError msg))
    {ok : ProcessorLabel ι → Phases ι env → Prop} {s : Phases ι env}
    (h : Reach (Phases.step env) ok Phases.init s) {c : Nat} {call : PhaseCall ι env}
    (hc : s.calls c = some call)
    (hparsed : PaymentPacket.modelValidateJson env.pydantic call.tag.body = .ok q) :
    Barred q call.log call.status ∧ NoInsert call.log := by
  refine Phases.calls_invariant
    (fun d status log => PaymentPacket.modelValidateJson env.pydantic d.body = .ok q →
      Barred q log status ∧ NoInsert log) ?_ ?_ ?_ h c call hc hparsed
  · intro d hd
    refine ⟨?_, fun row ans hmem => by cases hmem⟩
    rcases Phase.start_cases env d with ⟨r, hr⟩ | ⟨a, ha, hstart⟩ | ⟨e, -, he⟩
    · rw [hr]
      exact fun ev hev => by cases hev
    · rw [hstart]
      exact ⟨Except.ok.inj (a.parsed.symm.trans (ha.1 ▸ hd)), fun ev hev => by cases hev⟩
    · rw [he]
      trivial
  · intro d ph log mode clock w w' ph' ev hP hadv hd
    obtain ⟨hbarred, hnone⟩ := hP hd
    obtain ⟨hnext, hev⟩ := hbarred.advance hopened hadv
    exact ⟨hnext, hnone.cons hev⟩
  · intro d ph log hP hd
    exact ⟨trivial, (hP hd).2⟩

/-- **A sealed envelope settles only under its own header.** In every reachable
state, the call of a packet with another header that reuses the sealed payload
has not returned SETTLED and has inserted nothing. With the AAD of the sealing
it performs no operation on Redis; and whenever such a call returns after it
won the claim, the key is free again. -/
theorem settles_only_under_own_header {sealer : SealPrimitives} {publicKey : Bytes}
    (hbinding : Binding env.prim sealer publicKey env.settlementPrivateKey) (draw : Draw)
    (plaintext : Bytes) (packetId senderId : String) {t : Processors ι}
    (h : Reach (Processors.step env) free Processors.init t) {c : Nat} {call : ProcessCall ι}
    (hc : t.calls c = some call) {q : PaymentPacket}
    (hparsed : PaymentPacket.modelValidateJson env.pydantic call.tag.body = .ok q)
    (hreuses : Reuses (encryptPayload sealer draw plaintext publicKey
      (buildAad packetId senderId)) q)
    (hheader : header q ≠ (packetId, senderId)) :
    (∀ o, call.status = .returned o → o.status = .rejected) ∧ NoInsert call.log ∧
    (q.envelope.aad = buildAad packetId senderId → ∀ ev ∈ call.log, ev.1.onRedis = false) ∧
    ∀ l t' call' o, (∃ prog, call.status = .running prog) →
      Processors.step env l t = some t' → t'.calls c = some call' →
      call'.status = .returned o → (∃ ev ∈ call'.log, Wins (q.idempotencyKey env.prim) ev) →
      t'.store.redis (q.idempotencyKey env.prim) = none := by
  obtain ⟨s, rfl, hs⟩ := Processors.reach_phases h
  obtain ⟨⟨d, status, log⟩, hcall, rfl⟩ := State.of_map_calls hc
  have hopened := opened_error hbinding hreuses hheader
  obtain ⟨hbarred, hnone⟩ := barred hopened hs hcall hparsed
  refine ⟨fun o ho => ?_, hnone, fun haad ev hev => ?_, ?_⟩
  · have hreturned : status = .returned o := Status.map_eq_returned ho
    subst hreturned
    exact hbarred
  · -- the body is refused, and a refused call only writes its rejection
    obtain ⟨r, hr⟩ := start_refused (d := d) hparsed hheader haad
    have hcases := Phases.refused_call hs hcall hr
    dsimp only at hcases hev
    rcases hcases with ⟨-, rfl⟩ | ⟨-, rfl⟩ | ⟨ans, -, rfl⟩
    · cases hev
    · cases hev
    · rw [List.mem_singleton.mp hev]
      rfl
  · -- the step that makes the call return is its release
    rintro l t' call' o ⟨prog, hrunning⟩ hstep hc' hreturned hwon
    obtain ⟨s', rfl, hphase⟩ := Processors.step_phases hstep
    obtain ⟨old, hold, rfl⟩ := State.of_map_calls hc'
    have hold' := Phases.call_step hphase hold
    cases hold' with
    | stayed hsame =>
        cases hcall.symm.trans hsame
        cases hrunning.symm.trans hreturned
    | started hnew _ => cases hcall.symm.trans hnew
    | crashed _ => cases hreturned
    | @advanced mode clock d' ph ph' log' w' ev _ hrun hadv _ hs' =>
        cases hcall.symm.trans hrun
        have hdone : ph'.status = .returned o := Status.map_eq_returned hreturned
        rw [hs', State.map_store]
        simp only [Phases.enter, World.after_redis]
        exact hbarred.released hadv hdone hwon

/-! ## A resealed payment -/

/-- The draw of the reference payment. -/
def draw : Draw :=
  ⟨List.replicate 32 0, List.replicate 12 0, [], rfl, Reference.nonce_size⟩

/-- The reference payment's ciphertext under the header of another packet, with
the AAD of that header. -/
def resealed : PaymentPacket where
  packetId := ⟨2⟩
  senderId := Reference.sender
  createdAt := Reference.instant
  envelope := ⟨List.replicate 32 0, List.replicate 12 0,
    Reference.sealUnder (buildAad (UUID.mk 1).str Reference.sender.1)
      Reference.instruction.toCanonicalBytes,
    buildAad (UUID.mk 2).str Reference.sender.1, Reference.wrapped_ne, Reference.nonce_size,
    by simp [Reference.sealUnder], buildAad_ne _ _⟩
  signature := Reference.stamp
  hops := []
  signature_length := Reference.stamp_length

/-- The configuration in which every packet is signed. -/
noncomputable def signsAll : Env := Reference.env (fun _ => true) fun _ => Vector.replicate 32 0

theorem reuses_resealed : Reuses (encryptPayload Reference.sealer draw
    Reference.instruction.toCanonicalBytes [] (buildAad (UUID.mk 1).str Reference.sender.1))
      resealed where
  encryptedKey := (show (Reference.sealer.rsaOaepEncrypt [] draw.contentKey []).1 = draw.contentKey
    from Reference.sealer_wraps rfl [] []).symm
  nonce := rfl
  ciphertext := rfl

theorem header_resealed : header resealed ≠ ((UUID.mk 1).str, Reference.sender.1) := by
  intro h
  have hid : (UUID.mk 2) = UUID.mk 1 := UUID.str_inj (Prod.mk.inj h).1
  cases hid

theorem body_resealed : PaymentPacket.modelValidateJson signsAll.pydantic
    resealed.modelDumpJson = .ok resealed := Reference.body_packet resealed

/-- The delivery of the resealed payment, signed and in time. -/
theorem settles_only_under_own_header_resealed : ∃ (t : Processors Unit) (call : ProcessCall Unit),
    Reach (Processors.step signsAll) free Processors.init t ∧ t.calls 0 = some call ∧
    PaymentPacket.modelValidateJson signsAll.pydantic call.tag.body = .ok resealed ∧
    (∀ o, call.status = .returned o → o.status = .rejected) ∧ NoInsert call.log := by
  obtain ⟨t, call, hreach, hcall, htag⟩ := Processors.first_delivery signsAll
    (⟨(), resealed.modelDumpJson, Reference.instant.micros⟩ : Delivery Unit)
  have hparsed : PaymentPacket.modelValidateJson signsAll.pydantic call.tag.body =
      .ok resealed := by
    simpa only [htag] using body_resealed
  obtain ⟨hrejected, hnone, -⟩ := settles_only_under_own_header (Reference.sealer_binding _ _) draw
    Reference.instruction.toCanonicalBytes (UUID.mk 1).str Reference.sender.1 hreach hcall hparsed
    reuses_resealed header_resealed
  exact ⟨t, call, hreach, hcall, hparsed, hrejected, hnone⟩

end MeshSettle.Theorems.Resealed
