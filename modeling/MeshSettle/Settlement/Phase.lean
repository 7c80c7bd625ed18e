import MeshSettle.Settlement.Processor

/-!
# Where a call stands

The coroutine `process` cut at its awaits: one constructor of `Phase` for
each await of the pipeline, with the evidence gathered so far. A phase
behind the header checks carries an `Admitted` packet, one behind the
decryption an `Opened` or a `Flawed` one, so that no later proof re-checks
what the pipeline has checked.

* `processCode_same`: the phases and the coroutine are the same program;
* `Advance`: everything one operation of a call can do, from which each
  invariant of the system is derived by cases.
-/

namespace MeshSettle

open Lib.Await Lib.Interleave
open Lib.Schema (ErrorDetails)

/-! ## Evidence -/

/-- A delivery whose packet passed every check on the header. -/
structure Admitted (env : Env) where
  body : Bytes
  now : Int
  packet : PaymentPacket
  parsed : PaymentPacket.modelValidateJson env.pydantic body = .ok packet
  verified : packet.verify env.prim env.senderPublicKey = .ok ()
  fresh : staleness env packet now = none
  bound : packet.envelope.aad = packet.expectedAad

/-- The dedupe key of an admitted packet. -/
def Admitted.key {env : Env} (a : Admitted env) : String := a.packet.idempotencyKey env.prim

/-- `open_instruction` with the service's key. -/
def PaymentPacket.opened (env : Env) (packet : PaymentPacket) : Except Exc PaymentInstruction :=
  packet.openInstruction env.prim env.pydantic env.jsonLoads env.settlementPrivateKey

/-- An admitted packet whose instruction was opened and cross-checked. -/
structure Opened (env : Env) extends Admitted env where
  instruction : PaymentInstruction
  opened : packet.opened env = .ok instruction

/-- The row to insert. -/
def Opened.row {env : Env} (o : Opened env) : Settlement := settlementOf env o.packet o.instruction

/-- An admitted packet that is rejected while the claim is held. -/
structure Flawed (env : Env) extends Admitted env where
  code : ErrorCode
  detail : String
  cause : Exc
  opened : packet.opened env = .error cause
  flaw : openRejection env cause = some (code, detail)

/-- The outcome of a flawed packet. -/
def Flawed.outcome {env : Env} (f : Flawed env) : SettlementOutcome :=
  rejected env f.packet f.code f.detail

/-- A packet is rejected under the claim with one of two codes. -/
theorem Flawed.code_cases {env : Env} (f : Flawed env) :
    f.code = .decryptionFailed ∨ f.code = .malformedPayload := by
  have hflaw := f.flaw
  unfold openRejection at hflaw
  split at hflaw
  · exact .inl (Prod.mk.inj (Option.some.inj hflaw)).1.symm
  · exact .inr (Prod.mk.inj (Option.some.inj hflaw)).1.symm
  · exact .inr (Prod.mk.inj (Option.some.inj hflaw)).1.symm
  · cases hflaw

/-- A rejection decided before the claim, and its row. -/
structure Refusal where
  row : RejectedPacket
  outcome : SettlementOutcome
  code : ErrorCode
  rejected : outcome.status = .rejected
  coded : outcome.code = some code
  early : code ∈ [ErrorCode.malformedPayload, .invalidSignature, .packetExpired,
    .packetNotYetValid]
  final : outcome.retryable = false

/-- The refusal of a body that is no packet. -/
def refuseBody (errors : List ErrorDetails) : Refusal :=
  let detail := summarizeValidationError errors
  ⟨rejection .malformedPayload detail none none,
    { status := .rejected, code := some .malformedPayload, detail := detail },
    .malformedPayload, rfl, rfl, by decide, rfl⟩

/-- The refusal of a packet by a check on its header. -/
def refusePacket (env : Env) (packet : PaymentPacket) (code : ErrorCode) (detail : String)
    (early : code ∈ [ErrorCode.malformedPayload, .invalidSignature, .packetExpired,
      .packetNotYetValid]) : Refusal :=
  ⟨rejectedRow env packet code detail, MeshSettle.rejected env packet code detail, code,
    rfl, rfl, early, rfl⟩

theorem staleness_early {env : Env} {packet : PaymentPacket} {now : Int} {code : ErrorCode}
    {detail : String} (h : staleness env packet now = some (code, detail)) :
    code ∈ [ErrorCode.malformedPayload, .invalidSignature, .packetExpired,
      .packetNotYetValid] := by
  unfold staleness at h
  dsimp only at h
  split at h
  · cases h; decide
  · split at h
    · cases h; decide
    · cases h

/-- The outcome after the insert: with the id of the new row, or without one
when a constraint refused it. -/
def Opened.outcome {env : Env} (o : Opened env) : Option Nat → SettlementOutcome
  | some id => settledOutcome env o.packet id
  | none => alreadySettled env o.packet

/-! ## Phases -/

/-- The await a call is suspended at, or how it ended. -/
inductive Phase (env : Env) where
  | refusing (r : Refusal)
  | claiming (a : Admitted env)
  | looking (a : Admitted env)
  | rejecting (f : Flawed env)
  | releasing (f : Flawed env)
  | inserting (o : Opened env)
  | marking (o : Opened env) (id : Option Nat)
  | recovering (a : Admitted env)
  | ended (outcome : SettlementOutcome)
  | failed (e : Exc)

namespace Phase

variable {env : Env}

/-- What is done with the claim: insert, reject, or hand over to the handler. -/
def claimed (a : Admitted env) : Phase env :=
  match h : a.packet.opened env with
  | .ok instruction => .inserting { a with instruction := instruction, opened := h }
  | .error e =>
      match h' : openRejection env e with
      | some (code, detail) =>
          .rejecting { a with code := code, detail := detail, cause := e, opened := h, flaw := h' }
      | none => .recovering a

/-- The outcome of a lost claim. -/
def lostOutcome (a : Admitted env) (marker : Option Marker) : SettlementOutcome :=
  if marker = some .settled then alreadySettled env a.packet else inFlight env a.packet

/-- The first await of a delivery. -/
def start (env : Env) (rawBody : Bytes) (now : Int) : Phase env :=
  match hp : PaymentPacket.modelValidateJson env.pydantic rawBody with
  | .error (.raised e) => .failed e
  | .error (.invalid errors) => .refusing (refuseBody errors)
  | .ok packet =>
      match hv : packet.verify env.prim env.senderPublicKey with
      | .error (.signatureVerificationError _) =>
          .refusing (refusePacket env packet .invalidSignature
            "packet signature did not verify" (by decide))
      | .error e => .failed e
      | .ok () =>
          match hs : staleness env packet now with
          | some (code, detail) =>
              .refusing (refusePacket env packet code detail (staleness_early hs))
          | none =>
              if hb : packet.envelope.aad = packet.expectedAad then
                .claiming ⟨rawBody, now, packet, hp, hv, hs, hb⟩
              else
                .refusing (refusePacket env packet .malformedPayload
                  "envelope AAD does not match the packet header" (by decide))

/-- The pending operation of a phase and what each answer leads to. -/
def view : Phase env → View Op Resp Exc SettlementOutcome (Phase env)
  | .refusing r => .await (.insertRejection r.row) fun _ => .ended r.outcome
  | .claiming a => .await (.setNx a.key .claimed env.claimTtl) fun
      | .ok won => if won then claimed a else .looking a
      | .error e => .failed e
  | .looking a => .await (.get a.key) fun
      | .ok marker => .ended (lostOutcome a marker)
      | .error e => .failed e
  | .rejecting f => .await (.insertRejection (rejectedRow env f.packet f.code f.detail))
      fun _ => .releasing f
  | .releasing f => .await (.delete f.key) fun
      | .ok _ => .ended f.outcome
      | .error _ => .recovering f.toAdmitted
  | .inserting o => .await (.insertSettlement o.row) fun
      | .ok id => .marking o (some id)
      | .error .integrityError => .marking o none
      | .error _ => .recovering o.toAdmitted
  | .marking o id => .await (.set o.key .settled env.settledTtl) fun
      | .ok _ => .ended (o.outcome id)
      | .error _ => .recovering o.toAdmitted
  | .recovering a => .await (.delete a.key) fun
      | .ok _ => .ended (internalError env a.packet)
      | .error e => .failed e
  | .ended outcome => .ret outcome
  | .failed e => .raise e

/-- The rest of the coroutine that a phase stands for. -/
def prog : Phase env → Io SettlementOutcome
  | .refusing r => do
      persistRejection r.row
      pure r.outcome
  | .claiming a => settlePacket env a.packet
  | .looking a => do
      let marker ← Prog.perform (Op.get a.key)
      pure (lostOutcome a marker)
  | .rejecting f => Prog.tryCatch (do
      rejectAfterClaim env f.packet f.code f.detail
      pure f.outcome) fun _ => recover env f.packet
  | .releasing f => Prog.tryCatch (do
      DedupeStore.releaseClaim f.key
      pure f.outcome) fun _ => recover env f.packet
  | .inserting o => Prog.tryCatch (writeSettlement env o.packet o.instruction)
      fun _ => recover env o.packet
  | .marking o id => Prog.tryCatch (do
      DedupeStore.markSettled env o.key
      pure (o.outcome id)) fun _ => recover env o.packet
  | .recovering a => recover env a.packet
  | .ended outcome => .ret outcome
  | .failed e => .raise e

/-- Winning the claim leads into the body of the `try`. -/
theorem claimed_prog (a : Admitted env) : (claimed a).prog =
    Prog.tryCatch (settleClaimed env a.packet) fun _ => recover env a.packet := by
  unfold claimed settleClaimed
  split
  · next i h => simp only [PaymentPacket.opened] at h; simp only [h]; rfl
  · next e h =>
      simp only [PaymentPacket.opened] at h
      simp only [h]
      split
      · next code detail h' => simp only [h']; rfl
      · next h' => simp only [h']; rfl

/-- A delivery starts the coroutine. -/
theorem start_prog (rawBody : Bytes) (now : Int) :
    (start env rawBody now).prog = process env rawBody now := by
  unfold start process
  split
  · next h => simp only [h]; rfl
  · next h => simp only [h]; rfl
  · next packet h =>
      simp only [h]
      split
      · next hv => simp only [hv]; rfl
      · next hv => simp only [hv]; rfl
      · next hv =>
          simp only [hv, checkFreshness]
          split
          · next code detail hs =>
              simp only [hs]
              refine congrArg (Prog.await _) (funext fun r => ?_)
              cases r <;> rfl
          · next hs =>
              simp only [hs, Prog.pure_eq_ret, Prog.ret_bind]
              by_cases hb : packet.envelope.aad = packet.expectedAad
              · rw [dif_pos hb, if_neg (not_not_intro hb)]
                rfl
              · rw [dif_neg hb, if_pos hb]
                rfl

/-- A phase is observed like the coroutine it stands for. -/
theorem prog_view (ph : Phase env) : ph.prog.view = ph.view.map prog := by
  cases ph with
  | refusing r =>
      refine congrArg (View.await _) (funext fun r => ?_)
      cases r <;> rfl
  | claiming a =>
      refine congrArg (View.await _) (funext fun r => ?_)
      cases r with
      | error e => rfl
      | ok won =>
          cases won with
          | true => exact (claimed_prog a).symm
          | false =>
              refine congrArg (Prog.await _) (funext fun r => ?_)
              cases r with
              | error e => rfl
              | ok marker =>
                  show ((if marker = some .settled then pure .alreadySettled
                    else pure .inFlight : Io ClaimOutcome) >>= _) =
                      Prog.ret (lostOutcome a marker)
                  unfold lostOutcome
                  split <;> rfl
  | looking a =>
      refine congrArg (View.await _) (funext fun r => ?_)
      cases r <;> rfl
  | rejecting f =>
      refine congrArg (View.await _) (funext fun r => ?_)
      cases r <;> rfl
  | releasing f =>
      refine congrArg (View.await _) (funext fun r => ?_)
      cases r <;> rfl
  | inserting o =>
      refine congrArg (View.await _) (funext fun r => ?_)
      cases r with
      | ok id => rfl
      | error e => cases e <;> rfl
  | marking o id =>
      refine congrArg (View.await _) (funext fun r => ?_)
      cases r <;> rfl
  | recovering a =>
      refine congrArg (View.await _) (funext fun r => ?_)
      cases r <;> rfl
  | ended outcome => rfl
  | failed e => rfl

end Phase

/-! ## Where a delivery can lead -/

section Deliveries

variable {ι : Type} {env : Env}

/-- The evidence was gathered by this delivery. -/
def Admitted.For (a : Admitted env) (d : Delivery ι) : Prop := a.body = d.body ∧ a.now = d.now

/-- A delivery has one packet. -/
theorem Admitted.For.unique {a b : Admitted env} {d : Delivery ι} (ha : a.For d)
    (hb : b.For d) : a = b := by
  obtain ⟨body, now, packet, parsed, _, _, _⟩ := a
  obtain ⟨body', now', packet', parsed', _, _, _⟩ := b
  obtain ⟨rfl, rfl⟩ := ha
  obtain ⟨rfl, rfl⟩ := hb
  obtain rfl : packet = packet' := Except.ok.inj (parsed.symm.trans parsed')
  rfl

/-- What a delivery can return. -/
inductive Verdict (env : Env) (d : Delivery ι) : SettlementOutcome → Prop
  | refused {r : Refusal} : Phase.start env d.body d.now = .refusing r → Verdict env d r.outcome
  | lost {a : Admitted env} (marker : Option Marker) : a.For d →
      Verdict env d (Phase.lostOutcome a marker)
  | flawed {f : Flawed env} : f.toAdmitted.For d → Verdict env d f.outcome
  | written {o : Opened env} (id : Option Nat) : o.toAdmitted.For d → Verdict env d (o.outcome id)
  | internal {a : Admitted env} : a.For d → Verdict env d (internalError env a.packet)

/-- The three things that are done with the claim. -/
theorem Phase.claimed_cases (a : Admitted env) :
    (∃ o : Opened env, o.toAdmitted = a ∧ Phase.claimed a = .inserting o) ∨
    (∃ f : Flawed env, f.toAdmitted = a ∧ Phase.claimed a = .rejecting f) ∨
    (∃ e, a.packet.opened env = .error e ∧ openRejection env e = none ∧
      Phase.claimed a = .recovering a) := by
  unfold Phase.claimed
  split
  · exact .inl ⟨_, rfl, rfl⟩
  · next e h =>
      split
      · exact .inr (.inl ⟨_, rfl, rfl⟩)
      · next h' => exact .inr (.inr ⟨e, h, h', rfl⟩)

/-- A packet that opens is inserted. -/
theorem Opened.claimed (o : Opened env) : Phase.claimed o.toAdmitted = .inserting o := by
  obtain ⟨a, instruction, opened⟩ := o
  rcases Phase.claimed_cases a with ⟨o, rfl, h⟩ | ⟨f, rfl, -⟩ | ⟨e, he, -⟩
  · obtain ⟨b, instruction', opened'⟩ := o
    rw [h]
    obtain rfl : instruction' = instruction := Except.ok.inj (opened'.symm.trans opened)
    rfl
  · exact absurd (f.opened.symm.trans opened) (by simp)
  · exact absurd (he.symm.trans opened) (by simp)

/-- A phase stands where the delivery can lead. -/
def Phase.For (d : Delivery ι) : Phase env → Prop
  | .refusing r => Phase.start env d.body d.now = .refusing r
  | .claiming a => a.For d
  | .looking a => a.For d
  | .rejecting f => f.toAdmitted.For d
  | .releasing f => f.toAdmitted.For d
  | .inserting o => o.toAdmitted.For d
  | .marking o _ => o.toAdmitted.For d
  | .recovering a => a.For d
  | .ended outcome => Verdict env d outcome
  | .failed _ => True

/-- The status of a call that has reached a phase. -/
def Phase.status : Phase env → Status Exc SettlementOutcome (Phase env)
  | .ended outcome => .returned outcome
  | .failed e => .raised e
  | ph => .running ph

/-- A call stands where its delivery can lead. -/
def Coherent (d : Delivery ι) : Status Exc SettlementOutcome (Phase env) → Prop
  | .running ph => ph.For d
  | .returned outcome => Verdict env d outcome
  | .raised _ => True
  | .crashed => True

theorem Phase.For.coherent {d : Delivery ι} {ph : Phase env} (h : ph.For d) :
    Coherent d ph.status := by
  cases ph <;> exact h

/-- Verification fails in one way. -/
theorem PaymentPacket.verify_error {prim : Primitives} {publicKey : Bytes} {packet : PaymentPacket}
    {e : Exc} (h : packet.verify prim publicKey = .error e) :
    ∃ msg, e = .signatureVerificationError msg := by
  unfold PaymentPacket.verify verifySignature at h
  split at h <;> cases h <;> exact ⟨_, rfl⟩

/-- A delivery is refused, admitted with its own packet, or its body makes
parsing raise. -/
theorem Phase.start_cases (env : Env) (d : Delivery ι) :
    (∃ r, Phase.start env d.body d.now = .refusing r) ∨
    (∃ a : Admitted env, a.For d ∧ Phase.start env d.body d.now = .claiming a) ∨
    ∃ e, PaymentPacket.modelValidateJson env.pydantic d.body = .error (.raised e) ∧
      Phase.start env d.body d.now = .failed e := by
  unfold Phase.start
  split
  · next e h => exact .inr (.inr ⟨e, h, rfl⟩)
  · exact .inl ⟨_, rfl⟩
  · split
    · exact .inl ⟨_, rfl⟩
    · next e hne hv =>
        obtain ⟨msg, rfl⟩ := PaymentPacket.verify_error hv
        exact absurd rfl (hne msg)
    · split
      · exact .inl ⟨_, rfl⟩
      · split
        · exact .inr (.inl ⟨_, ⟨rfl, rfl⟩, rfl⟩)
        · exact .inl ⟨_, rfl⟩

/-- A body that makes parsing raise fails its delivery. -/
theorem Phase.start_raised {rawBody : Bytes} {e : Exc}
    (h : PaymentPacket.modelValidateJson env.pydantic rawBody = .error (.raised e)) (now : Int) :
    Phase.start env rawBody now = .failed e := by
  unfold Phase.start
  split
  · next hp => cases h.symm.trans hp; rfl
  · next hp => cases h.symm.trans hp
  · next hp => cases h.symm.trans hp

theorem Phase.start_for (d : Delivery ι) : (Phase.start env d.body d.now).For d := by
  rcases Phase.start_cases env d with ⟨r, h⟩ | ⟨a, ha, h⟩ | ⟨e, -, h⟩
  · rw [h]; exact h
  · rw [h]; exact ha
  · rw [h]; trivial

/-- An admitted delivery starts with its claim. -/
theorem Admitted.For.start {a : Admitted env} {d : Delivery ι} (h : a.For d) :
    Phase.start env d.body d.now = .claiming a := by
  obtain ⟨body, now, packet, parsed, verified, fresh, bound⟩ := a
  obtain ⟨rfl, rfl⟩ := h
  unfold Phase.start
  split
  · next hp => exact absurd (parsed.symm.trans hp) (by simp)
  · next hp => exact absurd (parsed.symm.trans hp) (by simp)
  · next q hp =>
      obtain rfl : packet = q := Except.ok.inj (parsed.symm.trans hp)
      split
      · next hv => exact absurd (verified.symm.trans hv) (by simp)
      · next hv => exact absurd (verified.symm.trans hv) (by simp)
      · split
        · next hs => exact absurd (fresh.symm.trans hs) (by simp)
        · rw [dif_pos bound]

theorem Phase.claimed_for {a : Admitted env} {d : Delivery ι} (h : a.For d) :
    (Phase.claimed a).For d := by
  unfold Phase.claimed
  split
  · exact h
  · split <;> exact h

end Deliveries

/-! ## The same program -/

/-- The phases as a representation of the coroutines. -/
def phaseCode {ι : Type} (env : Env) :
    Code Op Resp Exc SettlementOutcome (Delivery ι) (Phase env) where
  init d := Phase.start env d.body d.now
  view := Phase.view

/-- **The phases are the coroutine.** -/
theorem processCode_same {ι : Type} (env : Env) :
    Same (phaseCode (ι := ι) env) (processCode env) Phase.prog where
  init d := (Phase.start_prog d.body d.now).symm
  view := Phase.prog_view

end MeshSettle
