import MeshSettle.Settlement.Alone
import MeshSettle.Settlement.Columns
import MeshSettle.Settlement.Reference
import MeshSettle.Shared.Overflow

/-!
# No poison message

With Redis and Postgres at work, a body is acked on its first delivery unless
something in it makes the pipeline raise past its handlers: a timestamp whose
UTC instant is outside the years 1 to 9999, a plaintext nested deeper than the
recursion limit, or a hop count that its column does not hold. Such a body
goes back to the queue at every delivery.
-/

namespace MeshSettle.Theorems.NoPoison

open Lib.Await Lib.Interleave

variable {ι : Type} {env : Env}

/-! ## Outcomes that are acked -/

/-- The call is acked. -/
def Acked (r : Except Exc SettlementOutcome) : Prop := handleMessage r = .ack

@[simp] theorem acked_ok (o : SettlementOutcome) : Acked (.ok o) ↔ o.retryable = false := by
  unfold Acked handleMessage
  cases hr : o.retryable <;> simp [hr]

@[simp] theorem not_acked_error (e : Exc) : ¬ Acked (.error e) := by simp [Acked, handleMessage]

theorem not_acked_recovery (a : Admitted env) (mode : Mode) : ¬ Acked (recovery a mode) := by
  unfold recovery
  split
  · simp [internalError, rejected]
  · simp

/-- What under the claim ends in a retry: an exception that escapes the
handlers, or a row that does not fit. -/
def Escapes (a : Admitted env) : Prop :=
  (∃ plaintext, decryptPayload env.prim a.packet.envelope.encryptedKey a.packet.envelope.nonce
      a.packet.envelope.ciphertext a.packet.envelope.aad env.settlementPrivateKey =
        .ok plaintext ∧ BadPlaintext env.pydantic env.jsonLoads plaintext) ∨
    (∃ instruction, a.packet.opened env = .ok instruction) ∧ 2 ^ 31 ≤ a.packet.hopCount

/-- The bodies that are not acked: a timestamp that is out of range, or a
packet that wins its claim and then escapes the handlers. -/
def Poison (env : Env) (d : Delivery ι) (w : World ι) : Prop :=
  BadTimestamp env.pydantic d.body ∨
    ∃ a : Admitted env, a.For d ∧ w.redis a.key = none ∧ Escapes a

/-- The body holds a packet, and the packet a valid instruction. -/
def Valid (env : Env) (body : Bytes) : Prop :=
  ∃ packet instruction, PaymentPacket.modelValidateJson env.pydantic body = .ok packet ∧
    packet.opened env = .ok instruction

/-- The message is acked, and a body that is not valid is rejected for good. -/
structure Digested (env : Env) (d : Delivery ι) (r : Except Exc SettlementOutcome) : Prop where
  acked : handleMessage r = .ack
  rejected : ¬ Valid env d.body → ∃ o, r = .ok o ∧ o.status = .rejected ∧ o.retryable = false

theorem openRejection_none {e : Exc} : openRejection env e = none ↔ e.Escapes := by
  cases e <;> simp [openRejection, Exc.Escapes]

/-- In terms of the handlers. -/
theorem escapes_iff (a : Admitted env) : Escapes a ↔
    (∃ e, a.packet.opened env = .error e ∧ openRejection env e = none) ∨
      (∃ instruction, a.packet.opened env = .ok instruction) ∧ 2 ^ 31 ≤ a.packet.hopCount := by
  simp only [Escapes, openRejection_none, PaymentPacket.opened, openInstruction_escapes]

/-- A call settles a valid body only. -/
theorem verdict_rejected {d : Delivery ι} {o : SettlementOutcome} (h : Verdict env d o)
    (hnot : ¬ Valid env d.body) : o.status = .rejected := by
  cases h with
  | @refused r _ => exact r.rejected
  | lost marker _ => unfold Phase.lostOutcome; split <;> rfl
  | flawed _ => rfl
  | @written o id ho =>
      exact absurd ⟨o.packet, o.instruction, ho.1 ▸ o.parsed, o.opened⟩ hnot
  | internal _ => rfl

variable [DecidableEq ι]

/-- What is done with the claim is acked unless it escapes. -/
theorem claimed_acked (a : Admitted env) (clock : Nat → Int)
    (hsettled : AcceptsEx env.settledTtl (clock 1)) (w : World ι) :
    Acked ((Phase.claimed a).exec (fun _ => .served) clock w).2 ↔ ¬ Escapes a := by
  rcases Phase.claimed_cases a with ⟨o, rfl, h⟩ | ⟨f, rfl, h⟩ | ⟨e, he, hnone, h⟩
  · rw [h, (exec_inserting _ clock w o).1]
    have hescapes : Escapes o.toAdmitted ↔ ¬ o.row.fits = true := by
      simp [escapes_iff, o.opened, row_fits_iff]
    rw [hescapes, not_not]
    unfold insertAnswer
    split
    · next hfits =>
        simp only [markAnswer, hsettled, and_self, if_true, acked_ok, hfits.2, iff_true]
        split <;> rfl
    · next hfits => exact iff_of_false (not_acked_recovery _ _) fun h => hfits ⟨rfl, h⟩
  · have hescapes : ¬ Escapes f.toAdmitted := by
      simp [escapes_iff, f.opened, f.flaw]
    rw [h, (exec_rejecting _ clock w f).1]
    simp only [releaseAnswer, if_true, acked_ok, hescapes, not_false_eq_true, iff_true]
    rfl
  · have hescapes : Escapes a := (escapes_iff a).mpr (.inl ⟨e, he, hnone⟩)
    rw [h, (exec_recovering _ clock w a).1]
    exact iff_of_false (not_acked_recovery _ _) (not_not_intro hescapes)

/-- A claim is acked unless it is won and what follows escapes. -/
theorem claiming_acked {clock : Nat → Int} (hclaim : AcceptsEx env.claimTtl (clock 0))
    (hsettled : AcceptsEx env.settledTtl (clock 2)) (a : Admitted env) (w : World ι) :
    Acked ((Phase.claiming a).exec (fun _ => .served) clock w).2 ↔
      ¬ (w.redis a.key = none ∧ Escapes a) := by
  obtain ⟨w', ph', ev, hadv, hexec, -⟩ :=
    Phase.exec_advance (.claiming a) trivial (fun _ => .served) clock w
  rw [hexec]
  cases hadv with
  | claimWon _ _ hfree =>
      rw [claimed_acked a (fun n => clock (n + 1)) hsettled]
      simp [hfree]
  | claimLost _ _ htaken =>
      rw [(exec_looking _ _ w a).1, if_pos rfl, acked_ok]
      refine iff_of_true ?_ fun h => htaken h.1
      unfold Phase.lostOutcome
      split <;> rfl
  | claimFailed hm _ => exact absurd hclaim (hm rfl)

/-- A call is acked unless its body is poison. -/
theorem process_acked {clock : Nat → Int} (hclaim : AcceptsEx env.claimTtl (clock 0))
    (hsettled : AcceptsEx env.settledTtl (clock 2)) (d : Delivery ι) (w : World ι) :
    Acked (platform.exec (process env d.body d.now) (fun _ => .served) clock w).2 ↔
      ¬ Poison env d w := by
  rw [exec_process]
  rcases Phase.start_cases env d with ⟨r, h⟩ | ⟨a, ha, h⟩ | ⟨e, hraise, h⟩
  · rw [h, (exec_refusing _ clock w r).1, acked_ok]
    refine iff_of_true r.final ?_
    rintro (hbad | ⟨a, ha, -⟩)
    · obtain ⟨e, he⟩ := (modelValidateJson_raises _ _).mpr hbad
      cases h.symm.trans (Phase.start_raised he d.now)
    · cases h.symm.trans ha.start
  · rw [h, claiming_acked hclaim hsettled]
    have hgood : ¬ BadTimestamp env.pydantic d.body := by
      rw [← modelValidateJson_raises, ← ha.1]
      rintro ⟨e, he⟩
      cases a.parsed.symm.trans he
    constructor
    · rintro hnot (hbad | ⟨b, hb, hfree, hescapes⟩)
      · exact hgood hbad
      · obtain rfl := hb.unique ha
        exact hnot ⟨hfree, hescapes⟩
    · exact fun hnot hescapes => hnot (.inr ⟨a, ha, hescapes⟩)
  · rw [h, Phase.exec_failed]
    exact iff_of_false (not_acked_error e)
      (not_not_intro (.inl ((modelValidateJson_raises _ _).mp ⟨e, hraise⟩)))

omit [DecidableEq ι] in
/-- A body is no poison that holds a packet with fewer than 2^31 hops, which opens
if its signature is right. -/
theorem not_poison {d : Delivery ι} {q : PaymentPacket}
    (hparse : PaymentPacket.modelValidateJson env.pydantic d.body = .ok q)
    (hopens : q.verify env.prim env.senderPublicKey = .ok () → ∃ i, q.opened env = .ok i)
    (hhops : q.hopCount < 2 ^ 31) (w : World ι) : ¬ Poison env d w := by
  rintro (hbad | ⟨a, ha, -, hescapes⟩)
  · obtain ⟨e, he⟩ := (modelValidateJson_raises _ _).mpr hbad
    cases hparse.symm.trans he
  · have hpacket : a.packet = q := Except.ok.inj ((ha.1 ▸ a.parsed).symm.trans hparse)
    obtain ⟨i, hopened⟩ := hopens (hpacket ▸ a.verified)
    rcases (escapes_iff a).mp hescapes with ⟨e, he, -⟩ | ⟨-, hmany⟩
    · rw [hpacket, hopened] at he
      cases he
    · rw [hpacket] at hmany
      omega

/-- **No poison message.** With Redis and Postgres at work, and lifetimes that
Redis takes, the first delivery of a body is acked, and rejected for good when it
is no valid packet and instruction, exactly when the body is not poison. -/
theorem digested_iff (clock : Nat → Int) (hclaim : AcceptsEx env.claimTtl (clock 0))
    (hsettled : AcceptsEx env.settledTtl (clock 2)) (d : Delivery ι) (w : World ι) :
    Digested env d (processAlone env d (fun _ => .served) clock w).2 ↔ ¬ Poison env d w := by
  rw [processAlone_snd, ← process_acked hclaim hsettled d w]
  constructor
  · exact fun h => h.acked
  · intro hacked
    refine ⟨hacked, fun hnot => ?_⟩
    cases hr : (platform.exec (process env d.body d.now) (fun _ => .served) clock w).2 with
    | error e =>
        rw [hr] at hacked
        exact absurd hacked (not_acked_error e)
    | ok o =>
        have hverdict : Verdict env d o := by
          rw [exec_process] at hr
          exact Phase.exec_verdict _ _ clock w (Phase.start_for d) o hr
        rw [hr] at hacked
        exact ⟨o, rfl, verdict_rejected hverdict hnot, (acked_ok o).mp hacked⟩

/-- The reference payment on a taken key. -/
theorem digested_payment :
    Digested Reference.onePayment Reference.delivery
        (processAlone Reference.onePayment Reference.delivery (fun _ => .served)
          (fun _ => Reference.instant.micros) Reference.held).2 ↔
      ¬ Poison Reference.onePayment Reference.delivery Reference.held :=
  digested_iff (fun _ => (Reference.instant.micros : Int)) Reference.acceptsEx_claim
    Reference.acceptsEx_settled Reference.delivery Reference.held

/-! ## A poison message -/

section Early

open Lib.Schema (Json)

/-- The first instant of the year 1, one hour east of UTC. -/
def early : Json := .str "0001-01-01T00:00:00+01:00"

/-- The reference configuration, whose readers know this timestamp. -/
noncomputable def earlyEnv : Env :=
  { Reference.onePayment with
    pydantic := { Reference.pydantic with
      readDatetime := fun
        | .str "0001-01-01T00:00:00+01:00" => .ok ⟨0, some 3600, by decide⟩
        | j => Reference.pydantic.readDatetime j } }

/-- The members of the payment, dated to this timestamp. -/
def earlyMembers : List (String × Json) :=
  [("packet_id", .str Reference.payment.packetId.str),
    ("sender_id", .str Reference.payment.senderId.1), ("created_at", early),
    ("envelope", Reference.payment.envelope.toJson),
    ("signature", .str (b64uEncode Reference.payment.signature)), ("hops", .arr [])]

/-- Their delivery. -/
noncomputable def earlyDelivery : Delivery Unit :=
  ⟨(), document (.obj earlyMembers), Reference.instant.micros⟩

/-- **A poison message**: a well-formed timestamp whose UTC instant is before
the year 1 is never acked. -/
theorem early_poison : ¬ Digested earlyEnv earlyDelivery
    (processAlone earlyEnv earlyDelivery (fun _ => .served) (fun _ => Reference.instant.micros)
      World.empty).2 := by
  have hsimple : Lib.Document.Simple 8 (.obj earlyMembers) := by
    simp [earlyMembers, early, EncryptedEnvelope.toJson, Lib.Document.Simple,
      Lib.Document.SimpleMembers, Lib.Document.SimpleItems]
  have hjson : ∀ raw, earlyEnv.pydantic.parseJson raw = Reference.pydantic.parseJson raw :=
    fun _ => rfl
  have hparse : earlyEnv.pydantic.parseJson (document (.obj earlyMembers)) =
      .ok (.obj earlyMembers) := by
    rw [hjson]
    exact Reference.pydantic_readsBack.json _ hsimple
  have hclaim : AcceptsEx earlyEnv.claimTtl Reference.instant.micros := Reference.acceptsEx_claim
  have hsettled : AcceptsEx earlyEnv.settledTtl Reference.instant.micros :=
    Reference.acceptsEx_settled
  have hrange : OutOfRange earlyEnv.pydantic early :=
    ⟨⟨0, some 3600, by decide⟩, 3600, rfl, rfl, by decide⟩
  have hbad : BadTimestamp earlyEnv.pydantic (document (.obj earlyMembers)) :=
    ⟨_, earlyMembers, hparse, rfl, .inl ⟨early, by simp [earlyMembers, Lib.Schema.lookup], hrange⟩⟩
  rw [digested_iff (fun _ => Reference.instant.micros) hclaim hsettled, not_not]
  unfold Poison earlyDelivery
  dsimp only
  exact .inl hbad

end Early

end MeshSettle.Theorems.NoPoison
