import MeshSettle.Settlement.Reference

/-!
# Settlement authenticity

An attacker who puts arbitrary bytes on the queue cannot make up a row: every
row goes back to a region that was signed, and its payment fields to the
instruction sealed in that region's envelope.

The two assumptions on the primitives are `Unforgeable` and `Tight`; the rest
(parsing, the signing bytes, the key, the AAD check, the cross-check) is the
pipeline's own doing.
-/

namespace MeshSettle.Theorems.Authenticity

open Lib.Await Lib.Interleave Lib.Transition

/-- Something that was sealed: the envelope, with the plaintext in it. -/
structure Sealed where
  encryptedKey : Bytes
  nonce : Bytes
  ciphertext : Bytes
  aad : Bytes
  plaintext : Bytes

/-- Ed25519 verification under the sender key accepts only pairs of a message
and a signature made with the private key. -/
def Unforgeable (env : Env) (signed : Set (Bytes × Bytes)) : Prop :=
  ∀ message signature,
    env.prim.ed25519Verify env.senderPublicKey signature message = .ok () →
      (message, signature) ∈ signed

/-- RSA-OAEP with AES-GCM opens only what was sealed, under the same AAD. -/
def Tight (env : Env) (sealing : Set Sealed) : Prop :=
  ∀ encryptedKey contentKey nonce ciphertext aad plaintext,
    env.prim.rsaOaepDecrypt env.settlementPrivateKey encryptedKey = some contentKey →
    env.prim.aesGcmDecrypt contentKey nonce ciphertext aad = .ok plaintext →
      ⟨encryptedKey, nonce, ciphertext, aad, plaintext⟩ ∈ sealing

/-- Where a row comes from: a signed region, the sealed plaintext of its
envelope, and the instruction in it. -/
structure Provenance (env : Env) (signed : Set (Bytes × Bytes)) (sealing : Set Sealed)
    (row : Settlement) where
  createdAt : UtcTimestamp
  envelope : EncryptedEnvelope
  signature : Bytes
  plaintext : Bytes
  instruction : PaymentInstruction
  /-- The signed region, with the header fields the row shows. -/
  region : Bytes
  region_eq : region = buildSigningBytes row.packetId.str row.senderId
    (canonicalTimestamp createdAt) envelope.encryptedKey envelope.nonce envelope.ciphertext
    envelope.aad
  region_signed : (region, signature) ∈ signed
  key_eq : row.idempotencyKey = deriveIdempotencyKey env.prim region
  /-- The envelope was sealed for this very header. -/
  aad_eq : envelope.aad = buildAad row.packetId.str row.senderId
  envelope_sealed : ⟨envelope.encryptedKey, envelope.nonce, envelope.ciphertext, envelope.aad,
    plaintext⟩ ∈ sealing
  reads : PaymentInstruction.fromCanonicalBytes env.pydantic env.jsonLoads plaintext =
    .ok instruction
  inner_id : instruction.packetId = row.packetId
  payer_eq : row.payerId = instruction.payerId.1
  payee_eq : row.payeeId = instruction.payeeId.1
  amount_eq : row.amountMinor = instruction.amountMinor.1
  currency_eq : row.currency = instruction.currency.1
  created_eq : row.packetCreatedAt = instruction.createdAt
  amount_pos : 0 < row.amountMinor
  amount_le : row.amountMinor ≤ 10 ^ 12
  parties_differ : row.payerId ≠ row.payeeId

/-- A verified packet was signed. -/
theorem signed_of_verify {env : Env} {signed : Set (Bytes × Bytes)}
    (hsigned : Unforgeable env signed) {packet : PaymentPacket}
    (h : packet.verify env.prim env.senderPublicKey = .ok ()) :
    (packet.signingBytes, packet.signature) ∈ signed := by
  apply hsigned
  unfold PaymentPacket.verify verifySignature at h
  split at h
  · next hok => exact hok
  · cases h
  · cases h

/-- An envelope that decrypts was sealed under its own AAD. -/
theorem sealed_of_decrypt {env : Env} {sealing : Set Sealed} (hsealed : Tight env sealing)
    {encryptedKey nonce ciphertext aad plaintext : Bytes}
    (h : decryptPayload env.prim encryptedKey nonce ciphertext aad env.settlementPrivateKey =
      .ok plaintext) :
    ⟨encryptedKey, nonce, ciphertext, aad, plaintext⟩ ∈ sealing := by
  unfold decryptPayload at h
  split at h
  · cases h
  · next contentKey hkey =>
      split at h
      · cases h
      · split at h
        · next text htext =>
            cases h
            exact hsealed _ _ _ _ _ _ hkey htext
        · cases h
        · cases h

/-- An opened instruction is the one read from the decrypted plaintext, and its
packet id is the header's. -/
theorem opened_inv {env : Env} {packet : PaymentPacket} {instruction : PaymentInstruction}
    (h : packet.opened env = .ok instruction) :
    ∃ plaintext, decryptPayload env.prim packet.envelope.encryptedKey packet.envelope.nonce
        packet.envelope.ciphertext packet.envelope.aad env.settlementPrivateKey = .ok plaintext ∧
      PaymentInstruction.fromCanonicalBytes env.pydantic env.jsonLoads plaintext =
        .ok instruction ∧
      instruction.packetId = packet.packetId := by
  unfold PaymentPacket.opened PaymentPacket.openInstruction at h
  split at h
  · cases h
  · next plaintext hplain =>
      split at h
      · cases h
      · next i hreads =>
          split at h
          · cases h
          · next hid =>
              cases h
              exact ⟨plaintext, hplain, hreads, not_not.mp hid⟩

/-- The row of an opened packet has a provenance. -/
theorem opened_provenance {env : Env} {signed : Set (Bytes × Bytes)} {sealing : Set Sealed}
    (hsigned : Unforgeable env signed) (hsealed : Tight env sealing) (o : Opened env) :
    Nonempty (Provenance env signed sealing o.row) := by
  obtain ⟨plaintext, hplain, hreads, hid⟩ := opened_inv o.opened
  exact ⟨{
    createdAt := o.packet.createdAt
    envelope := o.packet.envelope
    signature := o.packet.signature
    plaintext := plaintext
    instruction := o.instruction
    region := o.packet.signingBytes
    region_eq := rfl
    region_signed := signed_of_verify hsigned o.verified
    key_eq := rfl
    aad_eq := o.bound
    envelope_sealed := sealed_of_decrypt hsealed hplain
    reads := hreads
    inner_id := hid
    payer_eq := rfl
    payee_eq := rfl
    amount_eq := rfl
    currency_eq := rfl
    created_eq := rfl
    amount_pos := o.instruction.amountMinor.2.1
    amount_le := o.instruction.amountMinor.2.2
    parties_differ := fun h => o.instruction.payee_differs (Subtype.ext h) }⟩

/-- **Settlement authenticity.** In every run over arbitrary bodies, every row
has a provenance. -/
theorem rows_authentic {ι : Type} [DecidableEq ι] {env : Env} {signed : Set (Bytes × Bytes)}
    {sealing : Set Sealed} (hsigned : Unforgeable env signed) (hsealed : Tight env sealing)
    {s : Processors ι} (h : Reach (Processors.step env) free Processors.init s) :
    ∀ row ∈ s.store.settlements.rows,
      Nonempty (Provenance env signed sealing row.toSettlement) := by
  intro row hrow
  obtain ⟨t, rfl, ht⟩ := Processors.reach_phases h
  obtain ⟨o, ho, -⟩ := Phases.rows_opened ht row hrow
  rw [ho]
  exact opened_provenance hsigned hsealed o

/-- The reference primitives accept one signature, and open what was sealed. -/
theorem rows_authentic_settled : Nonempty (Provenance Reference.onePayment
    {(Reference.payment.signingBytes, Reference.stamp)}
    {x | Reference.unsealed x.ciphertext = some (x.aad, x.plaintext)} Reference.opened.row) := by
  have hrow : { Reference.opened.row with id := 0, settledAt := Reference.instant.micros } ∈
      (Reference.settled.core.map Phase.prog).store.settlements.rows := by
    rw [State.map_store, Reference.settled_rows]
    exact List.mem_singleton_self _
  refine rows_authentic ?_ ?_ Reference.reach_processors_settled _ hrow
  · intro message signature h
    simp only [Reference.onePayment, Reference.env, Reference.primitives] at h
    split at h
    · next hok => simpa using hok
    · cases h
  · intro encryptedKey contentKey nonce ciphertext aad plaintext _ h
    simp only [Reference.onePayment, Reference.env, Reference.primitives] at h
    split at h
    · next sealedAad text hsealed =>
        split at h
        · next haad => cases h; rw [← haad]; exact hsealed
        · cases h
    · cases h

end MeshSettle.Theorems.Authenticity
