import MeshSettle.Settlement.Reference

/-!
# What the idempotency key stands for

The signed region is encoded injectively, through the JSON escapes, the sorted
keys, UTF-8, base64url and the ISO timestamp. So two packets share their
idempotency key exactly when they agree on everything that is signed, as long
as SHA-256 does not collide between their two signed regions. The instant is
signed, not the UTC offset it was given in.
-/

namespace MeshSettle.Theorems.SignedRegion

/-- SHA-256 does not collide between the two signed regions. -/
def NoCollision (prim : Primitives) (p q : PaymentPacket) : Prop :=
  prim.sha256 p.signingBytes = prim.sha256 q.signingBytes → p.signingBytes = q.signingBytes

/-- The packets agree on the header and on the four fields of the envelope. -/
structure SameSigned (p q : PaymentPacket) : Prop where
  packetId : p.packetId = q.packetId
  senderId : p.senderId = q.senderId
  createdAt : p.createdAt = q.createdAt
  encryptedKey : p.envelope.encryptedKey = q.envelope.encryptedKey
  nonce : p.envelope.nonce = q.envelope.nonce
  ciphertext : p.envelope.ciphertext = q.envelope.ciphertext
  aad : p.envelope.aad = q.envelope.aad

/-- The instant of an aware timestamp, in microseconds from the start of year
1 in UTC. -/
def instant (value : Datetime) : Option Int :=
  value.offset.map fun offset => (value.localMicros : Int) - offset * 1000000

/-- What is signed determines the signed region, and the other way round. -/
theorem sameSigned_iff (p q : PaymentPacket) :
    SameSigned p q ↔ p.signingBytes = q.signingBytes := by
  constructor
  · intro h
    show buildSigningBytes _ _ _ _ _ _ _ = buildSigningBytes _ _ _ _ _ _ _
    rw [h.packetId, h.senderId, h.createdAt, h.encryptedKey, h.nonce, h.ciphertext, h.aad]
  · intro h
    obtain ⟨hid, hsender, hcreated, henvelope⟩ := PaymentPacket.signed_eq h
    exact ⟨hid, hsender, hcreated, by rw [henvelope], by rw [henvelope], by rw [henvelope],
      by rw [henvelope]⟩

/-- A normalized timestamp has the instant that it was read with. -/
theorem normalizeToUtc_instant {value : Datetime} {moment : UtcTimestamp}
    (h : normalizeToUtc value = .ok moment) : instant value = some (moment.micros : Int) := by
  unfold normalizeToUtc at h
  split at h
  · cases h
  · next offset hoffset =>
      dsimp only at h
      split at h
      · next hrange =>
          cases h
          show value.offset.map _ = _
          rw [hoffset, Option.map_some, Int.toNat_of_nonneg hrange.1]
      · cases h

/-- Two timestamps are normalized to one value exactly when they name one
instant. -/
theorem normalizeToUtc_iff {v w : Datetime} {a b : UtcTimestamp}
    (hv : normalizeToUtc v = .ok a) (hw : normalizeToUtc w = .ok b) :
    a = b ↔ instant v = instant w := by
  rw [normalizeToUtc_instant hv, normalizeToUtc_instant hw, Option.some_inj, Int.ofNat_inj]
  constructor
  · intro h
    rw [h]
  · intro h
    cases a
    cases b
    cases h
    rfl

/-- **One key, one signed content.** The signing bytes determine their seven
arguments; two packets whose digests do not collide have one key exactly when
they agree on what is signed, whatever their hops and signatures; and the
instant is all that a timestamp contributes. -/
theorem signed_region_injective (prim : Primitives) {p q : PaymentPacket}
    (hfree : NoCollision prim p q) :
    (∀ (p s t p' s' t' : String) (k n c a k' n' c' a' : Bytes),
      buildSigningBytes p s t k n c a = buildSigningBytes p' s' t' k' n' c' a' →
        p = p' ∧ s = s' ∧ t = t' ∧ k = k' ∧ n = n' ∧ c = c' ∧ a = a') ∧
    (p.idempotencyKey prim = q.idempotencyKey prim ↔ SameSigned p q) ∧
    ∀ v w : Datetime, normalizeToUtc v = .ok p.createdAt → normalizeToUtc w = .ok q.createdAt →
      (p.createdAt = q.createdAt ↔ instant v = instant w) := by
  refine ⟨fun p s t p' s' t' k n c a k' n' c' a' h => buildSigningBytes_inj h, ?_, ?_⟩
  · rw [sameSigned_iff]
    constructor
    · intro hkey
      exact hfree (sha256_of_key hkey)
    · intro hsame
      show deriveIdempotencyKey prim _ = deriveIdempotencyKey prim _
      rw [hsame]
  · intro v w hv hw
    exact normalizeToUtc_iff hv hw

/-- A hop does not change the key of the reference payment. -/
theorem signed_region_injective_hopped :
    Reference.payment.idempotencyKey Reference.onePayment.prim =
        Reference.hopped.idempotencyKey Reference.onePayment.prim ↔
      SameSigned Reference.payment Reference.hopped := by
  have hfree : NoCollision Reference.onePayment.prim Reference.payment Reference.hopped :=
    fun _ => rfl
  exact (signed_region_injective Reference.onePayment.prim hfree).2.1

end MeshSettle.Theorems.SignedRegion
