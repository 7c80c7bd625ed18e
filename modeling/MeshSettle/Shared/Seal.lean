import MeshSettle.Shared.Wire

/-!
# Sealing and signing (`shared/crypto.py`, `PaymentPacket.create`)

The sender's side of the packet: the instruction is encrypted under a fresh
content key, the key is wrapped to the settlement service, and the header and
the envelope are signed. What a call draws at random is an argument of it.

The assumptions on the primitives are of two kinds. `Binding` says that what
is opened is what was sealed; `Honest` says that what is sealed can be opened,
and that what is signed verifies.
-/

namespace MeshSettle

open Lib.Schema

/-- `GCM_NONCE_BYTES`. -/
def gcmNonceBytes : Nat := 12

/-- The sender's half of the primitives. A wrapped key and a ciphertext with its
tag are never empty, and an Ed25519 signature has 64 bytes. -/
structure SealPrimitives where
  rsaOaepEncrypt : (publicKey plaintext seed : Bytes) → { b : Bytes // b ≠ [] }
  aesGcmEncrypt : (key nonce plaintext aad : Bytes) → { b : Bytes // b ≠ [] }
  ed25519Sign : (privateKey message : Bytes) → { b : Bytes // b.length = 64 }
  /-- `private_key.public_key()`, as raw bytes. -/
  ed25519PublicKey : (privateKey : Bytes) → Bytes

/-- What one encryption draws at random: the content key, the nonce, and the
seed of the OAEP padding. -/
structure Draw where
  contentKey : Bytes
  nonce : Bytes
  seed : Bytes
  contentKey_length : contentKey.length = aesKeyBytes
  nonce_length : nonce.length = gcmNonceBytes

/-! ## Hybrid encryption -/

/-- The output of `encrypt_payload`. -/
structure EncryptedPayload where
  encryptedKey : { b : Bytes // b ≠ [] }
  nonce : { b : Bytes // b.length = gcmNonceBytes }
  ciphertext : { b : Bytes // b ≠ [] }
  aad : Bytes

/-- Encrypt a payload with a fresh AES-256-GCM key, RSA-OAEP wrapping the key. -/
def encryptPayload (sealer : SealPrimitives) (draw : Draw)
    (plaintext recipientPublicKey aad : Bytes) : EncryptedPayload where
  encryptedKey := sealer.rsaOaepEncrypt recipientPublicKey draw.contentKey draw.seed
  nonce := ⟨draw.nonce, draw.nonce_length⟩
  ciphertext := sealer.aesGcmEncrypt draw.contentKey draw.nonce plaintext aad
  aad := aad

@[simp] theorem encryptPayload_aad (sealer : SealPrimitives) (draw : Draw)
    (plaintext publicKey aad : Bytes) :
    (encryptPayload sealer draw plaintext publicKey aad).aad = aad := rfl

/-- Produce a 64-byte Ed25519 signature. -/
def signBytes (sealer : SealPrimitives) (signingBytes privateKey : Bytes) :
    { b : Bytes // b.length = 64 } :=
  sealer.ed25519Sign privateKey signingBytes

/-- What opens was sealed: RSA-OAEP yields the wrapped key or nothing, and
AES-GCM opens only with the AAD used at sealing. -/
structure Binding (prim : Primitives) (sealer : SealPrimitives) (publicKey privateKey : Bytes) :
    Prop where
  unwraps : ∀ key seed key', key.length = aesKeyBytes → prim.rsaOaepDecrypt privateKey
    (sealer.rsaOaepEncrypt publicKey key seed).1 = some key' → key' = key
  opens : ∀ key nonce plaintext aad aad' plaintext', prim.aesGcmDecrypt key nonce
    (sealer.aesGcmEncrypt key nonce plaintext aad).1 aad' = .ok plaintext' → aad' = aad

/-- What is sealed opens and what is signed verifies: RSA-OAEP for the pair
`publicKey`, `privateKey`, AES-GCM, and Ed25519 for `signingKey`. -/
structure Honest (prim : Primitives) (sealer : SealPrimitives)
    (publicKey privateKey signingKey : Bytes) : Prop where
  unwraps : ∀ key seed, key.length = aesKeyBytes → prim.rsaOaepDecrypt privateKey
    (sealer.rsaOaepEncrypt publicKey key seed).1 = some key
  opens : ∀ key nonce plaintext aad, key.length = aesKeyBytes → nonce.length = gcmNonceBytes →
    prim.aesGcmDecrypt key nonce (sealer.aesGcmEncrypt key nonce plaintext aad).1 aad =
      .ok plaintext
  verifies : ∀ message, prim.ed25519Verify (sealer.ed25519PublicKey signingKey)
    (sealer.ed25519Sign signingKey message).1 message = .ok ()

section Payload

variable {prim : Primitives} {sealer : SealPrimitives} {publicKey privateKey signingKey : Bytes}

/-- **What was sealed under one AAD is not decrypted under another.** -/
theorem decryptPayload_other_aad (h : Binding prim sealer publicKey privateKey) (draw : Draw)
    (plaintext : Bytes) {aad aad' : Bytes} (hne : aad' ≠ aad) :
    ∃ msg, decryptPayload prim (encryptPayload sealer draw plaintext publicKey aad).encryptedKey.1
      (encryptPayload sealer draw plaintext publicKey aad).nonce.1
      (encryptPayload sealer draw plaintext publicKey aad).ciphertext.1 aad' privateKey =
        .error (.decryptionError msg) := by
  unfold decryptPayload
  split
  · exact ⟨_, rfl⟩
  · next key hkey =>
      obtain rfl := h.unwraps _ _ _ draw.contentKey_length hkey
      split
      · exact ⟨_, rfl⟩
      · split
        · next hopen => exact absurd (h.opens _ _ _ _ _ _ hopen) hne
        · exact ⟨_, rfl⟩
        · exact ⟨_, rfl⟩

/-- **What was sealed is decrypted.** -/
theorem decryptPayload_encryptPayload (h : Honest prim sealer publicKey privateKey signingKey)
    (draw : Draw) (plaintext aad : Bytes) :
    decryptPayload prim (encryptPayload sealer draw plaintext publicKey aad).encryptedKey.1
      (encryptPayload sealer draw plaintext publicKey aad).nonce.1
      (encryptPayload sealer draw plaintext publicKey aad).ciphertext.1 aad privateKey =
        .ok plaintext := by
  unfold decryptPayload
  simp only [encryptPayload, h.unwraps _ _ draw.contentKey_length, draw.contentKey_length, ne_eq,
    not_true, if_false]
  rw [h.opens _ _ _ _ draw.contentKey_length draw.nonce_length]

end Payload

theorem encryptPayload_aad_ne (sealer : SealPrimitives) (draw : Draw) (plaintext publicKey : Bytes)
    (packetId senderId : String) :
    (encryptPayload sealer draw plaintext publicKey (buildAad packetId senderId)).aad ≠ [] := by
  rw [encryptPayload_aad]
  exact buildAad_ne packetId senderId

/-! ## Construction of a packet -/

/-- The clock's reading as `datetime.now(UTC)`. -/
def UtcTimestamp.aware (t : UtcTimestamp) : Datetime := ⟨t.micros, some 0, t.bounded⟩

/-- `_normalize_to_utc(created_at or datetime.now(UTC))`. -/
def momentOf (createdAt : Option Datetime) (now : UtcTimestamp) : Except Exc UtcTimestamp :=
  normalizeToUtc (createdAt.getD now.aware)

theorem normalizeToUtc_aware (t : UtcTimestamp) : normalizeToUtc t.aware = .ok t := by
  have hbounded := t.bounded
  simp only [normalizeToUtc, UtcTimestamp.aware, zero_mul, sub_zero, Int.toNat_natCast]
  rw [dif_pos ⟨by omega, by omega⟩]

/-- Without an explicit time, the packet is dated by the clock. -/
theorem momentOf_none (now : UtcTimestamp) : momentOf none now = .ok now :=
  normalizeToUtc_aware now

namespace PaymentPacket

/-- A signature has the size of one. -/
theorem signature_size (signature : { b : Bytes // b.length = 64 }) : signature.1.length = 64 :=
  signature.2

/-- A sealed payload and its signature, under a header. -/
def assemble (packetId : UUID) (senderId : Identifier) (createdAt : UtcTimestamp)
    (payload : EncryptedPayload) (aad_ne : payload.aad ≠ [])
    (signature : { b : Bytes // b.length = 64 }) : PaymentPacket where
  packetId := packetId
  senderId := senderId
  createdAt := createdAt
  envelope := ⟨payload.encryptedKey.1, payload.nonce.1, payload.ciphertext.1, payload.aad,
    payload.encryptedKey.2, payload.nonce.2, payload.ciphertext.2, aad_ne⟩
  signature := signature.1
  hops := []
  signature_length := signature_size signature

/-- Build a fully signed, encrypted packet from an instruction. The one field
that the model can refuse is the sender's id. -/
def create (sealer : SealPrimitives) (draw : Draw) (now : UtcTimestamp)
    (instruction : PaymentInstruction) (senderId : String)
    (signingKey recipientPublicKey : Bytes) (createdAt : Option Datetime := none) :
    Except Exc PaymentPacket :=
  let packetId := instruction.packetId
  match momentOf createdAt now with
  | .error e => .error e
  | .ok moment =>
      let aad := buildAad packetId.str senderId
      let payload := encryptPayload sealer draw instruction.toCanonicalBytes recipientPublicKey aad
      let signature := signBytes sealer
        (buildSigningBytes packetId.str senderId (canonicalTimestamp moment)
          payload.encryptedKey.1 payload.nonce.1 payload.ciphertext.1 payload.aad) signingKey
      match field [("sender_id", .str senderId)] "sender_id" readIdentifier with
      | .error (.invalid errors) => .error (.validationError "PaymentPacket" errors)
      | .error (.raised e) => .error e
      | .ok sender =>
          .ok (assemble packetId sender moment payload (encryptPayload_aad_ne _ _ _ _ _ _)
            signature)

/-- Return a copy with one more hop recorded. -/
def appendHop (p : PaymentPacket) (hop : HopRecord) : PaymentPacket :=
  { p with hops := p.hops ++ [hop] }

@[simp] theorem appendHop_signingBytes (p : PaymentPacket) (hop : HopRecord) :
    (p.appendHop hop).signingBytes = p.signingBytes := rfl

@[simp] theorem appendHop_signature (p : PaymentPacket) (hop : HopRecord) :
    (p.appendHop hop).signature = p.signature := rfl

@[simp] theorem appendHop_verify (prim : Primitives) (publicKey : Bytes) (p : PaymentPacket)
    (hop : HopRecord) : (p.appendHop hop).verify prim publicKey = p.verify prim publicKey := rfl

@[simp] theorem appendHop_hops (p : PaymentPacket) (hop : HopRecord) :
    (p.appendHop hop).hops = p.hops ++ [hop] := rfl

@[simp] theorem appendHop_hopCount (p : PaymentPacket) (hop : HopRecord) :
    (p.appendHop hop).hopCount = p.hopCount + 1 := by
  simp [hopCount]

/-- The packet that an instruction is sealed in, for a sender with a well-formed
id. -/
def sealed (sealer : SealPrimitives) (draw : Draw) (moment : UtcTimestamp)
    (instruction : PaymentInstruction) (sender : Identifier)
    (signingKey recipientPublicKey : Bytes) : PaymentPacket :=
  let payload := encryptPayload sealer draw instruction.toCanonicalBytes recipientPublicKey
    (buildAad instruction.packetId.str sender.1)
  assemble instruction.packetId sender moment payload (encryptPayload_aad_ne _ _ _ _ _ _)
    (signBytes sealer (buildSigningBytes instruction.packetId.str sender.1
      (canonicalTimestamp moment) payload.encryptedKey.1 payload.nonce.1 payload.ciphertext.1
      payload.aad) signingKey)

section Sealed

variable {prim : Primitives} {sealer : SealPrimitives} {draw : Draw} {now moment : UtcTimestamp}
  {createdAt : Option Datetime} {instruction : PaymentInstruction} {sender : Identifier}
  {signingKey publicKey privateKey : Bytes}

/-- **Construction succeeds** for a well-formed sender id. -/
theorem create_ok (hmoment : momentOf createdAt now = .ok moment) :
    create sealer draw now instruction sender.1 signingKey publicKey createdAt =
      .ok (sealed sealer draw moment instruction sender signingKey publicKey) := by
  have hsender : field [("sender_id", .str sender.1)] "sender_id" readIdentifier = .ok sender :=
    field_ok (by simp [lookup]) (readIdentifier_str sender)
  unfold create
  dsimp only
  rw [hmoment]
  dsimp only
  rw [hsender]
  rfl

/-- The signature is that of the signed region. -/
theorem signature_sealed :
    (sealed sealer draw moment instruction sender signingKey publicKey).signature =
      (sealer.ed25519Sign signingKey
        (sealed sealer draw moment instruction sender signingKey publicKey).signingBytes).1 := by
  simp only [sealed, assemble, signBytes, signingBytes]

/-- The sealed packet verifies. -/
theorem verify_sealed (h : Honest prim sealer publicKey privateKey signingKey) :
    (sealed sealer draw moment instruction sender signingKey publicKey).verify prim
      (sealer.ed25519PublicKey signingKey) = .ok () := by
  unfold verify verifySignature
  rw [signature_sealed, h.verifies]

/-- It is bound to its header. -/
theorem bound_sealed :
    (sealed sealer draw moment instruction sender signingKey publicKey).envelope.aad =
      (sealed sealer draw moment instruction sender signingKey publicKey).expectedAad := by
  simp only [sealed, assemble, expectedAad, encryptPayload_aad]

/-- **It opens to the instruction.** -/
theorem openInstruction_sealed {py : Pydantic} (hreads : py.ReadsBack)
    {loads : Bytes → Except LoadsFailure Json} (hloads : LoadsBack loads)
    (h : Honest prim sealer publicKey privateKey signingKey) :
    (sealed sealer draw moment instruction sender signingKey publicKey).openInstruction prim py
      loads privateKey = .ok instruction := by
  have hdecrypt := decryptPayload_encryptPayload h draw instruction.toCanonicalBytes
    (buildAad instruction.packetId.str sender.1)
  unfold openInstruction
  simp only [sealed, assemble, encryptPayload_aad, hdecrypt]
  rw [PaymentInstruction.fromCanonicalBytes_toCanonicalBytes hreads hloads]
  exact if_neg (fun hne => hne rfl)

end Sealed

end PaymentPacket

end MeshSettle
