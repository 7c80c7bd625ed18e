import MeshSettle.Lib.Base64
import MeshSettle.Lib.Schema
import MeshSettle.Lib.Text
import MeshSettle.Lib.Unicode
import Mathlib.Data.List.Sort

/-!
# The cryptographic core (`shared/crypto.py`)

Canonical JSON, the AAD, the signing bytes, the idempotency key, and the two
fallible operations of settlement: opening an envelope and verifying a
signature. The primitives themselves (SHA-256, Ed25519, RSA-OAEP, AES-GCM)
are the fields of `Primitives`.

`buildSigningBytes_inj` is the fact the settlement proofs rest on: the signed
region is encoded injectively, so that one idempotency key stands for one
signed region as soon as SHA-256 does not collide.
-/

namespace MeshSettle

open Lib.Schema (Json ErrorDetails)
open Lib.Text
open Lib.Unicode (encode)

abbrev Bytes := List UInt8

/-- The exceptions that reach a handler of the settlement service. -/
inductive Exc where
  | valueError (msg : String)
  | validationError (title : String) (errors : List ErrorDetails)
  | overflowError (msg : String)
  | recursionError (msg : String)
  | signatureVerificationError (msg : String)
  | decryptionError (msg : String)
  /-- Postgres refused a row by a constraint. -/
  | integrityError
  /-- Postgres refused a value that does not fit its column. -/
  | dataError
  /-- A failed Redis or Postgres call. -/
  | infrastructure

/-- The message of a `ValueError` raised inside a validator, which becomes a
validation error; other exceptions propagate. -/
def Exc.valueErrorText : Exc → Option String
  | .valueError msg => some msg
  | _ => none

/-! ## Primitives -/

/-- Why Ed25519 verification failed. -/
inductive VerifyFailure where
  | invalidSignature
  | other

/-- Why AES-GCM decryption failed. -/
inductive OpenFailure where
  | invalidTag
  | other

/-- The cryptographic primitives. `none` and `error` are raised exceptions. -/
structure Primitives where
  sha256 : Bytes → Vector UInt8 32
  ed25519Verify : (publicKey signature message : Bytes) → Except VerifyFailure Unit
  rsaOaepDecrypt : (privateKey ciphertext : Bytes) → Option Bytes
  aesGcmDecrypt : (key nonce ciphertext aad : Bytes) → Except OpenFailure Bytes

/-! ## Encoding helpers -/

/-- `str.encode("utf-8")`. -/
def utf8 (s : String) : Bytes := s.toUTF8.data.toList

theorem utf8_inj {s t : String} (h : utf8 s = utf8 t) : s = t := by
  unfold utf8 at h
  exact String.toByteArray_inj.mp (ByteArray.ext (Array.toList_inj.mp h))

theorem utf8_eq_encode (s : String) : utf8 s = encode s.toList := by
  have hbytes : s.toUTF8 = s.toList.utf8Encode := by
    rw [String.toUTF8_eq_toByteArray, String.utf8Encode_toList]
  unfold utf8 encode
  rw [hbytes, List.utf8Encode, List.data_toByteArray]

/-- base64url encode without padding. -/
def b64uEncode (raw : Bytes) : String := String.ofList (Lib.Base64.unpadded raw)

/-- Inverse of `b64uEncode`, restoring stripped padding. -/
def b64uDecode (encoded : String) : Except Exc Bytes :=
  let paddingNeeded := (4 - encoded.length % 4) % 4
  match Lib.Base64.decode (encoded.toList ++ List.replicate paddingNeeded '=') with
  | some raw => .ok raw
  | none => .error (.valueError "value is not valid base64url")

theorem b64uEncode_inj {a b : Bytes} (h : b64uEncode a = b64uEncode b) : a = b :=
  Lib.Base64.unpadded_inj (String.ofList_inj.mp h)

/-- What is encoded is decoded. -/
theorem b64uDecode_b64uEncode (raw : Bytes) : b64uDecode (b64uEncode raw) = .ok raw := by
  unfold b64uDecode b64uEncode
  simp only [String.toList_ofList, String.length_ofList]
  rw [← Lib.Base64.encode_eq_padded, Lib.Base64.decode_encode]

/-- The values that canonical JSON is built from here. -/
inductive Scalar where
  | text (s : String)
  | int (n : Int)

/-- A scalar as JSON text. -/
def Scalar.json : Scalar → List Char
  | .text s => quote s.toList
  | .int n => (toString n).toList

/-- One member of an object as JSON text. -/
def memberJson (m : String × Scalar) : List Char := quote m.1.toList ++ ':' :: m.2.json

/-- Members separated by commas. -/
def membersJson : List (String × Scalar) → List Char
  | [] => []
  | [m] => memberJson m
  | m :: n :: ms => memberJson m ++ ',' :: membersJson (n :: ms)

/-- An object as JSON text, without insignificant whitespace. -/
def objectJson (members : List (String × Scalar)) : List Char :=
  '{' :: (membersJson members ++ ['}'])

/-- Serialize a mapping deterministically: sorted keys, no whitespace, UTF-8. -/
def canonicalJson (payload : List (String × Scalar)) : Bytes :=
  utf8 (String.ofList (objectJson (payload.insertionSort fun a b => a.1 ≤ b.1)))

/-! ## AAD, signing bytes and idempotency key -/

/-- The GCM additional authenticated data. -/
def buildAad (packetId senderId : String) : Bytes :=
  canonicalJson [("packet_id", .text packetId), ("sender_id", .text senderId)]

/-- The canonical byte string that the Ed25519 signature covers. -/
def buildSigningBytes (packetId senderId createdAt : String)
    (encryptedKey nonce ciphertext aad : Bytes) : Bytes :=
  canonicalJson [
    ("packet_id", .text packetId),
    ("sender_id", .text senderId),
    ("created_at", .text createdAt),
    ("encrypted_key", .text (b64uEncode encryptedKey)),
    ("nonce", .text (b64uEncode nonce)),
    ("ciphertext", .text (b64uEncode ciphertext)),
    ("aad", .text (b64uEncode aad))]

/-- `IDEMPOTENCY_KEY_PREFIX`. -/
def idempotencyKeyPrefix : String := "settle:"

/-- `hexdigest`: two hexadecimal digits for each byte. -/
def hexdigest (digest : Vector UInt8 32) : String :=
  String.ofList (digest.toList.flatMap fun b => pad 16 2 b.toNat)

/-- Derive the Redis dedupe key from the signed region. -/
def deriveIdempotencyKey (prim : Primitives) (signingBytes : Bytes) : String :=
  idempotencyKeyPrefix ++ hexdigest (prim.sha256 signingBytes)

/-! ## Opening and verifying -/

/-- `AES_KEY_BYTES`. -/
def aesKeyBytes : Nat := 32

/-- Unwrap the AES key with RSA-OAEP, then open the AES-256-GCM ciphertext. -/
def decryptPayload (prim : Primitives) (encryptedKey nonce ciphertext aad : Bytes)
    (recipientPrivateKey : Bytes) : Except Exc Bytes :=
  match prim.rsaOaepDecrypt recipientPrivateKey encryptedKey with
  | none => .error (.decryptionError "content key could not be unwrapped")
  | some contentKey =>
      if contentKey.length ≠ aesKeyBytes then
        .error (.decryptionError "unwrapped content key has the wrong length")
      else
        match prim.aesGcmDecrypt contentKey nonce ciphertext aad with
        | .ok plaintext => .ok plaintext
        | .error .invalidTag => .error (.decryptionError "AES-GCM authentication tag mismatch")
        | .error .other => .error (.decryptionError "payload could not be decrypted")

/-- Verify an Ed25519 signature, raising on any failure. -/
def verifySignature (prim : Primitives) (signingBytes signature publicKey : Bytes) :
    Except Exc Unit :=
  match prim.ed25519Verify publicKey signature signingBytes with
  | .ok () => .ok ()
  | .error .invalidSignature =>
      .error (.signatureVerificationError "packet signature did not verify")
  | .error .other =>
      .error (.signatureVerificationError "packet signature could not be checked")

/-! ## The encodings determine what they encode -/

/-- Canonical JSON is never empty. -/
theorem canonicalJson_ne (payload : List (String × Scalar)) : canonicalJson payload ≠ [] := by
  intro h
  have hempty : utf8 "" = [] := rfl
  have htext := utf8_inj (h.trans hempty.symm)
  have hlist : objectJson _ = "".toList := String.ofList_inj.mp (htext.trans rfl)
  cases hlist

/-- A member with a text value. -/
def textMember (m : String × String) : String × Scalar := (m.1, .text m.2)

theorem memberJson_append_inj {k v v' : String} {r r' : List Char}
    (h : memberJson (k, .text v) ++ r = memberJson (k, .text v') ++ r') : v = v' ∧ r = r' := by
  simp only [memberJson, Scalar.json, List.append_assoc] at h
  have hvalue := (List.cons.inj (quote_append_inj h).2).2
  obtain ⟨hv, hr⟩ := quote_append_inj hvalue
  exact ⟨String.toList_inj.mp hv, hr⟩

theorem membersJson_inj {ms ms' : List (String × String)} {r r' : List Char}
    (hkeys : ms.map Prod.fst = ms'.map Prod.fst)
    (h : membersJson (ms.map textMember) ++ r = membersJson (ms'.map textMember) ++ r') :
    ms = ms' := by
  induction ms generalizing ms' with
  | nil =>
      cases ms' with
      | nil => rfl
      | cons m' t' => cases hkeys
  | cons m t ih =>
      cases ms' with
      | nil => cases hkeys
      | cons m' t' =>
          obtain ⟨k, v⟩ := m
          obtain ⟨k', v'⟩ := m'
          simp only [List.map_cons, List.cons.injEq] at hkeys
          obtain ⟨rfl, hrest⟩ := hkeys
          cases t with
          | nil =>
              cases t' with
              | nil =>
                  obtain ⟨rfl, -⟩ := memberJson_append_inj h
                  rfl
              | cons _ _ => cases hrest
          | cons n u =>
              cases t' with
              | nil => cases hrest
              | cons n' u' =>
                  simp only [List.map_cons, textMember, membersJson, List.append_assoc,
                    List.cons_append] at h
                  obtain ⟨rfl, hcomma⟩ := memberJson_append_inj h
                  rw [ih hrest (List.cons.inj hcomma).2]

/-- Objects with the same keys and text values are told apart by their text. -/
theorem objectJson_inj {ms ms' : List (String × String)}
    (hkeys : ms.map Prod.fst = ms'.map Prod.fst)
    (h : objectJson (ms.map textMember) = objectJson (ms'.map textMember)) : ms = ms' :=
  membersJson_inj hkeys (List.cons.inj h).2

/-- The members of the signed region, in the order of their sorted keys. -/
def signedMembers (packetId senderId createdAt : String)
    (encryptedKey nonce ciphertext aad : Bytes) : List (String × String) :=
  [("aad", b64uEncode aad), ("ciphertext", b64uEncode ciphertext), ("created_at", createdAt),
    ("encrypted_key", b64uEncode encryptedKey), ("nonce", b64uEncode nonce),
    ("packet_id", packetId), ("sender_id", senderId)]

theorem buildSigningBytes_eq (packetId senderId createdAt : String)
    (encryptedKey nonce ciphertext aad : Bytes) :
    buildSigningBytes packetId senderId createdAt encryptedKey nonce ciphertext aad =
      utf8 (String.ofList (objectJson ((signedMembers packetId senderId createdAt
        encryptedKey nonce ciphertext aad).map textMember))) := by
  unfold buildSigningBytes canonicalJson
  congr 3
  simp [List.insertionSort, signedMembers, textMember]

/-- The signed region is encoded injectively. -/
theorem buildSigningBytes_inj {p s t p' s' t' : String} {k n c a k' n' c' a' : Bytes}
    (h : buildSigningBytes p s t k n c a = buildSigningBytes p' s' t' k' n' c' a') :
    p = p' ∧ s = s' ∧ t = t' ∧ k = k' ∧ n = n' ∧ c = c' ∧ a = a' := by
  rw [buildSigningBytes_eq, buildSigningBytes_eq] at h
  have hms := objectJson_inj (by rfl) (String.ofList_inj.mp (utf8_inj h))
  simp only [signedMembers, List.cons.injEq, Prod.mk.injEq, true_and, and_true] at hms
  obtain ⟨ha, hc, ht, hk, hn, hp, hs⟩ := hms
  exact ⟨hp, hs, ht, b64uEncode_inj hk, b64uEncode_inj hn, b64uEncode_inj hc,
    b64uEncode_inj ha⟩

theorem buildAad_eq (packetId senderId : String) : buildAad packetId senderId =
    utf8 (String.ofList (objectJson
      ([("packet_id", packetId), ("sender_id", senderId)].map textMember))) := by
  unfold buildAad canonicalJson
  congr 3
  simp [List.insertionSort, textMember]

/-- The AAD determines the header. -/
theorem buildAad_inj {p s p' s' : String} (h : buildAad p s = buildAad p' s') :
    p = p' ∧ s = s' := by
  rw [buildAad_eq, buildAad_eq] at h
  have hms := objectJson_inj (by rfl) (String.ofList_inj.mp (utf8_inj h))
  simpa only [List.cons.injEq, Prod.mk.injEq, true_and, and_true] using hms

theorem buildAad_ne (packetId senderId : String) : buildAad packetId senderId ≠ [] :=
  canonicalJson_ne _

theorem hexPair_inj {b b' : UInt8} (h : pad 16 2 b.toNat = pad 16 2 b'.toNat) : b = b' := by
  have hb : b.toNat < 16 ^ 2 := b.toNat_lt
  have hb' : b'.toNat < 16 ^ 2 := b'.toNat_lt
  exact UInt8.toNat_inj.mp (pad_inj (by decide) (by decide) hb hb' h)

theorem hexdigest_inj {d d' : Vector UInt8 32} (h : hexdigest d = hexdigest d') : d = d' := by
  have hflat := String.ofList_inj.mp h
  have hlist : d.toList = d'.toList := by
    generalize d.toList = xs at hflat
    generalize d'.toList = ys at hflat
    induction xs generalizing ys with
    | nil =>
        cases ys with
        | nil => rfl
        | cons y ys => exact absurd (congrArg List.length hflat) (by simp; omega)
    | cons x xs ih =>
        cases ys with
        | nil => exact absurd (congrArg List.length hflat) (by simp)
        | cons y ys =>
            obtain ⟨hx, hxs⟩ := List.append_inj hflat (by simp)
            rw [hexPair_inj hx, ih ys hxs]
  exact Vector.toList_inj.mp hlist

/-- One key, one digest. -/
theorem deriveIdempotencyKey_inj {prim : Primitives} {a b : Bytes}
    (h : deriveIdempotencyKey prim a = deriveIdempotencyKey prim b) :
    prim.sha256 a = prim.sha256 b :=
  hexdigest_inj (String.append_right_inj _ |>.mp h)

/-- A key is the prefix and 64 hexadecimal digits. -/
theorem deriveIdempotencyKey_length (prim : Primitives) (signingBytes : Bytes) :
    (deriveIdempotencyKey prim signingBytes).length = 71 := by
  have hflat : ∀ xs : List UInt8,
      (xs.flatMap fun b => pad 16 2 b.toNat).length = 2 * xs.length := by
    intro xs
    induction xs with
    | nil => rfl
    | cons x xs ih => simp only [List.flatMap_cons, List.length_append, pad_length, ih,
        List.length_cons]; omega
  have hbegins : "settle:".length = 7 := by decide
  simp [deriveIdempotencyKey, idempotencyKeyPrefix, hexdigest, hflat, hbegins]

end MeshSettle
