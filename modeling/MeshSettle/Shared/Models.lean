import MeshSettle.Lib.Calendar
import MeshSettle.Lib.Loads
import MeshSettle.Shared.Crypto

/-!
# The wire contract (`shared/models.py`)

The packet, its envelope and the sealed instruction, with the validators the
models declare. What pydantic itself does (reading a JSON document, a UUID, a
timestamp, an integer) is in `Pydantic`; the field order, the constraints and
the user-written checks are spelled out here. A value that a validator lets
through carries its constraints as fields.
-/

namespace MeshSettle

open Lib.Schema Lib.Text Lib.Calendar

/-! ## Enumerations -/

/-- Specific rejection reasons. -/
inductive ErrorCode where
  | malformedPayload
  | invalidSignature
  | duplicatePacket
  | decryptionFailed
  | packetExpired
  | packetNotYetValid
  | internalError
  deriving DecidableEq, Repr

/-- `code.value`. -/
def ErrorCode.value : ErrorCode → String
  | .malformedPayload => "MALFORMED_PAYLOAD"
  | .invalidSignature => "INVALID_SIGNATURE"
  | .duplicatePacket => "DUPLICATE_PACKET"
  | .decryptionFailed => "DECRYPTION_FAILED"
  | .packetExpired => "PACKET_EXPIRED"
  | .packetNotYetValid => "PACKET_NOT_YET_VALID"
  | .internalError => "INTERNAL_ERROR"

/-- Stages of a packet's journey. -/
inductive PacketStatus where
  | created
  | relayed
  | bridged
  | settled
  | rejected
  deriving DecidableEq, Repr

/-! ## Field types -/

/-- `IDENTIFIER_PATTERN`. -/
def identifierPattern : String := "^[A-Za-z0-9_.:\\-]{1,64}$"

/-- The character class of `IDENTIFIER_PATTERN`. -/
def identifierChar (c : Char) : Bool := c.isAlphanum || c = '_' || c = '.' || c = ':' || c = '-'

/-- A string that `IDENTIFIER_PATTERN` matches. -/
def matchesIdentifier (s : String) : Bool :=
  1 ≤ s.length && s.length ≤ 64 && s.toList.all identifierChar

/-- `^[A-Z]{3}$`. -/
def currencyPattern : String := "^[A-Z]{3}$"

/-- A string that `^[A-Z]{3}$` matches. -/
def matchesCurrency (s : String) : Bool :=
  s.length = 3 && s.toList.all fun c => 'A' ≤ c && c ≤ 'Z'

abbrev Identifier := { s : String // matchesIdentifier s = true }

abbrev Currency := { s : String // matchesCurrency s = true }

/-- `MAX_AMOUNT_MINOR`. -/
def maxAmountMinor : Int := 10 ^ 12

abbrev AmountMinor := { n : Int // 0 < n ∧ n ≤ maxAmountMinor }

/-- A UUID. -/
structure UUID where
  int : BitVec 128
  deriving DecidableEq

/-- `str(uuid)`. -/
def UUID.str (u : UUID) : String :=
  let n := u.int.toNat
  String.ofList (pad 16 8 (n / 16 ^ 24) ++ '-' :: (pad 16 4 (n / 16 ^ 20 % 16 ^ 4) ++ '-' ::
    (pad 16 4 (n / 16 ^ 16 % 16 ^ 4) ++ '-' :: (pad 16 4 (n / 16 ^ 12 % 16 ^ 4) ++ '-' ::
      pad 16 12 (n % 16 ^ 12)))))

theorem UUID.str_inj {u v : UUID} (h : u.str = v.str) : u = v := by
  have hu := u.int.isLt
  have hv := v.int.isLt
  have h := String.ofList_inj.mp h
  obtain ⟨h1, h⟩ := List.append_inj h (by simp)
  obtain ⟨h2, h⟩ := List.append_inj (List.cons.inj h).2 (by simp)
  obtain ⟨h3, h⟩ := List.append_inj (List.cons.inj h).2 (by simp)
  obtain ⟨h4, h⟩ := List.append_inj (List.cons.inj h).2 (by simp)
  have h5 := (List.cons.inj h).2
  have inj {w a b : Nat} (ha : a < 16 ^ w) (hb : b < 16 ^ w) (e : pad 16 w a = pad 16 w b) :
      a = b := pad_inj (by decide) (by decide) ha hb e
  have e1 := inj (by omega) (by omega) h1
  have e2 := inj (by omega) (by omega) h2
  have e3 := inj (by omega) (by omega) h3
  have e4 := inj (by omega) (by omega) h4
  have e5 := inj (by omega) (by omega) h5
  have hn : u.int.toNat = v.int.toNat := by omega
  cases u; cases v
  exact congrArg UUID.mk (BitVec.eq_of_toNat_eq hn)

/-- A timezone-aware UTC instant, in microseconds from the start of year 1. -/
structure UtcTimestamp where
  micros : Nat
  bounded : micros < maxMicros
  deriving DecidableEq

/-- A `datetime` as read from the wire: local time, and the UTC offset in
seconds when there is one. -/
structure Datetime where
  localMicros : Nat
  offset : Option Int
  bounded : localMicros < maxMicros
  deriving DecidableEq

/-- Render a timestamp as canonical UTC ISO 8601. -/
def canonicalTimestamp (moment : UtcTimestamp) : String :=
  String.ofList (isoformat moment.micros)

theorem canonicalTimestamp_inj {a b : UtcTimestamp}
    (h : canonicalTimestamp a = canonicalTimestamp b) : a = b := by
  have hm := isoformat_inj a.bounded b.bounded (String.ofList_inj.mp h)
  cases a; cases b
  simpa using hm

/-- Require an explicit timezone and normalize to UTC. `astimezone` overflows
when the UTC instant leaves the years 1 to 9999. -/
def normalizeToUtc (value : Datetime) : Except Exc UtcTimestamp :=
  match value.offset with
  | none => .error (.valueError "timestamp must be timezone-aware")
  | some offset =>
      let utc := (value.localMicros : Int) - offset * 1000000
      if h : 0 ≤ utc ∧ utc < maxMicros then .ok ⟨utc.toNat, by omega⟩
      else .error (.overflowError "date value out of range")

/-! ## Readers -/

/-- The type and the text of an error found by pydantic itself. -/
abbrev Complaint := String × String

/-- The readers of pydantic that the models rely on, and `str()` of a
`ValidationError`. -/
structure Pydantic where
  parseJson : Bytes → Except String Json
  readUuid : Json → Except Complaint UUID
  readDatetime : Json → Except Complaint Datetime
  readInt : Json → Except Complaint Int
  errorText : String → List ErrorDetails → String

/-- Use a reader of pydantic. -/
def read {α : Type} (reader : Json → Except Complaint α) (j : Json) : Checked Exc α :=
  match reader j with
  | .ok a => .ok a
  | .error (type, msg) => reject type msg j

/-- A `str` field. -/
def readStr (j : Json) : Checked Exc String :=
  match j with
  | .str s => .ok s
  | .unpaired _ => reject "string_unicode"
      "Input should be a valid string, unable to parse raw data as a unicode string" j
  | _ => reject "string_type" "Input should be a valid string" j

/-- A `str` field with a pattern. -/
def readPattern (pattern : String) (test : String → Bool) (j : Json) :
    Checked Exc { s : String // test s = true } :=
  match readStr j with
  | .error f => .error f
  | .ok s =>
      if h : test s = true then .ok ⟨s, h⟩
      else reject "string_pattern_mismatch" ("String should match pattern '" ++ pattern ++ "'") j

def readIdentifier : Json → Checked Exc Identifier :=
  readPattern identifierPattern matchesIdentifier

def readCurrency : Json → Checked Exc Currency :=
  readPattern currencyPattern matchesCurrency

/-- `Field(gt=0, le=MAX_AMOUNT_MINOR)`. -/
def readAmount (py : Pydantic) (j : Json) : Checked Exc AmountMinor :=
  match read py.readInt j with
  | .error f => .error f
  | .ok n =>
      if h : 0 < n then
        if h' : n ≤ maxAmountMinor then .ok ⟨n, h, h'⟩
        else reject "less_than_equal" ("Input should be less than or equal to " ++
          toString maxAmountMinor) j
      else reject "greater_than" "Input should be greater than 0" j

/-- A timestamp field with the `_require_utc` check. -/
def readUtc (py : Pydantic) (j : Json) : Checked Exc UtcTimestamp :=
  after Exc.valueErrorText j (read py.readDatetime j) normalizeToUtc

/-- Accept a base64url string, return bytes. -/
def coerceBytes (value : Json) : Except Exc Bytes :=
  match value with
  | .str s => b64uDecode s
  | .unpaired _ => .error (.valueError "value is not valid base64url")
  | _ => .error (.valueError "expected bytes or a base64url string")

/-- A `B64UBytes` field with a check of its own. -/
def readBytes {α : Type} (check : Bytes → Except Exc α) (j : Json) : Checked Exc α :=
  after Exc.valueErrorText j (after Exc.valueErrorText j (.ok j) coerceBytes) check

/-! ## Envelope, hops and packet -/

/-- The sealed payload. -/
structure EncryptedEnvelope where
  encryptedKey : Bytes
  nonce : Bytes
  ciphertext : Bytes
  aad : Bytes
  encryptedKey_ne : encryptedKey ≠ []
  nonce_length : nonce.length = 12
  ciphertext_ne : ciphertext ≠ []
  aad_ne : aad ≠ []
  deriving DecidableEq

def nonceIs96Bits (value : Bytes) : Except Exc { b : Bytes // b.length = 12 } :=
  if h : value.length = 12 then .ok ⟨value, h⟩
  else .error (.valueError "nonce must be exactly 12 bytes (96 bits)")

def notEmpty (value : Bytes) : Except Exc { b : Bytes // b ≠ [] } :=
  if h : value ≠ [] then .ok ⟨value, h⟩
  else .error (.valueError "value must not be empty")

/-- `EncryptedEnvelope.model_validate`. -/
def EncryptedEnvelope.validate : Json → Checked Exc EncryptedEnvelope :=
  object fun members =>
    (both (field members "encrypted_key" (readBytes notEmpty))
      (both (field members "nonce" (readBytes nonceIs96Bits))
        (both (field members "ciphertext" (readBytes notEmpty))
          (both (field members "aad" (readBytes notEmpty))
            (forbidExtra ["encrypted_key", "nonce", "ciphertext", "aad"] members))))).map
      fun ⟨k, n, c, a, _⟩ => ⟨k.1, n.1, c.1, a.1, k.2, n.2, c.2, a.2⟩

/-- One device-to-device hop, unsigned. -/
structure HopRecord where
  nodeId : Identifier
  receivedAt : UtcTimestamp
  deriving DecidableEq

/-- `HopRecord.model_validate`. -/
def HopRecord.validate (py : Pydantic) : Json → Checked Exc HopRecord :=
  object fun members =>
    (both (field members "node_id" readIdentifier)
      (both (field members "received_at" (readUtc py))
        (forbidExtra ["node_id", "received_at"] members))).map
      fun ⟨n, r, _⟩ => ⟨n, r⟩

/-- `tuple[HopRecord, ...]`. -/
def readHops (py : Pydantic) (j : Json) : Checked Exc (List HopRecord) :=
  match j with
  | .arr js => items (HopRecord.validate py) 0 js
  | _ => reject "tuple_type" "Input should be a valid array" j

/-- The unit that travels from sender to settlement. -/
structure PaymentPacket where
  packetId : UUID
  senderId : Identifier
  createdAt : UtcTimestamp
  envelope : EncryptedEnvelope
  signature : Bytes
  hops : List HopRecord
  signature_length : signature.length = 64
  deriving DecidableEq

def signatureIsEd25519Sized (value : Bytes) : Except Exc { b : Bytes // b.length = 64 } :=
  if h : value.length = 64 then .ok ⟨value, h⟩
  else .error (.valueError "Ed25519 signature must be exactly 64 bytes")

namespace PaymentPacket

/-- `PaymentPacket.model_validate`. -/
def validate (py : Pydantic) : Json → Checked Exc PaymentPacket :=
  object fun members =>
    (both (field members "packet_id" (read py.readUuid))
      (both (field members "sender_id" readIdentifier)
        (both (field members "created_at" (readUtc py))
          (both (field members "envelope" EncryptedEnvelope.validate)
            (both (field members "signature" (readBytes signatureIsEd25519Sized))
              (both (fieldOr members "hops" [] (readHops py))
                (forbidExtra ["packet_id", "sender_id", "created_at", "envelope",
                  "signature", "hops"] members))))))).map
      fun ⟨p, s, t, e, g, h, _⟩ => ⟨p, s, t, e, g.1, h, g.2⟩

/-- `PaymentPacket.model_validate_json`. The input of an unreadable document is
no JSON value; nothing reads it. -/
def modelValidateJson (py : Pydantic) (rawBody : Bytes) : Checked Exc PaymentPacket :=
  match py.parseJson rawBody with
  | .error msg => reject "json_invalid" ("Invalid JSON: " ++ msg) .null
  | .ok j => validate py j

/-- The canonical bytes the signature covers. -/
def signingBytes (p : PaymentPacket) : Bytes :=
  buildSigningBytes p.packetId.str p.senderId.1 (canonicalTimestamp p.createdAt)
    p.envelope.encryptedKey p.envelope.nonce p.envelope.ciphertext p.envelope.aad

/-- Redis dedupe key, derived from the signed region only. -/
def idempotencyKey (prim : Primitives) (p : PaymentPacket) : String :=
  deriveIdempotencyKey prim p.signingBytes

def hopCount (p : PaymentPacket) : Nat := p.hops.length

/-- Verify the signature. -/
def verify (prim : Primitives) (publicKey : Bytes) (p : PaymentPacket) : Except Exc Unit :=
  verifySignature prim p.signingBytes p.signature publicKey

/-- The AAD this packet's header implies. -/
def expectedAad (p : PaymentPacket) : Bytes := buildAad p.packetId.str p.senderId.1

/-- Packets with the same signing bytes agree on everything that is signed. -/
theorem signed_eq {p q : PaymentPacket} (h : p.signingBytes = q.signingBytes) :
    p.packetId = q.packetId ∧ p.senderId = q.senderId ∧ p.createdAt = q.createdAt ∧
      p.envelope = q.envelope := by
  obtain ⟨hp, hs, ht, hk, hn, hc, ha⟩ := buildSigningBytes_inj h
  refine ⟨UUID.str_inj hp, Subtype.ext hs, canonicalTimestamp_inj ht, ?_⟩
  generalize p.envelope = e at hk hn hc ha
  generalize q.envelope = f at hk hn hc ha
  cases e; cases f
  simp_all

end PaymentPacket

/-! ## The sealed instruction -/

/-- The payment itself. -/
structure PaymentInstruction where
  packetId : UUID
  payerId : Identifier
  payeeId : Identifier
  amountMinor : AmountMinor
  currency : Currency
  createdAt : UtcTimestamp
  payee_differs : payerId ≠ payeeId
  deriving DecidableEq

/-- `json.loads` failures: a syntax error, another `ValueError` (undecodable
text, an integer with too many digits), or nesting beyond the recursion
limit. -/
inductive LoadsFailure where
  | jsonDecodeError
  | valueError (msg : String)
  | recursionError (msg : String)

/-- The interpreter a service runs in: the text of a `UnicodeDecodeError`, and
how deep a JSON document may be nested before the recursion check fails. -/
structure Interpreter where
  undecodable : Bytes → String
  depth : Nat

/-- The text of a `RecursionError`. -/
def tooDeepText : Lib.Loads.Container → String
  | .array =>
      "maximum recursion depth exceeded while decoding a JSON array from a unicode string"
  | .object =>
      "maximum recursion depth exceeded while decoding a JSON object from a unicode string"

/-- The text of the `ValueError` about an integer with too many digits. -/
def tooManyDigitsText (digits : Nat) : String :=
  "Exceeds the limit (" ++ toString Lib.Loads.maxDigits ++ " digits) for integer string " ++
    "conversion: value has " ++ toString digits ++
    " digits; use sys.set_int_max_str_digits() to increase the limit"

/-- `json.loads` of bytes. -/
def Interpreter.jsonLoads (python : Interpreter) (raw : Bytes) : Except LoadsFailure Json :=
  match Lib.Unicode.decode raw with
  | none => .error (.valueError (python.undecodable raw))
  | some text =>
      match Lib.Loads.loads python.depth text with
      | .ok j => .ok j
      | .error .syntaxError => .error .jsonDecodeError
      | .error (.tooManyDigits digits) => .error (.valueError (tooManyDigitsText digits))
      | .error (.tooDeep container) => .error (.recursionError (tooDeepText container))

namespace PaymentInstruction

/-- The `payee_id` check: it differs from the payer, if there is a valid one. -/
def payeeDiffersFromPayer (payer : Checked Exc Identifier) (value : Identifier) :
    Except Exc { v : Identifier // ∀ p, payer = .ok p → p ≠ v } :=
  match payer with
  | .error _ => .ok ⟨value, fun _ h => nomatch h⟩
  | .ok p =>
      if h : p = value then .error (.valueError "payer_id and payee_id must differ")
      else .ok ⟨value, fun q hq => by cases hq; exact h⟩

/-- A checked payee differs from the payer. -/
theorem payee_ne {payer : Checked Exc Identifier} (p : Identifier) (hp : payer = .ok p)
    (v : { v : Identifier // ∀ p, payer = .ok p → p ≠ v }) : p ≠ v.1 :=
  v.2 p hp

/-- Checked parties differ. -/
theorem parties_ne (parties : { parties : Identifier × Identifier // parties.1 ≠ parties.2 }) :
    parties.1.1 ≠ parties.1.2 :=
  parties.2

/-- The default of `currency`. -/
def inr : Currency := ⟨"INR", by decide⟩

/-- `PaymentInstruction.model_validate` of a JSON object. -/
def validate (py : Pydantic) (members : List (String × Json)) : Checked Exc PaymentInstruction :=
  let payer := field members "payer_id" readIdentifier
  let payee := field members "payee_id" fun j =>
    after Exc.valueErrorText j (readIdentifier j) (payeeDiffersFromPayer payer)
  (both (field members "packet_id" (read py.readUuid))
    (both (combine payer payee fun p hp v => (⟨(p, v.1), v.2 p hp⟩ :
        { parties : Identifier × Identifier // parties.1 ≠ parties.2 }))
      (both (field members "amount_minor" (readAmount py))
        (both (fieldOr members "currency" inr readCurrency)
          (both (field members "created_at" (readUtc py))
            (forbidExtra ["packet_id", "payer_id", "payee_id", "amount_minor", "currency",
              "created_at"] members)))))).map
    fun ⟨i, parties, a, c, t, _⟩ => ⟨i, parties.1.1, parties.1.2, a, c, t, parties.2⟩

/-- Parse and validate decrypted plaintext back into an instruction. -/
def fromCanonicalBytes (py : Pydantic) (loads : Bytes → Except LoadsFailure Json)
    (raw : Bytes) : Except Exc PaymentInstruction :=
  match loads raw with
  | .error .jsonDecodeError => .error (.valueError "decrypted payload is not valid JSON")
  | .error (.valueError msg) => .error (.valueError msg)
  | .error (.recursionError msg) => .error (.recursionError msg)
  | .ok payload =>
      if payload.members.isNone then
        .error (.valueError "decrypted payload is not a JSON object")
      else
        match object (validate py) payload with
        | .ok i => .ok i
        | .error (.invalid errors) => .error (.validationError "PaymentInstruction" errors)
        | .error (.raised e) => .error e

end PaymentInstruction

/-- Decrypt the envelope and validate the instruction inside it; its packet id
must be the header's. -/
def PaymentPacket.openInstruction (prim : Primitives) (py : Pydantic)
    (loads : Bytes → Except LoadsFailure Json) (recipientPrivateKey : Bytes)
    (p : PaymentPacket) : Except Exc PaymentInstruction :=
  match decryptPayload prim p.envelope.encryptedKey p.envelope.nonce p.envelope.ciphertext
      p.envelope.aad recipientPrivateKey with
  | .error e => .error e
  | .ok plaintext =>
      match PaymentInstruction.fromCanonicalBytes py loads plaintext with
      | .error e => .error e
      | .ok instruction =>
          if instruction.packetId ≠ p.packetId then
            .error (.valueError "inner packet_id does not match envelope packet_id")
          else .ok instruction

end MeshSettle
