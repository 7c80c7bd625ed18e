import MeshSettle.Lib.Loads
import MeshSettle.Shared.Models

/-!
# What is written is read back

`model_dump_json` of a packet and `to_canonical_bytes` of an instruction, and
the two round trips of the wire contract: the decoded value is the encoded
one, field by field, for every value that validation can produce.

What pydantic's own readers take is assumed (`Pydantic.ReadsBack`) of JSON
documents, of thirty-two hexadecimal digits as a UUID, of the fields of ISO 8601
as a timestamp, and of integers. That the formatters write such texts is proved
(`UUID.str_eq`, `canonicalTimestamp_eq`), and that `json.loads` reads documents
back is too (`Interpreter.loadsBack`).
-/

namespace MeshSettle

open Lib.Schema Lib.Document Lib.Text Lib.Calendar

/-- The bytes of a JSON document. -/
def document (j : Json) : Bytes := utf8 (String.ofList (render j))

/-- The text of thirty-two hexadecimal digits as a UUID. -/
def uuidText (ds : List Nat) : String :=
  let cs := ds.map Nat.digitChar
  String.ofList (cs.take 8 ++ '-' :: ((cs.drop 8).take 4 ++ '-' :: ((cs.drop 12).take 4 ++
    '-' :: ((cs.drop 16).take 4 ++ '-' :: cs.drop 20))))

/-- What the readers take: a document, the digits of a UUID, the fields of a UTC
instant, an integer. -/
structure Pydantic.ReadsBack (py : Pydantic) : Prop where
  json : ∀ j, Simple 8 j → py.parseJson (document j) = .ok j
  uuid : ∀ ds : List Nat, ds.length = 32 → (∀ d ∈ ds, d < 16) →
    py.readUuid (.str (uuidText ds)) = .ok ⟨BitVec.ofNat 128 (ofDigits 16 ds)⟩
  datetime : ∀ f : Fields, f.Valid → ∀ value : Datetime, value.localMicros = f.micros →
    value.offset = some 0 → py.readDatetime (.str (String.ofList f.text)) = .ok value
  int : ∀ n : Int, -2 ^ 63 ≤ n → n < 2 ^ 63 → py.readInt (.int n) = .ok n

/-- `json.loads` reads documents. -/
def LoadsBack (loads : Bytes → Except LoadsFailure Json) : Prop :=
  ∀ j, Simple 8 j → loads (document j) = .ok j

/-! ## The formatters -/

/-- `str(uuid)` groups the thirty-two digits of the number. -/
theorem UUID.str_eq (u : UUID) : u.str = uuidText (digits 16 32 u.int.toNat) := by
  have hsplit : digits 16 32 u.int.toNat = digits 16 8 (u.int.toNat / 16 ^ 24) ++
      (digits 16 4 (u.int.toNat / 16 ^ 20 % 16 ^ 4) ++
        (digits 16 4 (u.int.toNat / 16 ^ 16 % 16 ^ 4) ++
          (digits 16 4 (u.int.toNat / 16 ^ 12 % 16 ^ 4) ++
            digits 16 12 (u.int.toNat % 16 ^ 12)))) := by
    simp only [digits_mod]
    rw [digits_append 16 8 24, digits_append 16 4 20 u.int.toNat,
      digits_append 16 4 16 u.int.toNat, digits_append 16 4 12 u.int.toNat]
  unfold UUID.str uuidText
  dsimp only
  rw [hsplit]
  simp [pad, List.drop_append, List.drop_of_length_le]

/-- The canonical text of a timestamp is that of its fields. -/
theorem canonicalTimestamp_eq (t : UtcTimestamp) :
    canonicalTimestamp t = String.ofList (Fields.ofMicros t.micros).text := by
  rw [canonicalTimestamp, text_ofMicros]

section Readers

variable {py : Pydantic} (h : py.ReadsBack)
include h

theorem Pydantic.ReadsBack.uuid_str (u : UUID) : py.readUuid (.str u.str) = .ok u := by
  have hlt : u.int.toNat < 16 ^ 32 := u.int.isLt
  rw [u.str_eq, h.uuid _ (digits_length 16 32 _) (digits_lt (by decide) 32 _),
    ofDigits_digits hlt, BitVec.ofNat_toNat, BitVec.setWidth_eq]

theorem Pydantic.ReadsBack.datetime_canonical (t : UtcTimestamp) :
    py.readDatetime (.str (canonicalTimestamp t)) = .ok ⟨t.micros, some 0, t.bounded⟩ := by
  rw [canonicalTimestamp_eq]
  exact h.datetime _ (ofMicros_valid t.bounded) _ (micros_ofMicros t.micros).symm rfl

end Readers

/-- **`json.loads` reads documents back**, whatever the interpreter, as long as
they are not nested too deep. -/
theorem Interpreter.jsonLoads_document (python : Interpreter) {j : Json}
    (h : Simple python.depth j) : python.jsonLoads (document j) = .ok j := by
  obtain ⟨c, cs, hcs, hopens⟩ := render_cons h
  have hnul : NoNul (render j) := render_noNul j h
  have hascii : c.toNat < 128 := hopens.ascii
  have hdecode : Lib.Unicode.decode (document j) = some (Lib.Loads.codes (render j)) := by
    rw [document, utf8_eq_encode, String.toList_ofList]
    rw [hcs] at hnul ⊢
    exact Lib.Unicode.decode_encode hascii hnul
  unfold Interpreter.jsonLoads
  rw [hdecode]
  dsimp only
  rw [Lib.Loads.loads_render h]

theorem Interpreter.loadsBack {python : Interpreter} (h : 8 ≤ python.depth) :
    LoadsBack python.jsonLoads :=
  fun _ hj => python.jsonLoads_document (hj.mono h)

/-! ## Fields -/

section Fields

variable {py : Pydantic}

theorem readPattern_str (pattern : String) (test : String → Bool)
    (s : { s : String // test s = true }) : readPattern pattern test (.str s.1) = .ok s := by
  simp only [readPattern, readStr, s.2, dite_true]

theorem readIdentifier_str (s : Identifier) : readIdentifier (.str s.1) = .ok s :=
  readPattern_str _ _ s

theorem readCurrency_str (s : Currency) : readCurrency (.str s.1) = .ok s :=
  readPattern_str _ _ s

theorem readUtc_canonical (h : py.ReadsBack) (t : UtcTimestamp) :
    readUtc py (.str (canonicalTimestamp t)) = .ok t := by
  refine after_ok (a := ⟨t.micros, some 0, t.bounded⟩) ?_ ?_
  · rw [read, h.datetime_canonical]
  · have hbounded := t.bounded
    simp only [normalizeToUtc, zero_mul, sub_zero, Int.toNat_natCast]
    rw [dif_pos ⟨by omega, by omega⟩]

theorem readBytes_b64u {α : Type} {check : Bytes → Except Exc α} {raw : Bytes} {a : α}
    (h : check raw = .ok a) : readBytes check (.str (b64uEncode raw)) = .ok a := by
  refine after_ok (a := raw) (after_ok rfl ?_) h
  rw [coerceBytes, b64uDecode_b64uEncode]

theorem notEmpty_ok {raw : Bytes} (h : raw ≠ []) : notEmpty raw = .ok ⟨raw, h⟩ := dif_pos h

theorem readUuid_str (h : py.ReadsBack) (u : UUID) :
    (read py.readUuid (.str u.str) : Checked Exc UUID) = .ok u := by
  rw [read, h.uuid_str]

theorem readAmount_int (h : py.ReadsBack) (n : AmountMinor) :
    readAmount py (.int n.1) = .ok n := by
  have hn := n.2
  unfold maxAmountMinor at hn
  rw [readAmount, read, h.int n.1 (by omega) (by omega)]
  simp only [n.2.1, n.2.2, dite_true]

end Fields

/-! ## Packets -/

/-- A hop as JSON. -/
def HopRecord.toJson (hop : HopRecord) : Json :=
  .obj [("node_id", .str hop.nodeId.1), ("received_at", .str (canonicalTimestamp hop.receivedAt))]

/-- An envelope as JSON: bytes are written as base64url. -/
def EncryptedEnvelope.toJson (e : EncryptedEnvelope) : Json :=
  .obj [("encrypted_key", .str (b64uEncode e.encryptedKey)), ("nonce", .str (b64uEncode e.nonce)),
    ("ciphertext", .str (b64uEncode e.ciphertext)), ("aad", .str (b64uEncode e.aad))]

namespace PaymentPacket

/-- A packet as JSON, the fields in their declared order. -/
def toJson (p : PaymentPacket) : Json :=
  .obj [("packet_id", .str p.packetId.str), ("sender_id", .str p.senderId.1),
    ("created_at", .str (canonicalTimestamp p.createdAt)), ("envelope", p.envelope.toJson),
    ("signature", .str (b64uEncode p.signature)), ("hops", .arr (p.hops.map HopRecord.toJson))]

/-- `model_dump_json`. -/
def modelDumpJson (p : PaymentPacket) : Bytes := document p.toJson

theorem toJson_simple (p : PaymentPacket) : Simple 8 p.toJson := by
  have hhops : ∀ j ∈ p.hops.map HopRecord.toJson, Simple 6 j := by
    intro j hj
    obtain ⟨hop, -, rfl⟩ := List.mem_map.mp hj
    simp [HopRecord.toJson, Simple, SimpleMembers]
  have hitems := simpleItems_of_forall hhops
  simp [toJson, EncryptedEnvelope.toJson, Simple, SimpleMembers, hitems]

end PaymentPacket

section Packets

variable {py : Pydantic} (h : py.ReadsBack)
include h

theorem HopRecord.validate_toJson (hop : HopRecord) :
    HopRecord.validate py hop.toJson = .ok hop := by
  unfold HopRecord.toJson HopRecord.validate object
  dsimp only
  rw [both_ok (field_ok (by simp [lookup]) (readIdentifier_str hop.nodeId))
    (both_ok (field_ok (by simp [lookup]) (readUtc_canonical h hop.receivedAt))
      (forbidExtra_ok (by simp)))]
  rfl

omit h in
theorem EncryptedEnvelope.validate_toJson (e : EncryptedEnvelope) :
    EncryptedEnvelope.validate e.toJson = .ok e := by
  unfold EncryptedEnvelope.toJson EncryptedEnvelope.validate object
  dsimp only
  rw [both_ok (field_ok (by simp [lookup]) (readBytes_b64u (notEmpty_ok e.encryptedKey_ne)))
    (both_ok (field_ok (by simp [lookup])
        (readBytes_b64u (show nonceIs96Bits e.nonce = .ok ⟨_, e.nonce_length⟩ from
          dif_pos e.nonce_length)))
      (both_ok (field_ok (by simp [lookup]) (readBytes_b64u (notEmpty_ok e.ciphertext_ne)))
        (both_ok (field_ok (by simp [lookup]) (readBytes_b64u (notEmpty_ok e.aad_ne)))
          (forbidExtra_ok (by simp)))))]
  rfl

theorem PaymentPacket.validate_toJson (p : PaymentPacket) :
    PaymentPacket.validate py p.toJson = .ok p := by
  have hhops : readHops py (.arr (p.hops.map HopRecord.toJson)) = .ok p.hops :=
    items_map p.hops (fun hop _ => hop.validate_toJson h) 0
  unfold PaymentPacket.toJson PaymentPacket.validate object
  dsimp only
  rw [both_ok (field_ok (by simp [lookup]) (readUuid_str h p.packetId))
    (both_ok (field_ok (by simp [lookup]) (readIdentifier_str p.senderId))
      (both_ok (field_ok (by simp [lookup]) (readUtc_canonical h p.createdAt))
        (both_ok (field_ok (by simp [lookup]) p.envelope.validate_toJson)
          (both_ok (field_ok (by simp [lookup])
              (readBytes_b64u (show signatureIsEd25519Sized p.signature =
                .ok ⟨_, p.signature_length⟩ from dif_pos p.signature_length)))
            (both_ok (fieldOr_ok (by simp [lookup]) hhops) (forbidExtra_ok (by simp)))))))]
  rfl

/-- **A packet is read back.** -/
theorem PaymentPacket.modelValidateJson_modelDumpJson (p : PaymentPacket) :
    PaymentPacket.modelValidateJson py p.modelDumpJson = .ok p := by
  rw [modelValidateJson, modelDumpJson, h.json _ p.toJson_simple]
  exact p.validate_toJson h

end Packets

/-! ## Instructions -/

/-- A scalar as JSON. -/
def Scalar.toJson : Scalar → Json
  | .text s => .str s
  | .int n => .int n

theorem Scalar.render_toJson (v : Scalar) : render v.toJson = v.json := by
  cases v with
  | text s => rw [toJson, render]; rfl
  | int n => rw [toJson, render]; rfl

theorem membersJson_eq_render (ms : List (String × Scalar)) :
    membersJson ms = renderMembers (ms.map fun m => (m.1, m.2.toJson)) := by
  induction ms with
  | nil => rw [List.map_nil, renderMembers, membersJson]
  | cons m ms ih =>
      obtain ⟨name, v⟩ := m
      cases ms with
      | nil =>
          rw [membersJson, List.map_cons, List.map_nil, renderMembers, memberJson,
            Scalar.render_toJson]
      | cons n ns =>
          rw [membersJson, ih]
          simp only [List.map_cons]
          rw [renderMembers, memberJson, Scalar.render_toJson]
          simp

/-- Canonical JSON is the document of the sorted members. -/
theorem canonicalJson_eq_document (payload : List (String × Scalar)) :
    canonicalJson payload = document (.obj ((payload.insertionSort fun a b => a.1 ≤ b.1).map
      fun m => (m.1, m.2.toJson))) := by
  rw [canonicalJson, document, objectJson, membersJson_eq_render, render]

namespace PaymentInstruction

/-- Deterministic plaintext bytes, for encryption. -/
def toCanonicalBytes (i : PaymentInstruction) : Bytes :=
  canonicalJson [
    ("packet_id", .text i.packetId.str),
    ("payer_id", .text i.payerId.1),
    ("payee_id", .text i.payeeId.1),
    ("amount_minor", .int i.amountMinor.1),
    ("currency", .text i.currency.1),
    ("created_at", .text (canonicalTimestamp i.createdAt))]

/-- The members of an instruction, in the order of their sorted keys. -/
def members (i : PaymentInstruction) : List (String × Json) :=
  [("amount_minor", .int i.amountMinor.1), ("created_at", .str (canonicalTimestamp i.createdAt)),
    ("currency", .str i.currency.1), ("packet_id", .str i.packetId.str),
    ("payee_id", .str i.payeeId.1), ("payer_id", .str i.payerId.1)]

theorem toCanonicalBytes_eq (i : PaymentInstruction) :
    i.toCanonicalBytes = document (.obj i.members) := by
  rw [toCanonicalBytes, canonicalJson_eq_document]
  congr 2
  simp [List.insertionSort, members, Scalar.toJson]

theorem members_simple (i : PaymentInstruction) : Simple 1 (.obj i.members) := by
  have hamount := i.amountMinor.2
  unfold maxAmountMinor at hamount
  have hlower : -2 ^ 63 ≤ i.amountMinor.1 := by omega
  have hupper : i.amountMinor.1 < 2 ^ 63 := by omega
  simp only [members, Simple, SimpleMembers, hlower, hupper]
  simp

theorem payeeDiffersFromPayer_ok {payer : Checked Exc Identifier} {p v : Identifier}
    (h : payer = .ok p) (hne : p ≠ v) :
    payeeDiffersFromPayer payer v = .ok ⟨v, fun q hq => by rw [h] at hq; cases hq; exact hne⟩ := by
  subst h
  exact dif_neg hne

theorem validate_members {py : Pydantic} (h : py.ReadsBack) (i : PaymentInstruction) :
    validate py i.members = .ok i := by
  have hpayer : field i.members "payer_id" (readIdentifier) = .ok i.payerId :=
    field_ok (by simp [members, lookup]) (readIdentifier_str i.payerId)
  have hpayee : field i.members "payee_id" (fun j =>
      after Exc.valueErrorText j (readIdentifier j)
        (payeeDiffersFromPayer (field i.members "payer_id" readIdentifier))) =
      .ok ⟨i.payeeId, fun p hp => by
        rw [hpayer] at hp
        cases hp
        exact i.payee_differs⟩ := by
    refine field_ok (j := .str i.payeeId.1) (by simp [members, lookup])
      (after_ok (readIdentifier_str i.payeeId) ?_)
    exact payeeDiffersFromPayer_ok hpayer i.payee_differs
  unfold validate
  dsimp only
  rw [both_ok (field_ok (by simp [members, lookup]) (readUuid_str h i.packetId))
    (both_ok (combine_ok hpayer hpayee)
      (both_ok (field_ok (by simp [members, lookup]) (readAmount_int h i.amountMinor))
        (both_ok (fieldOr_ok (by simp [members, lookup]) (readCurrency_str i.currency))
          (both_ok (field_ok (by simp [members, lookup]) (readUtc_canonical h i.createdAt))
            (forbidExtra_ok (by simp [members]))))))]
  rfl

/-- **An instruction is read back**, when its document is. -/
theorem fromCanonicalBytes_ok {py : Pydantic} (h : py.ReadsBack)
    {loads : Bytes → Except LoadsFailure Json} {i : PaymentInstruction}
    (hloads : loads (document (.obj i.members)) = .ok (.obj i.members)) :
    fromCanonicalBytes py loads i.toCanonicalBytes = .ok i := by
  rw [fromCanonicalBytes, toCanonicalBytes_eq, hloads]
  dsimp only
  rw [if_neg (by simp [Json.members])]
  unfold object
  dsimp only
  rw [validate_members h]

theorem fromCanonicalBytes_toCanonicalBytes {py : Pydantic} (h : py.ReadsBack)
    {loads : Bytes → Except LoadsFailure Json} (hloads : LoadsBack loads)
    (i : PaymentInstruction) : fromCanonicalBytes py loads i.toCanonicalBytes = .ok i :=
  fromCanonicalBytes_ok h (hloads _ (i.members_simple.mono (by decide)))

end PaymentInstruction

end MeshSettle
