import MeshSettle.Settlement.Columns
import MeshSettle.Settlement.Genuine
import MeshSettle.Shared.Seal

/-!
# A working instance of the parameters

The theorems take pydantic's readers and the cryptographic primitives as
parameters, with what they rely on as hypotheses. `Reference` has readers that
read exactly what is written, and primitives that are correct on honest
inputs, so every such hypothesis can be met, and met together. The signed
messages and the digests remain parameters of the instance.
-/

namespace MeshSettle.Reference

open Lib.Schema Lib.Text Lib.Calendar

noncomputable section

/-! ## Readers -/

/-- The digit that a character stands for. -/
def digitOf (c : Char) : Nat := (Lib.Loads.hexDigit (.char c)).getD 16

theorem digitOf_digitChar : ∀ d < 16, digitOf (Nat.digitChar d) = d := by decide

theorem map_digitOf {ds : List Nat} (h : ∀ d ∈ ds, d < 16) :
    (ds.map Nat.digitChar).map digitOf = ds := by
  rw [List.map_map]
  conv_rhs => rw [← List.map_id ds]
  exact List.map_congr_left fun d hd => digitOf_digitChar d (h d hd)

theorem ofDigits_pad {w n : Nat} (h : n < 10 ^ w) : ofDigits 10 ((pad 10 w n).map digitOf) = n := by
  have hlt : ∀ d ∈ digits 10 w n, d < 16 := fun d hd =>
    Nat.lt_of_lt_of_le (digits_lt (by decide) w n d hd) (by decide)
  rw [pad, map_digitOf hlt, ofDigits_digits h]

/-- The UUID of a text: its digits, if the text is what groups them. -/
def readUuid (s : String) : Option UUID :=
  let ds := (s.toList.filter fun c => c ≠ '-').map digitOf
  if ds.length = 32 ∧ uuidText ds = s then some ⟨BitVec.ofNat 128 (ofDigits 16 ds)⟩ else none

theorem filter_uuidText {ds : List Nat} (h : ∀ d ∈ ds, d < 16) :
    (uuidText ds).toList.filter (fun c => c ≠ '-') = ds.map Nat.digitChar := by
  have hplain : ∀ cs : List Char, cs ⊆ ds.map Nat.digitChar →
      cs.filter (fun c => c ≠ '-') = cs := by
    intro cs hcs
    refine List.filter_eq_self.mpr fun c hc => ?_
    obtain ⟨d, hd, rfl⟩ := List.mem_map.mp (hcs hc)
    have hhyphen : ∀ d < 16, Nat.digitChar d ≠ '-' := by decide
    simp [hhyphen d (h d hd)]
  have hgroups : ∀ cs : List Char, cs.take 8 ++ ((cs.drop 8).take 4 ++ ((cs.drop 12).take 4 ++
      ((cs.drop 16).take 4 ++ cs.drop 20))) = cs := by
    intro cs
    have hnext : ∀ i, (cs.drop i).take 4 ++ cs.drop (i + 4) = cs.drop i := fun i => by
      rw [← List.drop_drop, List.take_append_drop]
    rw [hnext 16, hnext 12, hnext 8, List.take_append_drop]
  have htake : ∀ i n, ((ds.map Nat.digitChar).drop i).take n ⊆ ds.map Nat.digitChar :=
    fun i n => List.Subset.trans (List.take_subset _ _) (List.drop_subset _ _)
  conv_rhs => rw [← hgroups (ds.map Nat.digitChar)]
  rw [uuidText, String.toList_ofList]
  simp only [List.filter_append, List.filter_cons_of_neg (p := fun c => decide (c ≠ '-'))
    (show ¬ decide ('-' ≠ '-') = true by decide), hplain _ (htake _ _),
    hplain _ (List.take_subset _ _), hplain _ (List.drop_subset _ _)]

theorem readUuid_uuidText {ds : List Nat} (hlength : ds.length = 32) (h : ∀ d ∈ ds, d < 16) :
    readUuid (uuidText ds) = some ⟨BitVec.ofNat 128 (ofDigits 16 ds)⟩ := by
  rw [readUuid, filter_uuidText h, map_digitOf h]
  exact if_pos ⟨hlength, rfl⟩

/-- The number at a place of a text. -/
def numberAt (s : List Char) (i w : Nat) : Nat := ofDigits 10 (((s.drop i).take w).map digitOf)

/-- The fields of a text, if the text is theirs. -/
def readFields (s : List Char) : Option Fields :=
  let f : Fields :=
    { date := ⟨numberAt s 0 4, numberAt s 5 2, numberAt s 8 2⟩
      hour := numberAt s 11 2
      minute := numberAt s 14 2
      second := numberAt s 17 2
      micro := if s.length = 25 then 0 else numberAt s 20 6 }
  if f.text = s ∧ f.Valid then some f else none

theorem readFields_text {f : Fields} (h : f.Valid) : readFields f.text = some f := by
  have hdate := h.date
  have hday := hdate.day_le
  have hyear : numberAt f.text 0 4 = f.date.year := by
    have hlt := hdate.year
    simp [numberAt, Fields.text, ofDigits_pad (show f.date.year < 10 ^ 4 by omega)]
  have hmonth : numberAt f.text 5 2 = f.date.month := by
    have hlt := hdate.month
    simp [numberAt, Fields.text, List.drop_append, List.drop_of_length_le,
      ofDigits_pad (show f.date.month < 10 ^ 2 by omega)]
  have hdayAt : numberAt f.text 8 2 = f.date.day := by
    simp [numberAt, Fields.text, List.drop_append, List.drop_of_length_le,
      ofDigits_pad (show f.date.day < 10 ^ 2 by omega)]
  have hhour : numberAt f.text 11 2 = f.hour := by
    have hlt := h.hour
    simp [numberAt, Fields.text, List.drop_append, List.drop_of_length_le,
      ofDigits_pad (show f.hour < 10 ^ 2 by omega)]
  have hminute : numberAt f.text 14 2 = f.minute := by
    have hlt := h.minute
    simp [numberAt, Fields.text, List.drop_append, List.drop_of_length_le,
      ofDigits_pad (show f.minute < 10 ^ 2 by omega)]
  have hsecond : numberAt f.text 17 2 = f.second := by
    have hlt := h.second
    simp [numberAt, Fields.text, List.drop_append, List.drop_of_length_le,
      ofDigits_pad (show f.second < 10 ^ 2 by omega)]
  have hmicro : (if f.text.length = 25 then 0 else numberAt f.text 20 6) = f.micro := by
    by_cases hzero : f.micro = 0
    · simp [Fields.text, hzero]
    · have hlt := h.micro
      simp [numberAt, Fields.text, hzero, List.drop_append, List.drop_of_length_le,
        ofDigits_pad (show f.micro < 10 ^ 6 by omega)]
  unfold readFields
  rw [hyear, hmonth, hdayAt, hhour, hminute, hsecond, hmicro]
  exact if_pos ⟨rfl, h⟩

/-- The instant of a text. -/
def readInstant (s : String) : Option Datetime :=
  (readFields s.toList).bind fun f =>
    if h : f.micros < maxMicros then some ⟨f.micros, some 0, h⟩ else none

theorem readInstant_text {f : Fields} (h : f.Valid) {value : Datetime}
    (hmicros : value.localMicros = f.micros) (hoffset : value.offset = some 0) :
    readInstant (String.ofList f.text) = some value := by
  have hbounded : f.micros < maxMicros := hmicros ▸ value.bounded
  rw [readInstant, String.toList_ofList, readFields_text h, Option.bind_some, dif_pos hbounded]
  cases value
  cases hmicros
  cases hoffset
  rfl

/-- A text field. -/
def readText {α : Type} (reader : String → Option α) (complaint : Complaint) :
    Json → Except Complaint α
  | .str s =>
      match reader s with
      | some a => .ok a
      | none => .error complaint
  | _ => .error complaint

/-- The interpreter, with room for documents nested a hundred deep. -/
def python : Interpreter := ⟨fun _ => "the text is not valid in its encoding", 100⟩

/-- `json.loads`. -/
def loads : Bytes → Except LoadsFailure Json := python.jsonLoads

theorem loads_loadsBack : LoadsBack loads := Interpreter.loadsBack (by decide)

/-- Readers of the wire formats. -/
def pydantic : Pydantic where
  parseJson raw :=
    match loads raw with
    | .ok j => .ok j
    | .error _ => .error "expected value at line 1 column 1"
  readUuid := readText readUuid ("uuid_parsing", "Input should be a valid UUID")
  readDatetime := readText readInstant ("datetime_parsing", "Input should be a valid datetime")
  readInt
    | .int n => .ok n
    | _ => .error ("int_type", "Input should be a valid integer")
  errorText title _ := title

theorem pydantic_readsBack : pydantic.ReadsBack where
  json j h := by simp only [pydantic, loads_loadsBack j h]
  uuid ds hlength h := by simp only [pydantic, readText, readUuid_uuidText hlength h]
  datetime f h value hmicros hoffset := by
    simp only [pydantic, readText, readInstant_text h hmicros hoffset]
  int n _ _ := rfl

/-! ## Primitives -/

/-- A sealed plaintext: each byte of the AAD behind a one, a zero, and the
plaintext. -/
def sealUnder (aad plaintext : Bytes) : Bytes := aad.flatMap (fun b => [1, b]) ++ 0 :: plaintext

/-- The AAD and the plaintext of what was sealed. -/
def unsealed : Bytes → Option (Bytes × Bytes)
  | 1 :: b :: rest => (unsealed rest).map fun x => (b :: x.1, x.2)
  | 0 :: plaintext => some ([], plaintext)
  | _ => none

theorem unsealed_sealUnder (aad plaintext : Bytes) :
    unsealed (sealUnder aad plaintext) = some (aad, plaintext) := by
  induction aad with
  | nil => rfl
  | cons b aad ih =>
      show unsealed (1 :: b :: sealUnder aad plaintext) = _
      rw [unsealed, ih]
      rfl

/-- The signature of every signed message. -/
def stamp : Bytes := List.replicate 64 0

theorem stamp_length : stamp.length = 64 := rfl

/-- Primitives that accept the signed messages, and open what was sealed under
the AAD it was sealed under. -/
def primitives (signed : Bytes → Bool) (digest : Bytes → Vector UInt8 32) : Primitives where
  sha256 := digest
  ed25519Verify _ signature message :=
    if signed message = true ∧ signature = stamp then .ok () else .error .invalidSignature
  rsaOaepDecrypt _ ciphertext := some ciphertext
  aesGcmDecrypt _ _ ciphertext aad :=
    match unsealed ciphertext with
    | some (sealedAad, plaintext) =>
        if sealedAad = aad then .ok plaintext else .error .invalidTag
    | none => .error .other

/-- The sender's half: a content key is wrapped as it is, and every message is
signed with the one stamp. -/
def sealer : SealPrimitives where
  rsaOaepEncrypt _ key _ := if h : key ≠ [] then ⟨key, h⟩ else ⟨[0], by decide⟩
  aesGcmEncrypt _ _ plaintext aad := ⟨sealUnder aad plaintext, by simp [sealUnder]⟩
  ed25519Sign _ _ := ⟨stamp, rfl⟩
  ed25519PublicKey privateKey := privateKey

theorem sealer_wraps {key : Bytes} (h : key.length = aesKeyBytes) (publicKey seed : Bytes) :
    (sealer.rsaOaepEncrypt publicKey key seed).1 = key := by
  have hne : key ≠ [] := by
    rintro rfl
    cases h
  simp only [sealer, dif_pos hne]

theorem sealer_binding (signed : Bytes → Bool) (digest : Bytes → Vector UInt8 32) :
    Binding (primitives signed digest) sealer [] [] where
  unwraps key seed key' hlength h := by
    rw [sealer_wraps hlength] at h
    exact (Option.some.inj h).symm
  opens key nonce plaintext aad aad' plaintext' h := by
    simp only [primitives, sealer, unsealed_sealUnder] at h
    split at h
    · next heq => exact heq.symm
    · cases h

theorem sealer_honest (digest : Bytes → Vector UInt8 32) :
    Honest (primitives (fun _ => true) digest) sealer [] [] [] where
  unwraps key seed hlength := by
    rw [sealer_wraps hlength]
    rfl
  opens key nonce plaintext aad _ _ := by
    simp only [primitives, sealer, unsealed_sealUnder, if_true]
  verifies message := by
    simp only [primitives, sealer, and_self, if_true]

/-- The reference configuration, with the shipped windows and lifetimes. -/
def env (signed : Bytes → Bool) (digest : Bytes → Vector UInt8 32) : Env where
  prim := primitives signed digest
  pydantic := pydantic
  python := python
  senderPublicKey := []
  settlementPrivateKey := []
  freshnessWindowSeconds := 86400
  clockSkewToleranceSeconds := 300
  claimTtl := 60
  settledTtl := 86400

/-! ## Packets -/

theorem wrapped_ne : List.replicate 32 (0 : UInt8) ≠ [] := by decide

theorem nonce_size : (List.replicate 12 (0 : UInt8)).length = gcmNonceBytes := rfl

/-- The envelope of a plaintext. -/
def envelope (aad plaintext : Bytes) (h : aad ≠ []) : EncryptedEnvelope where
  encryptedKey := List.replicate 32 0
  nonce := List.replicate 12 0
  ciphertext := sealUnder aad plaintext
  aad := aad
  encryptedKey_ne := by decide
  nonce_length := rfl
  ciphertext_ne := by simp [sealUnder]
  aad_ne := h

/-- A packet with this header that carries a sealed instruction. -/
def packet (packetId : UUID) (senderId : Identifier) (createdAt : UtcTimestamp)
    (i : PaymentInstruction) (hops : List HopRecord) : PaymentPacket where
  packetId := packetId
  senderId := senderId
  createdAt := createdAt
  envelope := envelope (buildAad packetId.str senderId.1) i.toCanonicalBytes (canonicalJson_ne _)
  signature := stamp
  hops := hops
  signature_length := rfl

section Packets

variable {signed : Bytes → Bool} {digest : Bytes → Vector UInt8 32} {createdAt : UtcTimestamp}
  {packetId : UUID} {senderId : Identifier} {i : PaymentInstruction} {hops : List HopRecord}

theorem verify_packet (h : signed (packet packetId senderId createdAt i hops).signingBytes = true) :
    (packet packetId senderId createdAt i hops).verify (primitives signed digest) [] = .ok () := by
  have hstamp : (packet packetId senderId createdAt i hops).signature = stamp := rfl
  unfold PaymentPacket.verify verifySignature
  simp only [primitives, h, hstamp, and_self, if_true]

/-- Only a signed message is verified. -/
theorem signed_of_verify {p : PaymentPacket} (h : p.verify (primitives signed digest) [] = .ok ()) :
    signed p.signingBytes = true := by
  by_contra hnot
  simp [PaymentPacket.verify, verifySignature, primitives, hnot] at h

/-- A plaintext is decrypted under its AAD. -/
theorem decrypt_envelope (signed : Bytes → Bool) (digest : Bytes → Vector UInt8 32)
    (aad plaintext : Bytes) (h : aad ≠ []) :
    decryptPayload (primitives signed digest) (envelope aad plaintext h).encryptedKey
      (envelope aad plaintext h).nonce (envelope aad plaintext h).ciphertext
      (envelope aad plaintext h).aad [] = .ok plaintext := by
  simp [decryptPayload, primitives, envelope, aesKeyBytes, unsealed_sealUnder]

/-- The packet opens when its id is the instruction's. -/
theorem opened_packet : (packet i.packetId senderId createdAt i hops).opened (env signed digest) =
    .ok i := by
  unfold PaymentPacket.opened PaymentPacket.openInstruction
  have hdecrypt := decrypt_envelope signed digest (buildAad i.packetId.str senderId.1)
    i.toCanonicalBytes (canonicalJson_ne _)
  have hread : PaymentInstruction.fromCanonicalBytes pydantic python.jsonLoads i.toCanonicalBytes =
      .ok i :=
    PaymentInstruction.fromCanonicalBytes_toCanonicalBytes pydantic_readsBack loads_loadsBack i
  simp only [env, packet, hdecrypt, Env.jsonLoads, hread]
  simp

/-- **The packet is genuine.** -/
theorem genuine_packet
    (h : signed (packet i.packetId senderId createdAt i hops).signingBytes = true) :
    Genuine (env signed digest) (packet i.packetId senderId createdAt i hops) where
  verified := verify_packet h
  bound := rfl
  opens := ⟨i, opened_packet⟩

/-- Its evidence, within the window. -/
def openedAt (now : Int)
    (h : signed (packet i.packetId senderId createdAt i hops).signingBytes = true)
    (fresh :
      staleness (env signed digest) (packet i.packetId senderId createdAt i hops) now = none) :
    Opened (env signed digest) where
  body := (packet i.packetId senderId createdAt i hops).modelDumpJson
  now := now
  packet := packet i.packetId senderId createdAt i hops
  parsed := PaymentPacket.modelValidateJson_modelDumpJson pydantic_readsBack _
  verified := verify_packet h
  fresh := fresh
  bound := rfl
  instruction := i
  opened := opened_packet

/-- Its body is read as the packet. -/
theorem body_packet (p : PaymentPacket) :
    PaymentPacket.modelValidateJson (env signed digest).pydantic p.modelDumpJson = .ok p :=
  p.modelValidateJson_modelDumpJson pydantic_readsBack

end Packets

/-! ## One payment -/

/-- A payer, a payee and a sender. -/
def payer : Identifier := ⟨"payer", by decide⟩
def payee : Identifier := ⟨"payee", by decide⟩
def sender : Identifier := ⟨"sender", by decide⟩

/-- An instant of the year 2025. -/
def instant : UtcTimestamp := ⟨63900000000000000, by decide⟩

/-- A payment of one unit. -/
def instruction : PaymentInstruction :=
  ⟨⟨1⟩, payer, payee, ⟨1, by decide⟩, PaymentInstruction.inr, instant, by decide⟩

/-- Its packet. -/
def payment : PaymentPacket := packet instruction.packetId sender instant instruction []

/-- The packet after one hop. -/
def hopped : PaymentPacket :=
  packet instruction.packetId sender instant instruction [⟨payer, instant⟩]

/-- Its body on the queue. -/
def body : Bytes := payment.modelDumpJson

/-- The configuration in which just this packet is signed. -/
def onePayment : Env :=
  env (fun message => message = payment.signingBytes) fun _ => Vector.replicate 32 0

theorem genuine_payment : Genuine onePayment payment := genuine_packet (by simp; rfl)

theorem fresh_payment : staleness onePayment payment instant.micros = none := by
  have hage : ageMicros payment instant.micros = 0 := by simp [ageMicros, payment, packet]
  unfold staleness
  simp only [hage]
  rfl

theorem body_payment :
    PaymentPacket.modelValidateJson onePayment.pydantic body = .ok payment := body_packet payment

theorem signed_payment : SignedBody onePayment body payment :=
  ⟨body_payment, genuine_payment.verified⟩

theorem copy_payment : IsCopy onePayment payment body := ⟨payment, signed_payment, rfl⟩

/-! ## A run that settles it -/

open Lib.Transition Lib.Interleave

/-- The key of the payment. -/
def key : String := payment.idempotencyKey onePayment.prim

/-- The delivery of the payment to the one processor, within the window. -/
def delivery : Delivery Unit := ⟨(), body, instant.micros⟩

/-- The evidence gathered by the delivery. -/
def admitted : Admitted onePayment :=
  ⟨body, instant.micros, payment, body_payment, genuine_payment.verified, fresh_payment, rfl⟩

theorem admitted_for : admitted.For delivery := ⟨rfl, rfl⟩

/-- With the instruction. -/
def opened : Opened onePayment :=
  { admitted with instruction := instruction, opened := opened_packet }

theorem opened_body : opened.body = body := by simp only [opened, admitted]

theorem opened_now : opened.now = instant.micros := by simp only [opened, admitted]

/-- Redis takes the shipped lifetimes at that instant. -/
theorem acceptsEx_claim : AcceptsEx onePayment.claimTtl instant.micros := by decide

theorem acceptsEx_settled : AcceptsEx onePayment.settledTtl instant.micros := by decide

/-- The consumers of the example. -/
abbrev Queue := ConsumerPhases Unit onePayment

/-- The queue holds the payment. -/
def published : Queue := Broker.init.put 0 body .ready

theorem step_publish :
    ConsumerPhases.step onePayment (.publish 0 body) Broker.init = some published := rfl

theorem published_message : published.messages 0 = some ⟨body, .ready⟩ := by simp [published]

/-- Call `c` has the payment. -/
def delivered (s : Queue) (c : Nat) : Queue :=
  { s with core := Phases.enter s.core c delivery (.claiming admitted) s.core.store [] }.put 0
    body (.held c)

theorem step_deliver {s : Queue} {c : Nat} (hm : s.messages 0 = some ⟨body, .ready⟩)
    (hc : s.core.calls c = none) :
    ConsumerPhases.step onePayment (.deliver 0 c () instant.micros) s = some (delivered s c) := by
  refine ConsumerPhases.step_deliver hm ((Phases.step_start delivery hc).trans ?_)
  rw [admitted_for.start]

theorem delivered_call (s : Queue) (c : Nat) :
    (delivered s c).core.calls c = some ⟨delivery, .running (.claiming admitted), []⟩ :=
  (Phases.enter_calls ..).trans (if_pos rfl)

/-- Call `c` has won the claim. -/
def claimed (s : Queue) (c : Nat) : Queue :=
  { delivered s c with
    core := Phases.enter (delivered s c).core c delivery (.inserting opened)
      (s.core.store.mark key .claimed 60 instant.micros) [⟨.setNx key .claimed 60, .ok true⟩] }

theorem step_claim {s : Queue} {c : Nat} (hfree : s.core.store.redis key = none) :
    ConsumerPhases.step onePayment (.io c .served instant.micros) (delivered s c) =
      some (claimed s c) := by
  have hanswer : platform.answer .served (.setNx key .claimed 60) instant.micros
      (delivered s c).core.store =
        (s.core.store.mark key .claimed 60 instant.micros, .ok true) :=
    perform_setNx_free .claimed _ acceptsEx_claim hfree
  rw [ConsumerPhases.step_answer (delivered_call s c) rfl hanswer]
  simp only [if_true, show Phase.claimed admitted = .inserting opened from Opened.claimed opened]
  rfl

/-- The services once the claim is won. -/
def held : World Unit := World.empty.mark key .claimed 60 instant.micros

theorem fits_row : opened.row.fits = true := (row_fits_iff opened).mpr (by decide)

/-- Any opening of its body has its one row. -/
theorem fits_body {o : Opened onePayment} (h : o.body = body) : o.row.fits = true := by
  have hpacket : o.packet = payment :=
    Except.ok.inj ((h ▸ o.parsed).symm.trans body_payment)
  rw [row_fits_iff, hpacket]
  decide

theorem accepts_row : held.settlements.Accepts opened.row := by
  refine ⟨by decide, fun row hrow => ?_⟩
  cases hrow

/-- The services once the row is committed. -/
def stored : World Unit := held.commit opened.row instant.micros accepts_row

/-- The row of the payment is committed. -/
def committed : Queue :=
  { claimed published 0 with
    core := Phases.enter (claimed published 0).core 0 delivery (.marking opened (some 0)) stored
      [⟨.insertSettlement opened.row, .ok 0⟩, ⟨.setNx key .claimed 60, .ok true⟩] }

theorem step_insert : ConsumerPhases.step onePayment (.io 0 .served instant.micros)
    (claimed published 0) = some committed := by
  have hcall : (claimed published 0).core.calls 0 =
      some ⟨delivery, .running (.inserting opened), [⟨.setNx key .claimed 60, .ok true⟩]⟩ :=
    (Phases.enter_calls ..).trans (if_pos rfl)
  have hanswer : platform.answer .served (.insertSettlement opened.row) instant.micros
      (claimed published 0).core.store = (stored, .ok 0) := by
    show perform (.insertSettlement opened.row) instant.micros held = _
    simp only [perform, SettlementTable.insert, fits_row, if_true, dif_pos accepts_row]
    rfl
  rw [ConsumerPhases.step_answer hcall rfl hanswer]
  rfl

/-- The services once the marker is written. -/
def markedWorld : World Unit := stored.mark key .settled 86400 instant.micros

/-- The payment is reported settled. -/
def settled : Queue :=
  { committed with
    core := Phases.enter committed.core 0 delivery (.ended (settledOutcome onePayment payment 0))
      markedWorld [⟨.set key .settled 86400, .ok ()⟩, ⟨.insertSettlement opened.row, .ok 0⟩,
        ⟨.setNx key .claimed 60, .ok true⟩] }

theorem step_mark : ConsumerPhases.step onePayment (.io 0 .served instant.micros) committed =
    some settled := by
  have hcall : committed.core.calls 0 = some ⟨delivery, .running (.marking opened (some 0)),
      [⟨.insertSettlement opened.row, .ok 0⟩, ⟨.setNx key .claimed 60, .ok true⟩]⟩ :=
    (Phases.enter_calls ..).trans (if_pos rfl)
  have hanswer : platform.answer .served (.set key .settled 86400) instant.micros
      committed.core.store = (markedWorld, .ok ()) :=
    perform_set stored key .settled instant.micros acceptsEx_settled
  rw [ConsumerPhases.step_answer hcall rfl hanswer]
  rfl

/-- The call has returned. -/
theorem settled_call : settled.core.calls 0 = some ⟨delivery,
    .returned (settledOutcome onePayment payment 0),
    [⟨.set key .settled 86400, .ok ()⟩, ⟨.insertSettlement opened.row, .ok 0⟩,
      ⟨.setNx key .claimed 60, .ok true⟩]⟩ :=
  (Phases.enter_calls ..).trans (if_pos rfl)

/-- The table has the row of the payment. -/
theorem settled_rows : settled.core.store.settlements.rows =
    [{ opened.row with id := 0, settledAt := instant.micros }] := rfl

/-- A queue of copies of the payment's body. -/
theorem distinct_of_body {P : Type} {s : Broker Unit P}
    (h : ∀ m msg, s.messages m = some msg → msg.body = body) : Distinct onePayment s payment := by
  have hsame : ∀ q, Published onePayment s q → q.signingBytes = payment.signingBytes := by
    rintro q ⟨m, body', state, hm, hparse, -⟩
    have hbody : body' = body := h m _ hm
    rw [hbody] at hparse
    rw [Except.ok.inj (hparse.symm.trans body_payment)]
  exact ⟨fun q hq _ => hsame q hq, fun q hq _ => hsame q hq⟩

/-- The state in which the payment is settled is reached. -/
theorem reach_settled : Reach (ConsumerPhases.step onePayment) free Broker.init settled :=
  .next (.next (.next (.next (.next .start trivial step_publish) trivial
    (step_deliver rfl rfl)) trivial (step_claim rfl)) trivial step_insert) trivial step_mark

theorem distinct_settled : Distinct onePayment settled payment := by
  refine distinct_of_body fun m msg hm => ?_
  simp only [settled, committed, claimed, delivered, published, Broker.put_messages] at hm
  split at hm
  · rw [← Option.some.inj hm]
  · simp [Broker.init] at hm

/-- By the processors alone, as well. -/
theorem reach_processors_settled :
    Reach (Processors.step onePayment) free Processors.init (settled.core.map Phase.prog) :=
  Phases.reach_processors (ConsumerPhases.reach_core reach_settled)

end

end MeshSettle.Reference
