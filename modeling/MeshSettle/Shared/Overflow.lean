import MeshSettle.Shared.Models

/-!
# When reading a message raises

Validation turns every `ValueError` into a validation error. The one
exception that passes through it is the `OverflowError` of `astimezone`, which
the timestamp check raises for an instant outside the years 1 to 9999; opening
a plaintext can also run into the recursion limit of `json.loads`.
-/

namespace MeshSettle

open Lib.Schema Lib.Calendar

/-- A timestamp whose UTC instant is outside the years 1 to 9999. -/
def OutOfRange (py : Pydantic) (j : Json) : Prop :=
  ∃ value offset, py.readDatetime j = .ok value ∧ value.offset = some offset ∧
    ¬ (0 ≤ (value.localMicros : Int) - offset * 1000000 ∧
      (value.localMicros : Int) - offset * 1000000 < maxMicros)

/-- Normalizing raises an exception that is no `ValueError` for such a
timestamp only. -/
theorem normalizeToUtc_overflow {value : Datetime} {e : Exc}
    (h : normalizeToUtc value = .error e) : e.valueErrorText = none ↔
      ∃ offset, value.offset = some offset ∧
        ¬ (0 ≤ (value.localMicros : Int) - offset * 1000000 ∧
          (value.localMicros : Int) - offset * 1000000 < maxMicros) := by
  unfold normalizeToUtc at h
  split at h
  · next hnone => cases h; simp [Exc.valueErrorText, hnone]
  · next offset hsome =>
      dsimp only at h
      split at h
      · cases h
      · next hrange =>
          cases h
          exact iff_of_true rfl ⟨offset, hsome, hrange⟩

@[simp] theorem raises_read {α : Type} (reader : Json → Except Complaint α) (j : Json) :
    ¬ Raises (read reader j) := by
  unfold read
  split <;> simp

theorem raises_readPattern (pattern : String) (test : String → Bool) (j : Json) :
    ¬ Raises (readPattern pattern test j) := by
  have hstr : ¬ Raises (readStr j) := by
    unfold readStr
    split <;> simp
  unfold readPattern
  split
  · next f hf =>
      rw [hf] at hstr
      rintro ⟨e, he⟩
      cases he
      exact hstr ⟨e, rfl⟩
  · split <;> simp

@[simp] theorem raises_readIdentifier (j : Json) : ¬ Raises (readIdentifier j) :=
  raises_readPattern _ _ j

@[simp] theorem raises_readCurrency (j : Json) : ¬ Raises (readCurrency j) :=
  raises_readPattern _ _ j

/-- A timestamp field raises when it is out of range. -/
@[simp] theorem raises_readUtc (py : Pydantic) (j : Json) :
    Raises (readUtc py j) ↔ OutOfRange py j := by
  unfold readUtc
  rw [raises_after]
  constructor
  · rintro (h | ⟨value, e, hread, hcheck, htext⟩)
    · exact absurd h (raises_read _ _)
    · obtain ⟨offset, hoffset, hrange⟩ := (normalizeToUtc_overflow hcheck).mp htext
      refine ⟨value, offset, ?_, hoffset, hrange⟩
      unfold read at hread
      split at hread
      · next a ha => cases hread; exact ha
      · cases hread
  · rintro ⟨value, offset, hread, hoffset, hrange⟩
    refine .inr ⟨value, .overflowError "date value out of range", ?_, ?_, rfl⟩
    · unfold read
      rw [hread]
    · unfold normalizeToUtc
      rw [hoffset]
      exact dif_neg hrange

/-- Bytes fields report every problem as a validation error. -/
theorem raises_readBytes {α : Type} {check : Bytes → Except Exc α}
    (hcheck : ∀ b e, check b = .error e → e.valueErrorText ≠ none) (j : Json) :
    ¬ Raises (readBytes check j) := by
  have hdecode : ∀ s e, b64uDecode s = .error e → e.valueErrorText ≠ none := by
    intro s e h
    unfold b64uDecode at h
    dsimp only at h
    split at h
    · cases h
    · cases h; simp [Exc.valueErrorText]
  have hcoerce : ∀ e, coerceBytes j = .error e → e.valueErrorText ≠ none := by
    intro e h
    unfold coerceBytes at h
    split at h
    · exact hdecode _ e h
    · cases h; simp [Exc.valueErrorText]
    · cases h; simp [Exc.valueErrorText]
  unfold readBytes
  rw [raises_after, raises_after]
  rintro ((h | ⟨a, e, ha, he, htext⟩) | ⟨a, e, -, he, htext⟩)
  · exact absurd h (raises_ok _)
  · cases ha
    exact hcoerce e he htext
  · exact hcheck a e he htext

/-- The result of a validation raises as the validation does. -/
theorem raises_map {α β : Type} (f : α → β) (x : Checked Exc α) :
    Raises (x.map f) ↔ Raises x := by
  match x with
  | .ok a => simp [Except.map]
  | .error (.invalid es) => simp [Except.map]
  | .error (.raised e) => simp [Except.map]

theorem raises_notEmpty (j : Json) : ¬ Raises (readBytes notEmpty j) := by
  refine raises_readBytes (fun b e h => ?_) j
  unfold notEmpty at h
  split at h <;> cases h
  simp [Exc.valueErrorText]

theorem raises_nonceIs96Bits (j : Json) : ¬ Raises (readBytes nonceIs96Bits j) := by
  refine raises_readBytes (fun b e h => ?_) j
  unfold nonceIs96Bits at h
  split at h <;> cases h
  simp [Exc.valueErrorText]

theorem raises_signatureIsEd25519Sized (j : Json) :
    ¬ Raises (readBytes signatureIsEd25519Sized j) := by
  refine raises_readBytes (fun b e h => ?_) j
  unfold signatureIsEd25519Sized at h
  split at h <;> cases h
  simp [Exc.valueErrorText]

/-- An envelope never raises. -/
theorem raises_envelope (j : Json) : ¬ Raises (EncryptedEnvelope.validate j) := by
  unfold EncryptedEnvelope.validate
  simp [raises_object, raises_map, raises_notEmpty, raises_nonceIs96Bits]

/-- A hop whose timestamp is out of range. -/
def HopOutOfRange (py : Pydantic) (j : Json) : Prop :=
  ∃ members t, j.members = some members ∧ lookup "received_at" members = some t ∧ OutOfRange py t

theorem raises_hop (py : Pydantic) (j : Json) :
    Raises (HopRecord.validate py j) ↔ HopOutOfRange py j := by
  unfold HopRecord.validate
  simp [raises_object, raises_map, HopOutOfRange]

/-- A body with a timestamp that is out of range, in its header or in a hop. -/
def BadTimestamp (py : Pydantic) (rawBody : Bytes) : Prop :=
  ∃ j members, py.parseJson rawBody = .ok j ∧ j.members = some members ∧
    ((∃ t, lookup "created_at" members = some t ∧ OutOfRange py t) ∨
      ∃ hops hop, lookup "hops" members = some (.arr hops) ∧ hop ∈ hops ∧ HopOutOfRange py hop)

theorem raises_readHops (py : Pydantic) (j : Json) :
    Raises (readHops py j) ↔ ∃ hops hop, j = .arr hops ∧ hop ∈ hops ∧ HopOutOfRange py hop := by
  unfold readHops
  split
  · next hops =>
      rw [raises_items]
      constructor
      · rintro ⟨hop, hmem, h⟩
        exact ⟨hops, hop, rfl, hmem, (raises_hop py hop).mp h⟩
      · rintro ⟨hops', hop, heq, hmem, h⟩
        cases heq
        exact ⟨hop, hmem, (raises_hop py hop).mpr h⟩
  · next hne =>
      refine iff_of_false (raises_reject _ _ _) ?_
      rintro ⟨hops, hop, rfl, -⟩
      exact hne hops rfl

/-- **Parsing a body raises** exactly when a timestamp in it is out of range. -/
theorem modelValidateJson_raises (py : Pydantic) (rawBody : Bytes) :
    (∃ e, PaymentPacket.modelValidateJson py rawBody = .error (.raised e)) ↔
      BadTimestamp py rawBody := by
  show Raises (PaymentPacket.modelValidateJson py rawBody) ↔ _
  unfold PaymentPacket.modelValidateJson
  split
  · next msg h =>
      refine iff_of_false (raises_reject _ _ _) ?_
      rintro ⟨j, members, hparse, -⟩
      rw [h] at hparse
      cases hparse
  · next j h =>
      unfold PaymentPacket.validate
      simp only [raises_object, raises_map, raises_both, raises_field, raises_fieldOr, raises_read,
        raises_forbidExtra, raises_envelope, raises_signatureIsEd25519Sized, raises_readUtc,
        raises_readIdentifier, raises_readHops, and_false, exists_false, false_or, or_false]
      constructor
      · rintro ⟨members, hmembers,
          ⟨t, hlookup, hrange⟩ | ⟨hops, hlookup, js, hop, rfl, hmem, hrange⟩⟩
        · exact ⟨j, members, h, hmembers, .inl ⟨t, hlookup, hrange⟩⟩
        · exact ⟨j, members, h, hmembers, .inr ⟨js, hop, hlookup, hmem, hrange⟩⟩
      · rintro ⟨j', members, hparse, hmembers, hbad⟩
        cases h.symm.trans hparse
        refine ⟨members, hmembers, ?_⟩
        rcases hbad with ⟨t, hlookup, hrange⟩ | ⟨js, hop, hlookup, hmem, hrange⟩
        · exact .inl ⟨t, hlookup, hrange⟩
        · exact .inr ⟨_, hlookup, js, hop, rfl, hmem, hrange⟩

/-! ## The sealed instruction -/

theorem raises_readAmount (py : Pydantic) (j : Json) : ¬ Raises (readAmount py j) := by
  have hread : ¬ Raises (read py.readInt j) := raises_read _ _
  unfold readAmount
  split
  · next f hf =>
      rw [hf] at hread
      rintro ⟨e, he⟩
      cases he
      exact hread ⟨e, rfl⟩
  · split
    · split <;> simp
    · simp

theorem raises_payee (payer : Checked Exc Identifier) (j : Json) :
    ¬ Raises (after Exc.valueErrorText j (readIdentifier j)
      (PaymentInstruction.payeeDiffersFromPayer payer)) := by
  rw [raises_after]
  rintro (h | ⟨a, e, -, he, htext⟩)
  · exact absurd h (raises_readIdentifier j)
  · unfold PaymentInstruction.payeeDiffersFromPayer at he
    split at he
    · cases he
    · split at he <;> cases he
      cases htext

/-- A plaintext that `json.loads` nests too deep for, or whose timestamp is out
of range. -/
def BadPlaintext (py : Pydantic) (loads : Bytes → Except LoadsFailure Json) (raw : Bytes) : Prop :=
  (∃ msg, loads raw = .error (.recursionError msg)) ∨
    ∃ j members t, loads raw = .ok j ∧ j.members = some members ∧
      lookup "created_at" members = some t ∧ OutOfRange py t

theorem raises_instruction (py : Pydantic) (members : List (String × Json)) :
    Raises (PaymentInstruction.validate py members) ↔
      ∃ t, lookup "created_at" members = some t ∧ OutOfRange py t := by
  unfold PaymentInstruction.validate
  simp only [raises_map, raises_both, raises_combine, raises_field, raises_fieldOr, raises_read,
    raises_forbidExtra, raises_readAmount, raises_readUtc, raises_payee,
    raises_readIdentifier, raises_readCurrency, and_false, exists_false, false_or, or_false]

/-- What the validation of an instruction raises is an overflow. -/
theorem instruction_raised {py : Pydantic} {members : List (String × Json)} {e : Exc}
    (h : PaymentInstruction.validate py members = .error (.raised e)) :
    e = .overflowError "date value out of range" := by
  have hnot : ∀ {α : Type} {x : Checked Exc α}, ¬ Raises x → x ≠ .error (.raised e) :=
    fun hx hr => hx ⟨e, hr⟩
  rcases raised_of_both (raised_of_map h) with h | h
  · exact absurd h (hnot (by simp))
  rcases raised_of_both h with h | h
  · exact absurd h (hnot (by simp [raises_payee]))
  rcases raised_of_both h with h | h
  · exact absurd h (hnot (by simp [raises_readAmount]))
  rcases raised_of_both h with h | h
  · exact absurd h (hnot (by simp))
  rcases raised_of_both h with h | h
  · obtain ⟨j, -, hutc⟩ := raised_of_field h
    rcases raised_of_after hutc with hread | ⟨value, -, hcheck, htext⟩
    · exact absurd hread (hnot (raises_read _ _))
    · unfold normalizeToUtc at hcheck
      split at hcheck
      · cases hcheck
        cases htext
      · dsimp only at hcheck
        split at hcheck <;> cases hcheck
        rfl
  · exact absurd h (hnot (raises_forbidExtra _ _))

/-- An exception that the handlers around `open_instruction` let through. -/
def Exc.Escapes : Exc → Prop
  | .decryptionError _ => False
  | .valueError _ => False
  | .validationError _ _ => False
  | _ => True

theorem fromCanonicalBytes_escapes {py : Pydantic} {loads : Bytes → Except LoadsFailure Json}
    {raw : Bytes} :
    (∃ e, PaymentInstruction.fromCanonicalBytes py loads raw = .error e ∧ e.Escapes) ↔
      BadPlaintext py loads raw := by
  unfold PaymentInstruction.fromCanonicalBytes BadPlaintext
  split
  · next h => simp [h, Exc.Escapes]
  · next msg h => simp [h, Exc.Escapes]
  · next msg h => simp [h, Exc.Escapes]
  · next j h =>
      have hbad : Raises (object (PaymentInstruction.validate py) j) ↔
          (∃ msg, loads raw = .error (.recursionError msg)) ∨
            ∃ j members t, loads raw = .ok j ∧ j.members = some members ∧
              lookup "created_at" members = some t ∧ OutOfRange py t := by
        simp only [raises_object, raises_instruction, h]
        simp
      rw [← hbad]
      split
      · next hnone =>
          simp [raises_object, Option.isNone_iff_eq_none.mp hnone, Exc.Escapes]
      · split
        · next i hi => simp [hi]
        · next errors hi => simp [hi, Exc.Escapes]
        · next e hi =>
            obtain ⟨members, hraised⟩ := raised_of_object hi
            obtain rfl := instruction_raised hraised
            simp [hi, Exc.Escapes]

theorem decryptPayload_error {prim : Primitives} {k n c a key : Bytes} {e : Exc}
    (h : decryptPayload prim k n c a key = .error e) : ∃ msg, e = .decryptionError msg := by
  unfold decryptPayload at h
  split at h
  · cases h; exact ⟨_, rfl⟩
  · split at h
    · cases h; exact ⟨_, rfl⟩
    · split at h <;> cases h <;> exact ⟨_, rfl⟩

/-- **Opening an envelope** ends in an exception that escapes exactly when the
plaintext is bad. -/
theorem openInstruction_escapes {prim : Primitives} {py : Pydantic}
    {loads : Bytes → Except LoadsFailure Json} {recipientPrivateKey : Bytes} {p : PaymentPacket} :
    (∃ e, p.openInstruction prim py loads recipientPrivateKey = .error e ∧ e.Escapes) ↔
      ∃ plaintext, decryptPayload prim p.envelope.encryptedKey p.envelope.nonce
        p.envelope.ciphertext p.envelope.aad recipientPrivateKey = .ok plaintext ∧
        BadPlaintext py loads plaintext := by
  unfold PaymentPacket.openInstruction
  split
  · next e h =>
      obtain ⟨msg, rfl⟩ := decryptPayload_error h
      simp [h, Exc.Escapes]
  · next plaintext h =>
      simp only [h, Except.ok.injEq, exists_eq_left', ← fromCanonicalBytes_escapes]
      split
      · next e he => simp [he]
      · next i hi =>
          split <;> simp [hi, Exc.Escapes]

end MeshSettle
