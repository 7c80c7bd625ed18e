import MeshSettle.Shared.Wire
import MeshSettle.Settlement.Reference

/-!
# The codecs of the sealed instruction and of bytes

An instruction is read back from its canonical bytes, so two instructions
never share them. `b64u_decode` reads back what `b64u_encode` writes, but it
accepts more: characters outside the alphabet are skipped, the digits of the
other alphabet are read, and the unused bits of a last digit are dropped.
-/

namespace MeshSettle.Theorems.Codec

/-! ## Instructions -/

/-- **An instruction is read back** by `json.loads` and the validators, so
canonical bytes belong to one instruction. The interpreter has room for the one
object that the document is. -/
theorem instruction_round_trip {py : Pydantic} (hreads : py.ReadsBack) {python : Interpreter}
    (hdepth : 0 < python.depth) :
    (∀ i : PaymentInstruction, PaymentInstruction.fromCanonicalBytes py python.jsonLoads
      i.toCanonicalBytes = .ok i) ∧
    ∀ i j : PaymentInstruction, i.toCanonicalBytes = j.toCanonicalBytes → i = j := by
  have hback : ∀ i : PaymentInstruction, PaymentInstruction.fromCanonicalBytes py
      python.jsonLoads i.toCanonicalBytes = .ok i := fun i =>
    PaymentInstruction.fromCanonicalBytes_ok hreads
      (python.jsonLoads_document (i.members_simple.mono hdepth))
  refine ⟨hback, fun i j hbytes => ?_⟩
  have hread : (.ok i : Except Exc PaymentInstruction) = .ok j := by
    rw [← hback i, hbytes, hback j]
  exact Except.ok.inj hread

/-- The readers of the reference configuration. -/
theorem instruction_round_trip_reference :
    (∀ i : PaymentInstruction, PaymentInstruction.fromCanonicalBytes Reference.pydantic
      Reference.python.jsonLoads i.toCanonicalBytes = .ok i) ∧
    ∀ i j : PaymentInstruction, i.toCanonicalBytes = j.toCanonicalBytes → i = j :=
  instruction_round_trip Reference.pydantic_readsBack (by decide)

/-! ## Bytes -/

/-- `s.rstrip("=")`. -/
def rstripPad (s : String) : String := String.ofList (s.toList.rdropWhile (· = '='))

/-- The text is an encoding, up to padding at its end. -/
def Encodes (s : String) : Prop := ∃ y, rstripPad s = b64uEncode y

/-- The text is decoded only to the bytes it encodes, and is refused with a
`ValueError` when it encodes none. -/
structure DecodedExactly (s : String) : Prop where
  accepted : ∀ y, b64uDecode s = .ok y → rstripPad s = b64uEncode y
  refused : ¬ Encodes s → ∃ msg, b64uDecode s = .error (.valueError msg)

/-- The text as it reaches the decoder, padded to a multiple of four
characters. -/
def repadded (s : String) : List Char :=
  s.toList ++ List.replicate ((4 - s.length % 4) % 4) '='

/-- The decoder itself refuses the text: it is not ASCII, or its digits do not
come in groups. -/
def Ungrouped (s : String) : Prop :=
  ((repadded s).all (fun c => c.toNat < 128) && Lib.Base64.grouped (repadded s) 0 0) = false

theorem b64uDecode_cases (s : String) :
    (∃ y, Lib.Base64.decode (repadded s) = some y ∧ b64uDecode s = .ok y) ∨
      Lib.Base64.decode (repadded s) = none ∧
        ∃ msg, b64uDecode s = .error (.valueError msg) := by
  unfold b64uDecode repadded
  dsimp only
  cases Lib.Base64.decode (s.toList ++ List.replicate ((4 - s.length % 4) % 4) '=') with
  | some y => exact .inl ⟨y, rfl, rfl⟩
  | none => exact .inr ⟨rfl, _, rfl⟩

theorem ungrouped_iff (s : String) : Ungrouped s ↔ Lib.Base64.decode (repadded s) = none := by
  rw [Ungrouped, ← Lib.Base64.decode_isSome, Option.isSome_eq_false_iff, Option.isNone_iff_eq_none]

/-- The padding at the end of a text. -/
theorem toList_eq_rstripPad (s : String) :
    ∃ n, s.toList = (rstripPad s).toList ++ List.replicate n '=' := by
  have hpads : ∀ c ∈ s.toList.rtakeWhile (· = '='), c = '=' := fun c hc => by
    simpa using List.mem_rtakeWhile_imp hc
  refine ⟨(s.toList.rtakeWhile (· = '=')).length, ?_⟩
  rw [rstripPad, String.toList_ofList, ← List.eq_replicate_iff.mpr ⟨rfl, hpads⟩]
  exact (List.rdropWhile_append_rtakeWhile ..).symm

/-- An encoding is decoded, with any padding at its end. -/
theorem decode_of_encodes {s : String} {y : Bytes} (h : rstripPad s = b64uEncode y) :
    b64uDecode s = .ok y := by
  obtain ⟨n, hn⟩ := toList_eq_rstripPad s
  have hlist : s.toList = Lib.Base64.unpadded y ++ List.replicate n '=' := by
    rw [hn, h, b64uEncode, String.toList_ofList]
  have hdecode : Lib.Base64.decode (repadded s) = some y := by
    rw [repadded, ← String.length_toList, hlist]
    exact Lib.Base64.decode_repadded y n
  rcases b64uDecode_cases s with ⟨y', hy', hok⟩ | ⟨hnone, -⟩
  · rw [hok, Option.some.inj (hy'.symm.trans hdecode)]
  · cases hdecode.symm.trans hnone

/-- **What `b64u_decode` accepts.** What is encoded is decoded; and a text is
decoded exactly when it is an encoding, or the decoder refuses it. -/
theorem b64uDecode_exact (x : Bytes) (s : String) :
    b64uDecode (b64uEncode x) = .ok x ∧ (DecodedExactly s ↔ Encodes s ∨ Ungrouped s) := by
  refine ⟨b64uDecode_b64uEncode x, ?_, ?_⟩
  · intro h
    rcases b64uDecode_cases s with ⟨y, -, hok⟩ | ⟨hnone, -⟩
    · exact .inl ⟨y, h.accepted y hok⟩
    · exact .inr ((ungrouped_iff s).mpr hnone)
  · intro h
    rcases h with ⟨y, hy⟩ | hun
    · refine ⟨fun y' hy' => ?_, fun hnot => absurd ⟨y, hy⟩ hnot⟩
      rw [hy, Except.ok.inj ((decode_of_encodes hy).symm.trans hy')]
    · rcases b64uDecode_cases s with ⟨y, hsome, -⟩ | ⟨-, herror⟩
      · cases ((ungrouped_iff s).mp hun).symm.trans hsome
      · refine ⟨fun y hy => ?_, fun _ => herror⟩
        obtain ⟨msg, hmsg⟩ := herror
        cases hmsg.symm.trans hy

/-- The last digit of `QR` has bits that its one byte does not use. -/
theorem dirty_digit_decoded : ¬ ∀ s, DecodedExactly s := by
  intro h
  have hdecode : b64uDecode "QR" = .ok [65] := by rfl
  have hencode := (h "QR").accepted [65] hdecode
  revert hencode
  decide

end MeshSettle.Theorems.Codec
