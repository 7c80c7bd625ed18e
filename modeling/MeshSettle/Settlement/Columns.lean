import MeshSettle.Settlement.Phase

/-!
# Which rows fit their columns

Everything in the row of an opened packet has been validated against a bound
that its column can hold, the hop count apart.
-/

namespace MeshSettle

open Lib.Text

theorem digitChar_ne_nul : ∀ d < 16, Nat.digitChar d ≠ '\x00' := by decide

theorem pad_ne_nul {base width n : Nat} (hb0 : 0 < base) (hb : base ≤ 16) :
    ∀ c ∈ pad base width n, c ≠ '\x00' := by
  intro c hc
  obtain ⟨d, hd, rfl⟩ := List.mem_map.mp hc
  exact digitChar_ne_nul d (Nat.lt_of_lt_of_le (digits_lt hb0 width n d hd) hb)

theorem storable_key (prim : Primitives) (signingBytes : Bytes) :
    storable 80 (deriveIdempotencyKey prim signingBytes) = true := by
  have hlength := deriveIdempotencyKey_length prim signingBytes
  have hchars : ∀ c ∈ (deriveIdempotencyKey prim signingBytes).toList, c ≠ '\x00' := by
    intro c hc
    rw [deriveIdempotencyKey, String.toList_append] at hc
    rcases List.mem_append.mp hc with hbegins | hdigest
    · have hall : ∀ c ∈ idempotencyKeyPrefix.toList, c ≠ '\x00' := by simp [idempotencyKeyPrefix]
      exact hall c hbegins
    · rw [hexdigest, String.toList_ofList] at hdigest
      obtain ⟨b, -, hb⟩ := List.mem_flatMap.mp hdigest
      exact pad_ne_nul (by decide) (by decide) c hb
  simp only [storable, hlength, Bool.and_eq_true, decide_eq_true_eq, List.all_eq_true]
  exact ⟨by decide, hchars⟩

theorem storable_identifier (i : Identifier) : storable 64 i.1 = true := by
  obtain ⟨s, h⟩ := i
  simp only [matchesIdentifier, Bool.and_eq_true, decide_eq_true_eq, List.all_eq_true] at h
  simp only [storable, Bool.and_eq_true, decide_eq_true_eq, List.all_eq_true]
  refine ⟨h.1.2, fun c hc hnul => ?_⟩
  have hchar := h.2 c hc
  rw [hnul] at hchar
  revert hchar
  decide

theorem storable_currency (c : Currency) : storable 3 c.1 = true := by
  obtain ⟨s, h⟩ := c
  simp only [matchesCurrency, Bool.and_eq_true, decide_eq_true_eq, List.all_eq_true] at h
  simp only [storable, Bool.and_eq_true, decide_eq_true_eq, List.all_eq_true]
  refine ⟨h.1.le, fun c hc hnul => ?_⟩
  have hchar := h.2 c hc
  rw [hnul] at hchar
  revert hchar
  decide

/-- A row is refused by its columns for its hop count only. -/
theorem row_fits_iff (o : Opened env) : o.row.fits = true ↔ o.packet.hopCount < 2 ^ 31 := by
  have hamount := o.instruction.amountMinor.2
  simp only [Opened.row, settlementOf, Settlement.fits, PaymentPacket.idempotencyKey, storable_key,
    storable_identifier, storable_currency, Bool.true_and, Bool.and_eq_true]
  unfold maxAmountMinor at hamount
  refine ⟨fun h => of_decide_eq_true h.2, fun h => ⟨⟨decide_eq_true ?_, decide_eq_true ?_⟩,
    decide_eq_true h⟩⟩
  · omega
  · omega

end MeshSettle
