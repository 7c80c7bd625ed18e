import Mathlib.Algebra.BigOperators.Group.Finset.Piecewise
import Mathlib.Algebra.BigOperators.Ring.Finset
import Mathlib.Algebra.Order.BigOperators.Group.Finset
import Mathlib.Algebra.Ring.Nat
import Mathlib.Data.Set.Card

/-!
# Sums over a table that grows

A table `f : ℕ → Option A` gets entries, has entries changed and never loses
one. `Weighs f weight total` says that finitely many entries are there and that
they weigh `total` together. Each way to change the table has its rule, so a
number that is kept up with every change is the sum over the entries
(`Weighs.put`, `Weighs.map`), and a sum of ones is a count (`Weighs.count`).
-/

namespace Lib.Tally

variable {A : Type}

/-- What an entry weighs, if there is one. -/
def weigh (weight : A → ℤ) : Option A → ℤ
  | some a => weight a
  | none => 0

/-- The entries of a table weigh `total`. -/
def Weighs (f : ℕ → Option A) (weight : A → ℤ) (total : ℤ) : Prop :=
  ∃ ids : Finset ℕ, (∀ c, c ∉ ids → f c = none) ∧ ∑ c ∈ ids, weigh weight (f c) = total

variable {f : ℕ → Option A} {weight : A → ℤ} {total : ℤ}

theorem Weighs.empty : Weighs (fun _ => (none : Option A)) weight 0 :=
  ⟨∅, fun _ _ => rfl, Finset.sum_empty⟩

/-- **An entry is put**, in a new place or over an old one. -/
theorem Weighs.put (h : Weighs f weight total) (c : ℕ) (a : A) :
    Weighs (Function.update f c (some a)) weight (total + (weight a - weigh weight (f c))) := by
  obtain ⟨ids, hout, hsum⟩ := h
  have hin : c ∈ insert c ids := Finset.mem_insert_self c ids
  have hwith : ∑ b ∈ insert c ids, weigh weight (f b) = total := by
    rw [← hsum]
    apply Finset.sum_insert_of_eq_zero_if_notMem
    intro hc
    rw [hout c hc]
    rfl
  refine ⟨insert c ids, ?_, ?_⟩
  · intro b hb
    rw [Finset.mem_insert, not_or] at hb
    rw [Function.update_of_ne hb.1]
    exact hout b hb.2
  · have hothers : ∑ b ∈ (insert c ids).erase c, weigh weight (Function.update f c (some a) b) =
        ∑ b ∈ (insert c ids).erase c, weigh weight (f b) := by
      apply Finset.sum_congr rfl
      intro b hb
      rw [Function.update_of_ne (Finset.ne_of_mem_erase hb)]
    rw [← Finset.add_sum_erase _ _ hin] at hwith
    rw [← Finset.add_sum_erase _ _ hin, hothers, Function.update_self]
    show weight a + _ = _
    omega

/-- **Every entry is changed** into one of the same weight. -/
theorem Weighs.map (h : Weighs f weight total) {g : A → A}
    (hg : ∀ c a, f c = some a → weight (g a) = weight a) :
    Weighs (fun c => (f c).map g) weight total := by
  obtain ⟨ids, hout, hsum⟩ := h
  refine ⟨ids, ?_, ?_⟩
  · intro c hc
    show (f c).map g = none
    rw [hout c hc]
    rfl
  · rw [← hsum]
    apply Finset.sum_congr rfl
    intro c _
    show weigh weight ((f c).map g) = _
    cases hc : f c with
    | none => rfl
    | some a => exact hg c a hc

/-- Entries that weigh nothing. -/
theorem Weighs.zero (h : Weighs f weight total) (hzero : ∀ c a, f c = some a → weight a = 0) :
    total = 0 := by
  obtain ⟨ids, -, rfl⟩ := h
  apply Finset.sum_eq_zero
  intro c _
  cases hc : f c with
  | none => rfl
  | some a => exact hzero c a hc

/-- Entries of which none weighs less than nothing. -/
theorem Weighs.nonneg (h : Weighs f weight total) (hnonneg : ∀ a, 0 ≤ weight a) : 0 ≤ total := by
  obtain ⟨ids, -, rfl⟩ := h
  apply Finset.sum_nonneg
  intro c _
  cases f c with
  | none => exact le_refl 0
  | some a => exact hnonneg a

/-- **Entries that weigh one or nothing** are counted. -/
theorem Weighs.count {P : A → Prop} [DecidablePred P]
    (h : Weighs f (fun a => if P a then 1 else 0) total) :
    {c | ∃ a, f c = some a ∧ P a}.Finite ∧ total = {c | ∃ a, f c = some a ∧ P a}.ncard := by
  obtain ⟨ids, hout, rfl⟩ := h
  have hset : {c | ∃ a, f c = some a ∧ P a} =
      ((ids.filter fun c => (f c).any fun a => P a : Finset ℕ) : Set ℕ) := by
    ext c
    show _ ↔ c ∈ ((ids.filter fun c => (f c).any fun a => P a : Finset ℕ) : Set ℕ)
    rw [Finset.mem_coe, Finset.mem_filter]
    show (∃ a, f c = some a ∧ P a) ↔ _
    cases hc : f c with
    | none => simp
    | some a =>
        have hin : c ∈ ids := by
          by_contra hnot
          cases hc.symm.trans (hout c hnot)
        simp [hin]
  rw [hset]
  refine ⟨Finset.finite_toSet _, ?_⟩
  rw [Set.ncard_coe_finset, Finset.card_filter, Nat.cast_sum]
  apply Finset.sum_congr rfl
  intro c _
  cases hc : f c with
  | none => rfl
  | some a =>
      show (if P a then (1 : ℤ) else 0) = _
      by_cases hP : P a <;> simp [hP]

end Lib.Tally
