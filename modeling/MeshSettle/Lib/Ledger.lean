import MeshSettle.Lib.Transition
import Mathlib.Algebra.BigOperators.Group.List.Basic
import Mathlib.Algebra.Order.BigOperators.Group.List
import Mathlib.Data.List.Nodup
import Mathlib.Data.List.Perm.Subperm

/-!
# A ledger that pays every order at most once

What a payment system is for, over any type of orders with an id: an order is
placed, and an order that was placed is paid, unless one with its id has been.

The invariant of its runs (`Ledger.sound`) says that what is paid was ordered,
one payment to an id; so the payments are part of the orders
(`Ledger.Sound.subperm`), and however they are selected and counted they come
to no more than the orders do (`Ledger.Sound.sum_le`).
-/

namespace Lib

open Transition

variable {Order Id : Type}

/-- What was ordered and what was paid, both oldest first. -/
structure Ledger (Order : Type) where
  ordered : List Order
  paid : List Order

/-- A step of the ledger. -/
inductive LedgerLabel (Order : Type) where
  | order (o : Order)
  | pay (o : Order)

namespace Ledger

/-- Before the first order. -/
def empty : Ledger Order := ⟨[], []⟩

open scoped Classical in
/-- An order is placed, or one that was placed is paid, once for its id. -/
noncomputable def step (id : Order → Id) : LedgerLabel Order → Ledger Order → Option (Ledger Order)
  | .order o, s => some { s with ordered := s.ordered ++ [o] }
  | .pay o, s =>
      if o ∈ s.ordered ∧ id o ∉ s.paid.map id then some { s with paid := s.paid ++ [o] } else none

/-- What is paid was ordered, and no id is paid twice. -/
structure Sound (id : Order → Id) (s : Ledger Order) : Prop where
  placed : ∀ o ∈ s.paid, o ∈ s.ordered
  once : (s.paid.map id).Nodup

variable {id : Order → Id} {s s' : Ledger Order}

theorem step_order (id : Order → Id) (o : Order) (s : Ledger Order) :
    step id (.order o) s = some { s with ordered := s.ordered ++ [o] } := rfl

theorem step_pay (id : Order → Id) {o : Order} (hplaced : o ∈ s.ordered)
    (hnew : id o ∉ s.paid.map id) :
    step id (.pay o) s = some { s with paid := s.paid ++ [o] } := if_pos ⟨hplaced, hnew⟩

/-- Every step keeps the ledger sound. -/
theorem Sound.step {l : LedgerLabel Order} (h : Sound id s) (hstep : step id l s = some s') :
    Sound id s' := by
  cases l with
  | order o =>
      cases hstep
      exact ⟨fun p hp => List.mem_append_left _ (h.placed p hp), h.once⟩
  | pay o =>
      unfold Ledger.step at hstep
      dsimp only at hstep
      split at hstep
      · next hguard =>
          cases hstep
          constructor
          · intro p hp
            rcases List.mem_append.mp hp with hold | hnew
            · exact h.placed p hold
            · rw [List.mem_singleton.mp hnew]
              exact hguard.1
          · rw [List.map_append, List.nodup_append]
            refine ⟨h.once, List.nodup_singleton _, ?_⟩
            intro a ha b hb heq
            rw [heq, List.mem_singleton.mp hb] at ha
            exact hguard.2 ha
      · cases hstep

/-- **Every ledger is sound.** -/
theorem sound (h : Reach (step id) free empty s) : Sound id s := by
  refine h.invariant ⟨fun o ho => ?_, List.nodup_nil⟩ fun s l s' _ ih _ hstep => ih.step hstep
  exact (List.not_mem_nil ho).elim

/-- **The payments are part of the orders.** -/
theorem Sound.subperm (h : Sound id s) : s.paid.Subperm s.ordered :=
  List.subperm_of_subset (List.Nodup.of_map id h.once) h.placed

/-- **Payments come to no more than orders do**, for any selection of them and
any amount that is not negative. -/
theorem Sound.sum_le {M : Type} [AddCommMonoid M] [PartialOrder M] [IsOrderedAddMonoid M]
    (h : Sound id s) (select : Order → Bool) (amount : Order → M) (hpos : ∀ o, 0 ≤ amount o) :
    ((s.paid.filter select).map amount).sum ≤ ((s.ordered.filter select).map amount).sum := by
  obtain ⟨paid, hperm, hsub⟩ := h.subperm.filter select
  rw [← (hperm.map amount).sum_eq]
  refine (hsub.map amount).sum_le_sum fun a ha => ?_
  obtain ⟨o, -, rfl⟩ := List.mem_map.mp ha
  exact hpos o

end Ledger

end Lib
