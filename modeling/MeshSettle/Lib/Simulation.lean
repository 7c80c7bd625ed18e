import Mathlib.Algebra.BigOperators.Group.List.Basic
import Mathlib.Algebra.Ring.Nat
import MeshSettle.Lib.Transition

/-!
# Refinement and measures of transition systems

Two rules about the runs of a system.

* `Reach.refines`: a forward simulation. A step of the concrete system is
  matched by one step of the abstract system, or by none, so that what the
  concrete system reaches is related to what the abstract one reaches.
* `run_cost_le`: a measure that steps use up bounds what a run costs, and
  `exists_stuck` follows it to a state in which no costly step is left.
-/

namespace Lib.Transition

section Refinement

variable {L S K T : Type} {step : L → S → Option S} {ok : L → S → Prop} {init : S}
  {stepT : K → T → Option T} {initT : T}

/-- **Forward simulation.** The relation may use that the concrete state is
reachable, and lets a concrete step be invisible. -/
theorem Reach.refines (R : S → T → Prop) (h0 : R init initT)
    (hstep : ∀ s l s' t, Reach step ok init s → ok l s → step l s = some s' → R s t →
      R s' t ∨ ∃ k t', stepT k t = some t' ∧ R s' t')
    {s : S} (h : Reach step ok init s) : ∃ t, Reach stepT Transition.free initT t ∧ R s t := by
  induction h with
  | start => exact ⟨initT, .start, h0⟩
  | @next s s' l hr hok hs ih =>
      obtain ⟨t, ht, hR⟩ := ih
      rcases hstep s l s' t hr hok hs hR with hstutter | ⟨k, t', hk, hR'⟩
      · exact ⟨t, ht, hstutter⟩
      · exact ⟨t', .next ht trivial hk, hR'⟩

end Refinement

section Measure

variable {L S : Type} {step : L → S → Option S} {P : S → Prop} {ok : L → Prop} {cost : L → Nat}
  {μ : S → Nat}

/-- **A measure that steps use up bounds a run**: what its steps cost comes out of
the measure. -/
theorem run_cost_le
    (hstep : ∀ s l s', P s → ok l → step l s = some s' → P s' ∧ μ s' + cost l ≤ μ s)
    {ls : List L} {s s' : S} (hs : P s) (hok : ∀ l ∈ ls, ok l) (h : run step ls s = some s') :
    P s' ∧ (ls.map cost).sum + μ s' ≤ μ s := by
  induction ls generalizing s with
  | nil =>
      cases h
      exact ⟨hs, by simp⟩
  | cons l ls ih =>
      obtain ⟨t, ht, hrest⟩ := Option.bind_eq_some_iff.mp h
      obtain ⟨hPt, hless⟩ := hstep s l t hs (hok l List.mem_cons_self) ht
      obtain ⟨hP', hcost⟩ := ih hPt (fun k hk => hok k (List.mem_cons_of_mem _ hk)) hrest
      refine ⟨hP', ?_⟩
      rw [List.map_cons, List.sum_cons]
      omega

/-- **Such a run can be brought to its end**: to a state in which no step is left
that costs anything. -/
theorem exists_stuck
    (hstep : ∀ s l s', P s → ok l → step l s = some s' → P s' ∧ μ s' + cost l ≤ μ s)
    {s : S} (hs : P s) : ∃ ls s', (∀ l ∈ ls, ok l) ∧ run step ls s = some s' ∧ P s' ∧
      ∀ l, ok l → 0 < cost l → step l s' = none := by
  -- by induction on the measure that is left
  generalize hn : μ s = n
  induction n using Nat.strongRecOn generalizing s with
  | _ n ih =>
      by_cases hstuck : ∀ l, ok l → 0 < cost l → step l s = none
      · exact ⟨[], s, fun l hl => (List.not_mem_nil hl).elim, rfl, hs, hstuck⟩
      · simp only [not_forall] at hstuck
        obtain ⟨l, hl, hcost, hne⟩ := hstuck
        obtain ⟨t, ht⟩ := Option.ne_none_iff_exists'.mp hne
        obtain ⟨hPt, hless⟩ := hstep s l t hs hl ht
        obtain ⟨ls, s', hok, hrun, hend⟩ := ih (μ t) (by omega) hPt rfl
        refine ⟨l :: ls, s', ?_, ?_, hend⟩
        · intro k hk
          rcases List.mem_cons.mp hk with rfl | hmem
          · exact hl
          · exact hok k hmem
        · rw [run_cons, ht]
          exact hrun

end Measure

end Lib.Transition
