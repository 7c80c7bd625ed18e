import Mathlib.Logic.Function.Basic

/-!
# Labelled transition systems

A system is a partial function `step : L → S → Option S`: a label carries all
the nondeterminism of one step, and `none` says that the label is not enabled.

* `run` executes a list of labels;
* `Reach step ok init` are the states reachable by steps whose label and
  pre-state satisfy `ok`, the shape of every claim that holds "in each run
  whose steps meet a condition";
* `Reach.invariant` is the one induction over runs, `Reach.lift` transports
  reachability along a functional simulation, and `run_erase` removes
  invisible steps from a run;
* `timed` puts a system under a clock that does not go back, `observed` gives it
  a memory of its steps.
-/

namespace Lib.Transition

variable {L S T : Type}

/-- Execute a list of labels. -/
def run (step : L → S → Option S) : List L → S → Option S
  | [], s => some s
  | l :: ls, s => (step l s).bind (run step ls)

@[simp] theorem run_nil (step : L → S → Option S) (s : S) : run step [] s = some s := rfl

@[simp] theorem run_cons (step : L → S → Option S) (l : L) (ls : List L) (s : S) :
    run step (l :: ls) s = (step l s).bind (run step ls) := rfl

theorem run_append (step : L → S → Option S) (ls ks : List L) (s : S) :
    run step (ls ++ ks) s = (run step ls s).bind (run step ks) := by
  induction ls generalizing s with
  | nil => rfl
  | cons l ls ih =>
      simp only [List.cons_append, run_cons]
      cases step l s with
      | none => rfl
      | some s' => exact ih s'

/-- States reachable from `init` by steps satisfying `ok`. -/
inductive Reach (step : L → S → Option S) (ok : L → S → Prop) (init : S) : S → Prop
  | start : Reach step ok init init
  | next {s s' : S} {l : L} : Reach step ok init s → ok l s → step l s = some s' →
      Reach step ok init s'

/-- No condition on the steps. -/
abbrev free : L → S → Prop := fun _ _ => True

variable {step : L → S → Option S} {ok ok' : L → S → Prop} {init : S}

/-- What holds at the start and is preserved by every admitted step holds of
every reachable state. -/
theorem Reach.invariant {P : S → Prop} (h0 : P init)
    (hstep : ∀ s l s', Reach step ok init s → P s → ok l s → step l s = some s' → P s')
    {s : S} (h : Reach step ok init s) : P s := by
  induction h with
  | start => exact h0
  | next hr hok hs ih => exact hstep _ _ _ hr ih hok hs

theorem Reach.mono (himp : ∀ l s, ok l s → ok' l s) {s : S}
    (h : Reach step ok init s) : Reach step ok' init s := by
  induction h with
  | start => exact .start
  | next _ hok hs ih => exact .next ih (himp _ _ hok) hs

/-- Reachability without a condition on the steps. -/
theorem Reach.free {s : S} (h : Reach step ok init s) : Reach step free init s :=
  h.mono fun _ _ _ => trivial

theorem Reach.trans {mid s : S} (h1 : Reach step ok init mid) (h2 : Reach step ok mid s) :
    Reach step ok init s := by
  induction h2 with
  | start => exact h1
  | next _ hok hs ih => exact .next ih hok hs

/-- A run of enabled labels that all meet the condition reaches its end. -/
theorem Reach.of_run {ls : List L} {s s' : S} (hok : ∀ l ∈ ls, ∀ t, ok l t)
    (h : run step ls s = some s') : Reach step ok s s' := by
  induction ls generalizing s with
  | nil => cases h; exact .start
  | cons l ls ih =>
      obtain ⟨t, ht, hrest⟩ := Option.bind_eq_some_iff.mp h
      have hl : Reach step ok s t := .next .start (hok l List.mem_cons_self s) ht
      exact hl.trans (ih (fun l' hl' => hok l' (List.mem_cons_of_mem _ hl')) hrest)

/-- What is reached is reached by a list of labels. -/
theorem Reach.exists_run {s : S} (h : Reach step ok init s) : ∃ ls, run step ls init = some s := by
  induction h with
  | start => exact ⟨[], rfl⟩
  | @next s s' l _ _ hs ih =>
      obtain ⟨ls, hls⟩ := ih
      refine ⟨ls ++ [l], ?_⟩
      rw [run_append, hls, Option.bind_some, run_cons, hs]
      rfl

/-- A functional simulation: every state reachable in the image system is the
image of a reachable state. -/
theorem Reach.lift {stepT : L → T → Option T} (init : S) (f : S → T) {okT : L → T → Prop}
    (hsim : ∀ l s, stepT l (f s) = (step l s).map f)
    (hok : ∀ l s, okT l (f s) → ok l s) {t : T}
    (h : Reach stepT okT (f init) t) : ∃ s, t = f s ∧ Reach step ok init s := by
  induction h with
  | start => exact ⟨init, rfl, .start⟩
  | @next t t' l _ hokT hs ih =>
      obtain ⟨s, rfl, hr⟩ := ih
      rw [hsim] at hs
      obtain ⟨s', hs', rfl⟩ := Option.map_eq_some_iff.mp hs
      exact ⟨s', rfl, .next hr (hok l s hokT) hs'⟩

/-- The image of a reachable state is reachable. -/
theorem Reach.image {stepT : L → T → Option T} (f : S → T) {okT : L → T → Prop}
    (hsim : ∀ l s, stepT l (f s) = (step l s).map f)
    (hok : ∀ l s, ok l s → okT l (f s)) {s : S}
    (h : Reach step ok init s) : Reach stepT okT (f init) (f s) := by
  induction h with
  | start => exact .start
  | @next s s' l _ hl hs ih => exact .next ih (hok l s hl) (by rw [hsim, hs]; rfl)

/-- A functional simulation on runs. -/
theorem run_map {stepT : L → T → Option T} (f : S → T)
    (hsim : ∀ l s, stepT l (f s) = (step l s).map f) (ls : List L) (s : S) :
    run stepT ls (f s) = (run step ls s).map f := by
  induction ls generalizing s with
  | nil => rfl
  | cons l ls ih =>
      rw [run_cons, run_cons, hsim]
      cases step l s with
      | none => rfl
      | some s' => exact ih s'

/-- Erasing invisible steps. `R full erased` relates a state of the full run to
one of the erased run; a kept label moves both, an erased one only the first.
Each step may use that the full run goes on to its end. -/
theorem run_erase (keep : L → Bool) (R : S → S → Prop) {last : S}
    (hkeep : ∀ l s s' t ks, keep l = true → R s t → step l s = some s' →
      run step ks s' = some last → ∃ t', step l t = some t' ∧ R s' t')
    (herase : ∀ l s s' t ks, keep l = false → R s t → step l s = some s' →
      run step ks s' = some last → R s' t)
    {ls : List L} {s t : S} (hR : R s t) (h : run step ls s = some last) :
    ∃ t', run step (ls.filter keep) t = some t' ∧ R last t' := by
  induction ls generalizing s t with
  | nil => cases h; exact ⟨t, rfl, hR⟩
  | cons l ls ih =>
      obtain ⟨mid, hmid, hrest⟩ := Option.bind_eq_some_iff.mp h
      cases hk : keep l with
      | true =>
          obtain ⟨t1, ht1, hR1⟩ := hkeep l s mid t ls hk hR hmid hrest
          obtain ⟨t', ht', hR'⟩ := ih hR1 hrest
          refine ⟨t', ?_, hR'⟩
          rw [List.filter_cons_of_pos hk, run_cons, ht1]
          exact ht'
      | false =>
          rw [List.filter_cons_of_neg (by simp [hk])]
          exact ih (herase l s mid t ls hk hR hmid hrest) hrest

/-! ## Clocks -/

/-- The system under a clock: a step happens at an instant, instants do not go
back, and a step that reads the clock reads its own instant. -/
def timed (reading : L → Option Int) (step : L → S → Option S) :
    Int × L → Int × S → Option (Int × S) :=
  fun l s =>
    if s.1 ≤ l.1 ∧ (reading l.2 = none ∨ reading l.2 = some l.1) then
      (step l.2 s.2).map (Prod.mk l.1)
    else none

variable {reading : L → Option Int}

/-- Inversion of a timed step. -/
theorem timed_cases {l : Int × L} {s s' : Int × S} (h : timed reading step l s = some s') :
    s.1 ≤ l.1 ∧ (∀ r, reading l.2 = some r → r = l.1) ∧ s'.1 = l.1 ∧
      step l.2 s.2 = some s'.2 := by
  unfold timed at h
  split at h
  · next hclock =>
      obtain ⟨t, ht, rfl⟩ := Option.map_eq_some_iff.mp h
      refine ⟨hclock.1, fun r hr => ?_, rfl, ht⟩
      rcases hclock.2 with hnone | hsome
      · rw [hnone] at hr
        cases hr
      · exact Option.some.inj (hr.symm.trans hsome)
  · cases h

/-- A step at an instant that is not past. -/
theorem timed_step {l : L} {s s' : S} {t t' : Int} (h : step l s = some s') (hle : t ≤ t')
    (hreading : reading l = none ∨ reading l = some t') :
    timed reading step (t', l) (t, s) = some (t', s') := by
  rw [timed, if_pos ⟨hle, hreading⟩, h]
  rfl

/-- A run within one instant, which may be later than its start. -/
theorem Reach.within {okT : Int × L → Int × S → Prop} {t t' : Int} {s : S} (hle : t ≤ t')
    (hreading : ∀ l s, ok l s → reading l = none ∨ reading l = some t')
    (hok : ∀ l s u, ok l s → okT (t', l) (u, s)) (h : Reach step ok init s) :
    ∃ u, t ≤ u ∧ u ≤ t' ∧ Reach (timed reading step) okT (t, init) (u, s) := by
  induction h with
  | start => exact ⟨t, Int.le_refl t, hle, .start⟩
  | next _ hl hs ih =>
      obtain ⟨u, -, hu, hr⟩ := ih
      exact ⟨t', hle, Int.le_refl t', .next hr (hok _ _ _ hl) (timed_step hs hu (hreading _ _ hl))⟩

/-- A run within the instant of its start. -/
theorem Reach.instant {okT : Int × L → Int × S → Prop} {t : Int} {s : S}
    (hreading : ∀ l s, ok l s → reading l = none ∨ reading l = some t)
    (hok : ∀ l s u, ok l s → okT (t, l) (u, s)) (h : Reach step ok init s) :
    Reach (timed reading step) okT (t, init) (t, s) := by
  obtain ⟨u, hge, hle, hr⟩ := h.within (Int.le_refl t) hreading hok
  obtain rfl : u = t := by omega
  exact hr

/-- A state that is reached under a clock is reached. -/
theorem Reach.untimed {okT : Int × L → Int × S → Prop} {start s : Int × S}
    (h : Reach (timed reading step) okT start s) : Reach step Transition.free start.2 s.2 := by
  induction h with
  | start => exact .start
  | next _ _ hs ih => exact .next ih trivial (timed_cases hs).2.2.2

/-- A functional simulation, under the same clock. -/
theorem timed_map {stepT : L → T → Option T} (f : S → T)
    (hsim : ∀ l s, stepT l (f s) = (step l s).map f) (l : Int × L) (s : Int × S) :
    timed reading stepT l (Prod.map id f s) = (timed reading step l s).map (Prod.map id f) := by
  unfold timed
  simp only [Prod.map_fst, id_eq, Prod.map_snd, hsim]
  split
  · cases step l.2 s.2 <;> rfl
  · rfl

/-! ## Histories -/

section Observed

variable {O : Type} {obs : L → S → Option O}

/-- The system with what has been observed of its steps, latest first. -/
def observed (obs : L → S → Option O) (step : L → S → Option S) :
    L → List O × S → Option (List O × S) :=
  fun l s => (step l s.2).map (Prod.mk ((obs l s.2).toList ++ s.1))

/-- Inversion of an observed step. -/
theorem observed_cases {l : L} {s s' : List O × S} (h : observed obs step l s = some s') :
    s'.1 = (obs l s.2).toList ++ s.1 ∧ step l s.2 = some s'.2 := by
  obtain ⟨t, ht, rfl⟩ := Option.map_eq_some_iff.mp h
  exact ⟨rfl, ht⟩

/-- A state that is reached under observation is reached. -/
theorem Reach.unobserved {okO : L → List O × S → Prop} (himp : ∀ l s, okO l s → ok l s.2)
    {start s : List O × S} (h : Reach (observed obs step) okO start s) :
    Reach step ok start.2 s.2 := by
  induction h with
  | start => exact .start
  | next _ hok hs ih => exact .next ih (himp _ _ hok) (observed_cases hs).2

/-- Every run can be observed. -/
theorem Reach.observed {s : S} (h : Reach step ok init s) (past : List O) :
    ∃ past', Reach (observed obs step) (fun l x => ok l x.2) (past, init) (past', s) := by
  induction h with
  | start => exact ⟨past, .start⟩
  | @next s s' l _ hok hs ih =>
      obtain ⟨past', hr⟩ := ih
      refine ⟨(obs l s).toList ++ past', .next hr hok ?_⟩
      rw [Transition.observed, hs]
      rfl

/-- A functional simulation, with the same observations. -/
theorem observed_map {stepT : L → T → Option T} {obsT : L → T → Option O}
    (obs : L → S → Option O) (f : S → T)
    (hsim : ∀ l s, stepT l (f s) = (step l s).map f) (hobs : ∀ l s, obsT l (f s) = obs l s)
    (l : L) (s : List O × S) :
    observed obsT stepT l (Prod.map id f s) = (observed obs step l s).map (Prod.map id f) := by
  unfold observed
  simp only [Prod.map_snd, Prod.map_fst, id_eq, hsim, hobs]
  cases step l s.2 <;> rfl

end Observed

end Lib.Transition
