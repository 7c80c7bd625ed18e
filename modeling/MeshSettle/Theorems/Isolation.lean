import MeshSettle.Settlement.Clock
import MeshSettle.Settlement.Reference
import MeshSettle.Settlement.Serving

/-!
# Hostile traffic is isolated

A delivery that ends at one of the checks before the claim touches nothing but
`rejected_packets` and its processor's counters. So it can be deleted from a
run: the rest of the run goes on as it did, with the same outcomes, the same
Redis and the same settlements.
-/

namespace MeshSettle.Theorems.Isolation

open Lib.Await Lib.Interleave Lib.Transition

variable {ι : Type} {env : Env}

/-- Processing ends at parsing, at the signature, at the freshness window or at
the AAD check. -/
def endsEarly (env : Env) (d : Delivery ι) : Bool :=
  match PaymentPacket.modelValidateJson env.pydantic d.body with
  | .error _ => true
  | .ok packet =>
      match packet.verify env.prim env.senderPublicKey with
      | .error _ => true
      | .ok () =>
          (staleness env packet d.now).isSome || decide (packet.envelope.aad ≠ packet.expectedAad)

/-- A delivery whose packet is admitted goes on to its claim. -/
theorem endsEarly_of_admitted {a : Admitted env} {d : Delivery ι} (ha : a.For d) :
    endsEarly env d = false := by
  unfold endsEarly
  rw [← ha.1, a.parsed]
  dsimp only
  rw [a.verified]
  dsimp only
  rw [← ha.2, a.fresh, Option.isSome_none, Bool.false_or, decide_eq_false_iff_not, not_not]
  exact a.bound

/-- A signed packet outside its window ends early. -/
theorem endsEarly_of_outside {d : Delivery ι} {p : PaymentPacket} (hbody : SignedBody env d.body p)
    (hout : ¬ InWindow env p d.now) : endsEarly env d = true := by
  unfold endsEarly
  rw [hbody.1]
  dsimp only
  rw [hbody.2]
  dsimp only
  rw [Bool.or_eq_true, Option.isSome_iff_ne_none]
  exact .inl fun hnone => hout (staleness_none.mp hnone)

/-- Redis and the settlements are as they were, and rejections are only added. -/
structure Untouched (w w' : World ι) : Prop where
  redis : w'.redis = w.redis
  settlements : w'.settlements = w.settlements
  rejected : w.rejected <+: w'.rejected

/-- A call in this status has nothing left to do but to note its rejection. -/
def Harmless : Status Exc SettlementOutcome (Phase env) → Prop
  | .running (.refusing _) => True
  | .running _ => False
  | _ => True

/-- A delivery that ends early is refused, or its body makes parsing raise. -/
theorem start_early {d : Delivery ι} (h : endsEarly env d = true) :
    (∃ r, Phase.start env d.body d.now = .refusing r) ∨
      ∃ e, Phase.start env d.body d.now = .failed e := by
  rcases Phase.start_cases env d with hr | ⟨a, ha, -⟩ | ⟨e, -, he⟩
  · exact .inl hr
  · rw [endsEarly_of_admitted ha] at h
    cases h
  · exact .inr ⟨e, he⟩

variable [DecidableEq ι]

/-- **A delivery that ends early leaves Redis and the settlements alone**,
whatever fails. -/
theorem early_untouched {d : Delivery ι} (h : endsEarly env d = true) (mode : Nat → Mode)
    (clock : Nat → Int) (w : World ι) : Untouched w (processAlone env d mode clock w).1 := by
  have hexec : w.Noted (platform.exec (process env d.body d.now) mode clock w).1 := by
    rw [exec_process]
    rcases start_early h with ⟨r, hr⟩ | ⟨e, he⟩
    · rw [hr]
      exact (exec_refusing mode clock w r).2
    · rw [he, Phase.exec_failed]
      exact World.Noted.refl w
  obtain ⟨rows, hrows⟩ := hexec
  unfold processAlone
  dsimp only
  split <;> rw [hrows] <;> exact ⟨rfl, rfl, List.prefix_append _ _⟩

/-! ## Deleting deliveries from a run -/

/-- The call was made for a delivery that ends early. -/
def hostile {P : Type} (env : Env)
    (s : State Op Resp Exc SettlementOutcome (Delivery ι) (World ι) P) (c : Nat) : Bool :=
  match s.calls c with
  | some call => endsEarly env call.tag
  | none => false

/-- The steps that are kept when some calls are deleted. -/
def spares (deleted : Nat → Bool) : ProcessorLabel ι → Bool
  | .start c _ => !deleted c
  | .io c _ _ => !deleted c
  | _ => true

/-- The run without the deleted calls: the same Redis and settlements, and the
same calls, deleted ones excepted. -/
structure Without {P : Type} (deleted : Nat → Bool)
    (s t : State Op Resp Exc SettlementOutcome (Delivery ι) (World ι) P) : Prop where
  redis : t.store.redis = s.store.redis
  settlements : t.store.settlements = s.store.settlements
  calls : ∀ c, t.calls c = if deleted c then none else s.calls c

/-- An operation reads and changes nothing but Redis and the settlements, the
record of a rejection apart. -/
theorem answer_agree {w v : World ι} (hredis : v.redis = w.redis)
    (hsettlements : v.settlements = w.settlements) (mode : Mode) (op : Op) (clock : Int) :
    (platform.answer mode op clock v).2 = (platform.answer mode op clock w).2 ∧
    (platform.answer mode op clock v).1.redis = (platform.answer mode op clock w).1.redis ∧
    (platform.answer mode op clock v).1.settlements =
      (platform.answer mode op clock w).1.settlements := by
  have hperform : (perform op clock v).2 = (perform op clock w).2 ∧
      (perform op clock v).1.redis = (perform op clock w).1.redis ∧
      (perform op clock v).1.settlements = (perform op clock w).1.settlements := by
    cases op with
    | insertRejection row =>
        unfold perform
        dsimp only
        split <;> exact ⟨rfl, hredis, hsettlements⟩
    | _ => simp [perform, hredis, hsettlements]
  cases mode with
  | served => exact hperform
  | refused => exact ⟨rfl, hredis, hsettlements⟩
  | lost => exact ⟨rfl, hperform.2⟩

/-- Calls stay to the end of a run, with their deliveries. -/
theorem run_calls_stay {ls : List (ProcessorLabel ι)} {s s' : Phases ι env}
    (h : run (Phases.step env) ls s = some s') {c : Nat} {call : PhaseCall ι env}
    (hc : s.calls c = some call) : ∃ call', s'.calls c = some call' ∧ call'.tag = call.tag := by
  induction ls generalizing s call with
  | nil => cases h; exact ⟨call, hc, rfl⟩
  | cons l ls ih =>
      obtain ⟨mid, hmid, hrest⟩ := Option.bind_eq_some_iff.mp h
      obtain ⟨call1, hc1, htag1⟩ := (Phases.step_cases hmid).calls_stay hc
      obtain ⟨call', hc', htag⟩ := ih hrest hc1
      exact ⟨call', hc', htag.trans htag1⟩

/-- What the deleted run keeps while the full run goes on: it is the run without
the deleted calls, and these are harmless. -/
structure Deleting (deleted : Nat → Bool) (s t : Phases ι env) : Prop
    extends Without deleted s t where
  harmless : ∀ c call, s.calls c = some call → deleted c = true → Harmless call.status

/-- Two copies of one call that reach one phase. -/
theorem Deleting.enter {deleted : Nat → Bool} {s t : Phases ι env} (h : Deleting deleted s t)
    {c : Nat} (hc : deleted c = false) (d : Delivery ι) (ph : Phase env) {w v : World ι}
    (log : List IoEvent) (hredis : v.redis = w.redis)
    (hsettlements : v.settlements = w.settlements) :
    Deleting deleted (s.enter c d ph w log) (t.enter c d ph v log) := by
  refine ⟨⟨?_, ?_, ?_⟩, (Phases.forall_enter ..).mpr ⟨?_, fun b call _ hb => h.harmless b call hb⟩⟩
  · simpa [Phases.enter] using hredis
  · simpa [Phases.enter] using hsettlements
  · intro b
    rw [Phases.enter_calls, Phases.enter_calls, h.calls b]
    by_cases hb : b = c
    · subst hb
      simp [hc]
    · simp [hb]
  · intro hdeleted
    rw [hc] at hdeleted
    cases hdeleted

/-- A step that is kept is a step of both runs. -/
theorem Deleting.keep {deleted : Nat → Bool} {l : ProcessorLabel ι} {s s' t : Phases ι env}
    (h : Deleting deleted s t) (hl : spares deleted l = true)
    (hstep : Phases.step env l s = some s') :
    ∃ t', Phases.step env l t = some t' ∧ Deleting deleted s' t' := by
  cases l with
  | start c d =>
      have hc : deleted c = false := by simpa [spares] using hl
      have hfree : s.calls c = none := by
        cases Phases.step_cases hstep with
        | start hfree => exact hfree
      have hfree' : t.calls c = none := by rw [h.calls, hfree]; exact ite_self _
      rw [Phases.step_start d hfree] at hstep
      cases hstep
      exact ⟨_, Phases.step_start d hfree', h.enter hc d _ [] h.redis h.settlements⟩
  | io c mode clock =>
      have hc : deleted c = false := by simpa [spares] using hl
      obtain ⟨d, ph, log, op, k, hcall, hview⟩ := Phases.step_io_inv hstep
      have hcall' : t.calls c = some ⟨d, .running ph, log⟩ := by
        rw [h.calls, hc]
        exact hcall
      obtain ⟨hans, hredis, hsettlements⟩ := answer_agree h.redis h.settlements mode op clock
      have hstep' := Phases.step_io mode clock hcall' hview
      rw [Phases.step_io mode clock hcall hview] at hstep
      cases hstep
      rw [hans] at hstep'
      exact ⟨_, hstep', h.enter hc d _ _ hredis hsettlements⟩
  | crash i =>
      cases hstep
      refine ⟨_, rfl, ⟨h.redis, h.settlements, fun c => ?_⟩, ?_⟩
      · simp only [h.calls c]
        split <;> rfl
      · exact Phases.forall_crash s i h.harmless fun b d ph log _ _ => trivial
  | disturb e =>
      cases hstep
      refine ⟨_, rfl, ⟨?_, ?_, h.calls⟩, h.harmless⟩
      · cases e with
        | flush => rfl
        | expire key => exact congrArg (fun r => Redis.delete r key) h.redis
      · cases e <;> exact h.settlements

/-- A step that is deleted is a step of a harmless call. -/
theorem Deleting.erase {s s' t last : Phases ι env} {l : ProcessorLabel ι}
    (h : Deleting (hostile env last) s t) (hl : spares (hostile env last) l = false)
    (hstep : Phases.step env l s = some s') {ks : List (ProcessorLabel ι)}
    (hrest : run (Phases.step env) ks s' = some last) : Deleting (hostile env last) s' t := by
  cases Phases.step_cases hstep with
  | @start c d hfree =>
      have hc : hostile env last c = true := by simpa [spares] using hl
      -- a call keeps its delivery, so the last state tells what this one was
      have hearly : endsEarly env d = true := by
        obtain ⟨call, hcall, htag⟩ := run_calls_stay hrest (c := c)
          ((Phases.enter_calls ..).trans (if_pos rfl))
        rw [hostile, hcall] at hc
        dsimp only at hc
        rw [htag] at hc
        exact hc
      have hstatus : Harmless (Phase.start env d.body d.now).status := by
        rcases start_early hearly with ⟨r, hr⟩ | ⟨e, he⟩
        · rw [hr]; trivial
        · rw [he]; trivial
      refine ⟨⟨?_, ?_, ?_⟩, (Phases.forall_enter ..).mpr
        ⟨fun _ => hstatus, fun b call _ hb => h.harmless b call hb⟩⟩
      · simpa [Phases.enter] using h.redis
      · simpa [Phases.enter] using h.settlements
      · intro b
        rw [h.calls, Phases.enter_calls]
        by_cases hb : b = c
        · subst hb
          simp [hc]
        · simp [hb]
  | @io c mode clock d ph ph' log w' ev hcall hadv =>
      have hc : hostile env last c = true := by simpa [spares] using hl
      have hharmless := h.harmless c _ hcall hc
      -- the one operation of a harmless call is the write of its rejection
      cases ph with
      | refusing r =>
          cases hadv with
          | refused hw =>
              obtain ⟨rows, rfl⟩ := hw
              refine ⟨⟨?_, ?_, ?_⟩, (Phases.forall_enter ..).mpr
                ⟨fun _ => trivial, fun b call _ hb => h.harmless b call hb⟩⟩
              · simpa [Phases.enter] using h.redis
              · simpa [Phases.enter] using h.settlements
              · intro b
                rw [h.calls, Phases.enter_calls]
                by_cases hb : b = c
                · subst hb
                  simp [hc]
                · simp [hb]
      | _ => exact hharmless.elim
  | crash => simp [spares] at hl
  | disturb => simp [spares] at hl

/-- Deleting the hostile deliveries of a run of phases. -/
theorem phases_isolated {ls : List (ProcessorLabel ι)} {s : Phases ι env}
    (h : run (Phases.step env) ls Phases.init = some s) :
    ∃ t, run (Phases.step env) (ls.filter (spares (hostile env s))) Phases.init = some t ∧
      Without (hostile env s) s t := by
  have hstart : Deleting (hostile env s) (Phases.init : Phases ι env) Phases.init := by
    refine ⟨⟨rfl, rfl, fun c => (ite_self none).symm⟩, fun c call hc => ?_⟩
    cases hc
  obtain ⟨t, ht, hd⟩ := run_erase (spares (hostile env s)) (Deleting (hostile env s))
    (fun l u u' v ks hl hR hs _ => hR.keep hl hs)
    (fun l u u' v ks hl hR hs hrest => hR.erase hl hs hrest) hstart h
  exact ⟨t, ht, hd.toWithout⟩

/-- **Hostile traffic is isolated.** A delivery that ends early leaves Redis and
the settlements alone, whatever fails; and every run has the same Redis, the
same settlements and the same other calls without the deliveries that end
early. -/
theorem hostile_isolated (env : Env) :
    (∀ (d : Delivery ι) mode clock w, endsEarly env d = true →
      Untouched w (processAlone env d mode clock w).1) ∧
    ∀ ls (s : Processors ι), run (Processors.step env) ls Processors.init = some s →
      ∃ t, run (Processors.step env) (ls.filter (spares (hostile env s))) Processors.init =
          some t ∧ Without (hostile env s) s t := by
  refine ⟨fun d mode clock w h => early_untouched h mode clock w, fun ls s h => ?_⟩
  have hruns : ∀ ls, run (Processors.step env) ls (Processors.init : Processors ι) =
      (run (Phases.step env) ls Phases.init).map (State.map Phase.prog) :=
    fun ls => run_map (State.map Phase.prog) (fun l s => step_map (processCode_same env) l s) ls
      Phases.init
  rw [hruns] at h
  obtain ⟨s, hs, rfl⟩ := Option.map_eq_some_iff.mp h
  have hsame : hostile env (s.map Phase.prog) = hostile env s := by
    funext c
    unfold hostile
    rw [State.map_calls]
    cases s.calls c <;> rfl
  obtain ⟨t, ht, hw⟩ := phases_isolated hs
  rw [hsame, hruns, ht]
  refine ⟨t.map Phase.prog, rfl, hw.redis, hw.settlements, fun c => ?_⟩
  rw [State.map_calls, State.map_calls, hw.calls]
  split <;> rfl

/-- A delivery that ends early, and then one that settles its packet. -/
theorem settles_after_hostile {o : Opened env} {d : Delivery Unit} (hearly : endsEarly env d = true)
    {clock : Int} (hclaim : AcceptsEx env.claimTtl clock)
    (hsettled : AcceptsEx env.settledTtl clock) (hfits : o.row.fits = true) :
    ∃ (ls : List (ProcessorLabel Unit)) (s : Processors Unit),
      run (Processors.step env) ls Processors.init = some s ∧ hostile env s 0 = true ∧
      hostile env s 1 = false ∧
      ∃ call, s.calls 1 = some call ∧ call.status = .returned (settledOutcome env o.packet 0) := by
  have ho : o.toAdmitted.For (⟨(), o.body, o.now⟩ : Delivery Unit) := ⟨rfl, rfl⟩
  obtain ⟨s₀, hs₀, hcall₀, hothers₀, hstore₀⟩ := Phases.run_process free
    (s := (Phases.init : Phases Unit env)) (c := 0) (d := d) (fun _ => .served) (fun _ => clock)
    trivial (fun _ _ _ => trivial) rfl
  have huntouched := early_untouched hearly (fun _ => .served) (fun _ => clock)
    (Phases.init : Phases Unit env).store
  rw [← hstore₀] at huntouched
  obtain ⟨s₁, hs₁, hcall₁, hothers₁, -⟩ := Phases.run_process free (s := s₀) (c := 1)
    (d := ⟨(), o.body, o.now⟩) (fun _ => .served) (fun _ => clock) trivial (fun _ _ _ => trivial)
    (hothers₀ 1 (by decide))
  obtain ⟨hresult₁, -⟩ := processAlone_settles ho (fun _ => clock) hclaim hsettled
    (w := s₀.store) (congrFun huntouched.redis _) hfits
    (o.accepted (congrArg SettlementTable.rows huntouched.settlements))
  rw [hresult₁, huntouched.settlements] at hcall₁
  have hreach : Reach (Processors.step env) free Processors.init (s₁.map Phase.prog) :=
    Phases.reach_processors (hs₀.trans hs₁)
  obtain ⟨ls, hls⟩ := hreach.exists_run
  have hcall₀' : s₁.calls 0 = _ := (hothers₁ 0 (by decide)).trans hcall₀
  refine ⟨ls, s₁.map Phase.prog, hls, ?_, ?_, Phases.status_prog ⟨_, hcall₁, rfl⟩⟩
  · unfold hostile
    rw [State.map_calls, hcall₀']
    exact hearly
  · unfold hostile
    rw [State.map_calls, hcall₁]
    exact endsEarly_of_admitted ho

/-- A second after the window of the reference payment. -/
def expired : Delivery Unit := ⟨(), Reference.body, Reference.instant.micros + 86401000000⟩

theorem expired_outside : ¬ InWindow Reference.onePayment Reference.payment expired.now := by
  intro h
  have hlate : (Reference.instant.micros : Int) + 86401000000 ≤
      Reference.instant.micros + 86400 * 1000000 := h.2
  omega

theorem expired_signed : SignedBody Reference.onePayment expired.body Reference.payment := by
  simp only [expired]
  exact Reference.signed_payment

/-- A delivery of the reference payment that has expired can be deleted from the
run that settles it. -/
theorem hostile_isolated_expired : ∃ (s t : Processors Unit),
    hostile Reference.onePayment s 0 = true ∧ Without (hostile Reference.onePayment s) s t ∧
    t.calls 0 = none ∧ ∃ call, t.calls 1 = some call ∧
      call.status = .returned (settledOutcome Reference.onePayment Reference.payment 0) := by
  have hearly : endsEarly Reference.onePayment expired = true :=
    endsEarly_of_outside expired_signed expired_outside
  obtain ⟨ls, s, hls, hhostile, hspared, hsettled⟩ := settles_after_hostile
    (o := Reference.opened) hearly Reference.acceptsEx_claim Reference.acceptsEx_settled
    Reference.fits_row
  obtain ⟨t, -, hwithout⟩ := (hostile_isolated Reference.onePayment).2 ls s hls
  refine ⟨s, t, hhostile, hwithout, ?_, ?_⟩
  · rw [hwithout.calls, if_pos hhostile]
  · rw [hwithout.calls, hspared]
    exact hsettled

end MeshSettle.Theorems.Isolation
