import MeshSettle.Lib.Tally
import MeshSettle.Settlement.Api
import MeshSettle.Theorems.Contained
import MeshSettle.Theorems.Verdicts

/-!
# Counters, outcomes and the audit table

What a processor shows under `/metrics` is exactly how its calls have ended,
and while every audit insert is stored the rows of `rejected_packets` are
exactly the rejections that were counted. Both are one argument: a number that
every step of a call changes by as much as the call's weight is the sum over
the calls (`Balances.tally`). A call weighs one once it has ended in a certain
way; for the audit table it is the call between its row and its outcome that
weighs.
-/

namespace MeshSettle.Theorems.Counters

open Lib.Await Lib.Interleave Lib.Transition Lib.Tally Api

/-! ## Sums over the calls -/

section Sums

variable {ι : Type} [DecidableEq ι] {env : Env}

/-- The steps of a run change a number by what they change the weights of the
calls. -/
structure Balances (env : Env) (ok : ProcessorLabel ι → Phases ι env → Prop)
    (measure : World ι → ℤ) (weight : PhaseCall ι env → ℤ) : Prop where
  init : measure World.empty = 0
  start : ∀ (d : Delivery ι) w, measure (w.after d (Phase.start env d.body d.now)) =
    measure w + weight ⟨d, (Phase.start env d.body d.now).status, []⟩
  io : ∀ (s : Phases ι env) c d ph log op k mode clock,
    Reach (Phases.step env) ok Phases.init s → ok (.io c mode clock) s →
    s.calls c = some ⟨d, .running ph, log⟩ → ph.view = .await op k →
    measure ((platform.answer mode op clock s.store).1.after d
        (k (platform.answer mode op clock s.store).2)) + weight ⟨d, .running ph, log⟩ =
      measure s.store + weight ⟨d, (k (platform.answer mode op clock s.store).2).status,
        ⟨op, (platform.answer mode op clock s.store).2⟩ :: log⟩
  crash : ∀ h s, ok (.crash h) s → ∀ call, weight (call.crashOn platform h) = weight call
  disturb : ∀ e w, measure (w.disturb e) = measure w

/-- **Such a number is the sum over the calls**, in every run. -/
theorem Balances.tally {ok : ProcessorLabel ι → Phases ι env → Prop} {measure : World ι → ℤ}
    {weight : PhaseCall ι env → ℤ} (hb : Balances env ok measure weight) {s : Phases ι env}
    (h : Reach (Phases.step env) ok Phases.init s) : Weighs s.calls weight (measure s.store) := by
  refine h.invariant
    (P := fun s : Phases ι env => Weighs s.calls weight (measure s.store)) ?_ ?_
  · show Weighs _ weight (measure World.empty)
    rw [hb.init]
    exact .empty
  · intro s l s' hr ih hl hstep
    cases l with
    | start c d =>
        cases Phases.step_cases hstep with
        | start hc =>
            have hput := ih.put c ⟨d, (Phase.start env d.body d.now).status, []⟩
            rw [hc] at hput
            show Weighs _ weight (measure (s.store.after d (Phase.start env d.body d.now)))
            rw [hb.start]
            rw [show weigh weight none = 0 from rfl, sub_zero] at hput
            exact hput
    | io c mode clock =>
        obtain ⟨d, ph, log, op, k, hc, hview⟩ := Phases.step_io_inv hstep
        have hbalance := hb.io s c d ph log op k mode clock hr hl hc hview
        rw [Phases.step_io mode clock hc hview] at hstep
        cases hstep
        have hput := ih.put c ⟨d, (k (platform.answer mode op clock s.store).2).status,
          ⟨op, (platform.answer mode op clock s.store).2⟩ :: log⟩
        rw [hc, show weigh weight (some ⟨d, .running ph, log⟩) = weight ⟨d, .running ph, log⟩
          from rfl, add_sub, ← hbalance, add_sub_cancel_right] at hput
        exact hput
    | crash i =>
        cases hstep
        exact ih.map fun c call _ => hb.crash i s hl call
    | disturb e =>
        cases hstep
        show Weighs s.calls weight (measure (s.store.disturb e))
        rw [hb.disturb]
        exact ih

end Sums

/-! ## A refused delivery -/

/-- A delivery that is refused and served runs to its end. -/
theorem refused_returns {env : Env} (ok : ProcessorLabel Unit → Phases Unit env → Prop)
    {d : Delivery Unit} {r : Refusal} (h : Phase.start env d.body d.now = .refusing r)
    (hstarts : ok (.start 0 d) Phases.init)
    (hserved : ∀ s : Phases Unit env, s.calls 0 = some ⟨d, .running (.refusing r), []⟩ →
      ok (.io 0 .served 0) s) :
    ∃ s log, Reach (Phases.step env) ok Phases.init s ∧
      s.calls 0 = some ⟨d, .returned r.outcome, log⟩ ∧ ∀ c, c ≠ 0 → s.calls c = none := by
  let entered : Phases Unit env := Phases.init.enter 0 d (.refusing r) World.empty []
  have hstart : Phases.step env (.start 0 d) Phases.init = some entered := by
    rw [Phases.step_start d rfl, h]
    rfl
  have hcall : entered.calls 0 = some ⟨d, .running (.refusing r), []⟩ :=
    (Phases.enter_calls ..).trans (if_pos rfl)
  have hio := Phases.step_io .served 0 hcall rfl
  refine ⟨_, _, .next (.next .start hstarts hstart) (hserved _ hcall) hio,
    (Phases.enter_calls ..).trans (if_pos rfl), ?_⟩
  intro c hc
  rw [Phases.enter_calls, if_neg hc]
  exact (Phases.enter_calls ..).trans (if_neg hc)

/-- The payment with a member `note`, which is not allowed. -/
noncomputable abbrev noted : Delivery Unit := Evidence.taggedDelivery "note"

theorem noted_invalid : PaymentPacket.modelValidateJson Reference.onePayment.pydantic noted.body =
    .error (.invalid [Evidence.forbidden "note"]) :=
  Evidence.taggedDelivery_invalid (by decide)

theorem noted_refused : Phase.start Reference.onePayment noted.body noted.now =
    .refusing (refuseBody [Evidence.forbidden "note"]) :=
  Evidence.start_invalid _ noted_invalid

/-! ## Counters and outcomes -/

section Outcomes

/-- A rejection with this code. -/
def RejectedWith (code : ErrorCode) (o : SettlementOutcome) : Prop :=
  o.settled = false ∧ o.code = some code

instance (code : ErrorCode) : DecidablePred (RejectedWith code) := fun o =>
  inferInstanceAs (Decidable (o.settled = false ∧ o.code = some code))

theorem record_byCode (m : SettlementMetrics) (o : SettlementOutcome) (code : ErrorCode) :
    (m.record o).byCode code = m.byCode code + if RejectedWith code o then 1 else 0 := by
  rcases Bool.eq_false_or_eq_true o.settled with hs | hs
  · simp [SettlementMetrics.record, RejectedWith, hs]
  · rcases Option.eq_none_or_eq_some o.code with hc | ⟨code', hc⟩
    · simp [SettlementMetrics.record, RejectedWith, hs, hc]
    · by_cases hcode : code = code'
      · subst hcode
        cases code <;> simp [SettlementMetrics.record, RejectedWith, hs, hc]
      · cases code' <;>
          simp [SettlementMetrics.record, RejectedWith, hs, hc, Ne.symm hcode,
            Function.update_of_ne hcode]

/-- The counter of a code under its name in the snapshot. -/
def counterOf (m : Snapshot) : ErrorCode → Nat
  | .malformedPayload => m.malformed
  | .invalidSignature => m.invalidSignature
  | .duplicatePacket => m.duplicates
  | .decryptionFailed => m.decryptionFailed
  | .packetExpired => m.expired
  | .packetNotYetValid => m.notYetValid
  | .internalError => m.internalErrors

/-- A rejection is counted under the name of its code. -/
theorem record_counterOf (m : SettlementMetrics) (o : SettlementOutcome) (code : ErrorCode) :
    counterOf (snapshot (m.record o)) code =
      counterOf (snapshot m) code + if RejectedWith code o then 1 else 0 := by
  rcases Bool.eq_false_or_eq_true o.settled with hs | hs
  · simp [SettlementMetrics.record, RejectedWith, hs, snapshot]
    cases code <;> rfl
  · rcases Option.eq_none_or_eq_some o.code with hc | ⟨code', hc⟩
    · simp [SettlementMetrics.record, RejectedWith, hs, hc]
    · by_cases hcode : code = code'
      · subst hcode
        cases code <;> simp [SettlementMetrics.record, RejectedWith, hs, hc, counterOf, snapshot]
      · cases code' <;> cases code <;>
          first
          | exact absurd rfl hcode
          | simp [SettlementMetrics.record, RejectedWith, hs, hc, counterOf, snapshot]

/-- The sum over the codes counts the rejections that have one. -/
theorem record_rejected (m : SettlementMetrics) (o : SettlementOutcome) :
    (m.record o).rejected =
      m.rejected + if o.settled = false ∧ o.code.isSome = true then 1 else 0 := by
  have htotal := m.record_total o
  have hsettled := m.record_settled o
  unfold SettlementMetrics.total at htotal
  cases hs : o.settled with
  | true =>
      rw [hs] at htotal hsettled
      have hone := htotal (.inl rfl)
      simp only [if_true] at hsettled
      simp only [Bool.true_eq_false, false_and, if_false]
      omega
  | false =>
      cases hc : o.code with
      | none => simp [SettlementMetrics.record, hs, hc]
      | some code =>
          rw [hs, hc] at htotal
          rw [hs] at hsettled
          have hone := htotal (.inr rfl)
          simp only [Bool.false_eq_true, if_false] at hsettled
          simp only [Option.isSome_some, and_self, if_true]
          omega

end Outcomes

section Counting

variable {ι : Type} [DecidableEq ι] {env : Env}

/-- The calls of a processor that have returned such an outcome. -/
def Returned {P : Type} (s : State Op Resp Exc SettlementOutcome (Delivery ι) (World ι) P) (i : ι)
    (Q : SettlementOutcome → Prop) : Set ℕ :=
  {c | ∃ call, s.calls c = some call ∧ call.tag.processor = i ∧
    ∃ outcome, call.status = .returned outcome ∧ Q outcome}

/-- The call is one of them. -/
def Counts (i : ι) (Q : SettlementOutcome → Prop) (call : PhaseCall ι env) : Prop :=
  call.tag.processor = i ∧ ∃ outcome, call.status = .returned outcome ∧ Q outcome

omit [DecidableEq ι] in
theorem not_counts_running {i : ι} {Q : SettlementOutcome → Prop} {d : Delivery ι} {ph : Phase env}
    {log : List IoEvent} : ¬ Counts i Q (⟨d, .running ph, log⟩ : PhaseCall ι env) := by
  rintro ⟨-, outcome, h, -⟩
  cases h

open Classical in
/-- A counter when a call reaches a phase. -/
theorem counter_after {i : ι} {f : SettlementMetrics → ℕ} {Q : SettlementOutcome → Prop}
    (hrecord : ∀ m o, f (m.record o) = f m + if Q o then 1 else 0) (d : Delivery ι)
    (ph : Phase env) (log : List IoEvent) (w : World ι) :
    f ((w.after d ph).metrics i) =
      f (w.metrics i) + if Counts i Q (⟨d, ph.status, log⟩ : PhaseCall ι env) then 1 else 0 := by
  have hother : (∀ outcome, ph.status ≠ .returned outcome) →
      ¬ Counts i Q (⟨d, ph.status, log⟩ : PhaseCall ι env) := by
    rintro hph ⟨-, outcome, h, -⟩
    exact hph outcome h
  cases ph with
  | ended o =>
      by_cases hi : d.processor = i
      · have hcounts : Counts i Q (⟨d, (Phase.ended o : Phase env).status, log⟩ : PhaseCall ι env) ↔
            Q o := by
          constructor
          · rintro ⟨-, outcome, h, hQ⟩
            cases h
            exact hQ
          · exact fun hQ => ⟨hi, o, rfl, hQ⟩
        show f ((w.recordOutcome d o).metrics i) = _
        unfold World.recordOutcome
        subst hi
        dsimp only
        rw [Function.update_self, hrecord]
        simp only [hcounts]
      · have hnot : ¬ Counts i Q (⟨d, (Phase.ended o : Phase env).status, log⟩ :
            PhaseCall ι env) := fun h => hi h.1
        show f ((w.recordOutcome d o).metrics i) = _
        unfold World.recordOutcome
        dsimp only
        rw [Function.update_of_ne (Ne.symm hi), if_neg hnot, Nat.add_zero]
  | _ =>
      rw [if_neg (hother fun outcome h => by cases h)]
      rfl

open Classical in
/-- **A counter counts.** -/
theorem counter_balances {ok : ProcessorLabel ι → Phases ι env → Prop} (i : ι)
    {f : SettlementMetrics → ℕ} {Q : SettlementOutcome → Prop} (h0 : f {} = 0)
    (hrecord : ∀ m o, f (m.record o) = f m + if Q o then 1 else 0) :
    Balances env ok (fun w => (f (w.metrics i) : ℤ)) fun call => if Counts i Q call then 1 else 0
    where
  init := congrArg Nat.cast h0
  start := by
    intro d w
    rw [counter_after hrecord d _ []]
    push_cast
    rfl
  io := by
    intro s c d ph log op k mode clock _ _ _ _
    rw [counter_after hrecord d _ (⟨op, (platform.answer mode op clock s.store).2⟩ :: log),
      answer_metrics, if_neg not_counts_running]
    push_cast
    omega
  crash := by
    intro h s _ call
    rcases Call.crashOn_cases platform h call with heq | ⟨ph, hph, -, heq⟩
    · rw [heq]
    · obtain ⟨d, status, log⟩ := call
      cases hph
      have hcrashed : ¬ Counts i Q (⟨d, .crashed, log⟩ : PhaseCall ι env) := by
        rintro ⟨-, outcome, hret, -⟩
        cases hret
      rw [heq, if_neg hcrashed, if_neg not_counts_running]
  disturb := by
    intro e w
    cases e <;> rfl

/-- A counter is the number of calls that have returned what it counts. -/
theorem counter_exact {ok : ProcessorLabel ι → Processors ι → Prop} {s : Processors ι}
    (h : Reach (Processors.step env) ok Processors.init s) (i : ι) {f : SettlementMetrics → ℕ}
    {Q : SettlementOutcome → Prop} [DecidablePred Q] (h0 : f {} = 0)
    (hrecord : ∀ m o, f (m.record o) = f m + if Q o then 1 else 0) :
    (Returned s i Q).Finite ∧ f (s.store.metrics i) = (Returned s i Q).ncard := by
  obtain ⟨t, rfl, ht⟩ := Processors.reach_phases h
  have hcounts : ∀ m o, f (m.record o) = f m + @ite _ (Q o) (Classical.propDecidable _) 1 0 := by
    intro m o
    rw [hrecord]
    congr
  have hweighs := (counter_balances i h0 hcounts).tally ht
  obtain ⟨hfinite, hcount⟩ := @Weighs.count _ _ _ _ (fun _ => Classical.propDecidable _) hweighs
  have hset : Returned (t.map Phase.prog) i Q =
      {c | ∃ call, t.calls c = some call ∧ Counts i Q call} := by
    ext c
    constructor
    · rintro ⟨call, hc, hi, outcome, hstatus, hQ⟩
      have hphase := (Processors.returned_phases ht hc hstatus).1
      exact ⟨_, hphase, hi, outcome, rfl, hQ⟩
    · rintro ⟨call, hc, hi, outcome, hstatus, hQ⟩
      refine ⟨call.map Phase.prog, ?_, hi, outcome, ?_, hQ⟩
      · rw [State.map_calls, hc]
        rfl
      · show call.status.map Phase.prog = _
        rw [hstatus]
        rfl
  rw [hset]
  exact ⟨hfinite, by exact_mod_cast hcount⟩

/-- **The metrics are exact.** While a processor has not crashed, its `/metrics`
shows how the calls it has answered have ended: as many as are settled, as many
as are rejected, and as many of these as have each code. -/
theorem metrics_exact {s : Processors ι} (i : ι)
    (h : Reach (Processors.step env) (fun l _ => l ≠ .crash i) Processors.init s)
    (depth : Option Nat) :
    let shown := metricsEndpoint (s.store.metrics i) depth
    (Returned s i fun _ => True).Finite ∧
    shown.settled = (Returned s i fun o => o.settled = true).ncard ∧
    shown.rejected = (Returned s i fun o => o.settled = false).ncard ∧
    ∀ code, counterOf shown.toSnapshot code = (Returned s i (RejectedWith code)).ncard := by
  intro shown
  obtain ⟨hsettledFinite, hsettled⟩ := counter_exact h i
    (Q := fun o => o.settled = true) rfl SettlementMetrics.record_settled
  obtain ⟨hrejectedFinite, hrejected⟩ := counter_exact h i
    (Q := fun o => o.settled = false ∧ o.code.isSome = true) rfl record_rejected
  -- what is returned is settled or has a code
  have hcoded : ∀ c, c ∈ Returned s i (fun o => o.settled = false) ↔
      c ∈ Returned s i (fun o => o.settled = false ∧ o.code.isSome = true) := by
    intro c
    constructor
    · rintro ⟨call, hc, hi, o, hstatus, hs⟩
      obtain ⟨t, rfl, ht⟩ := Processors.reach_phases h
      have hverdict := (Processors.returned_phases ht hc hstatus).2
      have hcode := (Contained.verdict_counted hverdict).resolve_left (by simp [hs])
      exact ⟨call, hc, hi, o, hstatus, hs, hcode⟩
    · rintro ⟨call, hc, hi, o, hstatus, hs, -⟩
      exact ⟨call, hc, hi, o, hstatus, hs⟩
  have hsplit := Set.ext hcoded
  refine ⟨?_, hsettled, ?_, ?_⟩
  · refine (hsettledFinite.union hrejectedFinite).subset ?_
    rintro c ⟨call, hc, hi, o, hstatus, -⟩
    rcases Bool.eq_false_or_eq_true o.settled with hs | hs
    · exact .inl ⟨call, hc, hi, o, hstatus, hs⟩
    · exact .inr ((hcoded c).mp ⟨call, hc, hi, o, hstatus, hs⟩)
  · rw [hsplit]
    exact hrejected
  · intro code
    exact (counter_exact h i (f := fun m => counterOf (snapshot m) code)
      (by cases code <;> rfl) fun m o => record_counterOf m o code).2

/-- A refused delivery is one malformed body more. -/
theorem metrics_exact_refusal : ∃ s : Processors Unit,
    Reach (Processors.step Reference.onePayment) (fun l _ => l ≠ .crash ()) Processors.init s ∧
    0 < (metricsEndpoint (s.store.metrics ()) none).malformed := by
  obtain ⟨t, log, ht, hcall, -⟩ := refused_returns
    (fun l (_ : Phases Unit Reference.onePayment) => l ≠ .crash ()) noted_refused
    (by intro h; cases h) (by intro s _ h; cases h)
  have hs : Reach (Processors.step Reference.onePayment) (fun l _ => l ≠ .crash ())
      Processors.init (t.map Phase.prog) := by
    apply Phases.reach_processors
    exact ht
  obtain ⟨hfinite, -, -, hcodes⟩ := metrics_exact () hs none
  refine ⟨t.map Phase.prog, hs, ?_⟩
  have hmapped : (t.map Phase.prog).calls 0 = some ⟨noted,
      .returned (refuseBody [Evidence.forbidden "note"]).outcome, log⟩ := by
    rw [State.map_calls, hcall]
    rfl
  have hmember : 0 ∈ Returned (t.map Phase.prog) () (RejectedWith .malformedPayload) :=
    ⟨_, hmapped, rfl, _, rfl, rfl, rfl⟩
  have hsubset : Returned (t.map Phase.prog) () (RejectedWith .malformedPayload) ⊆
      Returned (t.map Phase.prog) () (fun _ => True) := by
    rintro c ⟨call, hc, hi, o, hstatus, -⟩
    exact ⟨call, hc, hi, o, hstatus, trivial⟩
  have hpositive := (Set.ncard_pos (hfinite.subset hsubset)).mpr ⟨0, hmember⟩
  rw [← hcodes .malformedPayload] at hpositive
  exact hpositive

end Counting

/-! ## Counters and audit rows -/

section Audit

open Evidence (recordedCodes)

variable {ι : Type} [DecidableEq ι] {env : Env}

/-- A step without a crash, whose audit insert, if it is one, is stored, and
whose release after an audit insert is answered. -/
def Audited (env : Env) (l : ProcessorLabel ι) (s : Processors ι) : Prop :=
  (∀ h, l ≠ .crash h) ∧
  ∀ c mode clock call, l = .io c mode clock → s.calls c = some call →
    (∀ row, call.pending (processCode env) = some (.insertRejection row) →
      row.fits = true ∧ mode ≠ .refused) ∧
    (∀ key, call.pending (processCode env) = some (.delete key) →
      attempts call.log ≠ [] → mode = .served)

/-- The rejections with a code that the processors have counted together. -/
def rejectedTotal [Fintype ι] (code : ErrorCode) (w : World ι) : ℕ :=
  ∑ i, (w.metrics i).byCode code

/-- The call returns a rejection with this code. -/
def Rejects (code : ErrorCode) : Phase env → Prop
  | .ended o => RejectedWith code o
  | _ => False

instance (code : ErrorCode) : DecidablePred (Rejects code : Phase env → Prop)
  | .ended o => inferInstanceAs (Decidable (RejectedWith code o))
  | .refusing _ | .claiming _ | .looking _ | .rejecting _ | .releasing _ | .inserting _
  | .marking _ _ | .recovering _ | .failed _ => inferInstanceAs (Decidable False)

theorem rejectedTotal_after [Fintype ι] (code : ErrorCode) (d : Delivery ι) (ph : Phase env)
    (w : World ι) : rejectedTotal code (w.after d ph) =
      rejectedTotal code w + if Rejects code ph then 1 else 0 := by
  cases ph with
  | ended o =>
      show rejectedTotal code (w.recordOutcome d o) = _ + if RejectedWith code o then 1 else 0
      have hothers : ∀ i ∈ Finset.univ.erase d.processor,
          ((w.recordOutcome d o).metrics i).byCode code = (w.metrics i).byCode code := by
        intro i hi
        unfold World.recordOutcome
        dsimp only
        rw [Function.update_of_ne (Finset.ne_of_mem_erase hi)]
      have hown : ((w.recordOutcome d o).metrics d.processor).byCode code =
          (w.metrics d.processor).byCode code + if RejectedWith code o then 1 else 0 := by
        unfold World.recordOutcome
        dsimp only
        rw [Function.update_self, record_byCode]
      unfold rejectedTotal
      rw [← Finset.add_sum_erase _ _ (Finset.mem_univ d.processor),
        Finset.sum_congr rfl hothers, hown,
        ← Finset.add_sum_erase _ (fun i => (w.metrics i).byCode code)
          (Finset.mem_univ d.processor)]
      omega
  | _ => rfl

/-- The call has recorded a rejection with this code and has not returned it. -/
def Unreturned (code : ErrorCode) : Phase env → Prop
  | .releasing f => f.code = code
  | _ => False

instance (code : ErrorCode) : DecidablePred (Unreturned code : Phase env → Prop)
  | .releasing f => inferInstanceAs (Decidable (f.code = code))
  | .refusing _ | .claiming _ | .looking _ | .rejecting _ | .inserting _
  | .marking _ _ | .recovering _ | .ended _ | .failed _ => inferInstanceAs (Decidable False)

/-- The rejections with this code that the call has recorded and not returned. -/
def unreturned (code : ErrorCode) (call : PhaseCall ι env) : ℤ :=
  match call.status with
  | .running ph => if Unreturned code ph then 1 else 0
  | _ => 0

omit [DecidableEq ι] in
theorem unreturned_status (code : ErrorCode) (d : Delivery ι) (ph : Phase env)
    (log : List IoEvent) :
    unreturned code ⟨d, ph.status, log⟩ = if Unreturned code ph then 1 else 0 := by
  cases ph <;> rfl

omit [DecidableEq ι] in
theorem unreturned_nonneg (code : ErrorCode) (call : PhaseCall ι env) :
    0 ≤ unreturned code call := by
  unfold unreturned
  split
  · split <;> decide
  · exact le_refl 0

/-- The rows with a code, less what has been counted. -/
def excess [Fintype ι] (code : ErrorCode) (w : World ι) : ℤ :=
  countRejections w (some code.value) - rejectedTotal code w

theorem excess_after [Fintype ι] (code : ErrorCode) (d : Delivery ι) (ph : Phase env)
    (w : World ι) :
    excess code (w.after d ph) = excess code w - if Rejects code ph then 1 else 0 := by
  have hrows : countRejections (w.after d ph) = countRejections w := by
    cases ph <;> rfl
  unfold excess
  rw [hrows, rejectedTotal_after]
  push_cast
  omega

/-- An operation that is no audit insert. -/
theorem excess_answer [Fintype ι] (code : ErrorCode) {op : Op} (mode : Mode) (clock : Int)
    (w : World ι) (hop : ∀ row, op ≠ .insertRejection row) :
    excess code (platform.answer mode op clock w).1 = excess code w := by
  have hmetrics := answer_metrics mode op clock w
  have hrejected : (platform.answer mode op clock w).1.rejected = w.rejected := by
    cases op with
    | insertRejection row => exact absurd rfl (hop row)
    | _ => cases mode <;> rfl
  unfold excess countRejections rejectedTotal
  rw [hmetrics, hrejected]

/-- An audit insert that is stored. -/
theorem excess_insert [Fintype ι] (code : ErrorCode) {row : RejectedPacket} {mode : Mode}
    (clock : Int) (w : World ι) (hfits : row.fits = true) (hmode : mode ≠ .refused) :
    excess code (platform.answer mode (.insertRejection row) clock w).1 =
      excess code w + if row.reason = code.value then 1 else 0 := by
  have hstored : (platform.answer mode (.insertRejection row) clock w).1 =
      { w with rejected := w.rejected ++ [⟨row, clock⟩] } := by
    have hperform : (perform (.insertRejection row) clock w).1 =
        { w with rejected := w.rejected ++ [⟨row, clock⟩] } := by
      simp only [perform, hfits, if_true]
    cases mode with
    | served => exact hperform
    | refused => exact absurd rfl hmode
    | lost => exact hperform
  rw [hstored]
  unfold excess countRejections rejectedTotal
  by_cases hreason : row.reason = code.value
  · simp [List.filter_append, hreason]
    omega
  · simp [List.filter_append, hreason]

omit [DecidableEq ι] in
/-- What such a step promises of the operation it answers. -/
theorem Audited.answers {s : Phases ι env} {c : ℕ} {mode : Mode} {clock : Int} {d : Delivery ι}
    {ph : Phase env} {log : List IoEvent} {op : Op} {k : Except Exc (Resp op) → Phase env}
    (h : Audited env (.io c mode clock) (s.map Phase.prog))
    (hc : s.calls c = some ⟨d, .running ph, log⟩) (hview : ph.view = .await op k) :
    (∀ row, op = .insertRejection row → row.fits = true ∧ mode ≠ .refused) ∧
    (∀ key, op = .delete key → attempts log ≠ [] → mode = .served) := by
  have hmapped : (s.map Phase.prog).calls c =
      some (Call.map Phase.prog ⟨d, .running ph, log⟩) := by
    rw [State.map_calls, hc]
    rfl
  have hpending : (Call.map Phase.prog (⟨d, .running ph, log⟩ : PhaseCall ι env)).pending
      (processCode env) = some op := by
    have hview' : (phaseCode (ι := ι) env).view ph = .await op k := hview
    rw [Call.pending_map (processCode_same env)]
    simp only [Call.pending, hview']
  obtain ⟨hinsert, hdelete⟩ := h.2 c mode clock _ rfl hmapped
  constructor
  · rintro row rfl
    exact hinsert row hpending
  · rintro key rfl hlog
    exact hdelete key hpending hlog

omit [DecidableEq ι] in
/-- The reason of a refusal's row is its code. -/
theorem Refused.reason {d : Delivery ι} {r : Refusal} (h : Refused env d r) :
    r.row.reason = r.code.value := by
  cases h <;> rfl

omit [DecidableEq ι] in
/-- Every row has a recorded code. -/
theorem records_reason {d : Delivery ι} {row : RejectedPacket} (h : Verdicts.Records env d row) :
    ∃ code ∈ recordedCodes, row.reason = code.value := by
  cases h with
  | @refused r hr =>
      have hearly : ∀ code ∈ [ErrorCode.malformedPayload, .invalidSignature, .packetExpired,
          .packetNotYetValid], code ∈ recordedCodes := by decide
      exact ⟨r.code, hearly _ r.early, Refused.reason hr⟩
  | @flawed f _ =>
      refine ⟨f.code, ?_, rfl⟩
      rcases f.code_cases with h | h <;> rw [h] <;> decide

theorem value_inj {code code' : ErrorCode} : code.value = code'.value ↔ code = code' := by
  cases code <;> cases code' <;> decide

/-- Other than a refusal and a release, nothing ends in a recorded code. -/
theorem not_rejects {code : ErrorCode} (hcode : code ∈ recordedCodes) {o : SettlementOutcome}
    (h : o.code = none ∨ o.code = some .duplicatePacket ∨ o.code = some .internalError) :
    ¬ Rejects code (.ended o : Phase env) := by
  rintro ⟨-, ho⟩
  rcases h with h | h | h
  · cases h.symm.trans ho
  · cases h.symm.trans ho
    revert hcode
    decide
  · cases h.symm.trans ho
    revert hcode
    decide

/-- What is done with the claim returns nothing yet. -/
theorem claimed_quiet (code : ErrorCode) (a : Admitted env) :
    ¬ Rejects code (Phase.claimed a) ∧ ¬ Unreturned code (Phase.claimed a) := by
  rcases Phase.claimed_cases a with ⟨o, -, h⟩ | ⟨f, -, h⟩ | ⟨e, -, -, h⟩ <;> rw [h] <;>
    exact ⟨id, id⟩

/-- What a call does that is not about to record or to release a rejection. -/
theorem quiet_next {code : ErrorCode} (hcode : code ∈ recordedCodes) {ph : Phase env} {op : Op}
    {k : Except Exc (Resp op) → Phase env} (hview : ph.view = .await op k)
    (hop : ∀ row, op ≠ .insertRejection row) (hph : ∀ f, ph ≠ .releasing f)
    (ans : Except Exc (Resp op)) : ¬ Rejects code (k ans) ∧ ¬ Unreturned code (k ans) := by
  cases ph with
  | refusing r =>
      cases hview
      exact absurd rfl (hop _)
  | rejecting f =>
      cases hview
      exact absurd rfl (hop _)
  | releasing f => exact absurd rfl (hph f)
  | claiming a =>
      cases hview
      rcases ans with e | (_ | _)
      · exact ⟨id, id⟩
      · exact ⟨id, id⟩
      · exact claimed_quiet code a
  | looking a =>
      cases hview
      rcases ans with e | marker
      · exact ⟨id, id⟩
      · exact ⟨not_rejects hcode (.inr (.inl (lostOutcome_code a marker))), id⟩
  | inserting o =>
      cases hview
      rcases ans with e | id'
      · cases e <;> exact ⟨id, id⟩
      · exact ⟨id, id⟩
  | marking o id' =>
      cases hview
      rcases ans with e | _
      · exact ⟨id, id⟩
      · exact ⟨not_rejects hcode ((written_code o id').imp_right .inl), id⟩
  | recovering a =>
      cases hview
      rcases ans with e | _
      · exact ⟨id, id⟩
      · exact ⟨not_rejects hcode (.inr (.inr rfl)), id⟩
  | ended o => cases hview
  | failed e => cases hview

/-- A step that neither records nor returns a rejection with this code. -/
theorem quiet_balance [Fintype ι] {code : ErrorCode} {mode : Mode} {op : Op} {clock : Int}
    {w : World ι} {d : Delivery ι} {ph ph' : Phase env} {log log' : List IoEvent}
    (hop : ∀ row, op ≠ .insertRejection row) (hbefore : unreturned code
      (⟨d, .running ph, log⟩ : PhaseCall ι env) = 0)
    (hafter : ¬ Rejects code ph' ∧ ¬ Unreturned code ph') :
    excess code ((platform.answer mode op clock w).1.after d ph') +
        unreturned code ⟨d, .running ph, log⟩ =
      excess code w + unreturned code ⟨d, ph'.status, log'⟩ := by
  rw [excess_after, excess_answer code mode clock w hop, unreturned_status, hbefore,
    if_neg hafter.1, if_neg hafter.2]
  omega

/-- **The audit table counts.** -/
theorem audit_entries [Fintype ι] {code : ErrorCode} (hcode : code ∈ recordedCodes) :
    Balances env (fun l (s : Phases ι env) => Audited env l (s.map Phase.prog)) (excess code)
      (unreturned code) where
  init := by
    unfold excess countRejections rejectedTotal World.empty
    simp
  start := by
    intro d w
    rw [excess_after, unreturned_status]
    have hstart : ¬ Rejects code (Phase.start env d.body d.now) ∧
        ¬ Unreturned code (Phase.start env d.body d.now) := by
      rcases Phase.start_cases env d with ⟨r, h⟩ | ⟨a, -, h⟩ | ⟨e, -, h⟩ <;> rw [h] <;>
        exact ⟨id, id⟩
    rw [if_neg hstart.1, if_neg hstart.2]
    omega
  io := by
    intro s c d ph log op k mode clock hr hok hc hview
    have hfor : ph.For d := Phases.coherent hr c _ hc
    obtain ⟨hinsert, hdelete⟩ := hok.answers hc hview
    cases ph with
    | refusing r =>
        -- the row and the outcome come in one step
        cases hview
        obtain ⟨hfits, hmode⟩ := hinsert _ rfl
        have hreason := Refused.reason (refused_of_start hfor)
        have hrejects : Rejects code (.ended r.outcome : Phase env) ↔
            r.row.reason = code.value := by
          rw [hreason, value_inj]
          show (r.outcome.settled = false ∧ r.outcome.code = some code) ↔ _
          rw [SettlementOutcome.settled, r.rejected, r.coded]
          simp
        rw [excess_after, excess_insert code clock _ hfits hmode, unreturned_status]
        simp only [hrejects]
        show _ + 0 = _ + 0
        omega
    | rejecting f =>
        -- the row is there, the outcome is still to come
        cases hview
        obtain ⟨hfits, hmode⟩ := hinsert _ rfl
        have hreason : (rejectedRow env f.packet f.code f.detail).reason = code.value ↔
            Unreturned code (.releasing f : Phase env) := value_inj
        rw [excess_after, excess_insert code clock _ hfits hmode, unreturned_status]
        simp only [hreason]
        show _ - 0 + 0 = _
        omega
    | releasing f =>
        -- the release is answered, so the outcome is the rejection
        cases hview
        have hlog : attempts log ≠ [] := by
          rw [(attempted hr hc).2]
          exact List.cons_ne_nil _ _
        obtain rfl : mode = .served := hdelete _ rfl hlog
        have hrejects : Rejects code (.ended f.outcome : Phase env) ↔
            Unreturned code (.releasing f : Phase env) := by
          show (f.outcome.settled = false ∧ f.outcome.code = some code) ↔ f.code = code
          exact ⟨fun h => Option.some.inj h.2, fun h => ⟨rfl, congrArg some h⟩⟩
        rw [excess_after, excess_answer code .served clock _ fun row h => by cases h]
        show excess code s.store - (if Rejects code (.ended f.outcome : Phase env) then 1 else 0) +
          (if Unreturned code (.releasing f : Phase env) then 1 else 0) = _ + 0
        simp only [hrejects]
        omega
    | ended o => cases hview
    | failed e => cases hview
    | _ =>
        refine quiet_balance ?_ rfl (quiet_next hcode hview ?_ ?_ _)
        · intro row h
          cases hview
          cases h
        · intro row h
          cases hview
          cases h
        · intro f h
          cases h
  crash := fun h s hok _ => absurd rfl (hok.1 h)
  disturb := by
    intro e w
    cases e <;> rfl

omit [DecidableEq ι] in
/-- Serving a refusal whose row fits is such a step. -/
theorem serve_audited {s : Phases ι env} {c : ℕ} {clock : Int} {d : Delivery ι} {r : Refusal}
    (hfits : r.row.fits = true) (hc : s.calls c = some ⟨d, .running (.refusing r), []⟩) :
    Audited env (.io c .served clock) (s.map Phase.prog) := by
  constructor
  · intro h hl
    cases hl
  · intro c' mode clock' call hl hcall
    cases hl
    rw [State.map_calls, hc] at hcall
    obtain rfl := Option.some.inj hcall
    have hview : (phaseCode (ι := ι) env).view (.refusing r) =
        .await (.insertRejection r.row) fun _ => .ended r.outcome := rfl
    rw [Call.pending_map (processCode_same env)]
    simp only [Call.pending, hview]
    constructor
    · intro row hrow
      obtain rfl := Op.insertRejection.inj (Option.some.inj hrow)
      exact ⟨hfits, by decide⟩
    · intro key hkey
      cases hkey

end Audit

end MeshSettle.Theorems.Counters
