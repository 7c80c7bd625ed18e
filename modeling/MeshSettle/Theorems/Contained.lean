import MeshSettle.Settlement.Alone
import MeshSettle.Settlement.Reference

/-!
# Infrastructure failures become outcomes

A call on a body that parses returns and counts one outcome, whatever fails,
as long as two awaits that stand outside the handler's reach succeed: the
claim itself, which is made before the `try`, and the release in the handler
of that `try`. When one of them fails the exception leaves `process`.

`contained_iff` is the exact condition; that a call which was cut short
reports itself as retryable (`cut_short_retryable`) needs no condition.
-/

namespace MeshSettle.Theorems.Contained

open Lib.Await Lib.Interleave

variable {ι : Type} {env : Env}

/-- The handler's release succeeds whenever it is reached: `ph` is what is
done with the claim, from the second operation on. -/
def Released (ph : Phase env) (mode : Nat → Mode) (clock : Nat → Int) : Prop :=
  match ph with
  | .inserting o =>
      if mode 1 = .served ∧ o.row.fits = true then
        (mode 2 = .served ∧ AcceptsEx env.settledTtl (clock 2)) ∨ mode 3 = .served
      else mode 2 = .served
  | .rejecting _ => mode 2 = .served ∨ mode 3 = .served
  | _ => mode 1 = .served

/-- The claim is answered, and the release in the handler succeeds when it is
reached. A packet that is refused before the claim needs neither. -/
def Answered (env : Env) (d : Delivery ι) (mode : Nat → Mode) (clock : Nat → Int) (w : World ι) :
    Prop :=
  ∀ a : Admitted env, a.For d → mode 0 = .served ∧ AcceptsEx env.claimTtl (clock 0) ∧
    if (w.redis a.key).isSome then mode 1 = .served else Released (Phase.claimed a) mode clock

/-- The call returns, counts exactly one outcome, and says so when it was cut
short. -/
structure Contains (env : Env) (d : Delivery ι) (w : World ι) (trace : List IoEvent)
    (r : World ι × Except Exc SettlementOutcome) : Prop where
  returns : ∃ o, r.2 = .ok o
  counts : (r.1.metrics d.processor).total = (w.metrics d.processor).total + 1
  frame : ∀ i, i ≠ d.processor → r.1.metrics i = w.metrics i
  retryable : ∀ o, r.2 = .ok o → (∃ ev ∈ trace, CutShort ev) → o.retryable = true

/-- The call returns. -/
def Returns (r : Except Exc SettlementOutcome) : Prop := ∃ o, r = .ok o

@[simp] theorem returns_ok (o : SettlementOutcome) : Returns (.ok o) := ⟨o, rfl⟩

@[simp] theorem not_returns_error (e : Exc) : ¬ Returns (.error e) := fun ⟨_, h⟩ => nomatch h

@[simp] theorem returns_recovery (a : Admitted env) (mode : Mode) :
    Returns (recovery a mode) ↔ mode = .served := by
  unfold recovery
  split <;> simp_all

theorem returns_markAnswer (o : Opened env) (id : Option Nat) (mode : Nat → Mode)
    (clock : Nat → Int) : Returns (markAnswer o id mode clock) ↔
      (mode 0 = .served ∧ AcceptsEx env.settledTtl (clock 0)) ∨ mode 1 = .served := by
  unfold markAnswer
  split <;> simp_all

theorem returns_releaseAnswer (f : Flawed env) (mode : Nat → Mode) :
    Returns (releaseAnswer f mode) ↔ mode 0 = .served ∨ mode 1 = .served := by
  unfold releaseAnswer
  split <;> simp_all

theorem returns_insertAnswer (o : Opened env) (mode : Nat → Mode) (clock : Nat → Int)
    (t : SettlementTable) : Returns (insertAnswer o mode clock t) ↔
      if mode 0 = .served ∧ o.row.fits = true then
        (mode 1 = .served ∧ AcceptsEx env.settledTtl (clock 1)) ∨ mode 2 = .served
      else mode 1 = .served := by
  unfold insertAnswer
  split
  · exact returns_markAnswer ..
  · exact returns_recovery ..

/-- Every outcome is counted. -/
theorem verdict_counted {d : Delivery ι} {o : SettlementOutcome} (h : Verdict env d o) :
    o.settled = true ∨ o.code.isSome = true := by
  cases h with
  | @refused r _ => rw [r.coded]; exact .inr rfl
  | lost marker _ =>
      unfold Phase.lostOutcome
      split <;> exact .inr rfl
  | flawed _ => exact .inr rfl
  | @written o id _ =>
      cases id with
      | none => exact .inr rfl
      | some id => exact .inl rfl
  | internal _ => exact .inr rfl

variable [DecidableEq ι]

/-- What is done with the claim returns when the handler's release succeeds. -/
theorem claimed_returns (a : Admitted env) (mode : Nat → Mode) (clock : Nat → Int)
    (w : World ι) :
    Returns ((Phase.claimed a).exec (fun n => mode (n + 1)) (fun n => clock (n + 1)) w).2 ↔
      Released (Phase.claimed a) mode clock := by
  rcases Phase.claimed_cases a with ⟨o, -, h⟩ | ⟨f, -, h⟩ | ⟨e, -, -, h⟩ <;> rw [h]
  · rw [(exec_inserting _ _ w o).1]
    exact returns_insertAnswer ..
  · rw [(exec_rejecting _ _ w f).1]
    exact returns_releaseAnswer ..
  · rw [(exec_recovering _ _ w a).1]
    exact returns_recovery ..

/-- A claimed packet returns when its awaits are answered. -/
theorem claiming_returns (a : Admitted env) (mode : Nat → Mode) (clock : Nat → Int)
    (w : World ι) :
    Returns ((Phase.claiming a).exec mode clock w).2 ↔
      mode 0 = .served ∧ AcceptsEx env.claimTtl (clock 0) ∧
        if (w.redis a.key).isSome then mode 1 = .served
        else Released (Phase.claimed a) mode clock := by
  obtain ⟨w', ph', ev, hadv, hexec, -⟩ :=
    Phase.exec_advance (.claiming a) trivial mode clock w
  rw [hexec]
  cases hadv with
  | claimWon h0 httl hk =>
      rw [claimed_returns]
      simp [h0, httl, hk]
  | claimLost h0 httl hk =>
      rw [(exec_looking _ _ w a).1]
      have hsome : (w.redis a.key).isSome = true := Option.isSome_iff_ne_none.mpr hk
      by_cases h1 : mode 1 = .served <;> simp [h0, httl, hsome, h1]
  | claimFailed hm _ =>
      rw [Phase.exec_failed]
      exact iff_of_false (not_returns_error _) fun h => hm h.1 h.2.1

/-- A call on a body that parses returns exactly when its awaits are answered. -/
theorem process_returns {d : Delivery ι} {packet : PaymentPacket}
    (hparse : PaymentPacket.modelValidateJson env.pydantic d.body = .ok packet)
    (mode : Nat → Mode) (clock : Nat → Int) (w : World ι) :
    Returns (platform.exec (process env d.body d.now) mode clock w).2 ↔
      Answered env d mode clock w := by
  rw [exec_process]
  rcases Phase.start_cases env d with ⟨r, h⟩ | ⟨a, ha, h⟩ | ⟨e, hraise, -⟩
  · rw [h, (exec_refusing mode clock w r).1]
    refine iff_of_true (returns_ok _) fun a ha => ?_
    exact absurd (h.symm.trans ha.start) (by simp)
  · rw [h, claiming_returns]
    exact ⟨fun hans b hb => hb.unique ha ▸ hans, fun hans => hans a ha⟩
  · exact absurd (hraise.symm.trans hparse) (by simp)

/-- The handler's outcome is retryable. -/
theorem recovering_retryable (a : Admitted env) (mode : Nat → Mode) (clock : Nat → Int)
    (w : World ι) {o : SettlementOutcome}
    (h : ((Phase.recovering a).exec mode clock w).2 = .ok o) : o.retryable = true := by
  rw [(exec_recovering mode clock w a).1] at h
  unfold recovery at h
  split at h <;> cases h
  rfl

/-- **A call that was cut short and returned is retryable.** -/
theorem cut_short_retryable (ph : Phase env) (mode : Nat → Mode) (clock : Nat → Int)
    (w : World ι) : ∀ o, (ph.exec mode clock w).2 = .ok o →
      (∃ ev ∈ ph.trace mode clock w, CutShort ev) → o.retryable = true := by
  refine Phase.exec_induction
    (P := fun ph mode clock w => ∀ o, (ph.exec mode clock w).2 = .ok o →
      (∃ ev ∈ ph.trace mode clock w, CutShort ev) → o.retryable = true) ?_ ?_ ?_ ph mode clock w
  · rintro o mode clock w o' - ⟨ev, hev, -⟩
    cases hev
  · rintro e mode clock w o - ⟨ev, hev, -⟩
    cases hev
  · rintro ph mode clock w w' ph' ev hadv hexec htrace ih o ho ⟨ev', hev', hcut⟩
    rw [hexec] at ho
    rw [htrace] at hev'
    rcases List.mem_cons.mp hev' with rfl | hlater
    · -- the first operation was cut short: the call fails, or the handler reports it
      cases hadv with
      | releaseFailed => exact recovering_retryable _ _ _ _ ho
      | insertFailed => exact recovering_retryable _ _ _ _ ho
      | markFailed => exact recovering_retryable _ _ _ _ ho
      | claimFailed => cases ho
      | lookFailed => cases ho
      | recoverFailed => cases ho
      | _ => exact absurd hcut id
    · exact ih o ho ⟨ev', hlater, hcut⟩

/-- **Failures are contained** exactly when the claim and the handler's release
are answered. -/
theorem contained_iff {d : Delivery ι}
    (hparse : ∃ packet, PaymentPacket.modelValidateJson env.pydantic d.body = .ok packet)
    (mode : Nat → Mode) (clock : Nat → Int) (w : World ι) :
    Contains env d w (processTrace env d mode clock w) (processAlone env d mode clock w) ↔
      Answered env d mode clock w := by
  obtain ⟨packet, hparse⟩ := hparse
  have hmetrics := exec_metrics (process env d.body d.now) mode clock w
  rw [← process_returns hparse mode clock w]
  constructor
  · rintro ⟨⟨o, ho⟩, -, -, -⟩
    exact ⟨o, processAlone_snd env d mode clock w ▸ ho⟩
  · rintro ⟨o, ho⟩
    have hverdict : Verdict env d o := by
      rw [exec_process] at ho
      exact Phase.exec_verdict _ mode clock w (Phase.start_for d) o ho
    have halone : processAlone env d mode clock w =
        ((platform.exec (process env d.body d.now) mode clock w).1.recordOutcome d o, .ok o) := by
      unfold processAlone
      dsimp only
      rw [ho]
    rw [halone]
    refine ⟨⟨o, rfl⟩, ?_, ?_, ?_⟩
    · simp only [World.recordOutcome, Function.update_self, hmetrics]
      exact SettlementMetrics.record_total _ o (verdict_counted hverdict)
    · intro i hi
      simp [World.recordOutcome, hi, hmetrics]
    · intro o' ho' hcut
      cases ho'
      rw [exec_process] at ho
      rw [Phase.trace_process] at hcut
      exact cut_short_retryable _ mode clock w o ho hcut

/-- The reference payment, with every operation served. -/
theorem contained_payment :
    Contains Reference.onePayment Reference.delivery World.empty
      (processTrace Reference.onePayment Reference.delivery (fun _ => .served)
        (fun _ => Reference.instant.micros) World.empty)
      (processAlone Reference.onePayment Reference.delivery (fun _ => .served)
        (fun _ => Reference.instant.micros) World.empty) := by
  have hparse : ∃ packet, PaymentPacket.modelValidateJson Reference.onePayment.pydantic
      Reference.delivery.body = .ok packet := ⟨Reference.payment, Reference.admitted.parsed⟩
  refine (contained_iff hparse _ _ _).mpr fun a ha => ?_
  rw [ha.unique Reference.admitted_for]
  refine ⟨rfl, Reference.acceptsEx_claim, ?_⟩
  rw [if_neg (by simp [World.empty]), show Phase.claimed Reference.admitted =
    .inserting Reference.opened from Opened.claimed Reference.opened]
  rw [Released, if_pos ⟨rfl, Reference.fits_row⟩]
  exact .inl ⟨rfl, Reference.acceptsEx_settled⟩

/-- **A refused claim is not contained**: the exception leaves the call. -/
theorem refused_claim_escapes :
    PaymentPacket.modelValidateJson Reference.onePayment.pydantic Reference.delivery.body =
      .ok Reference.payment ∧
    ¬ Contains Reference.onePayment Reference.delivery World.empty
      (processTrace Reference.onePayment Reference.delivery (fun _ => .refused)
        (fun _ => Reference.instant.micros) World.empty)
      (processAlone Reference.onePayment Reference.delivery (fun _ => .refused)
        (fun _ => Reference.instant.micros) World.empty) := by
  have hparse : PaymentPacket.modelValidateJson Reference.onePayment.pydantic
      Reference.delivery.body = .ok Reference.payment := Reference.admitted.parsed
  refine ⟨hparse, fun h => ?_⟩
  have hreturns : Returns (platform.exec (process Reference.onePayment Reference.delivery.body
      Reference.delivery.now) (fun _ => .refused) (fun _ => Reference.instant.micros)
      (World.empty : World Unit)).2 := by
    rw [← processAlone_snd]
    exact h.returns
  have hanswered := (process_returns hparse _ _ _).mp hreturns
  exact absurd (hanswered Reference.admitted Reference.admitted_for).1 (by decide)

end MeshSettle.Theorems.Contained
