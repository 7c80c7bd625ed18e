import MeshSettle.Settlement.Advance

/-!
# A call on its own

`processAlone` is one call of `SettlementProcessor.process` with every await
answered in turn: `mode n` says how the `n`th operation is treated. The
equations `exec_*` give, phase by phase, what the call returns and which rows
it leaves; they are the whole case analysis over failure points, done once.
-/

namespace MeshSettle

open Lib.Await Lib.Interleave

variable {ι : Type} [DecidableEq ι] {env : Env}

/-- `SettlementProcessor.process` with its bookkeeping: the outcome is counted
before it is returned. -/
def processAlone (env : Env) (d : Delivery ι) (mode : Nat → Mode) (clock : Nat → Int)
    (w : World ι) : World ι × Except Exc SettlementOutcome :=
  let r := platform.exec (process env d.body d.now) mode clock w
  match r.2 with
  | .ok outcome => (r.1.recordOutcome d outcome, .ok outcome)
  | .error e => (r.1, .error e)

theorem processAlone_fst (env : Env) (d : Delivery ι) (mode : Nat → Mode) (clock : Nat → Int)
    (w : World ι) : (processAlone env d mode clock w).1.settlements =
      (platform.exec (process env d.body d.now) mode clock w).1.settlements := by
  unfold processAlone
  dsimp only
  split <;> rfl

theorem processAlone_snd (env : Env) (d : Delivery ι) (mode : Nat → Mode) (clock : Nat → Int)
    (w : World ι) : (processAlone env d mode clock w).2 =
      (platform.exec (process env d.body d.now) mode clock w).2 := by
  unfold processAlone
  dsimp only
  split <;> simp_all

/-- The operations of that call, with what they were answered. -/
def processTrace (env : Env) (d : Delivery ι) (mode : Nat → Mode) (clock : Nat → Int)
    (w : World ι) : List IoEvent :=
  platform.trace (process env d.body d.now) mode clock w

theorem answer_metrics (mode : Mode) (op : Op) (clock : Int) (w : World ι) :
    (platform.answer mode op clock w).1.metrics = w.metrics := by
  have hperform : (perform op clock w).1.metrics = w.metrics := by
    cases op with
    | insertRejection row =>
        unfold perform
        dsimp only
        split <;> rfl
    | _ => rfl
  cases mode with
  | refused => rfl
  | _ => exact hperform

/-- The awaits of a call do not touch the counters. -/
theorem exec_metrics (p : Prog Op Resp Exc SettlementOutcome) (mode : Nat → Mode)
    (clock : Nat → Int) (w : World ι) : (platform.exec p mode clock w).1.metrics = w.metrics := by
  induction p generalizing mode clock w with
  | ret o => rfl
  | raise e => rfl
  | await op k ih => exact (ih _ _ _ _).trans (answer_metrics _ _ _ _)

namespace Phase

/-- The rest of a call on its own. -/
def exec (ph : Phase env) (mode : Nat → Mode) (clock : Nat → Int) (w : World ι) :
    World ι × Except Exc SettlementOutcome :=
  platform.exec ph.prog mode clock w

end Phase

theorem exec_process (d : Delivery ι) (mode : Nat → Mode) (clock : Nat → Int) (w : World ι) :
    platform.exec (process env d.body d.now) mode clock w =
      (Phase.start env d.body d.now).exec mode clock w := by
  rw [Phase.exec, Phase.start_prog]

namespace Phase

/-- The operations of the rest of a call. -/
def trace (ph : Phase env) (mode : Nat → Mode) (clock : Nat → Int) (w : World ι) :
    List IoEvent :=
  platform.trace ph.prog mode clock w

theorem trace_process (d : Delivery ι) (mode : Nat → Mode) (clock : Nat → Int) (w : World ι) :
    processTrace env d mode clock w = (Phase.start env d.body d.now).trace mode clock w := by
  rw [processTrace, trace, start_prog]

/-- A phase that has a pending operation. -/
def Live : Phase env → Prop
  | .ended _ => False
  | .failed _ => False
  | _ => True

/-- The coroutine of a live phase. -/
theorem prog_eq_await {ph : Phase env} {op : Op} {k : Except Exc (Resp op) → Phase env}
    (h : ph.view = .await op k) : ph.prog = .await op fun r => (k r).prog := by
  have hprog := prog_view ph
  rw [h] at hprog
  cases hp : ph.prog with
  | ret o => rw [hp] at hprog; cases hprog
  | raise e => rw [hp] at hprog; cases hprog
  | await op' k' => rw [hp] at hprog; cases hprog; rfl

theorem live_view {ph : Phase env} (hlive : ph.Live) : ∃ op k, ph.view = .await op k := by
  cases ph <;> first | exact absurd hlive id | exact ⟨_, _, rfl⟩

section Answers

variable {ph : Phase env} {op : Op} {k : Except Exc (Resp op) → Phase env} {mode : Nat → Mode}
  {clock : Nat → Int} {w w' : World ι} {r : Except Exc (Resp op)}

/-- What the answer to the pending operation leads to. -/
theorem exec_answer (hview : ph.view = .await op k)
    (hanswer : platform.answer (mode 0) op (clock 0) w = (w', r)) :
    ph.exec mode clock w = (k r).exec (fun n => mode (n + 1)) (fun n => clock (n + 1)) w' := by
  unfold exec
  rw [prog_eq_await hview, Lib.Interleave.Platform.exec, hanswer]

theorem trace_answer (hview : ph.view = .await op k)
    (hanswer : platform.answer (mode 0) op (clock 0) w = (w', r)) :
    ph.trace mode clock w =
      ⟨op, r⟩ :: (k r).trace (fun n => mode (n + 1)) (fun n => clock (n + 1)) w' := by
  unfold trace
  rw [prog_eq_await hview, Lib.Interleave.Platform.trace, hanswer]

end Answers

/-- A call on its own advances, operation by operation. -/
theorem exec_advance (ph : Phase env) (hlive : ph.Live) (mode : Nat → Mode) (clock : Nat → Int)
    (w : World ι) : ∃ w' ph' ev, Advance env (mode 0) (clock 0) w ph w' ph' ev ∧
      ph.exec mode clock w = ph'.exec (fun n => mode (n + 1)) (fun n => clock (n + 1)) w' ∧
      ph.trace mode clock w =
        ev :: ph'.trace (fun n => mode (n + 1)) (fun n => clock (n + 1)) w' := by
  obtain ⟨op, k, hview⟩ := live_view hlive
  exact ⟨_, _, _, advance_of_answer hview (mode 0) (clock 0) w, exec_answer hview rfl,
    trace_answer hview rfl⟩

/-- Induction along a call on its own, from its end, by the answers to its
operations. -/
theorem answer_induction {P : Phase env → (Nat → Mode) → (Nat → Int) → World ι → Prop}
    (hended : ∀ o mode clock w, P (.ended o) mode clock w)
    (hfailed : ∀ e mode clock w, P (.failed e) mode clock w)
    (hstep : ∀ ph op k mode clock w w' r, ph.view = .await op k →
      platform.answer (mode 0) op (clock 0) w = (w', r) →
      P (k r) (fun n => mode (n + 1)) (fun n => clock (n + 1)) w' → P ph mode clock w)
    (ph : Phase env) (mode : Nat → Mode) (clock : Nat → Int) (w : World ι) :
    P ph mode clock w := by
  have hlive : ∀ (p : Io SettlementOutcome) (ph : Phase env), ph.prog = p → ∀ mode clock w,
      P ph mode clock w := by
    intro p
    induction p with
    | ret o =>
        intro ph hp mode clock w
        by_cases h : ph.Live
        · obtain ⟨op, k, hview⟩ := live_view h
          rw [prog_eq_await hview] at hp
          cases hp
        · cases ph <;> first | exact absurd trivial h | exact hended .. | exact hfailed ..
    | raise e =>
        intro ph hp mode clock w
        by_cases h : ph.Live
        · obtain ⟨op, k, hview⟩ := live_view h
          rw [prog_eq_await hview] at hp
          cases hp
        · cases ph <;> first | exact absurd trivial h | exact hended .. | exact hfailed ..
    | await op k ih =>
        intro ph hp mode clock w
        by_cases h : ph.Live
        · obtain ⟨op', k', hview⟩ := live_view h
          have hprog := prog_eq_await hview
          rw [hprog] at hp
          cases hp
          exact hstep ph _ _ mode clock w _ _ hview rfl (ih _ _ rfl _ _ _)
        · cases ph <;> first | exact absurd trivial h | exact hended .. | exact hfailed ..
  exact hlive ph.prog ph rfl mode clock w

/-- Induction along a call on its own, from its end. -/
theorem exec_induction {P : Phase env → (Nat → Mode) → (Nat → Int) → World ι → Prop}
    (hended : ∀ o mode clock w, P (.ended o) mode clock w)
    (hfailed : ∀ e mode clock w, P (.failed e) mode clock w)
    (hstep : ∀ ph mode clock w w' ph' ev, Advance env (mode 0) (clock 0) w ph w' ph' ev →
      ph.exec mode clock w = ph'.exec (fun n => mode (n + 1)) (fun n => clock (n + 1)) w' →
      ph.trace mode clock w =
        ev :: ph'.trace (fun n => mode (n + 1)) (fun n => clock (n + 1)) w' →
      P ph' (fun n => mode (n + 1)) (fun n => clock (n + 1)) w' → P ph mode clock w)
    (ph : Phase env) (mode : Nat → Mode) (clock : Nat → Int) (w : World ι) :
    P ph mode clock w := by
  refine answer_induction hended hfailed ?_ ph mode clock w
  intro ph op k mode clock w w' r hview hanswer ih
  have hadv := advance_of_answer hview (mode 0) (clock 0) w
  rw [hanswer] at hadv
  exact hstep ph mode clock w _ _ _ hadv (exec_answer hview hanswer) (trace_answer hview hanswer) ih

@[simp] theorem exec_ended (o : SettlementOutcome) (mode : Nat → Mode) (clock : Nat → Int)
    (w : World ι) : (ended o : Phase env).exec mode clock w = (w, .ok o) := rfl

@[simp] theorem exec_failed (e : Exc) (mode : Nat → Mode) (clock : Nat → Int)
    (w : World ι) : (failed e : Phase env).exec mode clock w = (w, .error e) := rfl

/-- A call on its own returns a verdict on its delivery. -/
theorem exec_verdict {d : Delivery ι} (ph : Phase env) (mode : Nat → Mode) (clock : Nat → Int)
    (w : World ι) : ph.For d → ∀ o, (ph.exec mode clock w).2 = .ok o → Verdict env d o := by
  refine exec_induction
    (P := fun ph mode clock w => ph.For d → ∀ o, (ph.exec mode clock w).2 = .ok o →
      Verdict env d o) ?_ ?_ ?_ ph mode clock w
  · intro o mode clock w hfor o' ho
    cases ho
    exact hfor
  · intro e mode clock w _ o ho
    cases ho
  · intro ph mode clock w w' ph' ev hadv hexec _ ih hfor o ho
    rw [hexec] at ho
    exact ih (hadv.for hfor) o ho

end Phase

/-! ## What each phase returns -/

/-- The handler's answer: the internal error, if its release succeeds. -/
def recovery (a : Admitted env) (mode : Mode) : Except Exc SettlementOutcome :=
  if mode = .served then .ok (internalError env a.packet) else .error .infrastructure

/-- The answer when the marker is to be written. -/
def markAnswer (o : Opened env) (id : Option Nat) (mode : Nat → Mode) (clock : Nat → Int) :
    Except Exc SettlementOutcome :=
  if mode 0 = .served ∧ AcceptsEx env.settledTtl (clock 0) then .ok (o.outcome id)
  else recovery o.toAdmitted (mode 1)

/-- The answer when the claim is to be released after a rejection. -/
def releaseAnswer (f : Flawed env) (mode : Nat → Mode) : Except Exc SettlementOutcome :=
  if mode 0 = .served then .ok f.outcome else recovery f.toAdmitted (mode 1)

/-- The answer when the row is to be inserted. -/
def insertAnswer (o : Opened env) (mode : Nat → Mode) (clock : Nat → Int) (t : SettlementTable) :
    Except Exc SettlementOutcome :=
  if mode 0 = .served ∧ o.row.fits = true then
    markAnswer o (if t.Accepts o.row then some t.nextId else none) (fun n => mode (n + 1))
      fun n => clock (n + 1)
  else recovery o.toAdmitted (mode 1)

section Answers

variable (mode : Nat → Mode) (clock : Nat → Int) (w : World ι)

theorem exec_recovering (a : Admitted env) :
    ((Phase.recovering a).exec mode clock w).2 = recovery a (mode 0) ∧
    ((Phase.recovering a).exec mode clock w).1.settlements.rows = w.settlements.rows := by
  obtain ⟨w', ph', ev, hadv, hexec, -⟩ :=
    Phase.exec_advance (.recovering a) trivial mode clock w
  rw [hexec]
  cases hadv with
  | recovered hm => simp [recovery, hm]
  | recoverFailed hm hw => rcases hw with rfl | rfl <;> simp [recovery, hm]

theorem exec_marking (o : Opened env) (id : Option Nat) :
    ((Phase.marking o id).exec mode clock w).2 = markAnswer o id mode clock ∧
    ((Phase.marking o id).exec mode clock w).1.settlements.rows = w.settlements.rows := by
  obtain ⟨w', ph', ev, hadv, hexec, -⟩ :=
    Phase.exec_advance (.marking o id) trivial mode clock w
  rw [hexec]
  cases hadv with
  | marked hm hex => simp [markAnswer, hm, hex]
  | markFailed hm hw =>
      have hnot : ¬ (mode 0 = .served ∧ AcceptsEx env.settledTtl (clock 0)) := fun h => hm h.1 h.2
      obtain ⟨h2, h1⟩ := exec_recovering (fun n => mode (n + 1)) (fun n => clock (n + 1)) w'
        o.toAdmitted
      rw [h2, h1]
      refine ⟨by simp [markAnswer, hnot], ?_⟩
      rcases hw with rfl | rfl <;> rfl

theorem exec_releasing (f : Flawed env) :
    ((Phase.releasing f).exec mode clock w).2 = releaseAnswer f mode ∧
    ((Phase.releasing f).exec mode clock w).1.settlements.rows = w.settlements.rows := by
  obtain ⟨w', ph', ev, hadv, hexec, -⟩ :=
    Phase.exec_advance (.releasing f) trivial mode clock w
  rw [hexec]
  cases hadv with
  | released hm => simp [releaseAnswer, hm]
  | releaseFailed hm hw =>
      obtain ⟨h2, h1⟩ := exec_recovering (fun n => mode (n + 1)) (fun n => clock (n + 1)) w'
        f.toAdmitted
      rw [h2, h1]
      refine ⟨by simp [releaseAnswer, hm], ?_⟩
      rcases hw with rfl | rfl <;> rfl

theorem exec_rejecting (f : Flawed env) :
    ((Phase.rejecting f).exec mode clock w).2 = releaseAnswer f (fun n => mode (n + 1)) ∧
    ((Phase.rejecting f).exec mode clock w).1.settlements.rows = w.settlements.rows := by
  obtain ⟨w', ph', ev, hadv, hexec, -⟩ :=
    Phase.exec_advance (.rejecting f) trivial mode clock w
  rw [hexec]
  cases hadv with
  | noted hw =>
      obtain ⟨rows, rfl⟩ := hw
      exact exec_releasing _ _ _ f

theorem exec_refusing (r : Refusal) :
    ((Phase.refusing r : Phase env).exec mode clock w).2 = .ok r.outcome ∧
    w.Noted ((Phase.refusing r : Phase env).exec mode clock w).1 := by
  obtain ⟨w', ph', ev, hadv, hexec, -⟩ :=
    Phase.exec_advance (.refusing r : Phase env) trivial mode clock w
  rw [hexec]
  cases hadv with
  | refused hw => exact ⟨rfl, hw⟩

theorem exec_looking (a : Admitted env) :
    ((Phase.looking a).exec mode clock w).2 =
      (if mode 0 = .served then .ok (Phase.lostOutcome a (w.redis.marker a.key))
        else .error .infrastructure) ∧
    ((Phase.looking a).exec mode clock w).1 = w := by
  obtain ⟨w', ph', ev, hadv, hexec, -⟩ :=
    Phase.exec_advance (.looking a) trivial mode clock w
  rw [hexec]
  cases hadv with
  | found hm => simp [hm]
  | lookFailed hm => simp [hm]

/-- The insert takes effect: it is not refused by the environment, by a column
or by a constraint. -/
def Lands (o : Opened env) (mode : Mode) (t : SettlementTable) : Prop :=
  mode ≠ .refused ∧ o.row.fits = true ∧ t.Accepts o.row

theorem exec_inserting (o : Opened env) :
    ((Phase.inserting o).exec mode clock w).2 = insertAnswer o mode clock w.settlements ∧
    (((Phase.inserting o).exec mode clock w).1.settlements.rows = w.settlements.rows ∨
      Lands o (mode 0) w.settlements) ∧
    (Lands o (mode 0) w.settlements →
      ((Phase.inserting o).exec mode clock w).1.settlements.rows.length =
        w.settlements.rows.length + 1) := by
  obtain ⟨w', ph', ev, hadv, hexec, -⟩ :=
    Phase.exec_advance (.inserting o) trivial mode clock w
  rw [hexec]
  cases hadv with
  | inserted hacc hm hf =>
      obtain ⟨h2, h1⟩ := exec_marking (fun n => mode (n + 1)) (fun n => clock (n + 1))
        (w.commit o.row (clock 0) hacc) o (some w.settlements.nextId)
      rw [h2, h1]
      refine ⟨by simp [insertAnswer, hm, hf, hacc], .inr ⟨by simp [hm], hf, hacc⟩, fun _ => ?_⟩
      simp
  | duplicate hm hf hacc =>
      obtain ⟨h2, h1⟩ := exec_marking (fun n => mode (n + 1)) (fun n => clock (n + 1))
        w.skipId o none
      rw [h2, h1]
      exact ⟨by simp [insertAnswer, hm, hf, hacc], .inl rfl, fun h => absurd h.2.2 hacc⟩
  | insertFailed he hm hw =>
      obtain ⟨h2, h1⟩ := exec_recovering (fun n => mode (n + 1)) (fun n => clock (n + 1)) w'
        o.toAdmitted
      rw [h2, h1]
      have hnot : ¬ (mode 0 = .served ∧ o.row.fits = true) := by
        rintro ⟨h0, hf⟩
        rw [hm h0] at hf
        cases hf
      refine ⟨by simp [insertAnswer, hnot], ?_, ?_⟩
      · rcases hw with ⟨rfl | rfl, -⟩ | ⟨hlost, hf, hacc, -⟩
        · exact .inl rfl
        · exact .inl rfl
        · exact .inr ⟨by simp [hlost], hf, hacc⟩
      · rintro ⟨hmode, hf, hacc⟩
        rcases hw with ⟨-, hlost⟩ | ⟨-, -, hacc', rfl⟩
        · -- the insert would land, so it can only have lost its reply
          have h0 : mode 0 = .lost := by
            cases h : mode 0 with
            | served => exact absurd ⟨h, hf⟩ hnot
            | refused => exact absurd h hmode
            | lost => rfl
          exact absurd ⟨hf, hacc⟩ (hlost h0)
        · simp

end Answers

/-! ## A call in which nothing fails -/

omit [DecidableEq ι] in
/-- A served operation is not cut short, if Redis takes the lifetimes and the row
fits. -/
theorem Advance.uncut {clock : Int} {w w' : World ι} {ph ph' : Phase env} {ev : IoEvent}
    {d : Delivery ι} (h : Advance env .served clock w ph w' ph' ev) (hfor : ph.For d)
    (hclaim : AcceptsEx env.claimTtl clock) (hsettled : AcceptsEx env.settledTtl clock)
    (hfits : ∀ o : Opened env, o.toAdmitted.For d → o.row.fits = true) : ¬ CutShort ev := by
  cases h with
  | claimFailed hmode => exact absurd hclaim (hmode rfl)
  | markFailed hmode => exact absurd hsettled (hmode rfl)
  | lookFailed hmode => exact absurd rfl hmode
  | releaseFailed hmode => exact absurd rfl hmode
  | recoverFailed hmode => exact absurd rfl hmode
  | insertFailed _ hmode => cases (hfits _ hfor).symm.trans (hmode rfl)
  | _ => exact id

/-- So nothing of a call is cut short that is served throughout. -/
theorem Phase.trace_uncut {d : Delivery ι}
    (hfits : ∀ o : Opened env, o.toAdmitted.For d → o.row.fits = true) (ph : Phase env)
    (mode : Nat → Mode) (clock : Nat → Int) (w : World ι) :
    ph.For d → (∀ n, mode n = .served) → (∀ n, AcceptsEx env.claimTtl (clock n)) →
      (∀ n, AcceptsEx env.settledTtl (clock n)) → ∀ ev ∈ ph.trace mode clock w, ¬ CutShort ev := by
  refine Phase.exec_induction (P := fun ph mode clock w => ph.For d → (∀ n, mode n = .served) →
    (∀ n, AcceptsEx env.claimTtl (clock n)) → (∀ n, AcceptsEx env.settledTtl (clock n)) →
    ∀ ev ∈ ph.trace mode clock w, ¬ CutShort ev) ?_ ?_ ?_ ph mode clock w
  · intro o mode clock w _ _ _ _ ev hev
    cases hev
  · intro e mode clock w _ _ _ _ ev hev
    cases hev
  · intro ph mode clock w w' ph' ev hadv _ htrace ih hfor hmode hclaim hsettled
    rw [htrace]
    rw [hmode 0] at hadv
    intro ev' hev'
    rcases List.mem_cons.mp hev' with rfl | hlater
    · exact hadv.uncut hfor (hclaim 0) (hsettled 0) hfits
    · exact ih (hadv.for hfor) (fun n => hmode (n + 1)) (fun n => hclaim (n + 1))
        (fun n => hsettled (n + 1)) ev' hlater

/-- From its insert on, an opened packet whose row the constraints admit is
settled. -/
theorem exec_inserts {o : Opened env} (clock : Nat → Int)
    (hsettled : AcceptsEx env.settledTtl (clock 1)) {w : World ι} (hfits : o.row.fits = true)
    (hacc : w.settlements.Accepts o.row) :
    (Phase.inserting o).exec (fun _ => .served) clock w =
      ((w.commit o.row (clock 0) hacc).mark o.key .settled env.settledTtl (clock 1),
        .ok (settledOutcome env o.packet w.settlements.nextId)) := by
  rw [Phase.exec_answer rfl (perform_insert (clock 0) hfits hacc)]
  dsimp only
  rw [Phase.exec_answer rfl (perform_set _ o.key .settled (clock 1) hsettled)]
  rfl

/-- **A call in which nothing fails settles** an opened packet on a free key
whose row the constraints admit. -/
theorem exec_settles {o : Opened env} {clock : Nat → Int}
    (hclaim : AcceptsEx env.claimTtl (clock 0)) (hsettled : AcceptsEx env.settledTtl (clock 2))
    {w : World ι} (hfree : w.redis o.key = none) (hfits : o.row.fits = true)
    (hacc : w.settlements.Accepts o.row) :
    (Phase.claiming o.toAdmitted).exec (fun _ => .served) clock w =
      (((w.mark o.key .claimed env.claimTtl (clock 0)).commit o.row (clock 1) hacc).mark o.key
        .settled env.settledTtl (clock 2),
        .ok (settledOutcome env o.packet w.settlements.nextId)) := by
  rw [Phase.exec_answer rfl (perform_setNx_free .claimed (clock 0) hclaim hfree)]
  simp only [if_true, o.claimed]
  have hmarked : (w.mark o.key .claimed env.claimTtl (clock 0)).settlements.Accepts o.row := hacc
  rw [exec_inserts (fun n => clock (n + 1)) hsettled hfits hmarked]
  rfl

/-- A call in which nothing fails is refused on a taken key, and leaves everything
as it is. -/
theorem exec_lost {a : Admitted env} (clock : Nat → Int)
    (hclaim : AcceptsEx env.claimTtl (clock 0)) {w : World ι} {m : Marker}
    (hmarker : w.redis.marker a.key = some m) :
    (Phase.claiming a).exec (fun _ => .served) clock w =
      (w, .ok (Phase.lostOutcome a (some m))) := by
  have htaken : w.redis a.key ≠ none := by
    intro hnone
    rw [Redis.marker, hnone] at hmarker
    cases hmarker
  have hfound : platform.answer .served (.get a.key) (clock 1) w = (w, .ok (some m)) :=
    congrArg (fun m => (w, Except.ok m)) hmarker
  rw [Phase.exec_answer rfl (perform_setNx_taken .claimed (clock 0) hclaim htaken)]
  dsimp only
  rw [if_neg Bool.false_ne_true, Phase.exec_answer rfl hfound]
  rfl

end MeshSettle
