import MeshSettle.Settlement.Alone
import MeshSettle.Settlement.Processors
import MeshSettle.Settlement.Reference
import MeshSettle.Settlement.Serving
import Mathlib.Algebra.BigOperators.Group.Finset.Piecewise

/-!
# Outcomes and the rows behind them

A call reports SETTLED exactly when it committed its row, unless the marker
write that follows the commit fails or the commit's own reply is lost: both
sit inside the `try` whose handler reports an internal error, so the row is
there and the outcome says that nothing was settled.

`outcome_truthful_iff` is the exact condition for one call, `counters_agree`
the sum over a whole run.
-/

namespace MeshSettle.Theorems.Truthful

open Lib.Await Lib.Interleave Lib.Transition

variable {ι : Type} {env : Env}

/-- The call's insert takes effect: the packet passes every check, wins the
claim, opens, and its row lands in the table. -/
def Commits (env : Env) (d : Delivery ι) (mode : Nat → Mode) (clock : Nat → Int) (w : World ι) :
    Prop :=
  ∃ o : Opened env, o.toAdmitted.For d ∧ mode 0 = .served ∧
    AcceptsEx env.claimTtl (clock 0) ∧ w.redis o.key = none ∧ Lands o (mode 1) w.settlements

/-- The commit is answered and the marker write after it succeeds. -/
def Confirmed (env : Env) (mode : Nat → Mode) (clock : Nat → Int) : Prop :=
  mode 1 = .served ∧ mode 2 = .served ∧ AcceptsEx env.settledTtl (clock 2)

/-- The outcome tells the truth about the table, and the counter keeps up with
it. -/
structure TellsTruth (d : Delivery ι) (w : World ι)
    (r : World ι × Except Exc SettlementOutcome) : Prop where
  outcome : ∀ o, r.2 = .ok o →
    (o.status = .settled ↔ r.1.settlements.rows.length = w.settlements.rows.length + 1) ∧
    (o.status ≠ .settled ↔ r.1.settlements.rows = w.settlements.rows)
  counter : (r.1.metrics d.processor).settled + w.settlements.rows.length =
    (w.metrics d.processor).settled + r.1.settlements.rows.length

/-- The call returns SETTLED. -/
def SaysSettled (r : Except Exc SettlementOutcome) : Prop := ∃ o, r = .ok o ∧ o.status = .settled

theorem raised_not_settled (e : Exc) : ¬ SaysSettled (.error e) := by
  rintro ⟨o, ho, -⟩
  cases ho

theorem recovery_not_settled (a : Admitted env) (mode : Mode) :
    ¬ SaysSettled (recovery a mode) := by
  rintro ⟨o, ho, hs⟩
  unfold recovery at ho
  split at ho <;> cases ho
  cases hs

theorem releaseAnswer_not_settled (f : Flawed env) (mode : Nat → Mode) :
    ¬ SaysSettled (releaseAnswer f mode) := by
  unfold releaseAnswer
  split
  · rintro ⟨o, ho, hs⟩
    cases ho
    cases hs
  · exact recovery_not_settled _ _

theorem markAnswer_settled (o : Opened env) (id : Option Nat) (mode : Nat → Mode)
    (clock : Nat → Int) : SaysSettled (markAnswer o id mode clock) ↔
      id.isSome = true ∧ mode 0 = .served ∧ AcceptsEx env.settledTtl (clock 0) := by
  unfold markAnswer
  split
  · next h =>
      simp only [h, and_self, and_true]
      cases id with
      | none =>
          refine ⟨?_, fun h => nomatch h⟩
          rintro ⟨o', ho, hs⟩
          cases ho
          cases hs
      | some id => exact ⟨fun _ => rfl, fun _ => ⟨_, rfl, rfl⟩⟩
  · next h =>
      exact ⟨fun hs => absurd hs (recovery_not_settled _ _), fun hs => absurd hs.2 h⟩

theorem insertAnswer_settled (o : Opened env) (mode : Nat → Mode) (clock : Nat → Int)
    (t : SettlementTable) : SaysSettled (insertAnswer o mode clock t) ↔
      Lands o (mode 0) t ∧ mode 0 = .served ∧ mode 1 = .served ∧
        AcceptsEx env.settledTtl (clock 1) := by
  unfold insertAnswer Lands
  split
  · next h =>
      rw [markAnswer_settled]
      simp only [h, ne_eq, reduceCtorEq, not_false_eq_true, true_and]
      split <;> simp_all
  · next h =>
      refine ⟨fun hs => absurd hs (recovery_not_settled _ _), fun hs => ?_⟩
      exact absurd ⟨hs.2.1, hs.1.2.1⟩ h

/-- The packet of the delivery is the one that commits. -/
theorem Commits.claimed {d : Delivery ι} {mode : Nat → Mode} {clock : Nat → Int} {w : World ι}
    {a : Admitted env} (h : Commits env d mode clock w) (ha : a.For d) :
    ∃ o : Opened env, Phase.claimed a = .inserting o ∧ mode 0 = .served ∧
      AcceptsEx env.claimTtl (clock 0) ∧ w.redis a.key = none ∧ Lands o (mode 1) w.settlements := by
  obtain ⟨o, ho, h0, httl, hfree, hl⟩ := h
  obtain rfl := ho.unique ha
  exact ⟨o, o.claimed, h0, httl, hfree, hl⟩

/-- A delivery that starts without a claim commits nothing. -/
theorem not_commits_of_start {d : Delivery ι} {mode : Nat → Mode} {clock : Nat → Int} {w : World ι}
    {ph : Phase env}
    (hstart : Phase.start env d.body d.now = ph) (hph : ∀ a, ph ≠ .claiming a) :
    ¬ Commits env d mode clock w := by
  rintro ⟨o, ho, -⟩
  exact hph _ (hstart.symm.trans ho.start)

/-- What a call does to the table, and when it says so. -/
structure Settles (env : Env) (d : Delivery ι) (mode : Nat → Mode) (clock : Nat → Int)
    (w : World ι) (r : World ι × Except Exc SettlementOutcome) : Prop where
  grows : Commits env d mode clock w → r.1.settlements.rows.length = w.settlements.rows.length + 1
  keeps : ¬ Commits env d mode clock w → r.1.settlements.rows = w.settlements.rows
  settled_iff : SaysSettled r.2 ↔ Commits env d mode clock w ∧ Confirmed env mode clock

/-- A call that does not commit, leaves the rows and does not say settled. -/
theorem Settles.quiet {d : Delivery ι} {mode : Nat → Mode} {clock : Nat → Int} {w : World ι}
    {r : World ι × Except Exc SettlementOutcome} (hc : ¬ Commits env d mode clock w)
    (hrows : r.1.settlements.rows = w.settlements.rows) (hs : ¬ SaysSettled r.2) :
    Settles env d mode clock w r :=
  ⟨fun h => absurd h hc, fun _ => hrows, fun h => absurd h hs, fun h => absurd h.1 hc⟩

variable [DecidableEq ι]

/-- Under the claim: the packet that opens is inserted, and the others commit
nothing. -/
theorem claimed_settles {d : Delivery ι} {a : Admitted env} (ha : a.For d) {mode : Nat → Mode}
    {clock : Nat → Int} {w : World ι} (h0 : mode 0 = .served)
    (httl : AcceptsEx env.claimTtl (clock 0)) (hfree : w.redis a.key = none) :
    Settles env d mode clock w ((Phase.claimed a).exec (fun n => mode (n + 1))
      (fun n => clock (n + 1)) (w.mark a.key .claimed env.claimTtl (clock 0))) := by
  have hcommits : Commits env d mode clock w →
      ∃ o, Phase.claimed a = .inserting o ∧ Lands o (mode 1) w.settlements := fun h => by
    obtain ⟨o, ho, -, -, -, hl⟩ := h.claimed ha
    exact ⟨o, ho, hl⟩
  generalize hmarked : w.mark a.key .claimed env.claimTtl (clock 0) = w1
  have htable : w1.settlements = w.settlements := by rw [← hmarked]; rfl
  rcases Phase.claimed_cases a with ⟨o, rfl, h⟩ | ⟨f, rfl, h⟩ | ⟨e, -, -, h⟩
  · obtain ⟨hans, hkeep, hgrow⟩ :=
      exec_inserting (fun n => mode (n + 1)) (fun n => clock (n + 1)) w1 o
    rw [htable] at hans hkeep hgrow
    have hiff : Commits env d mode clock w ↔ Lands o (mode 1) w.settlements := by
      constructor
      · intro hc
        obtain ⟨o', ho', hl⟩ := hcommits hc
        rw [h] at ho'
        cases ho'
        exact hl
      · exact fun hl => ⟨o, ha, h0, httl, hfree, hl⟩
    rw [h]
    refine ⟨fun hc => hgrow (hiff.mp hc), fun hc => ?_, ?_⟩
    · exact hkeep.resolve_right fun hl => hc (hiff.mpr hl)
    · rw [hans, insertAnswer_settled, hiff]
      exact Iff.rfl
  · obtain ⟨hans, hrows⟩ :=
      exec_rejecting (fun n => mode (n + 1)) (fun n => clock (n + 1)) w1 f
    rw [h]
    refine .quiet (fun hc => ?_) (by rw [hrows, htable]) ?_
    · obtain ⟨o, ho, -⟩ := hcommits hc
      rw [h] at ho
      cases ho
    · rw [hans]
      exact releaseAnswer_not_settled _ _
  · obtain ⟨hans, hrows⟩ :=
      exec_recovering (fun n => mode (n + 1)) (fun n => clock (n + 1)) w1 a
    rw [h]
    refine .quiet (fun hc => ?_) (by rw [hrows, htable]) ?_
    · obtain ⟨o, ho, -⟩ := hcommits hc
      rw [h] at ho
      cases ho
    · rw [hans]
      exact recovery_not_settled _ _

/-- What the claim decides. -/
theorem claiming_settles {d : Delivery ι} {a : Admitted env} (ha : a.For d) (mode : Nat → Mode)
    (clock : Nat → Int) (w : World ι) :
    Settles env d mode clock w ((Phase.claiming a).exec mode clock w) := by
  obtain ⟨w', ph', ev, hadv, hexec, -⟩ :=
    Phase.exec_advance (.claiming a) trivial mode clock w
  rw [hexec]
  cases hadv with
  | claimWon h0 httl hk => exact claimed_settles ha h0 httl hk
  | claimFailed hm hw =>
      rw [Phase.exec_failed]
      refine .quiet (fun hc => ?_) ?_ (raised_not_settled _)
      · obtain ⟨-, -, h0, httl, -⟩ := hc.claimed ha
        exact hm h0 httl
      · rcases hw with rfl | ⟨-, rfl⟩ <;> rfl
  | claimLost _ _ hk =>
      obtain ⟨hans, hsame⟩ := exec_looking (fun n => mode (n + 1)) (fun n => clock (n + 1)) w a
      refine .quiet (fun hc => ?_) (by rw [hsame]) ?_
      · obtain ⟨-, -, -, -, hfree, -⟩ := hc.claimed ha
        exact hk hfree
      · rintro ⟨o, ho, hs⟩
        rw [hans] at ho
        split at ho <;> cases ho
        unfold Phase.lostOutcome at hs
        split at hs <;> cases hs

/-- What a call does to the table, and when it says so. -/
theorem process_settles (env : Env) (d : Delivery ι) (mode : Nat → Mode) (clock : Nat → Int)
    (w : World ι) :
    Settles env d mode clock w (platform.exec (process env d.body d.now) mode clock w) := by
  rw [exec_process]
  rcases Phase.start_cases env d with ⟨f, hstart⟩ | ⟨a, ha, hstart⟩ | ⟨e, -, hstart⟩
  · obtain ⟨hans, rows, hnoted⟩ := @exec_refusing ι _ env mode clock w f
    have hnot := @not_commits_of_start ι env d mode clock w _ hstart fun a => by simp
    rw [hstart]
    refine .quiet hnot (congrArg (fun w => w.settlements.rows) hnoted) ?_
    rintro ⟨o, ho, hs⟩
    cases hans.symm.trans ho
    exact absurd (f.rejected.symm.trans hs) (by decide)
  · rw [hstart]
    exact claiming_settles ha mode clock w
  · have hnot := @not_commits_of_start ι env d mode clock w _ hstart fun a => by simp
    rw [hstart, Phase.exec_failed]
    exact .quiet hnot rfl (raised_not_settled e)

/-- The counter of a call on its own. -/
theorem processAlone_settled (env : Env) (d : Delivery ι) (mode : Nat → Mode) (clock : Nat → Int)
    (w : World ι) (r : World ι × Except Exc SettlementOutcome)
    (hr : platform.exec (process env d.body d.now) mode clock w = r) :
    (SaysSettled r.2 → ((processAlone env d mode clock w).1.metrics d.processor).settled =
      (w.metrics d.processor).settled + 1) ∧
    (¬ SaysSettled r.2 → ((processAlone env d mode clock w).1.metrics d.processor).settled =
      (w.metrics d.processor).settled) := by
  have hmetrics := exec_metrics (process env d.body d.now) mode clock w
  rw [hr] at hmetrics
  unfold processAlone
  dsimp only
  rw [hr]
  cases hans : r.2 with
  | ok o =>
      simp only [World.recordOutcome, Function.update_self, SettlementMetrics.record_settled,
        hmetrics]
      constructor
      · rintro ⟨o', ho, hs⟩
        cases ho
        simp [SettlementOutcome.settled, hs]
      · intro hs
        have hnot : o.status ≠ .settled := fun h => hs ⟨o, rfl, h⟩
        simp [SettlementOutcome.settled, hnot]
  | error e =>
      dsimp only
      rw [hmetrics]
      exact ⟨fun h => absurd h (raised_not_settled e), fun _ => rfl⟩

/-- **One call tells the truth** exactly when its commit, if there is one, is
answered and followed by a successful marker write. -/
theorem tellsTruth_iff (d : Delivery ι) (mode : Nat → Mode) (clock : Nat → Int) (w : World ι) :
    TellsTruth d w (processAlone env d mode clock w) ↔
      (Commits env d mode clock w → Confirmed env mode clock) := by
  have hs := process_settles env d mode clock w
  obtain ⟨hinc, hsame⟩ := processAlone_settled env d mode clock w _ rfl
  have hrows := congrArg SettlementTable.rows (processAlone_fst env d mode clock w)
  have hans := processAlone_snd env d mode clock w
  generalize platform.exec (process env d.body d.now) mode clock w = r at hs hinc hsame hrows hans
  generalize processAlone env d mode clock w = p at hinc hsame hrows hans ⊢
  constructor
  · rintro ⟨-, hcounter⟩ hc
    by_contra hnot
    have hsay : ¬ SaysSettled r.2 := fun h => hnot (hs.settled_iff.mp h).2
    have hlen := hs.grows hc
    rw [hsame hsay, hrows] at hcounter
    omega
  · intro himp
    have hiff : SaysSettled r.2 ↔ Commits env d mode clock w :=
      hs.settled_iff.trans ⟨And.left, fun h => ⟨h, himp h⟩⟩
    by_cases hc : Commits env d mode clock w
    · have hlen := hs.grows hc
      refine ⟨fun o ho => ?_, ?_⟩
      · have hsettled : o.status = .settled := by
          obtain ⟨o', ho', hs'⟩ := hiff.mpr hc
          rw [hans, ho'] at ho
          cases ho
          exact hs'
        rw [hrows]
        refine ⟨⟨fun _ => hlen, fun _ => hsettled⟩, fun h => absurd hsettled h, fun h => ?_⟩
        rw [h] at hlen
        omega
      · rw [hinc (hiff.mpr hc), hrows]
        omega
    · have hkeep := hs.keeps hc
      have hsay : ¬ SaysSettled r.2 := fun h => hc (hiff.mp h)
      refine ⟨fun o ho => ?_, ?_⟩
      · have hsettled : o.status ≠ .settled := fun h => hsay ⟨o, hans ▸ ho, h⟩
        rw [hrows, hkeep]
        exact ⟨⟨fun h => absurd h hsettled, fun h => by omega⟩, fun _ => rfl, fun _ => hsettled⟩
      · rw [hsame hsay, hrows, hkeep]

/-! ## The sum over a run -/

/-- A step without a crash, whose insert, when it takes effect, is answered,
and whose marker write after a commit succeeds. -/
def Confirming (env : Env) (l : ProcessorLabel ι) (s : Processors ι) : Prop :=
  (∀ h, l ≠ .crash h) ∧
  ∀ c mode clock call, l = .io c mode clock → s.calls c = some call →
    (∀ row, call.pending (processCode env) = some (.insertSettlement row) →
      row.fits = true → s.store.settlements.Accepts row → mode ≠ .lost) ∧
    (∀ key ttl, call.pending (processCode env) = some (.set key .settled ttl) →
      (∃ row id, (⟨.insertSettlement row, .ok id⟩ : IoEvent) ∈ call.log) →
        mode = .served ∧ AcceptsEx ttl clock)

/-- A call about to mark a commit has it in its log. -/
theorem marking_logged {ok : ProcessorLabel ι → Phases ι env → Prop} {s : Phases ι env}
    (h : Reach (Phases.step env) ok Phases.init s) {c : Nat} {d : Delivery ι} {o : Opened env}
    {id : Nat} {log : List IoEvent}
    (hc : s.calls c = some ⟨d, .running (.marking o (some id)), log⟩) :
    (⟨.insertSettlement o.row, .ok id⟩ : IoEvent) ∈ log := by
  refine Phases.calls_invariant (fun _ status log => ∀ o id,
    status = .running (.marking o (some id)) →
      (⟨.insertSettlement o.row, .ok id⟩ : IoEvent) ∈ log) ?_ ?_ ?_ h c _ hc o id rfl
  · intro d o id hstatus
    rcases Phase.start_cases env d with ⟨f, h⟩ | ⟨a, -, h⟩ | ⟨e, -, h⟩ <;> rw [h] at hstatus <;>
      cases hstatus
  · intro d ph log mode clock w w' ph' ev _ hadv o id hstatus
    cases hadv with
    | inserted => cases hstatus; exact List.mem_cons_self
    | @claimWon a =>
        rcases Phase.claimed_cases a with ⟨o, -, h⟩ | ⟨f, -, h⟩ | ⟨e, -, -, h⟩ <;>
          rw [h] at hstatus <;> cases hstatus
    | _ => cases hstatus
  · intro d ph log _ o id hstatus
    cases hstatus

/-- The settled counters of all processors. -/
def settledTotal [Fintype ι] (w : World ι) : Nat := ∑ i, (w.metrics i).settled

/-- What is counted when a call reaches a phase. -/
def counted : Phase env → Nat
  | .ended o => if o.settled then 1 else 0
  | _ => 0

theorem settledTotal_after [Fintype ι] (d : Delivery ι) (ph : Phase env) (w : World ι) :
    settledTotal (w.after d ph) = settledTotal w + counted ph := by
  have hrecord : ∀ o, settledTotal (w.recordOutcome d o) =
      settledTotal w + if o.settled then 1 else 0 := by
    intro o
    have hothers : ∑ i ∈ Finset.univ.erase d.processor,
          ((w.recordOutcome d o).metrics i).settled =
        ∑ i ∈ Finset.univ.erase d.processor, (w.metrics i).settled := by
      refine Finset.sum_congr rfl fun i hi => ?_
      simp [World.recordOutcome, Finset.ne_of_mem_erase hi]
    unfold settledTotal
    rw [← Finset.add_sum_erase _ _ (Finset.mem_univ d.processor), hothers,
      ← Finset.add_sum_erase (f := fun i => (w.metrics i).settled) _ (Finset.mem_univ d.processor)]
    simp only [World.recordOutcome, Function.update_self, SettlementMetrics.record_settled]
    omega
  cases ph with
  | ended o => exact hrecord o
  | _ => rfl

/-- The call has committed its row and is about to mark it. -/
def Committed (ph : Phase env) : Prop := ∃ o id, ph = .marking o (some id)

/-- What an operation does to the books. -/
inductive Entry (mode : Mode) (clock : Int) (w : World ι) (ph : Phase env) (w' : World ι)
    (ph' : Phase env) : Prop
  | quiet : ¬ Committed ph → ¬ Committed ph' → counted ph' = 0 →
      w'.settlements.rows = w.settlements.rows → Entry mode clock w ph w' ph'
  | commit : ¬ Committed ph → Committed ph' →
      w'.settlements.rows.length = w.settlements.rows.length + 1 → Entry mode clock w ph w' ph'
  | report : Committed ph → ¬ Committed ph' → counted ph' = 1 →
      w'.settlements.rows = w.settlements.rows → Entry mode clock w ph w' ph'
  | lost {o : Opened env} : ph = .inserting o → mode = .lost → o.row.fits = true →
      w.settlements.Accepts o.row → Entry mode clock w ph w' ph'
  | broken {o : Opened env} {id : Nat} : ph = .marking o (some id) →
      (mode = .served → ¬ AcceptsEx env.settledTtl clock) → Entry mode clock w ph w' ph'

omit [DecidableEq ι] in
theorem Advance.entry {mode : Mode} {clock : Int} {w w' : World ι} {ph ph' : Phase env}
    {ev : IoEvent} (h : Advance env mode clock w ph w' ph' ev) : Entry mode clock w ph w' ph' := by
  have hnot : ∀ {q : Phase env}, (∀ o id, q ≠ .marking o (some id)) → ¬ Committed q := by
    rintro q hq ⟨o, id, h⟩
    exact hq o id h
  have hrows := h.rows
  cases h with
  | inserted hacc =>
      exact .commit (hnot (by simp)) ⟨_, _, rfl⟩ (by simp)
  | @marked o id =>
      cases id with
      | none => exact .quiet (hnot (by simp)) (hnot (by simp)) rfl rfl
      | some id => exact .report ⟨o, id, rfl⟩ (hnot (by simp)) rfl rfl
  | @markFailed o id w' hm hw =>
      cases id with
      | none =>
          refine .quiet (hnot (by simp)) (hnot (by simp)) rfl ?_
          rcases hw with rfl | rfl <;> rfl
      | some id => exact .broken rfl hm
  | insertFailed _ _ hw =>
      rcases hw with ⟨rfl | rfl, -⟩ | ⟨hlost, hf, hacc, rfl⟩
      · exact .quiet (hnot (by simp)) (hnot (by simp)) rfl rfl
      · exact .quiet (hnot (by simp)) (hnot (by simp)) rfl rfl
      · exact .lost rfl hlost hf hacc
  | @refused r w' ans hw =>
      obtain ⟨rows, rfl⟩ := hw
      refine .quiet (hnot (by simp)) (hnot (by simp)) ?_ rfl
      simp [counted, SettlementOutcome.settled, r.rejected]
  | @claimWon a =>
      rcases Phase.claimed_cases a with ⟨o, -, h⟩ | ⟨f, -, h⟩ | ⟨e, -, -, h⟩ <;> rw [h] <;>
        exact .quiet (hnot (by simp)) (hnot (by simp)) rfl rfl
  | @found a =>
      refine .quiet (hnot (by simp)) (hnot (by simp)) ?_ rfl
      unfold Phase.lostOutcome
      split <;> rfl
  | duplicate => exact .quiet (hnot (by simp)) (hnot (by simp)) rfl rfl
  | _ =>
      refine .quiet (hnot (by simp)) (hnot (by simp)) rfl ?_
      rcases hrows with h | ⟨o, hacc, h, -⟩
      · exact h
      · cases h

/-- A call that is about to report its commit. -/
def Reporting (call : PhaseCall ι env) : Prop := ∃ ph, call.status = .running ph ∧ Committed ph

omit [DecidableEq ι] in
theorem reporting_status (d : Delivery ι) (ph : Phase env) (log : List IoEvent) :
    Reporting ⟨d, ph.status, log⟩ ↔ Committed ph := by
  constructor
  · rintro ⟨q, hq, o, id, rfl⟩
    cases ph <;> cases hq
    exact ⟨o, id, rfl⟩
  · rintro ⟨o, id, rfl⟩
    exact ⟨_, rfl, o, id, rfl⟩

/-- The books: the settled counters and the commits not yet reported make up
the rows. -/
structure Books [Fintype ι] (s : Phases ι env) (pending : Finset Nat) : Prop where
  mem_pending : ∀ c, c ∈ pending ↔ ∃ call, s.calls c = some call ∧ Reporting call
  balance : settledTotal s.store + pending.card = s.store.settlements.rows.length

/-- The books after one call has reached a phase. -/
theorem Books.enter [Fintype ι] {s : Phases ι env} {pending : Finset Nat} (hs : Books s pending)
    (c : Nat) (d : Delivery ι) (ph : Phase env) (w : World ι) (log : List IoEvent)
    (hmetrics : w.metrics = s.store.metrics) (pending' : Finset Nat)
    (hkeep : ∀ b, b ≠ c → (b ∈ pending' ↔ b ∈ pending)) (hnew : c ∈ pending' ↔ Committed ph)
    (hbalance : settledTotal s.store + counted ph + pending'.card = w.settlements.rows.length) :
    Books (s.enter c d ph w log) pending' where
  mem_pending := by
    intro b
    rw [Phases.enter_calls]
    by_cases hb : b = c
    · subst hb
      rw [hnew, if_pos rfl, ← reporting_status d ph log]
      exact ⟨fun h => ⟨_, rfl, h⟩, fun ⟨_, hc, h⟩ => by cases hc; exact h⟩
    · rw [hkeep b hb, if_neg hb, hs.mem_pending]
  balance := by
    have htotal : settledTotal w = settledTotal s.store := by
      unfold settledTotal
      rw [hmetrics]
    simp only [Phases.enter, settledTotal_after, World.after_settlements]
    rw [htotal]
    exact hbalance

omit [DecidableEq ι] in
/-- A call that is not running reports nothing. -/
theorem Books.not_mem [Fintype ι] {s : Phases ι env} {pending : Finset Nat}
    (hs : Books s pending) {c : Nat} (h : ∀ call, s.calls c = some call → ¬ Reporting call) :
    c ∉ pending := by
  rw [hs.mem_pending]
  rintro ⟨call, hc, hr⟩
  exact h call hc hr

/-- The books balance after every confirming step. -/
theorem Books.step [Fintype ι] {l : ProcessorLabel ι} {s s' : Phases ι env}
    {pending : Finset Nat} (hr : ∃ ok, Reach (Phases.step env) ok Phases.init s)
    (hs : Books s pending) (hok : Confirming env l (s.map Phase.prog)) (hstep : PhaseStep s l s') :
    ∃ pending', Books s' pending' := by
  cases hstep with
  | @start c d hc =>
      refine ⟨pending, hs.enter c d _ _ _ rfl pending (fun b _ => Iff.rfl) ?_ ?_⟩
      · have hout := hs.not_mem (c := c) fun call h => by rw [hc] at h; cases h
        refine iff_of_false hout ?_
        rintro ⟨o, id, h⟩
        rcases Phase.start_cases env d with ⟨f, h'⟩ | ⟨a, -, h'⟩ | ⟨e, -, h'⟩ <;> rw [h'] at h <;>
          cases h
      · have hzero : counted (Phase.start env d.body d.now) = 0 := by
          rcases Phase.start_cases env d with ⟨f, h⟩ | ⟨a, -, h⟩ | ⟨e, -, h⟩ <;> rw [h] <;> rfl
        rw [hzero]
        exact hs.balance
  | crash => exact absurd rfl (hok.1 _)
  | @disturb e => exact ⟨pending, hs.mem_pending, by cases e <;> exact hs.balance⟩
  | @io c mode clock d ph ph' log w' ev hc hadv =>
      have hmem : c ∈ pending ↔ Committed ph := by
        rw [hs.mem_pending, hc]
        exact ⟨fun ⟨_, h, q, hq, hcom⟩ => by cases h; cases hq; exact hcom,
          fun h => ⟨_, rfl, ph, rfl, h⟩⟩
      have hcall := congrArg (Option.map (Call.map Phase.prog)) hc
      have hpending := Call.pending_map (processCode_same env) ⟨d, .running ph, log⟩
      have hguard := hok.2 c mode clock _ rfl hcall
      rw [hpending] at hguard
      have hbalance := hs.balance
      have hmetrics := hadv.metrics
      cases Advance.entry hadv with
      | quiet hold hnew hzero hrows =>
          refine ⟨pending, hs.enter c d ph' w' _ hmetrics pending (fun b _ => Iff.rfl) ?_ ?_⟩
          · exact iff_of_false (fun h => hold (hmem.mp h)) hnew
          · rw [hzero, hrows]
            exact hbalance
      | commit hold hnew hrows =>
          have hout : c ∉ pending := fun h => hold (hmem.mp h)
          refine ⟨insert c pending, hs.enter c d ph' w' _ hmetrics _ ?_ ?_ ?_⟩
          · intro b hb
            simp [hb]
          · exact iff_of_true (Finset.mem_insert_self _ _) hnew
          · obtain ⟨o, id, rfl⟩ := hnew
            rw [Finset.card_insert_of_notMem hout, hrows]
            simp only [counted]
            omega
      | report hold hnew hone hrows =>
          have hin : c ∈ pending := hmem.mpr hold
          refine ⟨pending.erase c, hs.enter c d ph' w' _ hmetrics _ ?_ ?_ ?_⟩
          · intro b hb
            simp [hb]
          · exact iff_of_false (Finset.notMem_erase _ _) hnew
          · have hcard := Finset.card_erase_add_one hin
            rw [hone, hrows]
            omega
      | @lost o hph hmode hf hacc =>
          -- a commit without its reply confirms nothing
          subst hph
          exact absurd hmode (hguard.1 o.row rfl hf hacc)
      | @broken o id hph hm =>
          subst hph
          obtain ⟨ok, hreach⟩ := hr
          obtain ⟨hserved, httl⟩ := hguard.2 o.key env.settledTtl rfl
            ⟨o.row, id, marking_logged hreach hc⟩
          exact absurd httl (hm hserved)

/-- **The counters agree.** In a run of confirming steps, once no call is
pending, the settled counters of all processors sum up to the rows. -/
theorem counters_agree [Fintype ι] {s : Processors ι}
    (h : Reach (Processors.step env) (Confirming env) Processors.init s)
    (hquiet : ∀ c call, s.calls c = some call → ∀ p, call.status ≠ .running p) :
    settledTotal s.store = s.store.settlements.rows.length := by
  obtain ⟨t, rfl, ht⟩ := Processors.reach_phases h
  obtain ⟨pending, hbooks⟩ : ∃ pending, Books t pending := by
    refine ht.invariant (P := fun s => ∃ pending, Books s pending) ⟨∅, ?_, ?_⟩ ?_
    · intro c
      simp [Phases.init]
    · simp [settledTotal, Phases.init, World.empty, SettlementTable.empty]
    · rintro s l s' hr ⟨pending, hs⟩ hl hstep
      exact hs.step ⟨_, hr⟩ hl (Phases.step_cases hstep)
  have hempty : pending = ∅ := by
    refine Finset.eq_empty_of_forall_notMem fun c hc => ?_
    obtain ⟨call, hcall, ph, hph, -⟩ := (hbooks.mem_pending c).mp hc
    refine hquiet c (call.map Phase.prog) ?_ ph.prog ?_
    · rw [State.map_calls, hcall]
      rfl
    · rw [Call.map, hph]
      rfl
  have hbalance := hbooks.balance
  rw [hempty, Finset.card_empty, Nat.add_zero] at hbalance
  exact hbalance

/-! ## A settlement and a copy -/

omit [DecidableEq ι] in
/-- A marker is written with its own lifetime. -/
theorem settled_lifetime {call : PhaseCall ι env} {key : String} {ttl : Int}
    (h : call.pending (phaseCode env) = some (.set key .settled ttl)) : ttl = env.settledTtl := by
  obtain ⟨d, status, log⟩ := call
  cases status with
  | running ph =>
      cases ph <;> simp only [Call.pending, phaseCode, Phase.view, Option.some.injEq,
        reduceCtorEq] at h
      cases h
      rfl
  | _ => cases h

omit [DecidableEq ι] in
/-- What is served confirms, when Redis takes the lifetime of the marker. -/
theorem confirming_served {c : Nat} {clock : Int} (hsettled : AcceptsEx env.settledTtl clock)
    (s : Phases ι env) : Confirming env (.io c .served clock) (s.map Phase.prog) := by
  refine ⟨nofun, ?_⟩
  rintro c' mode clock' call hl hcall
  cases hl
  obtain ⟨call, -, rfl⟩ := State.of_map_calls hcall
  rw [Call.pending_map (processCode_same env)]
  refine ⟨fun _ _ _ _ => nofun, fun key ttl hpending _ => ⟨rfl, ?_⟩⟩
  rw [settled_lifetime hpending]
  exact hsettled

omit [DecidableEq ι] in
theorem confirming_start (c : Nat) (d : Delivery ι) (s : Processors ι) :
    Confirming env (.start c d) s := by
  refine ⟨nofun, fun c mode clock call hl => ?_⟩
  cases hl

omit [DecidableEq ι] in
/-- A call that has ended runs no further. -/
theorem not_running_ended (d : Delivery ι) (r : Except Exc SettlementOutcome) (log : List IoEvent)
    (p : Io SettlementOutcome) :
    (Call.map Phase.prog (⟨d, endedStatus r, log⟩ : PhaseCall ι env)).status ≠ .running p := by
  cases r <;> nofun

/-- One processor settles a packet, and the other one is given a copy of it. -/
theorem settles_then_refuses {o : Opened env} (hclaim : AcceptsEx env.claimTtl o.now)
    (hsettled : AcceptsEx env.settledTtl o.now) (hfits : o.row.fits = true) :
    ∃ s : Processors Bool, Reach (Processors.step env) (Confirming env) Processors.init s ∧
      (∀ c call, s.calls c = some call → ∀ p, call.status ≠ .running p) ∧
      (∃ call, s.calls 0 = some call ∧ call.status = .returned (settledOutcome env o.packet 0)) ∧
      (∃ call, s.calls 1 = some call ∧
        call.status = .returned (Phase.lostOutcome o.toAdmitted (some .settled))) ∧
      s.store.settlements.rows.length = 1 := by
  let d (i : Bool) : Delivery Bool := ⟨i, o.body, o.now⟩
  have ho : ∀ i, o.toAdmitted.For (d i) := fun i => ⟨rfl, rfl⟩
  obtain ⟨s₀, hs₀, hcall₀, hothers₀, hstore₀⟩ := Phases.run_process
    (fun l s => Confirming env l (s.map Phase.prog)) (s := (Phases.init : Phases Bool env))
    (c := 0) (d := d false) (fun _ => .served) (fun _ => o.now) (confirming_start ..)
    (fun _ s _ => confirming_served hsettled s) rfl
  obtain ⟨hresult₀, hmarker₀, htable₀⟩ := processAlone_settles (ho false) (fun _ => o.now) hclaim
    hsettled (w := (Phases.init : Phases Bool env).store) rfl hfits (o.accepted rfl)
  rw [← hstore₀] at hmarker₀ htable₀
  -- the copy finds the marker of the first call
  obtain ⟨s₁, hs₁, hcall₁, hothers₁, hstore₁⟩ := Phases.run_process
    (fun l s => Confirming env l (s.map Phase.prog)) (s := s₀) (c := 1) (d := d true)
    (fun _ => .served) (fun _ => o.now) (confirming_start ..)
    (fun _ s _ => confirming_served hsettled s) (hothers₀ 1 (by decide))
  obtain ⟨hresult₁, -, htable₁⟩ :=
    processAlone_lost (ho true) (fun _ => o.now) hclaim (w := s₀.store) hmarker₀
  rw [hresult₀] at hcall₀
  rw [hresult₁] at hcall₁
  rw [← hothers₁ 0 (by decide)] at hcall₀
  refine ⟨s₁.map Phase.prog, Phases.reach_processors (hs₀.trans hs₁), ?_,
    Phases.status_prog ⟨_, hcall₀, rfl⟩, Phases.status_prog ⟨_, hcall₁, rfl⟩, ?_⟩
  · intro c call hc p
    obtain ⟨call, hcall, rfl⟩ := State.of_map_calls hc
    by_cases h0 : c = 0
    · subst h0
      obtain rfl := Option.some.inj (hcall₀.symm.trans hcall)
      exact not_running_ended _ _ _ p
    · by_cases h1 : c = 1
      · subst h1
        obtain rfl := Option.some.inj (hcall₁.symm.trans hcall)
        exact not_running_ended _ _ _ p
      · cases (((hothers₁ c h1).trans (hothers₀ c h0)).symm.trans hcall)
  · rw [State.map_store, hstore₁, htable₁, htable₀]
    rfl

/-- **Outcomes and rows.** A call tells the truth exactly when its commit is
confirmed, and over crash-free runs of confirming steps the settled counters
sum up to the rows. -/
theorem outcomes_match_rows [Fintype ι] (env : Env) :
    (∀ (d : Delivery ι) mode clock w, TellsTruth d w (processAlone env d mode clock w) ↔
      (Commits env d mode clock w → Confirmed env mode clock)) ∧
    ∀ s : Processors ι, Reach (Processors.step env) (Confirming env) Processors.init s →
      (∀ c call, s.calls c = some call → ∀ p, call.status ≠ .running p) →
      settledTotal s.store = s.store.settlements.rows.length :=
  ⟨tellsTruth_iff, fun _ => counters_agree⟩

/-- A settled payment and a copy of it: two calls, one row, one count. -/
theorem outcomes_match_rows_copy : ∃ s : Processors Bool,
    (∃ call, s.calls 0 = some call ∧
      call.status = .returned (settledOutcome Reference.onePayment Reference.payment 0)) ∧
    (∃ call, s.calls 1 = some call ∧
      call.status = .returned (Phase.lostOutcome Reference.admitted (some .settled))) ∧
    s.store.settlements.rows.length = 1 ∧
    settledTotal s.store = s.store.settlements.rows.length := by
  obtain ⟨s, hs, hquiet, hfirst, hsecond, hrows⟩ := settles_then_refuses
    (o := Reference.opened) Reference.acceptsEx_claim Reference.acceptsEx_settled
    Reference.fits_row
  exact ⟨s, hfirst, hsecond, hrows, (outcomes_match_rows Reference.onePayment).2 s hs hquiet⟩

/-- **A committed row is denied** when the marker write after it fails. -/
theorem committed_row_denied : ¬ TellsTruth Reference.delivery World.empty
    (processAlone Reference.onePayment Reference.delivery
      (fun n => if n = 2 then .refused else .served) (fun _ => Reference.instant.micros)
      World.empty) := by
  intro h
  have hcommits : Commits Reference.onePayment Reference.delivery
      (fun n => if n = 2 then .refused else .served) (fun _ => Reference.instant.micros)
      World.empty :=
    ⟨Reference.opened, Reference.admitted_for, rfl, Reference.acceptsEx_claim, rfl, by decide,
      Reference.fits_row, Reference.accepts_row⟩
  exact absurd ((tellsTruth_iff _ _ _ _).mp h hcommits).2.1 (by decide)

end MeshSettle.Theorems.Truthful
