import MeshSettle.Settlement.Clock
import MeshSettle.Settlement.Coverage
import MeshSettle.Settlement.Reference
import MeshSettle.Settlement.Serving

/-!
# No payment is lost

A consumer acks a copy that it finds in flight, and leaves the payment to the
call that holds the claim. That is sound while the holder is at work. A claim
that survives its call (a crash, a lost reply, a release that failed) makes
the copies delivered before it expires disappear, the redelivered one
included.

`no_loss` is the statement for the runs that meet no such claim: whenever a
message of a genuine packet is acked, the packet has its row or another
message of it is not acked.
-/

namespace MeshSettle.Theorems.NoLoss

open Lib.Await Lib.Interleave Lib.Transition

variable {ι : Type} {env : Env} {p : PaymentPacket}

/-! ## Acknowledgements -/

/-- The reading of the clock that a step makes. -/
def reading : BrokerLabel ι → Option Int
  | .deliver _ _ _ now => some now
  | .io _ _ clock => some clock
  | _ => none

/-- A message of the packet is still at the broker, beside `m`. -/
def OtherUnacked {P : Type} (env : Env) (p : PaymentPacket) (m : Nat) (s : Broker ι P) : Prop :=
  ∃ m' body state q, m' ≠ m ∧ s.messages m' = some ⟨body, state⟩ ∧ state ≠ .acked ∧
    PaymentPacket.modelValidateJson env.pydantic body = .ok q ∧
    q.idempotencyKey env.prim = p.idempotencyKey env.prim

/-- What the final outcome of a fresh copy means: the packet has its row, or the copy was
dropped. -/
theorem verdict_final (hp : Genuine env p) {d : Delivery ι} {o : SettlementOutcome}
    (h : Verdict env d o) (hcopy : IsCopy env p d.body) (hfresh : staleness env p d.now = none)
    (hfinal : o.retryable = false) :
    o.Reports (p.idempotencyKey env.prim) ∨ ∃ a : Admitted env, o = inFlight env a.packet := by
  have hkey : ∀ {a : Admitted env}, a.For d → a.key = p.idempotencyKey env.prim :=
    fun ha => (alike_of_signingBytes env (hcopy.admitted ha)).key
  cases h with
  | refused hstart =>
      obtain ⟨a, -, hclaiming⟩ := hp.admits hcopy hfresh
      cases hstart.symm.trans hclaiming
  | @lost a marker ha =>
      unfold Phase.lostOutcome
      split
      · exact .inl ⟨congrArg some (hkey ha), .inr ⟨rfl, rfl⟩⟩
      · exact .inr ⟨a, rfl⟩
  | @flawed f hf => exact (hp.not_flawed f (hcopy.admitted hf)).elim
  | @written op id ho =>
      refine .inl ?_
      cases id with
      | none => exact ⟨congrArg some (hkey ho), .inr ⟨rfl, rfl⟩⟩
      | some id => exact ⟨congrArg some (hkey ho), .inl rfl⟩
  | internal _ => cases hfinal

variable [DecidableEq ι]

/-- The consumers under one clock. -/
def TimedConsumers.step (env : Env) :
    Int × BrokerLabel ι → Int × Consumers ι → Option (Int × Consumers ι) :=
  timed reading (Consumers.step env)

/-- The timed runs are the timed runs of the phases. -/
theorem TimedConsumers.reach_phases {ok : Int × BrokerLabel ι → Int × Consumers ι → Prop}
    {t₀ : Int} {x : Int × Consumers ι}
    (h : Reach (TimedConsumers.step env) ok (t₀, Broker.init) x) :
    ∃ y : Int × ConsumerPhases ι env, x = y.map id (Broker.map Phase.prog) ∧
      Reach (timed reading (ConsumerPhases.step env))
        (fun l y => ok l (y.map id (Broker.map Phase.prog))) (t₀, Broker.init) y :=
  Reach.lift (t₀, Broker.init) (Prod.map id (Broker.map Phase.prog))
    (timed_map _ fun l s => Broker.step_map (processCode_same env) l s) (fun _ _ h => h) h

/-- This step acks message `m`, which carries the packet, and the packet is in
its window both when the message was processed and now. -/
structure AcksGenuine (env : Env) (p : PaymentPacket) (m : Nat) (x x' : Int × Consumers ι) :
    Prop where
  genuine : Genuine env p
  distinct : Distinct env x.2 p
  acked : ∃ body c call, x.2.messages m = some ⟨body, .held c⟩ ∧ SignedBody env body p ∧
    x.2.core.calls c = some call ∧ staleness env p call.tag.now = none ∧
    x'.2.messages m = some ⟨body, .acked⟩
  fresh : staleness env p x'.1 = none

/-- No payment of the packet is lost in the runs whose steps satisfy `ok`. -/
def LosesNothing (env : Env) (p : PaymentPacket)
    (ok : Int × BrokerLabel ι → Int × Consumers ι → Prop) : Prop :=
  ∀ t₀ x t m x', Reach (TimedConsumers.step env) ok (t₀, Broker.init) x →
    TimedConsumers.step env (t, .settle m) x = some x' → AcksGenuine env p m x x' →
      HasKey x'.2.core.store (p.idempotencyKey env.prim) ∨ OtherUnacked env p m x'.2

/-! ## The invariant -/

/-- Under the clock: no call has read the future, and what was dropped of a
packet that is still in its window is covered. -/
structure OnTime (p : PaymentPacket) (x : Int × ConsumerPhases ι env) : Prop where
  past : ∀ c call, x.2.core.calls c = some call → call.tag.now ≤ x.1
  covering : Distinct env x.2 p → staleness env p x.1 = none → Covering p x.2

/-- The reading of a call is one of a delivery. -/
theorem BrokerStep.reading_le {l : BrokerLabel ι} {s s' : ConsumerPhases ι env} {t : Int}
    (hstep : BrokerStep s l s') (hreading : ∀ r, reading l = some r → r = t)
    (hpast : ∀ c call, s.core.calls c = some call → call.tag.now ≤ t) :
    ∀ c call, s'.core.calls c = some call → call.tag.now ≤ t := by
  cases hstep with
  | publish _ => exact hpast
  | settle _ _ _ => exact hpast
  | deliver _ hcore =>
      cases Phases.step_cases hcore with
      | start _ =>
          exact (Phases.forall_enter ..).mpr ⟨le_of_eq (hreading _ rfl),
            fun b call _ hb => hpast b call hb⟩
  | io hcore =>
      cases Phases.step_cases hcore with
      | io hc _ =>
          have hold := hpast _ _ hc
          exact (Phases.forall_enter ..).mpr ⟨hold, fun b call _ hb => hpast b call hb⟩
  | crash hcore =>
      cases Phases.step_cases hcore with
      | crash =>
          refine Phases.forall_crash _ _ hpast fun b d ph log hb => ?_
          have hold := hpast b _ hb
          exact hold
  | disturb hcore =>
      cases Phases.step_cases hcore with
      | disturb => exact hpast

theorem OnTime.run (hp : Genuine env p) {t₀ : Int} {x : Int × ConsumerPhases ι env}
    (h : Reach (timed reading (ConsumerPhases.step env)) (fun l x =>
      Covered env (p.idempotencyKey env.prim) l.2 (x.2.map Phase.prog))
      (t₀, Broker.init) x) : OnTime p x := by
  refine h.invariant (P := OnTime p) ⟨?_, ?_⟩ ?_
  · intro c call hc
    cases hc
  · rintro - - ⟨c, call, hc, -⟩
    cases hc
  · intro x l x' hr ih hcov hstep
    obtain ⟨hle, hreading, htime, hstep⟩ := timed_cases hstep
    have hstep := ConsumerPhases.step_cases hstep
    have hfree := hr.untimed
    have hcore := ConsumerPhases.reach_core hfree
    have hheld := ConsumerPhases.holding empty_ready hfree
    constructor
    · rw [htime]
      exact BrokerStep.reading_le hstep hreading fun c call hc => (ih.past c call hc).trans hle
    · intro hdistinct hfresh
      rw [htime] at hfresh
      have hd := hdistinct.before hstep
      refine Covering.step hp hheld hcore hd (ConsumerPhases.backed empty_ready hfree hd) hcov ?_
        hstep ?_
      · rintro m c i now body state hl - -
        have hnow := hreading now (by rw [hl]; rfl)
        rw [hnow]
        exact hfresh
      · -- a copy was dropped before, so the packet was in its window all along
        intro hdropped
        obtain ⟨c, call, hc, -, hthen, -⟩ := id hdropped
        exact ih.covering hd (staleness_between hthen hfresh (ih.past c call hc) hle) hdropped

/-! ## The theorem -/

/-- **No payment is lost** in a run whose refused claims are covered: each
claim that a copy finds on the packet's key belongs to a call at work, or the
packet has its row. -/
theorem no_loss (env : Env) (p : PaymentPacket) :
    LosesNothing (ι := ι) env p fun l x =>
      Covered env (p.idempotencyKey env.prim) l.2 x.2 := by
  intro t₀ x t m x' hrun hstep ⟨hp, hd, ⟨body, c, call, hm, hbody, hc, hthen, hacked⟩, hnow⟩
  obtain ⟨⟨t₁, s⟩, rfl, hr⟩ := TimedConsumers.reach_phases hrun
  obtain ⟨hle, -, htime, hstep⟩ := timed_cases hstep
  obtain ⟨s', hx', hstep⟩ := Consumers.step_phases hstep
  rw [hx'] at hacked ⊢
  rw [htime] at hnow
  have hfree := hr.untimed
  have hheld := ConsumerPhases.holding empty_ready hfree
  obtain ⟨⟨d, status, log⟩, hcall, rfl⟩ := State.of_map_calls hc
  have hd := hd.of_map
  cases ConsumerPhases.step_cases hstep with
  | @settle n b body' call' result hn hcall' hresult =>
      obtain ⟨rfl, rfl⟩ : body' = body ∧ b = c := by
        rw [show s.messages m = some ⟨body, .held c⟩ from hm] at hn
        cases hn
        exact ⟨rfl, rfl⟩
      rw [hcall] at hcall'
      cases hcall'
      obtain ⟨call, hb, htag, -⟩ := hheld.held m body' b hn
      rw [hcall] at hb
      cases hb
      -- the call has returned for good
      have hstate : (handleMessage result).state = .acked := by
        have hput : (s.put m body' (handleMessage result).state).messages m =
          some ⟨body', .acked⟩ := hacked
        rw [Broker.put_messages, if_pos rfl] at hput
        exact congrArg Message.state (Option.some.inj hput)
      obtain ⟨o, rfl, hfinal⟩ : ∃ o, status = .returned o ∧ o.retryable = false :=
        acked_final hresult hstate
      have hcopy : IsCopy env p d.body :=
        ⟨p, by rw [show d.body = body' from htag]; exact hbody, rfl⟩
      have hverdict : Verdict env d o := Phases.coherent (ConsumerPhases.reach_core hfree) b _ hcall
      have hbacked := ConsumerPhases.backed empty_ready hfree hd
      rcases verdict_final hp hverdict hcopy hthen hfinal with hreports | ⟨a, rfl⟩
      · exact .inl (hbacked.calls b _ hcall hreports)
      · have hdropped : Dropped p s.core := ⟨b, _, hcall, hcopy, hthen, a, rfl⟩
        have hcover := (OnTime.run hp hr).covering hd
          (staleness_between hthen hnow ((OnTime.run hp hr).past b _ hcall) hle) hdropped
        rcases hcover with hrow | ⟨m', body, state, hm', ⟨q, hq, hsame⟩, halive⟩
        · exact .inl hrow
        · have hkey := (alike_of_signingBytes env hsame).key
          have hne : m' ≠ m := by
            -- the acked copy is not alive: its call has dropped it
            rintro rfl
            rw [hn] at hm'
            cases hm'
            rcases halive with hready | ⟨c, call, hc, hcc, hcarries⟩
            · cases hready
            · cases hc
              rw [hcall] at hcc
              cases hcc
              cases hcarries
          refine .inr ⟨m', body, state, q, hne, ?_, ?_, hq.1, hkey⟩
          · exact (Broker.put_messages ..).trans ((if_neg hne).trans hm')
          · rcases halive with rfl | ⟨c, call, rfl, -⟩ <;> simp

/-! ## Runs of the reference payment -/

section Payment

open Reference

/-- A step of the example, at the one instant of the example. -/
theorem timed_coroutines {l : BrokerLabel Unit} {s s' : Queue}
    (hstep : ConsumerPhases.step onePayment l s = some s')
    (hreading : reading l = none ∨ reading l = some instant.micros) :
    TimedConsumers.step onePayment (instant.micros, l) (instant.micros, s.map Phase.prog) =
      some ((instant.micros : Int), s'.map Phase.prog) :=
  timed_step (ConsumerPhases.step_coroutines hstep) le_rfl hreading

/-- The processor has crashed with the claim in Redis. -/
noncomputable def crashed : Queue :=
  ⟨{ (claimed published 0).core with
      calls := fun c => ((claimed published 0).core.calls c).map (Call.crashOn platform ()) },
    fun m => ((claimed published 0).messages m).map
      (Message.returned (claimed published 0).core ())⟩

theorem step_crash :
    ConsumerPhases.step onePayment (.crash ()) (claimed published 0) = some crashed := rfl

theorem crashed_messages (m : Nat) :
    crashed.messages m = if m = 0 then some ⟨body, .ready⟩ else none := by
  show ((claimed published 0).messages m).map _ = _
  simp only [claimed, delivered, published, Broker.put_messages]
  split
  · simp [Message.returned, RunsOn, Phases.enter_calls]
  · rfl

theorem crashed_call {c : Nat} (h : c ≠ 0) : crashed.core.calls c = none := by
  simp [crashed, claimed, delivered, published, Phases.enter_calls, Broker.init, h]

theorem crashed_holder : crashed.core.calls 0 =
    some ⟨delivery, .crashed, [⟨.setNx key .claimed 60, .ok true⟩]⟩ := by
  have hcall : (claimed published 0).core.calls 0 =
      some ⟨delivery, .running (.inserting opened), [⟨.setNx key .claimed 60, .ok true⟩]⟩ :=
    (Phases.enter_calls ..).trans (if_pos rfl)
  exact congrArg (Option.map (Call.crashOn platform ())) hcall

/-- Redis has lost the claim as well. -/
noncomputable def wiped : Queue :=
  { crashed with core := { crashed.core with store := crashed.core.store.disturb .flush } }

theorem step_wiped : ConsumerPhases.step onePayment (.disturb .flush) crashed = some wiped := rfl

/-- The instant of the example. -/
noncomputable def now : Int := instant.micros

/-- A step under the clock of the example whose claim is covered. -/
def CoveredNow (l : BrokerLabel Unit) (s : Queue) : Prop :=
  Covered onePayment key l (s.map Phase.prog) ∧ (reading l = none ∨ reading l = some now)

/-- No claim is left on a free key. -/
theorem coveredNow_free {s : Queue} (hfree : s.core.store.redis key = none) {l : BrokerLabel Unit}
    (hreading : reading l = some now) : CoveredNow l s := by
  refine ⟨?_, .inr hreading⟩
  rintro c clock call ttl - - - hmarker
  have hnone : s.core.store.redis.marker key = none := by rw [Redis.marker, hfree]; rfl
  exact absurd (hnone.symm.trans hmarker) (by simp)

/-- A step that claims nothing finds no claim. -/
theorem coveredNow_quiet {s : Queue} {l : BrokerLabel Unit} (hquiet : reading l = none) :
    CoveredNow l s := by
  refine ⟨?_, .inl hquiet⟩
  rintro c clock call ttl rfl
  cases hquiet

/-- The claim belongs to a call that is at work. -/
theorem coveredNow_holder {s : Queue} {c : Nat} {ph : Phase onePayment} {log : List IoEvent}
    (hc : s.core.calls c = some ⟨delivery, .running ph, log⟩)
    (hwon : (⟨.setNx key .claimed 60, .ok true⟩ : IoEvent) ∈ log) {l : BrokerLabel Unit}
    (hreading : reading l = some now) : CoveredNow l s :=
  ⟨covered_of_holder hc hwon l, .inr hreading⟩

/-- A run of the phases whose claims are covered, as a timed run. -/
theorem timed_run {s : Queue}
    (h : Reach (ConsumerPhases.step onePayment) CoveredNow Broker.init s) :
    Reach (TimedConsumers.step onePayment) (fun l x => Covered onePayment key l.2 x.2)
      (instant.micros, Broker.init) (instant.micros, s.map Phase.prog) := by
  have himage : Reach (Consumers.step onePayment) (fun l t => Covered onePayment key l t ∧
      (reading l = none ∨ reading l = some now)) ((Broker.init : Queue).map Phase.prog)
      (s.map Phase.prog) :=
    ConsumerPhases.reach_consumers h
  exact himage.instant (fun _ _ hl => hl.2) fun _ _ _ hl => hl.1

/-- After the crash and the flush the message is delivered again, to a call that
settles the payment. -/
theorem settled_after_wipe : ∃ s : Queue, Reach (ConsumerPhases.step onePayment) CoveredNow
    Broker.init s ∧ (∃ log, s.core.calls 0 = some ⟨delivery, .crashed, log⟩) ∧
      (∃ log, s.core.calls 1 =
        some ⟨delivery, .returned (settledOutcome onePayment payment 0), log⟩) ∧
      ∀ m, s.messages m = if m = 0 then some ⟨body, .held 1⟩ else none := by
  have hready : wiped.messages 0 = some ⟨body, .ready⟩ := crashed_messages 0
  have hreach : Reach (ConsumerPhases.step onePayment) CoveredNow Broker.init (claimed wiped 1) :=
    .next (.next (.next (.next (.next (.next (.next .start
      (coveredNow_quiet rfl) step_publish)
      (coveredNow_free rfl rfl) (step_deliver published_message rfl))
      (coveredNow_free rfl rfl) (step_claim (s := published) rfl))
      (coveredNow_quiet rfl) step_crash)
      (coveredNow_quiet rfl) step_wiped)
      (coveredNow_free rfl rfl) (step_deliver hready (crashed_call (by decide))))
      (coveredNow_free rfl rfl) (step_claim (s := wiped) rfl)
  -- the rest of the call finds its own claim
  obtain ⟨core, hrest, hcall, hothers, -⟩ := Phases.run_rest
    (fun l core => ∃ c mode clock, l = .io c mode clock ∧
      CoveredNow (.io c mode clock) ⟨core, (claimed wiped 1).messages⟩) (c := 1)
    (d := delivery) (.inserting opened) (fun _ => .served) (fun _ => instant.micros)
    (wiped.core.store.mark key .claimed 60 instant.micros) (claimed wiped 1).core
    [⟨.setNx key .claimed 60, .ok true⟩] ((Phases.enter_calls ..).trans (if_pos rfl)) rfl
    fun n t ht => by
      obtain ⟨ph, newer, hrunning⟩ := ht.running
      exact ⟨1, .served, instant.micros, rfl, coveredNow_holder hrunning
        (List.mem_append_right _ (List.mem_singleton_self _)) rfl⟩
  have hresult : ((Phase.inserting opened).exec (fun _ => .served) (fun _ => instant.micros)
      (wiped.core.store.mark key .claimed 60 instant.micros)).2 =
        .ok (settledOutcome onePayment payment 0) := by
    have hrows : (wiped.core.store.mark key .claimed 60 instant.micros).settlements.rows = [] := rfl
    rw [exec_inserts (fun _ => instant.micros) acceptsEx_settled fits_row (opened.accepted hrows)]
    rfl
  rw [hresult] at hcall
  have hcrashed : core.calls 0 =
      some ⟨delivery, .crashed, [⟨.setNx key .claimed 60, .ok true⟩]⟩ := by
    rw [hothers 0 (by decide)]
    simp only [claimed, delivered, Broker.put_core, Phases.enter_calls]
    exact crashed_holder
  refine ⟨_, hreach.trans (ConsumerPhases.reach_io hrest), ⟨_, hcrashed⟩, ⟨_, hcall⟩, fun m => ?_⟩
  show (claimed wiped 1).messages m = _
  simp only [claimed, delivered, Broker.put_messages, wiped, crashed_messages]
  split <;> rfl

/-- After a crash and a flush the message of the reference payment is acked with
the row in the table. -/
theorem no_loss_settled : ∃ s : Queue, (∃ log, s.core.calls 0 = some ⟨delivery, .crashed, log⟩) ∧
    s.messages 0 = some ⟨body, .held 1⟩ ∧
    (HasKey ((s.put 0 body .acked).map Phase.prog).core.store key ∨
      OtherUnacked onePayment payment 0 ((s.put 0 body .acked).map Phase.prog)) := by
  obtain ⟨s, hs, hcrashed, ⟨log, hcall⟩, hmessages⟩ := settled_after_wipe
  have hheld : s.messages 0 = some ⟨body, .held 1⟩ := by rw [hmessages, if_pos rfl]
  have hdistinct : Distinct onePayment s payment := by
    refine distinct_of_body fun m msg hm => ?_
    rw [hmessages] at hm
    split at hm
    · rw [← Option.some.inj hm]
    · cases hm
  have hacked : (s.put 0 body .acked).messages 0 = some ⟨body, .acked⟩ := by simp
  refine ⟨s, hcrashed, hheld, no_loss onePayment payment instant.micros _ instant.micros 0 _
    (timed_run hs) (timed_coroutines (ConsumerPhases.step_settle hheld hcall rfl) (.inl rfl))
    ⟨genuine_payment, hdistinct.congr rfl, ⟨body, 1, _, hheld, signed_payment,
      congrArg (Option.map (Call.map Phase.prog)) hcall, fresh_payment, hacked⟩, fresh_payment⟩⟩

/-! ## A claim that outlives its call

The consumer crashes while it holds the claim, and the message is redelivered
before the claim has expired: the redelivered copy is refused as in flight and
acked, and nobody is left to settle the payment. -/

/-- The redelivered copy has lost the claim. -/
noncomputable def lost : Queue :=
  { delivered crashed 1 with
    core := Phases.enter (delivered crashed 1).core 1 delivery (.looking admitted) held
      [⟨.setNx key .claimed 60, .ok false⟩] }

theorem step_lost : ConsumerPhases.step onePayment (.io 1 .served instant.micros)
    (delivered crashed 1) = some lost := by
  have hanswer : platform.answer .served (.setNx key .claimed 60) instant.micros
      (delivered crashed 1).core.store = (held, .ok false) :=
    perform_setNx_taken (w := held) .claimed instant.micros acceptsEx_claim (by simp [held])
  rw [ConsumerPhases.step_answer (delivered_call crashed 1) rfl hanswer]
  rfl

/-- It is refused as in flight. -/
noncomputable def refused : Queue :=
  { lost with
    core := Phases.enter lost.core 1 delivery (.ended (inFlight onePayment payment)) held
      [⟨.get key, .ok (some .claimed)⟩, ⟨.setNx key .claimed 60, .ok false⟩] }

theorem step_refused : ConsumerPhases.step onePayment (.io 1 .served instant.micros) lost =
    some refused := by
  have hcall : lost.core.calls 1 = some ⟨delivery, .running (.looking admitted),
      [⟨.setNx key .claimed 60, .ok false⟩]⟩ := (Phases.enter_calls ..).trans (if_pos rfl)
  have hanswer : platform.answer .served (.get key) instant.micros lost.core.store =
      (held, .ok (some .claimed)) := by
    show perform (.get key) instant.micros held = _
    simp [perform, Redis.marker, held]
  rw [ConsumerPhases.step_answer hcall rfl hanswer]
  rfl

theorem refused_messages (m : Nat) :
    refused.messages m = if m = 0 then some ⟨body, .held 1⟩ else none := by
  simp only [refused, lost, delivered, Broker.put_messages, crashed_messages]
  split <;> rfl

/-- **A payment is lost** although nothing is flushed: the redelivered copy is
acked on the strength of the dead call's claim. -/
theorem payment_lost : ¬ LosesNothing (ι := Unit) onePayment payment
    fun l _ => l.2 ≠ .disturb .flush := by
  intro hnothing
  have hready : crashed.messages 0 = some ⟨body, .ready⟩ := by simp [crashed_messages]
  have hfree : crashed.core.calls 1 = none := crashed_call (by decide)
  have hrun : Reach (TimedConsumers.step onePayment) (fun l _ => l.2 ≠ .disturb .flush)
      (instant.micros, Broker.init) (instant.micros, refused.map Phase.prog) :=
    .next (.next (.next (.next (.next (.next (.next .start
      (by simp) (timed_coroutines step_publish (.inl rfl)))
      (by simp) (timed_coroutines (step_deliver published_message rfl) (.inr rfl)))
      (by simp) (timed_coroutines (step_claim (s := published) rfl) (.inr rfl)))
      (by simp) (timed_coroutines step_crash (.inl rfl)))
      (by simp) (timed_coroutines (step_deliver hready hfree) (.inr rfl)))
      (by simp) (timed_coroutines step_lost (.inr rfl)))
      (by simp) (timed_coroutines step_refused (.inr rfl))
  have hcall : refused.core.calls 1 = some ⟨delivery, .returned (inFlight onePayment payment),
      [⟨.get key, .ok (some .claimed)⟩, ⟨.setNx key .claimed 60, .ok false⟩]⟩ :=
    (Phases.enter_calls ..).trans (if_pos rfl)
  have hheld : refused.messages 0 = some ⟨body, .held 1⟩ := by simp [refused_messages]
  have hdistinct : Distinct onePayment refused payment := by
    refine distinct_of_body fun m msg hm => ?_
    rw [refused_messages] at hm
    split at hm
    · rw [← Option.some.inj hm]
    · cases hm
  have hacked : (refused.put 0 body .acked).messages 0 = some ⟨body, .acked⟩ := by simp
  have hlost := hnothing instant.micros _ instant.micros 0 _ hrun
    (timed_coroutines (ConsumerPhases.step_settle hheld hcall rfl) (.inl rfl))
    ⟨genuine_payment, hdistinct.congr rfl, ⟨body, 1, _, hheld, signed_payment,
      congrArg (Option.map (Call.map Phase.prog)) hcall, fresh_payment, hacked⟩, fresh_payment⟩
  rcases hlost with ⟨row, hrow, -⟩ | ⟨m, body', state, q, hne, hm, -⟩
  · cases hrow
  · have hmessage : (refused.put 0 body .acked).messages m = some ⟨body', state⟩ := hm
    rw [Broker.put_messages, if_neg hne, refused_messages, if_neg hne] at hmessage
    cases hmessage

end Payment

end MeshSettle.Theorems.NoLoss
