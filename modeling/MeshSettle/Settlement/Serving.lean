import MeshSettle.Settlement.Alone
import MeshSettle.Settlement.Consumer

/-!
# One call at a time

A call can go through while every other call stands still. What it returns and
leaves behind is then what `processAlone` computes from the state it was
started in. `Phases.run_process` says so of the processors and
`ConsumerPhases.run_message` of the consumers, whatever fails on the way;
runs are put together from such pieces.
-/

namespace MeshSettle

open Lib.Await Lib.Interleave Lib.Transition

variable {ι : Type} {env : Env}

/-- How a call with this result stands. -/
def endedStatus : Except Exc SettlementOutcome → Status Exc SettlementOutcome (Phase env)
  | .ok outcome => .returned outcome
  | .error e => .raised e

/-- The result of a call that stands so. -/
theorem result_endedStatus (d : Delivery ι) (r : Except Exc SettlementOutcome)
    (log : List IoEvent) : (⟨d, endedStatus r, log⟩ : PhaseCall ι env).result = some r := by
  cases r <;> rfl

variable [DecidableEq ι]

/-- The services after a call has ended, with its outcome counted. -/
def World.countedFor (d : Delivery ι) (r : World ι × Except Exc SettlementOutcome) : World ι :=
  match r.2 with
  | .ok outcome => r.1.recordOutcome d outcome
  | .error _ => r.1

theorem processAlone_eq (d : Delivery ι) (mode : Nat → Mode) (clock : Nat → Int) (w : World ι) :
    processAlone env d mode clock w =
      (World.countedFor d ((Phase.start env d.body d.now).exec mode clock w),
        ((Phase.start env d.body d.now).exec mode clock w).2) := by
  rw [← exec_process]
  unfold processAlone World.countedFor
  dsimp only
  split <;> simp_all

/-- The first packet of a table is admitted. -/
theorem Opened.accepted (o : Opened env) {t : SettlementTable} (h : t.rows = []) :
    t.Accepts o.row := by
  refine ⟨o.instruction.amountMinor.2.1, fun row hrow => ?_⟩
  rw [h] at hrow
  cases hrow

/-- A call in which nothing fails settles an opened packet on a free key. -/
theorem processAlone_settles {o : Opened env} {d : Delivery ι} (ho : o.toAdmitted.For d)
    (clock : Nat → Int) (hclaim : AcceptsEx env.claimTtl (clock 0))
    (hsettled : AcceptsEx env.settledTtl (clock 2)) {w : World ι} (hfree : w.redis o.key = none)
    (hfits : o.row.fits = true) (hacc : w.settlements.Accepts o.row) :
    (processAlone env d (fun _ => .served) clock w).2 =
        .ok (settledOutcome env o.packet w.settlements.nextId) ∧
      (processAlone env d (fun _ => .served) clock w).1.redis.marker o.key = some .settled ∧
      (processAlone env d (fun _ => .served) clock w).1.settlements =
        w.settlements.commit o.row (clock 1) hacc := by
  rw [processAlone_eq, ho.start, exec_settles hclaim hsettled hfree hfits hacc]
  exact ⟨rfl, by simp [World.countedFor, World.recordOutcome, Redis.marker], rfl⟩

/-- Such a call on a taken key is refused as a duplicate. -/
theorem processAlone_lost {a : Admitted env} {d : Delivery ι} (ha : a.For d)
    (clock : Nat → Int) (hclaim : AcceptsEx env.claimTtl (clock 0)) {w : World ι} {m : Marker}
    (hmarker : w.redis.marker a.key = some m) :
    (processAlone env d (fun _ => .served) clock w).2 = .ok (Phase.lostOutcome a (some m)) ∧
      (processAlone env d (fun _ => .served) clock w).1.redis = w.redis ∧
      (processAlone env d (fun _ => .served) clock w).1.settlements = w.settlements := by
  rw [processAlone_eq, ha.start, exec_lost clock hclaim hmarker]
  exact ⟨rfl, rfl, rfl⟩

/-- A state on the way of call `c` from `s`, where it had this log: the others
stand still. -/
structure OnlyCall (ok : ProcessorLabel ι → Phases ι env → Prop) (s : Phases ι env) (c : Nat)
    (d : Delivery ι) (log : List IoEvent) (s' : Phases ι env) : Prop where
  reach : Reach (Phases.step env) ok s s'
  running : ∃ ph newer, s'.calls c = some ⟨d, .running ph, newer ++ log⟩
  others : ∀ b, b ≠ c → s'.calls b = s.calls b

/-- The rest of a call goes through while the others stand still. -/
theorem Phases.run_rest (ok : ProcessorLabel ι → Phases ι env → Prop) {c : Nat} {d : Delivery ι}
    (ph : Phase env) (mode : Nat → Mode) (clock : Nat → Int) (w : World ι) :
    ∀ (s : Phases ι env) (log : List IoEvent), s.calls c = some ⟨d, ph.status, log⟩ →
      s.store = w.after d ph →
      (∀ n s', OnlyCall ok s c d log s' → ok (.io c (mode n) (clock n)) s') →
      ∃ s', Reach (Phases.step env) ok s s' ∧
        s'.calls c = some ⟨d, endedStatus (ph.exec mode clock w).2,
          (ph.trace mode clock w).reverse ++ log⟩ ∧
        (∀ b, b ≠ c → s'.calls b = s.calls b) ∧
        s'.store = World.countedFor d (ph.exec mode clock w) := by
  refine Phase.answer_induction (P := fun ph mode clock w => ∀ (s : Phases ι env) log,
    s.calls c = some ⟨d, ph.status, log⟩ → s.store = w.after d ph →
    (∀ n s', OnlyCall ok s c d log s' → ok (.io c (mode n) (clock n)) s') →
    ∃ s', Reach (Phases.step env) ok s s' ∧
      s'.calls c = some ⟨d, endedStatus (ph.exec mode clock w).2,
        (ph.trace mode clock w).reverse ++ log⟩ ∧
      (∀ b, b ≠ c → s'.calls b = s.calls b) ∧
      s'.store = World.countedFor d (ph.exec mode clock w)) ?_ ?_ ?_ ph mode clock w
  · intro o mode clock w s log hc hstore _
    exact ⟨s, .start, hc, fun b _ => rfl, hstore⟩
  · intro e mode clock w s log hc hstore _
    exact ⟨s, .start, hc, fun b _ => rfl, hstore⟩
  · intro ph op k mode clock w w' r hview hanswer ih s log hc hstore hok
    -- a phase that awaits an operation is running, and has counted nothing
    have hlive : ph.status = .running ph ∧ w.after d ph = w := by
      cases ph <;> first | exact ⟨rfl, rfl⟩ | cases hview
    rw [hlive.1] at hc
    rw [hlive.2] at hstore
    rw [Phase.exec_answer hview hanswer, Phase.trace_answer hview hanswer, List.reverse_cons,
      List.append_assoc]
    rw [← hstore] at hanswer
    have hstep := Phases.step_answer hc hview hanswer
    have hfirst : Reach (Phases.step env) ok s (s.enter c d (k r) w' (⟨op, r⟩ :: log)) :=
      .next .start (hok 0 s ⟨.start, ⟨ph, [], hc⟩, fun b _ => rfl⟩) hstep
    have hothers : ∀ b, b ≠ c → (s.enter c d (k r) w' (⟨op, r⟩ :: log)).calls b = s.calls b :=
      fun b hb => (Phases.enter_calls ..).trans (if_neg hb)
    obtain ⟨s', hreach, hcall, hothers', hstore'⟩ := ih (s.enter c d (k r) w' (⟨op, r⟩ :: log))
      (⟨op, r⟩ :: log) ((Phases.enter_calls ..).trans (if_pos rfl)) rfl fun n t ht => by
        obtain ⟨ph', newer, hrunning⟩ := ht.running
        rw [List.append_cons] at hrunning
        exact hok (n + 1) t ⟨hfirst.trans ht.reach, ⟨ph', _, hrunning⟩,
          fun b hb => (ht.others b hb).trans (hothers b hb)⟩
    exact ⟨s', hfirst.trans hreach, hcall, fun b hb => (hothers' b hb).trans (hothers b hb),
      hstore'⟩

/-- **A call goes through while the others stand still**, as it does on its own. -/
theorem Phases.run_process (ok : ProcessorLabel ι → Phases ι env → Prop) {s : Phases ι env}
    {c : Nat} {d : Delivery ι} (mode : Nat → Mode) (clock : Nat → Int)
    (hstart : ok (.start c d) s)
    (hio : ∀ n s', OnlyCall ok s c d [] s' → ok (.io c (mode n) (clock n)) s')
    (hc : s.calls c = none) :
    ∃ s', Reach (Phases.step env) ok s s' ∧
      s'.calls c = some ⟨d, endedStatus (processAlone env d mode clock s.store).2,
        (processTrace env d mode clock s.store).reverse⟩ ∧
      (∀ b, b ≠ c → s'.calls b = s.calls b) ∧
      s'.store = (processAlone env d mode clock s.store).1 := by
  have hfirst : Reach (Phases.step env) ok s
      (s.enter c d (Phase.start env d.body d.now) s.store []) :=
    .next .start hstart (Phases.step_start d hc)
  have hentered : ∀ b, b ≠ c →
      (s.enter c d (Phase.start env d.body d.now) s.store []).calls b = s.calls b :=
    fun b hb => (Phases.enter_calls ..).trans (if_neg hb)
  obtain ⟨s', hreach, hcall, hothers, hstore⟩ := Phases.run_rest ok (c := c) (d := d)
    (Phase.start env d.body d.now) mode clock s.store
    (s.enter c d (Phase.start env d.body d.now) s.store []) []
    ((Phases.enter_calls ..).trans (if_pos rfl)) rfl fun n t ht =>
      hio n t ⟨hfirst.trans ht.reach, ht.running,
        fun b hb => (ht.others b hb).trans (hentered b hb)⟩
  refine ⟨s', hfirst.trans hreach, ?_, fun b hb => (hothers b hb).trans (hentered b hb), ?_⟩
  · rw [hcall, processAlone_eq, Phase.trace_process, List.append_nil]
  · rw [hstore, processAlone_eq]

/-! ## One message at a time -/

/-- The operations of the calls are steps of the consumers. -/
theorem ConsumerPhases.reach_io {ok : BrokerLabel ι → ConsumerPhases ι env → Prop}
    {s : ConsumerPhases ι env} {core : Phases ι env}
    (h : Reach (Phases.step env) (fun l core => ∃ c mode clock, l = .io c mode clock ∧
      ok (.io c mode clock) { s with core := core }) s.core core) :
    Reach (ConsumerPhases.step env) ok s { s with core := core } := by
  induction h with
  | start => exact .start
  | next _ hok hstep ih =>
      obtain ⟨c, mode, clock, rfl, hok⟩ := hok
      exact .next ih hok (ConsumerPhases.step_io hstep)

/-- A state on the way of a message from `s`: call `c` is at work on it. -/
structure OnlyMessage (ok : BrokerLabel ι → ConsumerPhases ι env → Prop)
    (s : ConsumerPhases ι env) (c : Nat) (d : Delivery ι) (s' : ConsumerPhases ι env) : Prop where
  reach : Reach (ConsumerPhases.step env) ok s s'
  running : ∃ ph log, s'.core.calls c = some ⟨d, .running ph, log⟩

/-- The state in which a message has been delivered to a new call. -/
def ConsumerPhases.taken (s : ConsumerPhases ι env) (m c : Nat) (d : Delivery ι) :
    ConsumerPhases ι env :=
  { s with core := Phases.enter s.core c d (Phase.start env d.body d.now) s.core.store [] }.put m
    d.body (.held c)

theorem ConsumerPhases.step_taken {s : ConsumerPhases ι env} {m c : Nat} {d : Delivery ι}
    (hm : s.messages m = some ⟨d.body, .ready⟩) (hc : s.core.calls c = none) :
    ConsumerPhases.step env (.deliver m c d.processor d.now) s = some (s.taken m c d) :=
  ConsumerPhases.step_deliver hm (Phases.step_start d hc)

/-- What a message and its call have come to, when nothing else has moved. -/
structure Served (s : ConsumerPhases ι env) (m c : Nat) (d : Delivery ι) (mode : Nat → Mode)
    (clock : Nat → Int) (s' : ConsumerPhases ι env) : Prop where
  call : s'.core.calls c = some ⟨d, endedStatus (processAlone env d mode clock s.core.store).2,
    (processTrace env d mode clock s.core.store).reverse⟩
  others : ∀ b, b ≠ c → s'.core.calls b = s.core.calls b
  store : s'.core.store = (processAlone env d mode clock s.core.store).1
  messages : ∀ n, s'.messages n = if n = m then
    some ⟨d.body, (handleMessage (processAlone env d mode clock s.core.store).2).state⟩
    else s.messages n

/-- **A delivered message is worked off while the others stand still.** -/
theorem ConsumerPhases.run_taken (ok : BrokerLabel ι → ConsumerPhases ι env → Prop)
    {s : ConsumerPhases ι env} {m c : Nat} (d : Delivery ι) (mode : Nat → Mode)
    (clock : Nat → Int)
    (hio : ∀ n s', OnlyMessage ok (s.taken m c d) c d s' → ok (.io c (mode n) (clock n)) s')
    (hsettle : ∀ s', ok (.settle m) s') :
    ∃ s', Reach (ConsumerPhases.step env) ok (s.taken m c d) s' ∧ Served s m c d mode clock s' := by
  have hentered : ∀ b, b ≠ c → (s.taken m c d).core.calls b = s.core.calls b :=
    fun b hb => (Phases.enter_calls ..).trans (if_neg hb)
  have hput : ∀ n, (s.taken m c d).messages n =
      if n = m then some ⟨d.body, .held c⟩ else s.messages n :=
    fun n => Broker.put_messages ..
  -- the call goes through behind the queue
  obtain ⟨core, hreach, hcall, hothers, hstore⟩ := Phases.run_rest
    (fun l core => ∃ c' mode clock, l = .io c' mode clock ∧
      ok (.io c' mode clock) { s.taken m c d with core := core }) (c := c) (d := d)
    (Phase.start env d.body d.now) mode clock s.core.store (s.taken m c d).core []
    ((Phases.enter_calls ..).trans (if_pos rfl)) rfl fun n t ht => by
      obtain ⟨ph, newer, hrunning⟩ := ht.running
      exact ⟨c, mode n, clock n, rfl, hio n _ ⟨ConsumerPhases.reach_io ht.reach, ph, _, hrunning⟩⟩
  have hheld : ({ s.taken m c d with core := core } : ConsumerPhases ι env).messages m =
      some ⟨d.body, .held c⟩ := (hput m).trans (if_pos rfl)
  have hsettled := ConsumerPhases.step_settle hheld hcall (result_endedStatus _ _ _)
  rw [List.append_nil] at hcall
  refine ⟨_, .next (ConsumerPhases.reach_io hreach) (hsettle _) hsettled, ?_, fun b hb => ?_, ?_,
    fun n => ?_⟩
  · rw [Broker.put_core, hcall, processAlone_eq, Phase.trace_process]
  · exact (hothers b hb).trans (hentered b hb)
  · rw [Broker.put_core, hstore, processAlone_eq]
  · rw [Broker.put_messages, processAlone_eq]
    split
    · rfl
    · next hn => exact (hput n).trans (if_neg hn)

/-- **A message is worked off while the others stand still.** -/
theorem ConsumerPhases.run_message (ok : BrokerLabel ι → ConsumerPhases ι env → Prop)
    {s : ConsumerPhases ι env} {m c : Nat} (d : Delivery ι) (mode : Nat → Mode)
    (clock : Nat → Int) (hdeliver : ok (.deliver m c d.processor d.now) s)
    (hio : ∀ n s', OnlyMessage ok (s.taken m c d) c d s' → ok (.io c (mode n) (clock n)) s')
    (hsettle : ∀ s', ok (.settle m) s') (hm : s.messages m = some ⟨d.body, .ready⟩)
    (hc : s.core.calls c = none) :
    ∃ s', Reach (ConsumerPhases.step env) ok s s' ∧ Served s m c d mode clock s' := by
  obtain ⟨s', hreach, hserved⟩ := ConsumerPhases.run_taken ok d mode clock hio hsettle
  exact ⟨s', (Reach.next .start hdeliver (ConsumerPhases.step_taken hm hc)).trans hreach, hserved⟩

/-! ## A whole queue -/

/-- **A queue is worked off**, one message after the other, when each body of it is
acked by a call in which nothing fails. -/
theorem ConsumerPhases.run_queue (ok : BrokerLabel ι → ConsumerPhases ι env → Prop)
    {messages : Nat → Option Message} (i : ι) (now : Int)
    (hready : ∀ m msg, messages m = some msg → msg.state = .ready)
    (hacks : ∀ m msg, messages m = some msg → ∀ w : World ι, handleMessage
      (processAlone env ⟨i, msg.body, now⟩ (fun _ => .served) (fun _ => now) w).2 = .ack)
    (hdeliver : ∀ m c msg (s : ConsumerPhases ι env), messages m = some msg →
      s.messages m = some msg → ok (.deliver m c i now) s)
    (hio : ∀ m c msg ph log (s : ConsumerPhases ι env), messages m = some msg →
      Reach (ConsumerPhases.step env) ok (Broker.loaded messages) s →
      s.core.calls c = some ⟨⟨i, msg.body, now⟩, .running ph, log⟩ → ok (.io c .served now) s)
    (hsettle : ∀ m s, ok (.settle m) s) (n : Nat) :
    ∃ s : ConsumerPhases ι env, Reach (ConsumerPhases.step env) ok (Broker.loaded messages) s ∧
      (∀ c, n ≤ c → s.core.calls c = none) ∧
      ∀ m, s.messages m = if m < n then (messages m).map fun msg => { msg with state := .acked }
        else messages m := by
  -- message `n` goes to call `n`, which is still unused
  induction n with
  | zero => exact ⟨_, .start, fun c _ => rfl, fun m => by rw [if_neg (Nat.not_lt_zero m)]; rfl⟩
  | succ n ih =>
      obtain ⟨s, hs, hfree, hmessages⟩ := ih
      have hn : s.messages n = messages n := by rw [hmessages, if_neg (Nat.lt_irrefl n)]
      have hother : ∀ m, m ≠ n → s.messages m = if m < n + 1 then
          (messages m).map fun msg => { msg with state := .acked } else messages m := by
        intro m hm
        rw [hmessages]
        by_cases hlt : m < n
        · rw [if_pos hlt, if_pos (by omega)]
        · rw [if_neg hlt, if_neg (by omega)]
      cases hmsg : messages n with
      | none =>
          refine ⟨s, hs, fun c hc => hfree c (by omega), fun m => ?_⟩
          by_cases hm : m = n
          · rw [hm, hn, hmsg, if_pos (Nat.lt_succ_self n)]
            rfl
          · exact hother m hm
      | some msg =>
          obtain ⟨body, state⟩ := msg
          obtain rfl : state = .ready := hready n _ hmsg
          let d : Delivery ι := ⟨i, body, now⟩
          have hm := hn.trans hmsg
          have htaken : Reach (ConsumerPhases.step env) ok (Broker.loaded messages)
              (s.taken n n d) :=
            .next hs (hdeliver n n _ s hmsg hm)
              (ConsumerPhases.step_taken (d := d) hm (hfree n le_rfl))
          have hserves : ∀ (_ : Nat) t, OnlyMessage ok (s.taken n n d) n d t →
              ok (.io n .served now) t := by
            intro _ t ht
            obtain ⟨ph, log, hrunning⟩ := ht.running
            exact hio n n _ ph log t hmsg (htaken.trans ht.reach) hrunning
          obtain ⟨s', hs', hserved⟩ := ConsumerPhases.run_taken ok (s := s) (m := n) (c := n) d
            (fun _ => .served) (fun _ => now) hserves (hsettle n)
          refine ⟨s', htaken.trans hs', fun c hc => ?_, fun m => ?_⟩
          · rw [hserved.others c (by omega), hfree c (by omega)]
          · rw [hserved.messages]
            by_cases hmn : m = n
            · rw [if_pos hmn, hmn, if_pos (Nat.lt_succ_self n), hmsg, hacks n _ hmsg]
              rfl
            · rw [if_neg hmn]
              exact hother m hmn

end MeshSettle
