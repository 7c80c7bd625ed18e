import MeshSettle.Lib.Simulation
import MeshSettle.Theorems.NoPoison
import MeshSettle.Theorems.Spinning
import Mathlib.Algebra.Order.BigOperators.Group.Finset

/-!
# The queue drains

From any state, however it was reached, the consumers work off the queue once
nothing fails any more and nothing more is published: each message has seven
steps ahead of it at most, so that every schedule comes to its end, and there
every message is acked. Redis keys may go on expiring. The condition is that no
body is one of those that make the pipeline raise past its handlers.
-/

namespace MeshSettle.Theorems.Drain

open Lib.Await Lib.Interleave Lib.Transition

section Weights

variable {env : Env}

/-- The body makes no call raise past its handlers. -/
def Harmless (env : Env) (body : Bytes) : Prop :=
  ¬ BadTimestamp env.pydantic body ∧ ∀ a : Admitted env, a.body = body → ¬ NoPoison.Escapes a

/-- The steps that the message of a call has ahead of it, at most. A call that
ends to be retried is settled, delivered once more, and settled for good. -/
def phaseWeight : Phase env → Nat
  | .refusing _ => 2
  | .claiming _ => 4
  | .looking _ => 2
  | .rejecting _ => 3
  | .releasing _ => 2
  | .inserting _ => 3
  | .marking _ _ => 2
  | .recovering _ => 7
  | .ended o => if o.retryable then 6 else 1
  | .failed _ => 6

/-- The same for a call, wherever it stands. -/
def callWeight : Status Exc SettlementOutcome (Phase env) → Nat
  | .running ph => phaseWeight ph
  | .returned o => phaseWeight (.ended o : Phase env)
  | .raised e => phaseWeight (.failed e : Phase env)
  | .crashed => 0

theorem callWeight_status (ph : Phase env) : callWeight ph.status = phaseWeight ph := by
  cases ph <;> rfl

theorem phaseWeight_le (ph : Phase env) : phaseWeight ph ≤ 7 := by
  cases ph with
  | ended o =>
      show (if o.retryable then 6 else 1) ≤ 7
      split <;> omega
  | _ => simp [phaseWeight]

theorem callWeight_le (status : Status Exc SettlementOutcome (Phase env)) :
    callWeight status ≤ 7 := by
  cases status with
  | running ph => exact phaseWeight_le ph
  | returned o => exact phaseWeight_le (.ended o : Phase env)
  | raised e => exact phaseWeight_le (.failed e : Phase env)
  | crashed => exact Nat.zero_le 7

theorem phaseWeight_final {o : SettlementOutcome} (h : o.retryable = false) :
    phaseWeight (.ended o : Phase env) = 1 := by
  show (if o.retryable then 6 else 1) = 1
  rw [h]
  rfl

theorem lostOutcome_final (a : Admitted env) (marker : Option Marker) :
    (Phase.lostOutcome a marker).retryable = false := by
  unfold Phase.lostOutcome
  split <;> rfl

theorem outcome_final (o : Opened env) (id : Option Nat) : (o.outcome id).retryable = false := by
  cases id <;> rfl

/-- An operation that is served brings the call of a harmless body closer to its
end. -/
theorem Advance.lighter {ι : Type} {clock : Int} {w w' : World ι} {ph ph' : Phase env}
    {ev : IoEvent} {d : Delivery ι} (hclaim : AcceptsEx env.claimTtl clock)
    (hsettled : AcceptsEx env.settledTtl clock) (h : Advance env .served clock w ph w' ph' ev)
    (hfor : ph.For d) (hharmless : Harmless env d.body) : phaseWeight ph' < phaseWeight ph := by
  cases h with
  | @refused r _ _ _ =>
      show phaseWeight (.ended r.outcome) < 2
      rw [phaseWeight_final r.final]
      omega
  | @claimWon a _ _ _ =>
      rcases Phase.claimed_cases a with ⟨o, -, h⟩ | ⟨f, -, h⟩ | ⟨e, he, hnone, h⟩
      · rw [h]
        show 3 < 4
        omega
      · rw [h]
        show 3 < 4
        omega
      · -- what is recovered from here has escaped the handlers
        have hescapes := (NoPoison.escapes_iff a).mpr (.inl ⟨e, he, hnone⟩)
        exact absurd hescapes (hharmless.2 a hfor.1)
  | claimLost =>
      show 2 < 4
      omega
  | claimFailed hmode _ => exact absurd hclaim (hmode rfl)
  | @found a _ =>
      show phaseWeight (.ended (Phase.lostOutcome a (w.redis.marker a.key))) < 2
      rw [phaseWeight_final (lostOutcome_final a _)]
      omega
  | lookFailed hmode => exact absurd rfl hmode
  | noted =>
      show 2 < 3
      omega
  | @released f _ =>
      show phaseWeight (.ended f.outcome) < 2
      rw [phaseWeight_final rfl]
      omega
  | releaseFailed hmode _ => exact absurd rfl hmode
  | inserted =>
      show 2 < 3
      omega
  | duplicate =>
      show 2 < 3
      omega
  | @insertFailed o _ _ _ hfits _ =>
      -- a row that does not fit is poison
      have hescapes : NoPoison.Escapes o.toAdmitted := by
        have hwide := (row_fits_iff o).not.mp (by simp [hfits rfl])
        exact .inr ⟨⟨_, o.opened⟩, Nat.le_of_not_lt hwide⟩
      exact absurd hescapes (hharmless.2 o.toAdmitted hfor.1)
  | @marked o id _ _ =>
      show phaseWeight (.ended (o.outcome id)) < 2
      rw [phaseWeight_final (outcome_final o id)]
      omega
  | markFailed hmode _ => exact absurd hsettled (hmode rfl)
  | recovered =>
      show 6 < 7
      omega
  | recoverFailed hmode _ => exact absurd rfl hmode

/-- A new call of a harmless body has five steps ahead of it, less the one that
starts it. -/
theorem start_lighter {ι : Type} {d : Delivery ι} (hharmless : Harmless env d.body) :
    phaseWeight (Phase.start env d.body d.now) < 5 := by
  rcases Phase.start_cases env d with ⟨r, h⟩ | ⟨a, -, h⟩ | ⟨e, hraise, -⟩
  · rw [h]
    show 2 < 5
    omega
  · rw [h]
    show 4 < 5
    omega
  · exact absurd ((modelValidateJson_raises _ _).mp ⟨e, hraise⟩) hharmless.1

end Weights

/-! ## The weight of the queue -/

section Queue

variable {ι : Type} [DecidableEq ι] {env : Env}

/-- The steps that a message has ahead of it, at most. -/
def messageWeight (s : ConsumerPhases ι env) (m : Nat) : Nat :=
  match s.messages m with
  | some ⟨_, .ready⟩ => 5
  | some ⟨_, .held c⟩ =>
      match s.core.calls c with
      | some call => callWeight call.status
      | none => 0
  | _ => 0

/-- The steps that the first `n` messages have ahead of them. -/
def weight (n : Nat) (s : ConsumerPhases ι env) : Nat :=
  ∑ m ∈ Finset.range n, messageWeight s m

/-- Nothing fails, no operation is read later than the `horizon`, and nothing more
is published. Keys may expire. -/
def Quiet (horizon : Int) : BrokerLabel ι → Prop
  | .publish .. => False
  | .deliver .. => True
  | .io _ mode clock => mode = .served ∧ clock ≤ horizon
  | .settle _ => True
  | .crash _ => False
  | .disturb _ => True

/-- The steps that the consumers make. -/
def work : BrokerLabel ι → Nat
  | .disturb _ => 0
  | _ => 1

omit [DecidableEq ι] in
theorem messageWeight_ready {s : ConsumerPhases ι env} {m : Nat} {body : Bytes}
    (h : s.messages m = some ⟨body, .ready⟩) : messageWeight s m = 5 := by
  unfold messageWeight
  rw [h]

omit [DecidableEq ι] in
theorem messageWeight_acked {s : ConsumerPhases ι env} {m : Nat} {body : Bytes}
    (h : s.messages m = some ⟨body, .acked⟩) : messageWeight s m = 0 := by
  unfold messageWeight
  rw [h]

omit [DecidableEq ι] in
theorem messageWeight_held {s : ConsumerPhases ι env} {m c : Nat} {body : Bytes}
    {call : PhaseCall ι env} (h : s.messages m = some ⟨body, .held c⟩)
    (hc : s.core.calls c = some call) : messageWeight s m = callWeight call.status := by
  unfold messageWeight
  rw [h]
  dsimp only
  rw [hc]

omit [DecidableEq ι] in
theorem messageWeight_le (s : ConsumerPhases ι env) (m : Nat) : messageWeight s m ≤ 7 := by
  unfold messageWeight
  split
  · omega
  · split
    · exact callWeight_le _
    · omega
  · omega

omit [DecidableEq ι] in
/-- A message keeps its weight while it stays where it is and its call as it is. -/
theorem messageWeight_congr {s s' : ConsumerPhases ι env} {m : Nat}
    (hm : s'.messages m = s.messages m)
    (hcalls : ∀ body c, s.messages m = some ⟨body, .held c⟩ → s'.core.calls c = s.core.calls c) :
    messageWeight s' m = messageWeight s m := by
  unfold messageWeight
  rw [hm]
  split
  · rfl
  · next body c hheld =>
      rw [hcalls body c hheld]
  · rfl

omit [DecidableEq ι] in
/-- One message gets closer to its end, and the others stay. -/
theorem weight_lt {s s' : ConsumerPhases ι env} {n m : Nat} (hm : m < n)
    (hless : messageWeight s' m < messageWeight s m)
    (hothers : ∀ k, k ≠ m → messageWeight s' k = messageWeight s k) : weight n s' < weight n s := by
  apply Finset.sum_lt_sum
  · intro k _
    by_cases hk : k = m
    · rw [hk]
      omega
    · exact (hothers k hk).le
  · exact ⟨m, Finset.mem_range.mpr hm, hless⟩

omit [DecidableEq ι] in
theorem weight_le (n : Nat) (s : ConsumerPhases ι env) : weight n s ≤ 7 * n := by
  have hsum : weight n s ≤ ∑ _m ∈ Finset.range n, 7 :=
    Finset.sum_le_sum fun m _ => messageWeight_le s m
  rw [Finset.sum_const_nat fun _ _ => rfl, Finset.card_range] at hsum
  omega

/-- A state of the consumers with harmless messages, numbered below `n`. -/
structure Standing (n : Nat) (s : ConsumerPhases ι env) : Prop where
  reached : Reach (ConsumerPhases.step env) free (Broker.loaded fun _ => none) s
  bounded : ∀ m, n ≤ m → s.messages m = none
  harmless : ∀ m msg, s.messages m = some msg → Harmless env msg.body

theorem Standing.holding {n : Nat} {s : ConsumerPhases ι env} (h : Standing n s) : Holding s :=
  ConsumerPhases.holding empty_ready h.reached

theorem Standing.lt {n m : Nat} {s : ConsumerPhases ι env} (h : Standing n s) {msg : Message}
    (hm : s.messages m = some msg) : m < n := by
  by_contra hle
  rw [h.bounded m (Nat.le_of_not_lt hle)] at hm
  cases hm

/-- A quiet step brings no new body. -/
theorem Quiet.body_old {horizon : Int} {l : BrokerLabel ι} (hquiet : Quiet horizon l)
    {s s' : ConsumerPhases ι env} (h : BrokerStep s l s') {m : Nat} {msg' : Message}
    (hm : s'.messages m = some msg') : ∃ msg, s.messages m = some msg ∧ msg.body = msg'.body := by
  have hput : ∀ {s0 : ConsumerPhases ι env} {k body old new}, s0.messages = s.messages →
      s.messages k = some ⟨body, old⟩ → (s0.put k body new).messages m = some msg' →
      ∃ msg, s.messages m = some msg ∧ msg.body = msg'.body := by
    intro s0 k body old new hsame hold hnew
    rw [Broker.put_messages] at hnew
    split at hnew
    · next hmk =>
        subst hmk
        cases hnew
        exact ⟨_, hold, rfl⟩
    · rw [hsame] at hnew
      exact ⟨msg', hnew, rfl⟩
  cases h with
  | publish => exact hquiet.elim
  | deliver hready _ => exact hput rfl hready hm
  | io _ => exact ⟨msg', hm, rfl⟩
  | settle hheld _ _ => exact hput rfl hheld hm
  | crash => exact hquiet.elim
  | disturb _ => exact ⟨msg', hm, rfl⟩

theorem Standing.step {n : Nat} {l : BrokerLabel ι} {s s' : ConsumerPhases ι env}
    (h : Standing n s) {horizon : Int} (hquiet : Quiet horizon l)
    (hstep : ConsumerPhases.step env l s = some s') :
    Standing n s' where
  reached := .next h.reached trivial hstep
  bounded := by
    intro m hle
    cases hm : s'.messages m with
    | none => rfl
    | some msg' =>
        obtain ⟨msg, hmsg, -⟩ := hquiet.body_old (ConsumerPhases.step_cases hstep) hm
        rw [h.bounded m hle] at hmsg
        cases hmsg
  harmless := by
    intro m msg' hm
    obtain ⟨msg, hmsg, hbody⟩ := hquiet.body_old (ConsumerPhases.step_cases hstep) hm
    exact hbody ▸ h.harmless m msg hmsg

omit [DecidableEq ι] in
/-- The message of an ended call is acked, or ready to be delivered once more. -/
theorem settle_lighter {s : ConsumerPhases ι env} {m : Nat} {body : Bytes} {call : PhaseCall ι env}
    {result : Except Exc SettlementOutcome} (hresult : call.result = some result) :
    messageWeight (s.put m body (handleMessage result).state) m < callWeight call.status := by
  have hput : (s.put m body (handleMessage result).state).messages m =
      some ⟨body, (handleMessage result).state⟩ := (Broker.put_messages ..).trans (if_pos rfl)
  unfold Call.result at hresult
  split at hresult
  · next o ho =>
      cases hresult
      rw [ho]
      cases hr : o.retryable with
      | true =>
          simp only [handleMessage, hr, if_true, Disposition.state] at hput ⊢
          rw [messageWeight_ready hput]
          show 5 < phaseWeight (.ended o : Phase env)
          simp [phaseWeight, hr]
      | false =>
          simp only [handleMessage, hr, Bool.false_eq_true, if_false, Disposition.state] at hput ⊢
          rw [messageWeight_acked hput]
          show 0 < phaseWeight (.ended o : Phase env)
          rw [phaseWeight_final hr]
          omega
  · next e he =>
      cases hresult
      rw [he]
      rw [messageWeight_ready hput]
      show 5 < 6
      omega
  · cases hresult

/-- **A quiet step brings the queue closer to its end.** -/
theorem Standing.lighter {n : Nat} {l : BrokerLabel ι} {s s' : ConsumerPhases ι env}
    (h : Standing n s) {horizon : Int} (hclaim : AcceptsEx env.claimTtl horizon)
    (hsettled : AcceptsEx env.settledTtl horizon) (hquiet : Quiet horizon l)
    (hstep : ConsumerPhases.step env l s = some s') :
    weight n s' + work l ≤ weight n s := by
  have hs := h.holding
  cases ConsumerPhases.step_cases hstep with
  | publish => exact hquiet.elim
  | crash => exact hquiet.elim
  | @deliver m c i now body core hm hcore =>
      cases Phases.step_cases hcore with
      | start hc =>
          refine Nat.succ_le_of_lt (weight_lt (h.lt hm) ?_ fun k hk => ?_)
          · -- a new call has the message
            have hnew := messageWeight_held (s := Broker.put { s with
                core := Phases.enter s.core c ⟨i, body, now⟩ (Phase.start env body now) s.core.store
                  [] } m body (.held c)) ((Broker.put_messages ..).trans (if_pos rfl))
              ((Phases.enter_calls ..).trans (if_pos rfl))
            rw [messageWeight_ready hm]
            refine hnew.trans_lt ?_
            rw [callWeight_status]
            exact start_lighter (d := ⟨i, body, now⟩) (h.harmless m _ hm)
          · apply messageWeight_congr
            · rw [Broker.put_messages, if_neg hk]
            · intro body' b hheld
              obtain ⟨call, hcall, -⟩ := hs.held k body' b hheld
              have hne : b ≠ c := by
                rintro rfl
                rw [hc] at hcall
                cases hcall
              exact (Phases.enter_calls ..).trans (if_neg hne)
  | @io c mode clock core hcore =>
      obtain ⟨rfl, hclock⟩ := hquiet
      cases Phases.step_cases hcore with
      | @io _ _ _ d ph ph' log w' ev hc hadv =>
          obtain ⟨m, hm⟩ := hs.running c _ ph hc rfl
          have hfor : ph.For d := Phases.coherent (ConsumerPhases.reach_core h.reached) c _ hc
          refine Nat.succ_le_of_lt (weight_lt (h.lt hm) ?_ fun k hk => ?_)
          · have hnew := messageWeight_held
              (s := { s with core := Phases.enter s.core c d ph' w' (ev :: log) }) hm
              ((Phases.enter_calls ..).trans (if_pos rfl))
            rw [messageWeight_held hm hc]
            refine hnew.trans_lt ?_
            rw [callWeight_status]
            exact Advance.lighter (hclaim.earlier hclock) (hsettled.earlier hclock) hadv hfor
              (h.harmless m _ hm)
          · refine messageWeight_congr rfl fun body' b hheld => ?_
            -- no other message is held by the call
            have hne : b ≠ c := by
              rintro rfl
              exact hk (hs.exclusive k m _ _ b hheld hm)
            exact (Phases.enter_calls ..).trans (if_neg hne)
  | @settle m c body call result hm hc hresult =>
      refine Nat.succ_le_of_lt (weight_lt (h.lt hm) ?_ fun k hk => ?_)
      · rw [messageWeight_held hm hc]
        exact settle_lighter hresult
      · apply messageWeight_congr
        · rw [Broker.put_messages, if_neg hk]
        · intro body' b _
          rfl
  | disturb hcore =>
      cases Phases.step_cases hcore with
      | disturb => exact Nat.le_refl _

/-! ## The end of a run -/

/-- There is always a number for a new call. -/
theorem free_call {ok : ProcessorLabel ι → Phases ι env → Prop} {s : Phases ι env}
    (h : Reach (Phases.step env) ok Phases.init s) : ∃ n, ∀ c, n ≤ c → s.calls c = none := by
  refine h.invariant (P := fun s : Phases ι env => ∃ n, ∀ c, n ≤ c → s.calls c = none) ?_ ?_
  · exact ⟨0, fun c _ => rfl⟩
  · intro s l s' _ ih _ hstep
    obtain ⟨n, hn⟩ := ih
    have henter : ∀ c d ph w log, ∃ n, ∀ b, n ≤ b →
        (Phases.enter s c d ph w log).calls b = none := by
      intro c d ph w log
      refine ⟨max n (c + 1), fun b hb => ?_⟩
      rw [Phases.enter_calls, if_neg (by omega)]
      exact hn b (by omega)
    cases Phases.step_cases hstep with
    | start _ => exact henter _ _ _ _ _
    | io _ _ => exact henter _ _ _ _ _
    | crash =>
        refine ⟨n, fun c hc => ?_⟩
        dsimp only
        rw [hn c hc]
        rfl
    | disturb => exact ⟨n, hn⟩

/-- **Where the consumers have nothing left to do, every message is acked.** -/
theorem Standing.acked [Nonempty ι] {n : Nat} {s : ConsumerPhases ι env} (h : Standing n s)
    (horizon : Int)
    (hstuck : ∀ l, Quiet horizon l → 0 < work l → ConsumerPhases.step env l s = none)
    {m : Nat} {msg : Message} (hm : s.messages m = some msg) : msg.state = .acked := by
  have hcore := ConsumerPhases.reach_core h.reached
  obtain ⟨body, state⟩ := msg
  cases state with
  | acked => rfl
  | ready =>
      -- a ready message can be delivered
      obtain ⟨b, hb⟩ := free_call hcore
      have hnew : s.core.calls b = none := hb b le_rfl
      have hstart := Phases.step_start ⟨Classical.arbitrary ι, body, 0⟩ hnew
      have hdeliver := ConsumerPhases.step_deliver hm hstart
      cases hdeliver.symm.trans (hstuck (.deliver m b _ 0) trivial Nat.one_pos)
  | held c =>
      obtain ⟨⟨d, status, log⟩, hc, -, hlive⟩ := h.holding.held m body c hm
      cases status with
      | crashed => exact absurd rfl hlive
      | running ph =>
          -- a running call can go on
          obtain ⟨op, k, hview⟩ := Phase.live_view (Spinning.running_live hcore hc rfl)
          have hio := ConsumerPhases.step_io (Phases.step_io .served horizon hc hview)
          cases hio.symm.trans (hstuck (.io c .served horizon) ⟨rfl, le_rfl⟩ Nat.one_pos)
      | returned o =>
          have hresult : (⟨d, .returned o, log⟩ : PhaseCall ι env).result = some (.ok o) := rfl
          have hsettle := ConsumerPhases.step_settle hm hc hresult
          cases hsettle.symm.trans (hstuck (.settle m) trivial Nat.one_pos)
      | raised e =>
          have hresult : (⟨d, .raised e, log⟩ : PhaseCall ι env).result = some (.error e) := rfl
          have hsettle := ConsumerPhases.step_settle hm hc hresult
          cases hsettle.symm.trans (hstuck (.settle m) trivial Nat.one_pos)

/-- A quiet run of the coroutines is one of the phases. -/
theorem run_phases {ls : List (BrokerLabel ι)} {s : ConsumerPhases ι env} {t : Consumers ι}
    (h : run (Consumers.step env) ls (s.map Phase.prog) = some t) :
    ∃ s', t = s'.map Phase.prog ∧ run (ConsumerPhases.step env) ls s = some s' := by
  have hmap : run (Consumers.step env) ls (s.map Phase.prog) =
      (run (ConsumerPhases.step env) ls s).map (Broker.map Phase.prog) :=
    run_map (Broker.map Phase.prog) (fun l s => Broker.step_map (processCode_same env) l s) ls s
  obtain ⟨s', hs', rfl⟩ := Option.map_eq_some_iff.mp (hmap.symm.trans h)
  exact ⟨s', rfl, hs'⟩

/-- Every message has been acked. -/
def Drained (s : Consumers ι) : Prop := ∀ m msg, s.messages m = some msg → msg.state = .acked

/-- **The queue drains.** From a state that was reached in any way, with harmless
messages numbered below `n`, the consumers make `7 * n` steps at most once
nothing fails and nothing more is published, as long as Redis takes both lifetimes;
where they can make no further step the queue is drained; and from every state on
the way there it can be. -/
theorem queue_drains [Nonempty ι] {horizon : Int} (hclaim : AcceptsEx env.claimTtl horizon)
    (hsettled : AcceptsEx env.settledTtl horizon) {n : Nat} {s : Consumers ι}
    (h : Reach (Consumers.step env) free Broker.init s)
    (hbounded : ∀ m, n ≤ m → s.messages m = none)
    (hharmless : ∀ m msg, s.messages m = some msg → Harmless env msg.body)
    {ls : List (BrokerLabel ι)} {s' : Consumers ι} (hquiet : ∀ l ∈ ls, Quiet horizon l)
    (hrun : run (Consumers.step env) ls s = some s') :
    (ls.map work).sum ≤ 7 * n ∧
      ((∀ l, Quiet horizon l → 0 < work l → Consumers.step env l s' = none) → Drained s') ∧
      ∃ ks t, (∀ l ∈ ks, Quiet horizon l) ∧ run (Consumers.step env) ks s' = some t ∧
        Drained t := by
  have hloaded : Reach (Consumers.step env) free (Broker.loaded fun _ => none) s := h
  obtain ⟨s, rfl, hr⟩ := Consumers.reach_phases hloaded
  obtain ⟨s', rfl, hrun'⟩ := run_phases hrun
  have hstand : Standing n s := ⟨hr.free, hbounded, hharmless⟩
  have hstep : ∀ (s : ConsumerPhases ι env) l s', Standing n s → Quiet horizon l →
      ConsumerPhases.step env l s = some s' → Standing n s' ∧ weight n s' + work l ≤ weight n s :=
    fun s l s' hs hl hstep => ⟨hs.step hl hstep, hs.lighter hclaim hsettled hl hstep⟩
  obtain ⟨hstand', hcost⟩ := run_cost_le hstep hstand hquiet hrun'
  refine ⟨?_, fun hstuck m msg hm => ?_, ?_⟩
  · have hle := weight_le n s
    omega
  · refine hstand'.acked horizon (fun l hl hw => ?_) hm
    have hnone := hstuck l hl hw
    cases hs : ConsumerPhases.step env l s' with
    | none => rfl
    | some t =>
        rw [ConsumerPhases.step_coroutines hs] at hnone
        cases hnone
  · obtain ⟨ks, t, hks, hrunk, hstandt, hstuck⟩ := exists_stuck hstep hstand'
    refine ⟨ks, t.map Phase.prog, hks, ?_, fun m msg hm => hstandt.acked horizon hstuck hm⟩
    have hmap : run (Consumers.step env) ks (s'.map Phase.prog) =
        (run (ConsumerPhases.step env) ks s').map (Broker.map Phase.prog) :=
      run_map (Broker.map Phase.prog) (fun l s => Broker.step_map (processCode_same env) l s) ks s'
    rw [hmap, hrunk]
    rfl

end Queue

/-! ## The reference payment -/

section Payment

open Reference

theorem harmless_payment : Harmless onePayment body := by
  constructor
  · intro hbad
    obtain ⟨e, he⟩ := (modelValidateJson_raises _ _).mpr hbad
    cases body_payment.symm.trans he
  · intro a ha hescapes
    have hpacket : a.packet = payment :=
      Except.ok.inj (a.parsed.symm.trans (ha ▸ body_payment))
    have hopened : a.packet.opened onePayment = .ok instruction := hpacket ▸ opened_packet
    rcases (NoPoison.escapes_iff a).mp hescapes with ⟨e, he, -⟩ | ⟨-, hhops⟩
    · cases hopened.symm.trans he
    · rw [hpacket] at hhops
      revert hhops
      decide

/-- The claim of the reference payment has been won, in two steps of seven. -/
theorem queue_drains_payment :
    2 ≤ 7 * 1 ∧ ∃ ks t, (∀ l ∈ ks, Quiet (instant.micros : Int) l) ∧
      run (Consumers.step onePayment) ks ((claimed published 0).map Phase.prog) = some t ∧
        Drained t := by
  have hreach : Reach (Consumers.step onePayment) free Broker.init (published.map Phase.prog) :=
    .next .start trivial (ConsumerPhases.step_coroutines step_publish)
  have hmessages : ∀ m msg, (published.map Phase.prog).messages m = some msg →
      m = 0 ∧ msg = ⟨body, .ready⟩ := by
    intro m msg hm
    have hput : published.messages m = some msg := hm
    simp only [published, Broker.put_messages] at hput
    split at hput
    · next h => exact ⟨h, (Option.some.inj hput).symm⟩
    · cases hput
  have hrun : run (Consumers.step onePayment) [.deliver 0 0 () instant.micros,
      .io 0 .served instant.micros] (published.map Phase.prog) =
        some ((claimed published 0).map Phase.prog) := by
    have hdeliver := ConsumerPhases.step_coroutines (step_deliver (s := published) (c := 0) rfl rfl)
    have hclaim := ConsumerPhases.step_coroutines (step_claim (s := published) (c := 0) rfl)
    rw [run_cons, hdeliver, Option.bind_some, run_cons, hclaim]
    rfl
  have hbounded : ∀ m, 1 ≤ m → (published.map Phase.prog).messages m = none := by
    intro m hm
    cases hmsg : (published.map Phase.prog).messages m with
    | none => rfl
    | some msg =>
        have hzero := (hmessages m msg hmsg).1
        omega
  have hquiet : ∀ l ∈ [BrokerLabel.deliver 0 0 () instant.micros, .io 0 .served instant.micros],
      Quiet (instant.micros : Int) l := by
    intro l hl
    rcases List.mem_cons.mp hl with rfl | hl
    · trivial
    · rw [List.mem_singleton.mp hl]
      exact ⟨rfl, le_rfl⟩
  have hharmless : ∀ m msg, (published.map Phase.prog).messages m = some msg →
      Harmless onePayment msg.body := by
    intro m msg hm
    rw [(hmessages m msg hm).2]
    dsimp only
    exact harmless_payment
  obtain ⟨hbound, -, hend⟩ := queue_drains acceptsEx_claim acceptsEx_settled hreach hbounded
    hharmless hquiet hrun
  exact ⟨hbound, hend⟩

end Payment

end MeshSettle.Theorems.Drain
