import MeshSettle.Settlement.Alone
import MeshSettle.Settlement.Columns
import MeshSettle.Settlement.Coverage
import MeshSettle.Settlement.Reference
import MeshSettle.Settlement.Serving

/-!
# Recovery converges

Whatever a run has left behind for a key (a row without a marker, a marker
without a row, neither or both), one delivery in which nothing fails repairs
it, provided nobody works on the key and no claim is left on it: the message
is acked, the packet has its one row, and the marker says settled. Afterwards
copies change nothing while the marker lives.
-/

namespace MeshSettle.Theorems.Convergence

open Lib.Await Lib.Interleave Lib.Transition

variable {ι : Type} {env : Env} {p : PaymentPacket}

/-- The body holds a packet with this key. -/
def KeyedBody (env : Env) (key : String) (body : Bytes) : Prop :=
  ∃ q, PaymentPacket.modelValidateJson env.pydantic body = .ok q ∧
    q.idempotencyKey env.prim = key

/-- No call is working on the key. -/
def Idle {P : Type} (env : Env) (key : String) (s : Broker ι P) : Prop :=
  ∀ c call prog, s.core.calls c = some call → call.status = .running prog →
    ¬ KeyedBody env key call.tag.body

/-- Nothing of the call failed. -/
def FailureFree (log : List IoEvent) : Prop := ∀ ev ∈ log, ¬ CutShort ev

/-- A step beside a delivery of the key by processor `i`: the processor does not
crash, the key is neither evicted nor flushed nor delivered again. -/
def Beside {P : Type} (env : Env) (key : String) (i : ι) : BrokerLabel ι → Broker ι P → Prop
  | .deliver m _ _ _, s => ∀ body state, s.messages m = some ⟨body, state⟩ →
      ¬ KeyedBody env key body
  | .crash j, _ => j ≠ i
  | .disturb (.expire key'), _ => key' ≠ key
  | .disturb .flush, _ => False
  | _, _ => True

/-- A copy carries the packet's key. -/
theorem IsCopy.keyed {body : Bytes} (h : IsCopy env p body) :
    KeyedBody env (p.idempotencyKey env.prim) body := by
  obtain ⟨q, ⟨hparse, -⟩, hsame⟩ := h
  exact ⟨q, hparse, (alike_of_signingBytes env hsame).key⟩

/-- What a run has made sure of: the marker is backed, and a row with the
packet's id has its key. -/
structure Sound (env : Env) (p : PaymentPacket) (w : World ι) : Prop where
  marker : w.redis.marker (p.idempotencyKey env.prim) = some .settled →
    HasKey w (p.idempotencyKey env.prim)
  packet : HasPacket w p.packetId → HasKey w (p.idempotencyKey env.prim)

/-- How far a delivery in which nothing has failed has come. -/
def Stage (env : Env) (p : PaymentPacket) (w : World ι) :
    Status Exc SettlementOutcome (Phase env) → Prop
  | .running (.claiming _) => w.redis.marker (p.idempotencyKey env.prim) ≠ some .claimed
  | .running (.looking _) => w.redis.marker (p.idempotencyKey env.prim) = some .settled
  | .running (.inserting _) => True
  | .running (.marking _ _) => HasKey w (p.idempotencyKey env.prim)
  | .returned o => o.retryable = false ∧ HasKey w (p.idempotencyKey env.prim) ∧
      w.redis.marker (p.idempotencyKey env.prim) = some .settled
  | _ => False

/-- What happens beside the delivery leaves its stage. -/
theorem Stage.frame {w w' : World ι} {status : Status Exc SettlementOutcome (Phase env)}
    (h : Stage env p w status)
    (hredis : w'.redis (p.idempotencyKey env.prim) = w.redis (p.idempotencyKey env.prim))
    (hrows : w.settlements.rows <+: w'.settlements.rows) : Stage env p w' status := by
  have hmarker : w'.redis.marker (p.idempotencyKey env.prim) =
      w.redis.marker (p.idempotencyKey env.prim) := by
    unfold Redis.marker
    rw [hredis]
  unfold Stage at h ⊢
  split
  · rw [hmarker]; exact h
  · rw [hmarker]; exact h
  · trivial
  · exact HasKey.mono hrows h
  · rw [hmarker]; exact ⟨h.1, HasKey.mono hrows h.2.1, h.2.2⟩
  · split at h <;> simp_all

/-- **One operation that does not fail** takes the delivery to its next stage. -/
theorem Stage.advance (hp : Genuine env p) {mode : Mode} {clock : Int} {w w' : World ι}
    {ph ph' : Phase env} {ev : IoEvent} (hadv : Advance env mode clock w ph w' ph' ev)
    {d : Delivery ι} (hfor : ph.For d) (hcopy : IsCopy env p d.body) (hsound : Sound env p w)
    (h : Stage env p w (.running ph)) (hclean : ¬ CutShort ev) : Stage env p w' ph'.status := by
  have halike : ∀ {a : Admitted env}, a.For d → Alike env p a.packet :=
    fun ha => alike_of_signingBytes env (hcopy.admitted ha)
  cases hadv with
  | @claimWon a =>
      obtain ⟨o, -, hinsert⟩ := hp.claimed (hcopy.admitted hfor)
      rw [hinsert]
      trivial
  | @claimLost a _ _ htaken =>
      -- the key is taken and not claimed, so it is settled
      have hkey : a.key = p.idempotencyKey env.prim := (halike hfor).key
      obtain ⟨entry, hentry⟩ := Option.ne_none_iff_exists'.mp (hkey ▸ htaken)
      have hmarker : w.redis.marker (p.idempotencyKey env.prim) = some entry.value := by
        rw [Redis.marker, hentry, Option.map_some]
      show w.redis.marker (p.idempotencyKey env.prim) = some .settled
      cases hvalue : entry.value with
      | settled => rw [hmarker, hvalue]
      | claimed => exact absurd (hvalue ▸ hmarker) h
  | @found a =>
      have hmarker : w.redis.marker (p.idempotencyKey env.prim) = some .settled := h
      have hkey : a.key = p.idempotencyKey env.prim := (halike hfor).key
      rw [hkey, hmarker]
      exact ⟨rfl, hsound.marker hmarker, hmarker⟩
  | @inserted o hacc =>
      have hkey : o.key = p.idempotencyKey env.prim := (halike hfor).key
      show HasKey _ _
      rw [← hkey]
      exact hasKey_commit w o.row clock hacc
  | @duplicate o _ _ hrefused =>
      have hkey : o.key = p.idempotencyKey env.prim := (halike hfor).key
      show HasKey w _
      rcases refused_taken hrefused with htaken | htaken
      · exact hkey ▸ htaken
      · exact hsound.packet ((halike hfor).id ▸ htaken)
  | @insertFailed o w' e he =>
      refine absurd ?_ hclean
      cases e with
      | integrityError => exact absurd rfl he
      | _ => trivial
  | @marked o id =>
      have hkey : o.key = p.idempotencyKey env.prim := (halike hfor).key
      refine ⟨by cases id <;> rfl, h, ?_⟩
      simp [Redis.marker, hkey]
  | claimFailed => exact absurd trivial hclean
  | lookFailed => exact absurd trivial hclean
  | markFailed => exact absurd trivial hclean
  | _ => exact h.elim

/-- A delivery of message `m` by call `c`, on its way: unless something of it
failed, it is at a stage and holds the message, or has acked it. -/
structure Underway (p : PaymentPacket) (m c : Nat) (d : Delivery ι)
    (s : ConsumerPhases ι env) : Prop where
  mine : ∃ status log, s.core.calls c = some ⟨d, status, log⟩ ∧ (FailureFree log →
    Stage env p s.core.store status ∧ (s.messages m = some ⟨d.body, .held c⟩ ∨
      s.messages m = some ⟨d.body, .acked⟩ ∧ ∃ o, status = .returned o))
  others : ∀ b call ph, b ≠ c → s.core.calls b = some call → call.status = .running ph →
    ¬ KeyedBody env (p.idempotencyKey env.prim) call.tag.body

/-- Another delivery's packet has another key. -/
theorem other_key {d : Delivery ι} {key : String} (h : ¬ KeyedBody env key d.body) :
    ∀ a : Admitted env, a.For d → a.key ≠ key :=
  fun a ha hkey => h ⟨a.packet, ha.1 ▸ a.parsed, hkey⟩

/-- The operations a stage has ahead of it, at most. -/
def remaining : Phase env → Nat
  | .claiming _ => 3
  | .inserting _ => 2
  | .looking _ => 1
  | .marking _ _ => 1
  | _ => 0

/-- With the services at work, the next operation does not fail and there is
less ahead. -/
theorem Advance.served {mode : Mode} {clock : Int} {w w' : World ι} {ph ph' : Phase env}
    {ev : IoEvent} (hadv : Advance env mode clock w ph w' ph' ev) (hmode : mode = .served)
    (hclaim : AcceptsEx env.claimTtl clock) (hsettled : AcceptsEx env.settledTtl clock)
    (hfits : ∀ o, ph = .inserting o → o.row.fits = true) (hp : Genuine env p) {d : Delivery ι}
    (hfor : ph.For d) (hcopy : IsCopy env p d.body) (h : Stage env p w (.running ph)) :
    ¬ CutShort ev ∧ remaining ph' < remaining ph := by
  cases hadv with
  | @claimWon a =>
      obtain ⟨o, -, hinsert⟩ := hp.claimed (hcopy.admitted hfor)
      rw [hinsert]
      exact ⟨id, by simp [remaining]⟩
  | claimLost => exact ⟨id, by simp [remaining]⟩
  | claimFailed hm => exact absurd hclaim (hm hmode)
  | found => exact ⟨id, by simp [remaining]⟩
  | lookFailed hm => exact absurd hmode hm
  | inserted => exact ⟨id, by simp [remaining]⟩
  | duplicate => exact ⟨id, by simp [remaining]⟩
  | @insertFailed o w' e _ hm =>
      have hno := hm hmode
      rw [hfits o rfl] at hno
      cases hno
  | marked => exact ⟨id, by simp [remaining]⟩
  | markFailed hm => exact absurd hsettled (hm hmode)
  | _ => exact h.elim

/-- No call is working on the key, seen on phases. -/
theorem Idle.of_map {key : String} {s : ConsumerPhases ι env}
    (h : Idle env key (s.map Phase.prog)) : Idle env key s := by
  intro c call ph hc hph
  refine h c (call.map Phase.prog) ph.prog ?_ ?_
  · exact congrArg (Option.map (Call.map Phase.prog)) hc
  · rw [Call.map, hph]
    rfl

theorem Idle.map {key : String} {s : ConsumerPhases ι env} (h : Idle env key s) :
    Idle env key (s.map Phase.prog) := by
  intro c call prog hc hprog
  obtain ⟨call', hc', rfl⟩ := State.of_map_calls hc
  obtain ⟨ph, hph, -⟩ := Status.map_eq_running hprog
  exact h c call' ph hc' hph

/-- A call that has not got past its claim. -/
def BeforeClaim : Phase env → Prop
  | .refusing _ => True
  | .claiming _ => True
  | .looking _ => True
  | _ => False

/-- Before its claim, a call whose key is taken touches neither Redis nor the
settlements. -/
theorem Advance.beforeClaim {mode : Mode} {clock : Int} {w w' : World ι} {ph ph' : Phase env}
    {ev : IoEvent} (hadv : Advance env mode clock w ph w' ph' ev) (h : BeforeClaim ph)
    {d : Delivery ι} (hfor : ph.For d)
    (htaken : ∀ a : Admitted env, a.For d → w.redis a.key ≠ none) :
    w'.redis = w.redis ∧ w'.settlements = w.settlements ∧
      ∀ q, ph'.status = .running q → BeforeClaim q := by
  cases hadv with
  | refused hw => obtain ⟨rows, rfl⟩ := hw; exact ⟨rfl, rfl, fun q hq => by cases hq⟩
  | claimWon _ _ hfree => exact absurd hfree (htaken _ hfor)
  | claimLost => exact ⟨rfl, rfl, fun q hq => by cases hq; trivial⟩
  | claimFailed _ hw =>
      rcases hw with rfl | ⟨hfree, -⟩
      · exact ⟨rfl, rfl, fun q hq => by cases hq⟩
      · exact absurd hfree (htaken _ hfor)
  | found => exact ⟨rfl, rfl, fun q hq => by cases hq⟩
  | lookFailed => exact ⟨rfl, rfl, fun q hq => by cases hq⟩
  | _ => exact h.elim

variable [DecidableEq ι]

/-- A fresh copy, delivered while nobody works on the key and no claim is left,
is on its way. -/
theorem Underway.start (hp : Genuine env p) {s s' : ConsumerPhases ι env}
    (hidle : Idle env (p.idempotencyKey env.prim) s)
    (hmarker : s.core.store.redis.marker (p.idempotencyKey env.prim) ≠ some .claimed)
    {m c : Nat} {i : ι} {now : Int} {body : Bytes} (hm : s.messages m = some ⟨body, .ready⟩)
    (hcopy : IsCopy env p body) (hfresh : staleness env p now = none)
    (hstep : BrokerStep s (.deliver m c i now) s') : Underway p m c ⟨i, body, now⟩ s' ∧
      ∃ a, s'.core.calls c = some ⟨⟨i, body, now⟩, .running (.claiming a), []⟩ := by
  cases hstep with
  | @deliver _ _ _ _ body' core hn hcore =>
      rw [hm] at hn
      cases hn
      cases Phases.step_cases hcore with
      | start hc =>
          obtain ⟨a, -, hstart⟩ := @Genuine.admits ι env p hp ⟨i, body, now⟩ hcopy hfresh
          have hclaiming : Phase.start env body now = .claiming a := hstart
          have hcall : (Phases.enter s.core c ⟨i, body, now⟩ (Phase.start env body now)
              s.core.store []).calls c = some ⟨⟨i, body, now⟩, .running (.claiming a), []⟩ := by
            rw [Phases.enter_calls, if_pos rfl, hclaiming]
            rfl
          refine ⟨⟨⟨.running (.claiming a), [], hcall, fun _ => ⟨?_, .inl (by simp)⟩⟩, ?_⟩, a,
            hcall⟩
          · simpa [Stage, Phases.enter] using hmarker
          · intro b call ph hbc hb hph
            simp only [Broker.put_core, Phases.enter_calls, if_neg hbc] at hb
            exact hidle b call ph hb hph

/-- **The delivery stays on its way**, by every step beside it. -/
theorem Underway.step (hp : Genuine env p) {m c : Nat} {d : Delivery ι}
    (hcopy : IsCopy env p d.body) {l : BrokerLabel ι} {s s' : ConsumerPhases ι env}
    (h : Underway p m c d s) (hr : Reach (Phases.step env) free Phases.init s.core)
    (hsound : Sound env p s.core.store)
    (hok : Beside env (p.idempotencyKey env.prim) d.processor l s) (hstep : BrokerStep s l s') :
    Underway p m c d s' := by
  obtain ⟨⟨status, log, hc, hmine⟩, hothers⟩ := h
  cases hstep with
  | @publish n body hn =>
      refine ⟨⟨status, log, hc, fun hclean => ⟨(hmine hclean).1, ?_⟩⟩, hothers⟩
      have hne : m ≠ n := by
        rintro rfl
        rcases (hmine hclean).2 with hm | ⟨hm, -⟩ <;> rw [hn] at hm <;> cases hm
      simpa [hne] using (hmine hclean).2
  | @deliver n b i now body core hn hcore =>
      cases Phases.step_cases hcore with
      | start hb =>
          have hbc : c ≠ b := by rintro rfl; rw [hb] at hc; cases hc
          have hother := hok body .ready hn
          refine ⟨⟨status, log, ?_, fun hclean => ⟨?_, ?_⟩⟩, ?_⟩
          · simpa [Phases.enter_calls, hbc] using hc
          · exact (hmine hclean).1.frame (by simp [Phases.enter]) (by simp [Phases.enter])
          · have hne : m ≠ n := by
              rintro rfl
              rcases (hmine hclean).2 with hm | ⟨hm, -⟩ <;> rw [hn] at hm <;> cases hm
            simpa [hne] using (hmine hclean).2
          · intro e call ph hec he hph
            simp only [Broker.put_core, Phases.enter_calls] at he
            split at he
            · cases he
              exact hother
            · exact hothers e call ph hec he hph
  | @io b mode clock core hcore =>
      cases Phases.step_cases hcore with
      | @io _ _ _ d' ph ph' log' w' ev hb hadv =>
          have hfor : ph.For d' := Phases.coherent hr b _ hb
          by_cases hbc : b = c
          · -- a step of the delivery: clean so far if it is clean now
            subst hbc
            rw [hc] at hb
            cases hb
            refine ⟨⟨ph'.status, ev :: log, ?_, fun hclean => ?_⟩, ?_⟩
            · rw [Phases.enter_calls, if_pos rfl]
            · obtain ⟨hstage, hm⟩ := hmine fun e he => hclean e (List.mem_cons_of_mem _ he)
              have hnext := hstage.advance hp hadv hfor hcopy hsound
                (hclean ev List.mem_cons_self)
              refine ⟨hnext.frame (by simp [Phases.enter]) (by simp [Phases.enter]), .inl ?_⟩
              rcases hm with hm | ⟨-, o, ho⟩
              · exact hm
              · cases ho
            · intro e call ph0 hec he hph
              rw [Phases.enter_calls, if_neg hec] at he
              exact hothers e call ph0 hec he hph
          · -- the others work on other keys
            have hother := hothers b _ ph hbc hb rfl
            refine ⟨⟨status, log, ?_, fun hclean => ⟨?_, (hmine hclean).2⟩⟩, ?_⟩
            · rw [Phases.enter_calls, if_neg (Ne.symm hbc)]
              exact hc
            · refine (hmine hclean).1.frame ?_ (Phases.step_cases hcore).rows_grow
              simpa [Phases.enter] using hadv.redis_frame hfor (other_key hother)
            · intro e call ph0 hec he hph
              rw [Phases.enter_calls] at he
              split at he
              · cases he
                exact hother
              · exact hothers e call ph0 hec he hph
  | @settle n b body call result hn hb hresult =>
      refine ⟨⟨status, log, hc, fun hclean => ⟨(hmine hclean).1, ?_⟩⟩, hothers⟩
      by_cases hmn : m = n
      · subst hmn
        rcases (hmine hclean).2 with hm | ⟨hm, -⟩
        · -- the call of the delivery has returned, and is not to be retried
          rw [hn] at hm
          cases hm
          rw [hc] at hb
          cases hb
          have hstage := (hmine hclean).1
          cases status with
          | returned o =>
              cases hresult
              refine .inr ⟨?_, o, rfl⟩
              simp [handleMessage, hstage.1, Disposition.state]
          | raised e => exact hstage.elim
          | running ph => cases hresult
          | crashed => cases hresult
        · rw [hn] at hm
          cases hm
      · simpa [hmn] using (hmine hclean).2
  | @crash j core hcore =>
      cases Phases.step_cases hcore with
      | crash =>
          -- only other processors crash
          have hne : d.processor ≠ j := Ne.symm hok
          refine ⟨⟨status, log, ?_, fun hclean => ⟨(hmine hclean).1, ?_⟩⟩, ?_⟩
          · have hkeep : (⟨d, status, log⟩ : PhaseCall ι env).crashOn platform j =
                ⟨d, status, log⟩ := if_neg hne
            simp only [hc, Option.map_some, hkeep]
          · have hrun : RunsOn s.core j c = false := by simp [RunsOn, hc, hne]
            rcases (hmine hclean).2 with hm | ⟨hm, ho⟩
            · left
              simp [hm, Message.returned, hrun]
            · refine .inr ⟨?_, ho⟩
              simp [hm, Message.returned]
          · intro e call ph hec he hph
            obtain ⟨old, hold, rfl⟩ := Option.map_eq_some_iff.mp he
            rcases Call.crashOn_cases platform j old with heq | ⟨-, -, -, heq⟩
            · rw [heq] at hph ⊢
              exact hothers e old ph hec hold hph
            · rw [heq] at hph
              cases hph
  | @disturb e core hcore =>
      cases Phases.step_cases hcore with
      | disturb =>
          refine ⟨⟨status, log, hc, fun hclean => ⟨?_, (hmine hclean).2⟩⟩, hothers⟩
          refine (hmine hclean).1.frame ?_ (Phases.step_cases hcore).rows_grow
          cases e with
          | flush => exact hok.elim
          | expire key' => exact Function.update_of_ne (Ne.symm hok) _ _

/-! ## The delivery runs to its end -/

/-- What a run has made sure of. -/
theorem sound_of_reach {ok : BrokerLabel ι → ConsumerPhases ι env → Prop}
    {s : ConsumerPhases ι env} (h : Reach (ConsumerPhases.step env) ok Broker.init s)
    (hd : Distinct env s p) : Sound env p s.core.store where
  marker := (ConsumerPhases.backed empty_ready h hd).marker
  packet := hasKey_of_packetId (ConsumerPhases.holding empty_ready h)
    (ConsumerPhases.reach_core h) hd

/-- A delivery on its way, with the services at work: its next operation does
not fail, and there is less ahead. -/
theorem Underway.served (hp : Genuine env p) {clock : Int}
    (hclaim : AcceptsEx env.claimTtl clock) (hsettled : AcceptsEx env.settledTtl clock)
    {m c : Nat} {d : Delivery ι} (hcopy : IsCopy env p d.body)
    (hfits : ∀ o : Opened env, o.toAdmitted.For d → o.row.fits = true)
    {s : ConsumerPhases ι env} (h : Underway p m c d s)
    (hr : Reach (Phases.step env) free Phases.init s.core) (hsound : Sound env p s.core.store)
    {ph : Phase env} {log : List IoEvent}
    (hc : s.core.calls c = some ⟨d, .running ph, log⟩) (hclean : FailureFree log) :
    ∃ core ph' ev, ConsumerPhases.step env (.io c .served clock) s = some { s with core := core } ∧
      core.calls c = some ⟨d, ph'.status, ev :: log⟩ ∧ FailureFree (ev :: log) ∧
      remaining ph' < remaining ph ∧ Underway p m c d { s with core := core } := by
  obtain ⟨status, log', hc', hmine⟩ := h.mine
  rw [hc] at hc'
  cases hc'
  have hstage := (hmine hclean).1
  have hfor : ph.For d := Phases.coherent hr c _ hc
  have hlive : ph.Live := by cases ph <;> trivial
  obtain ⟨op, k, hview⟩ := Phase.live_view hlive
  have hcore := Phases.step_io (s := s.core) .served clock hc hview
  have hstep := ConsumerPhases.step_io hcore
  obtain ⟨hcut, hless⟩ := Advance.served (advance_of_answer hview .served clock s.core.store) rfl
    hclaim hsettled (fun o ho => hfits o (by rw [ho] at hfor; exact hfor)) hp hfor hcopy hstage
  refine ⟨_, _, _, hstep, (Phases.enter_calls ..).trans (if_pos rfl), ?_, hless, ?_⟩
  · intro e he
    rcases List.mem_cons.mp he with rfl | hold
    · exact hcut
    · exact hclean e hold
  · refine h.step hp hcopy hr hsound ?_ (ConsumerPhases.step_cases hstep)
    trivial

/-- **The delivery runs to its end**: by its own operations alone, it returns
without a failure. -/
theorem Underway.completes (hp : Genuine env p) {clock : Int}
    (hclaim : AcceptsEx env.claimTtl clock) (hsettled : AcceptsEx env.settledTtl clock)
    {m c : Nat} {d : Delivery ι} (hcopy : IsCopy env p d.body)
    (hfits : ∀ o : Opened env, o.toAdmitted.For d → o.row.fits = true) (n : Nat) :
    ∀ (s : ConsumerPhases ι env) (ph : Phase env) (log : List IoEvent), remaining ph ≤ n →
      Underway p m c d s → Reach (ConsumerPhases.step env) free Broker.init s → Distinct env s p →
      s.core.calls c = some ⟨d, .running ph, log⟩ → FailureFree log →
      ∃ ls s' o log', run (ConsumerPhases.step env) ls s = some s' ∧
        (∀ l ∈ ls, l = .io c .served clock) ∧ Underway p m c d s' ∧
        s'.messages = s.messages ∧ s'.core.calls c = some ⟨d, .returned o, log'⟩ ∧
        FailureFree log' := by
  -- the induction is on the operations the delivery still has before it
  induction n with
  | zero =>
      intro s ph log hn h _ _ hc hclean
      obtain ⟨status, log', hc', hmine⟩ := h.mine
      rw [hc] at hc'
      cases hc'
      have hstage := (hmine hclean).1
      cases ph <;> first | exact hstage.elim | simp [remaining] at hn
  | succ n ih =>
      intro s ph log hn h hr hd hc hclean
      have hcore := ConsumerPhases.reach_core hr
      obtain ⟨core, ph', ev, hstep, hc', hclean', hless, h'⟩ :=
        h.served hp hclaim hsettled hcopy hfits hcore (sound_of_reach hr hd) hc hclean
      by_cases hlive : ph'.Live
      · have hstatus : ph'.status = .running ph' := by
          cases ph' <;> first | rfl | exact hlive.elim
        rw [hstatus] at hc'
        obtain ⟨ls, s', o, log', hrun, hls, hrest⟩ := ih { s with core := core } ph' (ev :: log)
          (by omega) h' (.next hr trivial hstep) ⟨hd.own_id, hd.collision_free⟩ hc' hclean'
        refine ⟨.io c .served clock :: ls, s', o, log', ?_, ?_, hrest⟩
        · rw [run_cons, hstep]
          exact hrun
        · intro l hl
          rcases List.mem_cons.mp hl with rfl | hl
          · rfl
          · exact hls l hl
      · -- the call has ended, and it has not failed
        obtain ⟨status, log', hc1, hmine⟩ := h'.mine
        rw [hc'] at hc1
        cases hc1
        have hstage := (hmine hclean').1
        cases ph' with
        | ended o =>
            refine ⟨[.io c .served clock], _, o, ev :: log, ?_, by simp, h', rfl, hc', hclean'⟩
            rw [run_cons, hstep]
            rfl
        | failed e => exact hstage.elim
        | _ => exact absurd trivial hlive

/-! ## The theorem -/

/-- The delivery has repaired the key: its message is acked, the packet has its
one row, the marker says settled, and nobody works on the key. -/
structure Repaired {P : Type} (env : Env) (p : PaymentPacket) (m : Nat) (s : Broker ι P) :
    Prop where
  acked : ∃ body, s.messages m = some ⟨body, .acked⟩
  once : SettledOnce env p s.core.store
  marker : s.core.store.redis.marker (p.idempotencyKey env.prim) = some .settled
  idle : Idle env (p.idempotencyKey env.prim) s

/-- A step of the deliveries of copies, while the marker lives. -/
def CopiesOnly {P : Type} (env : Env) (p : PaymentPacket) : BrokerLabel ι → Broker ι P → Prop
  | .deliver m _ _ _, s => ∀ body state, s.messages m = some ⟨body, state⟩ → IsCopy env p body
  | .io c _ _, s => ∀ call, s.core.calls c = some call → IsCopy env p call.tag.body
  | .disturb (.expire key), _ => key ≠ p.idempotencyKey env.prim
  | .disturb .flush, _ => False
  | _, _ => True

/-- Deliveries of copies change neither the settlements nor the marker. -/
def Steady (env : Env) (p : PaymentPacket) (s : Consumers ι) : Prop :=
  ∀ s', Reach (Consumers.step env) (CopiesOnly env p) s s' →
    s'.core.store.settlements = s.core.store.settlements ∧
    s'.core.store.redis.marker (p.idempotencyKey env.prim) = some .settled

omit [DecidableEq ι] in
theorem Repaired.map {m : Nat} {s : ConsumerPhases ι env} (h : Repaired env p m s) :
    Repaired env p m (s.map Phase.prog) :=
  ⟨h.acked, h.once, h.marker, h.idle.map⟩

/-- A delivery that is off the queue has repaired the key. -/
theorem Underway.repaired {m c : Nat} {d : Delivery ι} {s : ConsumerPhases ι env}
    (h : Underway p m c d s) (hr : Reach (ConsumerPhases.step env) free Broker.init s)
    (hd : Distinct env s p) (hclean : ∀ call, s.core.calls c = some call → FailureFree call.log)
    (hoff : s.messages m ≠ some ⟨d.body, .held c⟩) : Repaired env p m s := by
  obtain ⟨status, log, hc, hmine⟩ := h.mine
  obtain ⟨hstage, hm⟩ := hmine (hclean _ hc)
  obtain ⟨hacked, o, rfl⟩ := hm.resolve_left hoff
  refine ⟨⟨d.body, hacked⟩, ?_, hstage.2.2, ?_⟩
  · exact settledOnce_of_hasKey (ConsumerPhases.holding empty_ready hr)
      (ConsumerPhases.reach_core hr) hd hstage.2.1
  · intro b call ph hb hph
    refine h.others b call ph ?_ hb hph
    rintro rfl
    rw [hc] at hb
    cases hb
    cases hph

/-- A state at rest: the marker says settled, the table is `t`, and no running
call of a copy has got past its claim. -/
structure AtRest (p : PaymentPacket) (t : SettlementTable) (s : ConsumerPhases ι env) : Prop where
  marker : s.core.store.redis.marker (p.idempotencyKey env.prim) = some .settled
  table : s.core.store.settlements = t
  calls : ∀ c call, s.core.calls c = some call → ∀ ph, call.status = .running ph →
    IsCopy env p call.tag.body → BeforeClaim ph

omit [DecidableEq ι] in
theorem Beside.of_map {key : String} {i : ι} {l : BrokerLabel ι} {s : ConsumerPhases ι env}
    (h : Beside env key i l (s.map Phase.prog)) : Beside env key i l s := by
  cases l with
  | disturb e => cases e <;> exact h
  | _ => exact h

omit [DecidableEq ι] in
theorem CopiesOnly.of_map {l : BrokerLabel ι} {s : ConsumerPhases ι env}
    (h : CopiesOnly env p l (s.map Phase.prog)) : CopiesOnly env p l s := by
  cases l with
  | io c mode clock => exact fun call hc => h _ (congrArg (Option.map (Call.map Phase.prog)) hc)
  | disturb e => cases e <;> exact h
  | _ => exact h

/-- **Deliveries of copies leave a state at rest.** -/
theorem AtRest.step {t : SettlementTable} {l : BrokerLabel ι} {s s' : ConsumerPhases ι env}
    (h : AtRest p t s) (hr : Reach (Phases.step env) free Phases.init s.core)
    (hok : CopiesOnly env p l s) (hstep : BrokerStep s l s') : AtRest p t s' := by
  cases hstep with
  | publish _ => exact ⟨h.marker, h.table, h.calls⟩
  | settle _ _ _ => exact ⟨h.marker, h.table, h.calls⟩
  | @deliver m c i now body core hm hcore =>
      cases Phases.step_cases hcore with
      | start hc =>
          refine ⟨by simpa [Phases.enter] using h.marker, by simpa [Phases.enter] using h.table,
            (Phases.forall_enter ..).mpr ⟨?_, fun b call _ hb => h.calls b call hb⟩⟩
          intro ph hph _
          rcases Phase.start_cases env ⟨i, body, now⟩ with ⟨r, hs⟩ | ⟨a, -, hs⟩ | ⟨e, -, hs⟩ <;>
            rw [hs] at hph <;> cases hph <;> trivial
  | @io c mode clock core hcore =>
      cases Phases.step_cases hcore with
      | @io _ _ _ d ph ph' log w' ev hc hadv =>
          have hcopy : IsCopy env p d.body := hok _ hc
          have hfor : ph.For d := Phases.coherent hr c _ hc
          -- the marker lives, so a copy that claims finds its key taken
          have htaken : ∀ a : Admitted env, a.For d → s.core.store.redis a.key ≠ none := by
            intro a ha hfree
            have hkey : a.key = p.idempotencyKey env.prim :=
              (alike_of_signingBytes env (hcopy.admitted ha)).key
            have hmarker := h.marker
            rw [Redis.marker, ← hkey, hfree] at hmarker
            cases hmarker
          obtain ⟨hredis, htable, hbefore⟩ :=
            Advance.beforeClaim hadv (h.calls c _ hc ph rfl hcopy) hfor htaken
          refine ⟨?_, ?_, (Phases.forall_enter ..).mpr
            ⟨fun q hq _ => hbefore q hq, fun b call _ hb => h.calls b call hb⟩⟩
          · simpa [Phases.enter, hredis] using h.marker
          · simpa [Phases.enter, htable] using h.table
  | @crash i core hcore =>
      cases Phases.step_cases hcore with
      | crash =>
          refine ⟨h.marker, h.table, Phases.forall_crash s.core i h.calls ?_⟩
          intro b d ph log _ q hq
          cases hq
  | @disturb e core hcore =>
      cases Phases.step_cases hcore with
      | disturb =>
          cases e with
          | flush => exact hok.elim
          | expire key =>
              refine ⟨?_, h.table, h.calls⟩
              have hmarker := h.marker
              rw [Redis.marker] at hmarker ⊢
              rw [← hmarker]
              exact congrArg _ (Function.update_of_ne (Ne.symm hok) _ _)

/-- What is repaired is steady. -/
theorem steady_of_repaired {m : Nat} {s : ConsumerPhases ι env}
    (hr : Reach (ConsumerPhases.step env) free Broker.init s) (h : Repaired env p m s) :
    Steady env p (s.map Phase.prog) := by
  intro s' hs'
  obtain ⟨s', rfl, hreach⟩ := Reach.lift s (Broker.map Phase.prog)
    (fun l s => Broker.step_map (processCode_same env) l s) (fun _ _ hok => hok) hs'
  have hrest : AtRest p s.core.store.settlements s' := by
    refine hreach.invariant (P := AtRest p s.core.store.settlements)
      ⟨h.marker, rfl, fun c call hc ph hph hcopy => ?_⟩ ?_
    · exact absurd (IsCopy.keyed hcopy) (h.idle c call ph hc hph)
    · intro u l u' hu hrest hok hstep
      exact hrest.step (ConsumerPhases.reach_core (hr.trans hu.free)) (CopiesOnly.of_map hok)
        (ConsumerPhases.step_cases hstep)
  exact ⟨hrest.table, hrest.marker⟩

/-- **Recovery converges.** -/
theorem recovery_converges {s : Consumers ι} (h : Reach (Consumers.step env) free Broker.init s)
    (hp : Genuine env p) (hd : Distinct env s p) (hidle : Idle env (p.idempotencyKey env.prim) s)
    (hmarker : s.core.store.redis.marker (p.idempotencyKey env.prim) ≠ some .claimed)
    {m c : Nat} {i : ι} {now : Int} {body : Bytes} (hm : s.messages m = some ⟨body, .ready⟩)
    (hcopy : IsCopy env p body) (hfresh : staleness env p now = none)
    (hc : s.core.calls c = none) :
    (AcceptsEx env.claimTtl now → AcceptsEx env.settledTtl now →
      (∀ q, PaymentPacket.modelValidateJson env.pydantic body = .ok q → q.hopCount < 2 ^ 31) →
      ∃ ls s', run (Consumers.step env) (.deliver m c i now :: ls) s = some s' ∧
        (∀ l ∈ ls, l = .io c .served now ∨ l = .settle m) ∧ Repaired env p m s' ∧
        Steady env p s') ∧
    ∀ s₁ s', Consumers.step env (.deliver m c i now) s = some s₁ →
      Reach (Consumers.step env) (Beside env (p.idempotencyKey env.prim) i) s₁ s' →
      Distinct env s' p → (∀ call, s'.core.calls c = some call → FailureFree call.log) →
      s'.messages m ≠ some ⟨body, .held c⟩ → Repaired env p m s' ∧ Steady env p s' := by
  obtain ⟨s, rfl, hr⟩ := Consumers.reach_phases h
  have hd := hd.of_map
  have hcore := ConsumerPhases.reach_core hr
  have hfree : s.core.calls c = none := Option.map_eq_none_iff.mp hc
  have hidle := hidle.of_map
  have hphases : ∀ ls, run (Consumers.step env) ls (s.map Phase.prog) =
      (run (ConsumerPhases.step env) ls s).map (Broker.map Phase.prog) :=
    fun ls => run_map (Broker.map Phase.prog)
      (fun l s => Broker.step_map (processCode_same env) l s) ls s
  refine ⟨fun hclaim hsettled hhops => ?_, fun s₁ s' hs₁ hs' hd' hclean hoff => ?_⟩
  · -- the delivery can be completed: its own operations, then the ack
    have hdeliver := ConsumerPhases.step_deliver hm (Phases.step_start ⟨i, body, now⟩ hfree)
    have hstep := ConsumerPhases.step_cases hdeliver
    obtain ⟨hunder, a, hcall⟩ := Underway.start hp hidle hmarker hm hcopy hfresh hstep
    generalize hs₁ : Broker.put _ m body (.held c) = s₁ at hdeliver hunder hcall hstep
    have hfits : ∀ o : Opened env, o.toAdmitted.For (⟨i, body, now⟩ : Delivery ι) →
        o.row.fits = true := by
      intro o ho
      exact (row_fits_iff o).mpr (hhops o.packet (by rw [← o.parsed, ho.1]))
    have hr₁ : Reach (ConsumerPhases.step env) free Broker.init s₁ := .next hr.free trivial hdeliver
    have hd₁ : Distinct env s₁ p := hd.deliver hstep
    obtain ⟨ls, s', o, log, hrun, hls, hunder', hmessages, hcall', hclean⟩ :=
      hunder.completes hp hclaim hsettled hcopy hfits 3 s₁ (.claiming a) [] (by simp [remaining])
        hr₁ hd₁ hcall (fun _ h => by cases h)
    have hheld : s'.messages m = some ⟨body, .held c⟩ := by
      rw [hmessages, ← hs₁]
      simp
    have hsettle := ConsumerPhases.step_settle hheld hcall' rfl
    have hr' : Reach (ConsumerPhases.step env) free Broker.init s' :=
      hr₁.trans (.of_run (fun _ _ _ => trivial) hrun)
    have hd' : Distinct env s' p := hd₁.congr hmessages
    have hdone : Underway p m c ⟨i, body, now⟩ (s'.put m body (handleMessage (.ok o)).state) := by
      refine hunder'.step hp hcopy (ConsumerPhases.reach_core hr') (sound_of_reach hr' hd') ?_
        (ConsumerPhases.step_cases hsettle)
      trivial
    have hrdone := hr'.next trivial hsettle
    have hrepaired : Repaired env p m (s'.put m body (handleMessage (.ok o)).state) := by
      refine hdone.repaired hrdone (hd'.put hheld _) ?_ ?_
      · intro call hc'
        rw [Broker.put_core, hcall'] at hc'
        cases hc'
        exact hclean
      · rw [Broker.put_messages, if_pos rfl]
        cases handleMessage (.ok o) <;> simp [Disposition.state]
    refine ⟨ls ++ [.settle m], _, ?_, ?_, hrepaired.map, steady_of_repaired hrdone hrepaired⟩
    · rw [hphases, run_cons, hdeliver, Option.bind_some, run_append, hrun, Option.bind_some,
        run_cons, hsettle]
      rfl
    · intro l hl
      rcases List.mem_append.mp hl with hl | hl
      · exact .inl (hls l hl)
      · exact .inr (List.mem_singleton.mp hl)
  · -- and however it was completed, the invariant of the run gives the repair
    obtain ⟨s₁, rfl, hstep⟩ := Consumers.step_phases hs₁
    obtain ⟨s', rfl, hreach⟩ := Reach.lift s₁ (Broker.map Phase.prog)
      (fun l s => Broker.step_map (processCode_same env) l s) (fun _ _ hok => hok) hs'
    have hr₁ : Reach (ConsumerPhases.step env) free Broker.init s₁ := .next hr.free trivial hstep
    have hunder : Underway p m c ⟨i, body, now⟩ s' := by
      refine hreach.invariant (P := fun u : ConsumerPhases ι env =>
        Distinct env u p → Underway p m c ⟨i, body, now⟩ u) ?_ ?_ hd'.of_map
      · exact fun _ => (Underway.start hp hidle hmarker hm hcopy hfresh
          (ConsumerPhases.step_cases hstep)).1
      · intro u l u' hu ih hok hs hdu'
        have hs := ConsumerPhases.step_cases hs
        have hru := hr₁.trans hu.free
        have hdu := hdu'.before hs
        exact (ih hdu).step hp hcopy (ConsumerPhases.reach_core hru) (sound_of_reach hru hdu)
          (Beside.of_map hok) hs
    have hr' := hr₁.trans hreach.free
    have hrepaired := hunder.repaired hr' hd'.of_map
      (fun call hcall => hclean _ (congrArg (Option.map (Call.map Phase.prog)) hcall)) hoff
    exact ⟨hrepaired.map, steady_of_repaired hr' hrepaired⟩

/-! ## A row without a marker -/

/-- The third operation fails, the one that writes the marker. -/
def markerFails : Nat → Mode := fun n => if n = 2 then .refused else .served

/-- A call that cannot write its marker has committed its row, and gives its
message back. -/
theorem processAlone_unmarked {o : Opened env} {d : Delivery ι} (ho : o.toAdmitted.For d)
    (clock : Nat → Int) (hclaim : AcceptsEx env.claimTtl (clock 0)) {w : World ι}
    (hfree : w.redis o.key = none) (hfits : o.row.fits = true)
    (hacc : w.settlements.Accepts o.row) :
    (processAlone env d markerFails clock w).2 = .ok (internalError env o.packet) ∧
      (processAlone env d markerFails clock w).1.redis o.key = none ∧
      (processAlone env d markerFails clock w).1.settlements =
        w.settlements.commit o.row (clock 1) hacc := by
  have hmarked : (w.mark o.key .claimed env.claimTtl (clock 0)).settlements.Accepts o.row := hacc
  have hexec : ∃ w' : World ι, (Phase.claiming o.toAdmitted).exec markerFails clock w =
      (w'.release o.key, .ok (internalError env o.packet)) ∧
      w'.settlements = w.settlements.commit o.row (clock 1) hacc := by
    rw [Phase.exec_answer rfl (perform_setNx_free .claimed (clock 0) hclaim hfree)]
    simp only [if_true, o.claimed]
    rw [Phase.exec_answer rfl (perform_insert (clock 1) hfits hmarked)]
    exact ⟨_, rfl, rfl⟩
  obtain ⟨w', hexec, hrows⟩ := hexec
  rw [processAlone_eq, ho.start, hexec]
  refine ⟨rfl, ?_, hrows⟩
  simp [World.countedFor, World.recordOutcome]

/-- What is left behind: a row without a marker, and a message to be delivered again. -/
structure Wrecked (o : Opened env) (s : ConsumerPhases Unit env) : Prop where
  reached : Reach (ConsumerPhases.step env) free Broker.init s
  returned : ∃ log, s.core.calls 0 =
    some ⟨⟨(), o.body, o.now⟩, .returned (internalError env o.packet), log⟩
  unused : ∀ c, c ≠ 0 → s.core.calls c = none
  messages : ∀ m, s.messages m = if m = 0 then some ⟨o.body, .ready⟩ else none
  row : HasKey s.core.store o.key
  unmarked : s.core.store.redis o.key = none

theorem exists_wrecked {o : Opened env} {clock : Int} (hclaim : AcceptsEx env.claimTtl clock)
    (hfits : o.row.fits = true) : ∃ s, Wrecked o s := by
  let d : Delivery Unit := ⟨(), o.body, o.now⟩
  let published : ConsumerPhases Unit env := Broker.init.put 0 o.body .ready
  have hpublish : ConsumerPhases.step env (.publish 0 o.body) Broker.init = some published := rfl
  obtain ⟨s, hreach, hserved⟩ := ConsumerPhases.run_message free (s := published) (m := 0) (c := 0)
    d markerFails (fun _ => clock) trivial (fun _ _ _ => trivial) (fun _ => trivial)
    ((Broker.put_messages ..).trans (if_pos rfl)) rfl
  obtain ⟨hresult, hredis, hrows⟩ := processAlone_unmarked (w := published.core.store) (o := o)
    (d := d) ⟨rfl, rfl⟩ (fun _ => clock) hclaim rfl hfits (o.accepted rfl)
  have hcall := hserved.call
  rw [hresult] at hcall
  refine ⟨s, (Reach.next .start trivial hpublish).trans hreach, ⟨_, hcall⟩, hserved.others,
    fun m => ?_, ?_, ?_⟩
  · rw [hserved.messages, hresult]
    by_cases h : m = 0
    · rw [if_pos h, if_pos h]
      rfl
    · rw [if_neg h, if_neg h]
      exact (Broker.put_messages ..).trans (if_neg h)
  · rw [hserved.store]
    unfold HasKey
    rw [hrows]
    exact ⟨_, List.mem_append_right _ (List.mem_singleton_self _), rfl⟩
  · rw [hserved.store, hredis]

namespace Wrecked

variable {o : Opened env} {s : ConsumerPhases Unit env}

theorem ready (h : Wrecked o s) : s.messages 0 = some ⟨o.body, .ready⟩ :=
  (h.messages 0).trans (if_pos rfl)

/-- Nobody works on the key. -/
theorem idle (h : Wrecked o s) (key : String) : Idle env key (s.map Phase.prog) := by
  intro c call prog hc hrunning
  obtain ⟨call', hc', rfl⟩ := State.of_map_calls hc
  by_cases hzero : c = 0
  · obtain ⟨log, hreturned⟩ := h.returned
    subst hzero
    cases hreturned.symm.trans hc'
    cases hrunning
  · rw [h.unused c hzero] at hc'
    cases hc'

theorem unclaimed (h : Wrecked o s) :
    (s.map Phase.prog).core.store.redis.marker o.key ≠ some .claimed := by
  show s.core.store.redis.marker o.key ≠ _
  rw [Redis.marker, h.unmarked]
  intro hclaimed
  cases hclaimed

/-- The message is delivered to call 1, and worked off. -/
theorem redelivered (h : Wrecked o s) {clock : Int} (hclaim : AcceptsEx env.claimTtl clock)
    (hsettled : AcceptsEx env.settledTtl clock)
    (hfits : ∀ o' : Opened env, o'.body = o.body → o'.row.fits = true) (key : String) :
    ∃ s₁ s' : ConsumerPhases Unit env,
      ConsumerPhases.step env (.deliver 0 1 () o.now) s = some s₁ ∧
      Reach (ConsumerPhases.step env) (fun l t => Beside env key () l (t.map Phase.prog)) s₁ s' ∧
      (∀ call, (s'.map Phase.prog).core.calls 1 = some call → FailureFree call.log) ∧
      (∀ m, m ≠ 0 → s'.messages m = none) ∧
      ∃ state, s'.messages 0 = some ⟨o.body, state⟩ ∧ state ≠ .held 1 := by
  let d : Delivery Unit := ⟨(), o.body, o.now⟩
  have hstep : ConsumerPhases.step env (.deliver 0 1 () o.now) s = some (s.taken 0 1 d) :=
    ConsumerPhases.step_taken (d := d) h.ready (h.unused 1 (by decide))
  let ok : BrokerLabel Unit → ConsumerPhases Unit env → Prop :=
    fun l t => Beside env key () l (t.map Phase.prog)
  have hio : ∀ t, ok (.io 1 .served clock) t := fun t => trivial
  have hsettle : ∀ t, ok (.settle 0) t := fun t => trivial
  obtain ⟨s', hs', hserved⟩ := ConsumerPhases.run_taken ok (s := s) (m := 0) (c := 1) d
    (fun _ => .served) (fun _ => clock) (fun _ t _ => hio t) hsettle
  refine ⟨_, s', hstep, hs', fun call hc => ?_, fun m hm => ?_, _,
    (hserved.messages 0).trans (if_pos rfl), ?_⟩
  · obtain ⟨call', hc', rfl⟩ := State.of_map_calls hc
    have hcall := Option.some.inj (hserved.call.symm.trans hc')
    subst hcall
    intro ev hev
    have hmem := List.mem_reverse.mp hev
    rw [Phase.trace_process] at hmem
    exact Phase.trace_uncut (fun o' ho' => hfits o' ho'.1) _ _ _ _ (Phase.start_for d)
      (fun _ => rfl) (fun _ => hclaim) (fun _ => hsettled) ev hmem
  · rw [hserved.messages, if_neg hm, h.messages, if_neg hm]
  · cases handleMessage _ <;> simp [Disposition.state]

end Wrecked

section Payment

open Reference

theorem distinct_single {s : Queue} (hnone : ∀ m, m ≠ 0 → s.messages m = none)
    {state : MessageState} (hzero : s.messages 0 = some ⟨body, state⟩) :
    Distinct onePayment s payment := by
  refine distinct_of_body fun m msg hm => ?_
  by_cases h : m = 0
  · rw [h, hzero] at hm
    rw [← Option.some.inj hm]
  · rw [hnone m h] at hm
    cases hm

/-- The row of the reference payment is there and its marker is not. The next
delivery repairs it, whether it is run now or has been run by the consumers. -/
theorem recovery_converges_payment : ∃ s : Consumers Unit, HasKey s.core.store key ∧
    s.core.store.redis key = none ∧
    (∃ ls s', run (Consumers.step onePayment) (.deliver 0 1 () instant.micros :: ls) s = some s' ∧
      (∀ l ∈ ls, l = .io 1 .served instant.micros ∨ l = .settle 0) ∧
      Repaired onePayment payment 0 s' ∧ Steady onePayment payment s') ∧
    ∃ s₁ s', Consumers.step onePayment (.deliver 0 1 () instant.micros) s = some s₁ ∧
      Reach (Consumers.step onePayment) (Beside onePayment key ()) s₁ s' ∧
      Repaired onePayment payment 0 s' ∧ Steady onePayment payment s' := by
  obtain ⟨s, h⟩ := exists_wrecked (o := opened) acceptsEx_claim fits_row
  obtain ⟨s₁, s', hstep, hs', hclean, hnone, state, hzero, hoff⟩ :=
    h.redelivered acceptsEx_claim acceptsEx_settled (fun o ho => fits_body (ho.trans opened_body))
      key
  rw [opened_body] at hzero
  rw [opened_now] at hstep
  have hready : s.messages 0 = some ⟨body, .ready⟩ := opened_body ▸ h.ready
  have hreach : Reach (Consumers.step onePayment) free ((Broker.init : Queue).map Phase.prog)
      (s.map Phase.prog) := ConsumerPhases.reach_consumers h.reached
  have hunused : (s.map Phase.prog).core.calls 1 = none :=
    congrArg (Option.map (Call.map Phase.prog)) (h.unused 1 (by decide))
  obtain ⟨hnow, hlater⟩ := recovery_converges hreach genuine_payment
    ((distinct_single (fun m hm => (h.messages m).trans (if_neg hm)) hready).congr rfl)
    (h.idle _) h.unclaimed (m := 0) (c := 1) (i := ()) hready copy_payment fresh_payment hunused
  refine ⟨s.map Phase.prog, h.row, h.unmarked, hnow acceptsEx_claim acceptsEx_settled ?_,
    s₁.map Phase.prog, s'.map Phase.prog, ConsumerPhases.step_coroutines hstep,
    ConsumerPhases.reach_consumers hs', hlater _ _ (ConsumerPhases.step_coroutines hstep)
      (ConsumerPhases.reach_consumers hs') ((distinct_single hnone hzero).congr rfl) hclean ?_⟩
  · intro q hq
    rw [← Except.ok.inj (body_payment.symm.trans hq)]
    decide
  · intro hheld
    have hmessage : s'.messages 0 = some ⟨body, .held 1⟩ := hheld
    cases hzero.symm.trans hmessage
    exact hoff rfl

end Payment

end MeshSettle.Theorems.Convergence
