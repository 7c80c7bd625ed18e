import MeshSettle.Settlement.Alone
import MeshSettle.Settlement.Columns
import MeshSettle.Settlement.Coverage
import MeshSettle.Settlement.Reference

/-!
# Settings that make settlement spin

The first delivery of a fresh payment settles it, and every copy that comes
after it is acked, in all runs in which Redis and Postgres work, exactly when
Redis takes both lifetimes, of the claim and of the settled marker. `Settings`
does not see to that: it bounds neither lifetime from above, and that of the
marker not even from below. With a lifetime of zero the marker cannot be written,
and each delivery that has won the claim ends in a requeue.
-/

namespace MeshSettle.Theorems.Spinning

open Lib.Await Lib.Interleave Lib.Transition

/-- The numbers of `Settings` that the pipeline reads, with the bounds of their
fields. -/
structure Settings where
  dedupeTtlSeconds : Int := 86400
  freshnessWindowSeconds : Int := 86400
  clockSkewToleranceSeconds : Int := 300
  dedupeClaimTtlSeconds : Int := 60
  freshnessWindow_ge : 1 ≤ freshnessWindowSeconds := by decide
  clockSkewTolerance_ge : 0 ≤ clockSkewToleranceSeconds := by decide
  dedupeClaimTtl_ge : 1 ≤ dedupeClaimTtlSeconds := by decide

/-- The processors with these settings. -/
def Settings.configure (settings : Settings) (base : Env) : Env :=
  { base with
    freshnessWindowSeconds := settings.freshnessWindowSeconds
    clockSkewToleranceSeconds := settings.clockSkewToleranceSeconds
    claimTtl := settings.dedupeClaimTtlSeconds
    settledTtl := settings.dedupeTtlSeconds }

section Statement

variable {ι : Type}

/-- The hop count of the body's packet fits its column. -/
def FewHops (env : Env) (body : Bytes) : Prop :=
  ∀ q, PaymentPacket.modelValidateJson env.pydantic body = .ok q → q.hopCount < 2 ^ 31

/-- A step with Redis and Postgres at work, their clocks not past the `horizon`,
and the consumers alive. Once the packet is being delivered as message `m`, later
copies wait for its ack. -/
def Healthy {P : Type} (env : Env) (p : PaymentPacket) (horizon : Int) (m : Nat) :
    BrokerLabel ι → Broker ι P → Prop
  | .io _ mode clock, _ => mode = .served ∧ clock ≤ horizon
  | .crash _, _ => False
  | .deliver n _ _ _, s => ∀ body state, s.messages n = some ⟨body, state⟩ → IsCopy env p body →
      FewHops env body ∧ ∃ body', s.messages m = some ⟨body', .acked⟩
  | _, _ => True

/-- Neither the key nor the packet id has a row. -/
def Unsettled (env : Env) (p : PaymentPacket) (w : World ι) : Prop :=
  ¬ HasKey w (p.idempotencyKey env.prim) ∧ ¬ HasPacket w p.packetId

/-- Call `c` settles the packet, and every message with a copy is acked when its
call has ended, as every such call does by its own operations. -/
structure Smooth [DecidableEq ι] (env : Env) (p : PaymentPacket) (c : Nat) (s : Consumers ι) :
    Prop where
  settled : ∀ call result, s.core.calls c = some call → call.result = some result →
    ∃ o, result = .ok o ∧ o.status = .settled
  acked : ∀ n body b call result, s.messages n = some ⟨body, .held b⟩ → IsCopy env p body →
    s.core.calls b = some call → call.result = some result → handleMessage result = .ack
  ends : ∀ b call prog clock, s.core.calls b = some call → call.status = .running prog →
    ∃ ls s' call', run (Consumers.step env) ls s = some s' ∧
      (∀ l ∈ ls, l = .io b .served clock) ∧ s'.core.calls b = some call' ∧
      call'.result.isSome = true

end Statement

variable {ι : Type} {env : Env} {p : PaymentPacket}

/-! ## A call by its own operations -/

/-- The operations a call has ahead of it, at most. -/
def ahead : Phase env → Nat
  | .refusing _ => 1
  | .claiming _ => 4
  | .looking _ => 1
  | .rejecting _ => 3
  | .releasing _ => 2
  | .inserting _ => 3
  | .marking _ _ => 2
  | .recovering _ => 1
  | .ended _ => 0
  | .failed _ => 0

theorem Advance.ahead {mode : Mode} {clock : Int} {w w' : World ι} {ph ph' : Phase env}
    {ev : IoEvent} (h : Advance env mode clock w ph w' ph' ev) :
    Spinning.ahead ph' < Spinning.ahead ph := by
  cases h with
  | @claimWon a =>
      rcases Phase.claimed_cases a with ⟨o, -, h⟩ | ⟨f, -, h⟩ | ⟨e, -, -, h⟩ <;> rw [h] <;>
        simp [Spinning.ahead]
  | _ => simp [Spinning.ahead]

variable [DecidableEq ι]

/-- The next operation of a call, with the services at work. -/
theorem own_step {s : ConsumerPhases ι env} {c : Nat} {d : Delivery ι} {ph : Phase env}
    {log : List IoEvent} (hc : s.core.calls c = some ⟨d, .running ph, log⟩) (hlive : ph.Live)
    (clock : Int) : ∃ w' ph' ev, Advance env .served clock s.core.store ph w' ph' ev ∧
      ConsumerPhases.step env (.io c .served clock) s =
        some { s with core := Phases.enter s.core c d ph' w' (ev :: log) } := by
  obtain ⟨op, k, hview⟩ := Phase.live_view hlive
  exact ⟨_, _, _, advance_of_answer hview .served clock s.core.store,
    ConsumerPhases.step_io (Phases.step_io .served clock hc hview)⟩

/-- **A call runs to its end** by its own operations, and what they preserve
holds there. -/
theorem own_run {c : Nat} {d : Delivery ι} {clock : Int} {Q : World ι → Phase env → Prop}
    (hQ : ∀ w w' ph ph' ev, Advance env .served clock w ph w' ph' ev → Q w ph →
      Q (w'.after d ph') ph') (n : Nat) :
    ∀ (s : ConsumerPhases ι env) (ph : Phase env) (log : List IoEvent), ahead ph ≤ n →
      s.core.calls c = some ⟨d, ph.status, log⟩ → Q s.core.store ph →
      ∃ ls s' ph' log', run (ConsumerPhases.step env) ls s = some s' ∧
        (∀ l ∈ ls, l = .io c .served clock) ∧ s'.messages = s.messages ∧
        s'.core.calls c = some ⟨d, ph'.status, log'⟩ ∧ ¬ ph'.Live ∧ Q s'.core.store ph' := by
  induction n with
  | zero =>
      intro s ph log hn hc hq
      refine ⟨[], s, ph, log, rfl, by simp, rfl, hc, ?_, hq⟩
      cases ph <;> first | exact id | simp [ahead] at hn
  | succ n ih =>
      intro s ph log hn hc hq
      by_cases hlive : ph.Live
      · have hstatus : ph.status = .running ph := by
          cases ph <;> first | rfl | exact hlive.elim
        rw [hstatus] at hc
        obtain ⟨w', ph', ev, hadv, hstep⟩ := own_step hc hlive clock
        have hless := Advance.ahead hadv
        obtain ⟨ls, s', ph'', log', hrun, hls, hmessages, hrest⟩ :=
          ih { s with core := Phases.enter s.core c d ph' w' (ev :: log) } ph' (ev :: log)
            (by omega) ((Phases.enter_calls ..).trans (if_pos rfl)) (hQ _ _ _ _ _ hadv hq)
        refine ⟨.io c .served clock :: ls, s', ph'', log', ?_, ?_, hmessages, hrest⟩
        · rw [run_cons, hstep]
          exact hrun
        · intro l hl
          rcases List.mem_cons.mp hl with rfl | hl
          · rfl
          · exact hls l hl
      · exact ⟨[], s, ph, log, rfl, by simp, rfl, hc, hlive, hq⟩

/-! ## The copies of the packet -/

/-- A call on a copy that has neither failed nor been told to come back. -/
def Fine : Status Exc SettlementOutcome (Phase env) → Prop
  | .running (.refusing _) => True
  | .running (.claiming _) => True
  | .running (.looking _) => True
  | .running (.inserting _) => True
  | .running (.marking _ _) => True
  | .returned o => o.retryable = false
  | _ => False

omit [DecidableEq ι] in
theorem fine_start (d : Delivery ι) (hcopy : IsCopy env p d.body) :
    Fine (Phase.start env d.body d.now).status := by
  rcases Phase.start_cases env d with ⟨r, h⟩ | ⟨a, -, h⟩ | ⟨e, hraised, h⟩
  · rw [h]
    trivial
  · rw [h]
    trivial
  · obtain ⟨q, ⟨hparse, -⟩, -⟩ := hcopy
    cases hparse.symm.trans hraised

omit [DecidableEq ι] in
theorem Fine.advance (hp : Genuine env p) {clock : Int} (hclaim : AcceptsEx env.claimTtl clock)
    (hsettled : AcceptsEx env.settledTtl clock) {w w' : World ι} {ph ph' : Phase env}
    {ev : IoEvent} (hadv : Advance env .served clock w ph w' ph' ev) {d : Delivery ι}
    (hfor : ph.For d) (hcopy : IsCopy env p d.body) (hhops : FewHops env d.body)
    (h : Fine (.running ph)) : Fine ph'.status := by
  cases hadv with
  | @refused r => exact r.final
  | @claimWon a =>
      obtain ⟨o, -, hinsert⟩ := hp.claimed (hcopy.admitted hfor)
      rw [hinsert]
      trivial
  | claimLost => trivial
  | claimFailed hm => exact absurd hclaim (hm rfl)
  | @found a =>
      show (Phase.lostOutcome a _).retryable = false
      unfold Phase.lostOutcome
      split <;> rfl
  | lookFailed hm => exact absurd rfl hm
  | inserted => trivial
  | duplicate => trivial
  | @insertFailed o _ _ _ hm =>
      have hfits : o.row.fits = true :=
        (row_fits_iff o).mpr (hhops o.packet (by rw [← o.parsed, hfor.1]))
      rw [hm rfl] at hfits
      cases hfits
  | @marked o id => cases id <;> rfl
  | markFailed hm => exact absurd hsettled (hm rfl)
  | _ => exact h.elim

/-! ## The first delivery -/

omit [DecidableEq ι] in
/-- A healthy step, seen on phases. -/
theorem Healthy.of_map {horizon : Int} {m : Nat} {l : BrokerLabel ι} {s : ConsumerPhases ι env}
    (h : Healthy env p horizon m l (s.map Phase.prog)) : Healthy env p horizon m l s := by
  cases l <;> exact h

/-- How far the first delivery has come. -/
def FirstStage (p : PaymentPacket) (w : World ι) :
    Status Exc SettlementOutcome (Phase env) → Prop
  | .running (.claiming _) => w.redis (p.idempotencyKey env.prim) = none ∧ Unsettled env p w
  | .running (.inserting _) => Unsettled env p w
  | .running (.marking _ id) => id.isSome = true
  | .returned o => o.status = .settled
  | _ => False

omit [DecidableEq ι] in
theorem FirstStage.frame {w w' : World ι} {status : Status Exc SettlementOutcome (Phase env)}
    (h : FirstStage p w status)
    (hredis : w.redis (p.idempotencyKey env.prim) = none →
      w'.redis (p.idempotencyKey env.prim) = none)
    (hrows : Unsettled env p w → Unsettled env p w') : FirstStage p w' status := by
  unfold FirstStage at h ⊢
  split
  · exact ⟨hredis h.1, hrows h.2⟩
  · exact hrows h
  · exact h
  · exact h
  · split at h <;> simp_all

omit [DecidableEq ι] in
theorem FirstStage.advance (hp : Genuine env p) {clock : Int}
    (hclaim : AcceptsEx env.claimTtl clock) (hsettled : AcceptsEx env.settledTtl clock)
    {w w' : World ι} {ph ph' : Phase env} {ev : IoEvent}
    (hadv : Advance env .served clock w ph w' ph' ev) {d : Delivery ι} (hfor : ph.For d)
    (hcopy : IsCopy env p d.body) (hhops : FewHops env d.body)
    (h : FirstStage p w (.running ph)) : FirstStage p w' ph'.status := by
  have halike : ∀ {a : Admitted env}, a.For d → Alike env p a.packet :=
    fun ha => alike_of_signingBytes env (hcopy.admitted ha)
  cases hadv with
  | @claimWon a =>
      obtain ⟨o, -, hinsert⟩ := hp.claimed (hcopy.admitted hfor)
      rw [hinsert]
      exact h.2
  | @claimLost a _ _ htaken =>
      have hkey : a.key = p.idempotencyKey env.prim := (halike hfor).key
      exact absurd (hkey ▸ h.1) htaken
  | claimFailed hm => exact absurd hclaim (hm rfl)
  | inserted => rfl
  | @duplicate o _ _ hrefused =>
      have hkey : o.key = p.idempotencyKey env.prim := (halike hfor).key
      rcases refused_taken hrefused with htaken | htaken
      · exact absurd (hkey ▸ htaken) h.1
      · exact absurd ((halike hfor).id ▸ htaken) h.2
  | @insertFailed o _ _ _ hm =>
      have hfits : o.row.fits = true :=
        (row_fits_iff o).mpr (hhops o.packet (by rw [← o.parsed, hfor.1]))
      rw [hm rfl] at hfits
      cases hfits
  | @marked o id =>
      obtain ⟨id, rfl⟩ := Option.isSome_iff_exists.mp h
      rfl
  | markFailed hm => exact absurd hsettled (hm rfl)
  | _ => exact h.elim

/-- A delivery of message `m` by call `c`, the first of its packet: until it has
returned, nobody else works on the packet. -/
structure First (p : PaymentPacket) (m c : Nat) (d : Delivery ι) (s : ConsumerPhases ι env) :
    Prop where
  call : ∃ status log, s.core.calls c = some ⟨d, status, log⟩ ∧ FirstStage p s.core.store status ∧
    (s.messages m = some ⟨d.body, .held c⟩ ∨
      s.messages m = some ⟨d.body, .acked⟩ ∧ ∃ o, status = .returned o) ∧
    ((∃ o, status = .returned o) ∨
      ∀ b call, s.core.calls b = some call → b ≠ c → ¬ IsCopy env p call.tag.body)
  copies : ∀ b call, s.core.calls b = some call → IsCopy env p call.tag.body →
    FewHops env call.tag.body ∧ Fine call.status

omit [DecidableEq ι] in
/-- A packet that is no copy has neither the key nor the id. -/
theorem not_copy {s : ConsumerPhases ι env} (hs : Holding s) (hd : Distinct env s p) {b : Nat}
    {call : PhaseCall ι env} (hb : s.core.calls b = some call)
    (hother : ¬ IsCopy env p call.tag.body) {a : Admitted env} (ha : a.For call.tag) :
    a.key ≠ p.idempotencyKey env.prim ∧ a.packet.packetId ≠ p.packetId := by
  have hpublished := hs.published hb ha
  have hsame : a.packet.signingBytes ≠ p.signingBytes :=
    fun h => hother ⟨a.packet, ⟨ha.1 ▸ a.parsed, a.verified⟩, h⟩
  exact ⟨fun hkey => hsame (hd.of_key hpublished hkey),
    fun hid => hsame (hd.own_id _ hpublished hid)⟩

/-- A step of somebody else adds no row of the packet. -/
theorem unsettled_step {s s' : ConsumerPhases ι env} (hs : Holding s)
    (hr : Reach (Phases.step env) free Phases.init s.core) (hd : Distinct env s p)
    {l : ProcessorLabel ι} (hstep : PhaseStep s.core l s'.core)
    (hother : ∀ b mode clock call, l = .io b mode clock → s.core.calls b = some call →
      ¬ IsCopy env p call.tag.body)
    (h : Unsettled env p s.core.store) : Unsettled env p s'.core.store := by
  have hnew : ∀ row ∈ s'.core.store.settlements.rows, row ∉ s.core.store.settlements.rows →
      row.idempotencyKey ≠ p.idempotencyKey env.prim ∧ row.packetId ≠ p.packetId := by
    intro row hrow hnot
    obtain ⟨b, mode, clock, d, o, log, hl, hb, hrow'⟩ := hstep.row_new hrow hnot
    have hfor : o.toAdmitted.For d := Phases.coherent hr b _ hb
    have hne := not_copy hs hd hb (hother b mode clock _ hl hb) hfor
    exact ⟨(congrArg Settlement.idempotencyKey hrow').trans_ne hne.1,
      (congrArg Settlement.packetId hrow').trans_ne hne.2⟩
  constructor
  · rintro ⟨row, hrow, hkey⟩
    by_cases hold : row ∈ s.core.store.settlements.rows
    · exact h.1 ⟨row, hold, hkey⟩
    · exact (hnew row hrow hold).1 hkey
  · rintro ⟨row, hrow, hid⟩
    by_cases hold : row ∈ s.core.store.settlements.rows
    · exact h.2 ⟨row, hold, hid⟩
    · exact (hnew row hrow hold).2 hid

/-- **The first delivery stays the first** in every healthy step. -/
theorem First.step (hp : Genuine env p) {horizon : Int} (hclaim : AcceptsEx env.claimTtl horizon)
    (hsettled : AcceptsEx env.settledTtl horizon) {m c : Nat} {d : Delivery ι}
    (hcopy : IsCopy env p d.body) {l : BrokerLabel ι} {s s' : ConsumerPhases ι env}
    (h : First p m c d s) (hs : Holding s)
    (hr : Reach (Phases.step env) free Phases.init s.core) (hd : Distinct env s p)
    (hok : Healthy env p horizon m l s) (hstep : BrokerStep s l s') : First p m c d s' := by
  obtain ⟨⟨status, log, hc, hstage, hm, halone⟩, hcopies⟩ := h
  cases hstep with
  | @publish n body hn =>
      have hne : m ≠ n := by
        rintro rfl
        rcases hm with hm | ⟨hm, -⟩ <;> rw [hn] at hm <;> cases hm
      exact ⟨⟨status, log, hc, hstage, by simpa [hne] using hm, halone⟩, hcopies⟩
  | @deliver n b i now body core hn hcore =>
      cases Phases.step_cases hcore with
      | start hb =>
          have hbc : c ≠ b := by
            rintro rfl
            rw [hb] at hc
            cases hc
          have hne : m ≠ n := by
            rintro rfl
            rcases hm with hm | ⟨hm, -⟩ <;> rw [hn] at hm <;> cases hm
          refine ⟨⟨status, log, ?_, ?_, by simpa [hne] using hm, ?_⟩, ?_⟩
          · simpa [Phases.enter_calls, hbc] using hc
          · refine hstage.frame (fun hnone => ?_) fun hrows => ?_
            · simpa [Phases.enter] using hnone
            · simpa [Phases.enter, Unsettled, HasKey, HasPacket] using hrows
          · by_cases hreturned : ∃ o, status = .returned o
            · exact .inl hreturned
            · -- the message is not acked, so this is no copy
              refine .inr ((Phases.forall_enter ..).mpr ⟨fun _ hbody => ?_, fun e call _ he => ?_⟩)
              · obtain ⟨-, body', hacked⟩ := hok body .ready hn hbody
                rcases hm with hheld | ⟨-, ho⟩
                · rw [hheld] at hacked
                  cases hacked
                · exact hreturned ho
              · exact halone.resolve_left hreturned e call he
          · exact (Phases.forall_enter ..).mpr
              ⟨fun hbody => ⟨(hok body .ready hn hbody).1, fine_start ⟨i, body, now⟩ hbody⟩,
                fun e call _ he => hcopies e call he⟩
  | @io b mode clock core hcore =>
      obtain ⟨rfl, hclock⟩ := hok
      have hclaim := hclaim.earlier hclock
      have hsettled := hsettled.earlier hclock
      cases Phases.step_cases hcore with
      | @io _ _ _ d' ph ph' log' w' ev hb hadv =>
          have hfor : ph.For d' := Phases.coherent hr b _ hb
          have hfine : ∀ e call,
              (Phases.enter s.core b d' ph' w' (ev :: log')).calls e = some call →
              IsCopy env p call.tag.body → FewHops env call.tag.body ∧ Fine call.status := by
            refine (Phases.forall_enter ..).mpr
              ⟨fun hbody => ?_, fun e call _ he => hcopies e call he⟩
            obtain ⟨hhops, hbefore⟩ := hcopies b _ hb hbody
            exact ⟨hhops, hbefore.advance hp hclaim hsettled hadv hfor hbody hhops⟩
          by_cases hbc : b = c
          · -- a step of the first delivery itself
            subst hbc
            rw [hc] at hb
            cases hb
            have hrunning : ¬ ∃ o, (.running ph : Status Exc SettlementOutcome (Phase env)) =
                .returned o := by
              rintro ⟨o, ho⟩
              cases ho
            refine ⟨⟨ph'.status, ev :: log, (Phases.enter_calls ..).trans (if_pos rfl), ?_,
              .inl (hm.resolve_right fun h => hrunning h.2), .inr fun e call he hec => ?_⟩, hfine⟩
            · have hnext :=
                hstage.advance hp hclaim hsettled hadv hfor hcopy (hcopies b _ hc hcopy).1
              refine hnext.frame (fun hnone => ?_) fun hrows => ?_
              · simpa [Phases.enter] using hnone
              · simpa [Phases.enter, Unsettled, HasKey, HasPacket] using hrows
            · rw [Phases.enter_calls, if_neg hec] at he
              exact halone.resolve_left hrunning e call he hec
          · -- another call touches the key only once the first one has returned
            refine ⟨⟨status, log, ?_, ?_, hm, ?_⟩, hfine⟩
            · rw [Phases.enter_calls, if_neg (Ne.symm hbc)]
              exact hc
            · rcases halone with ⟨o, rfl⟩ | halone
              · exact hstage
              · have hother : ¬ IsCopy env p d'.body := halone b _ hb hbc
                refine hstage.frame (fun hnone => ?_) fun hrows => ?_
                · have hframe := hadv.redis_frame hfor
                    fun a ha => (not_copy hs hd hb hother ha).1
                  simpa [Phases.enter, hframe] using hnone
                · apply unsettled_step hs hr hd (Phases.step_cases hcore) ?_ hrows
                  rintro _ _ _ call hl he
                  cases hl
                  rw [hb] at he
                  cases he
                  exact hother
            · refine halone.imp_right fun halone => (Phases.forall_enter ..).mpr ?_
              exact ⟨fun _ => halone b ⟨d', .running ph, log'⟩ hb hbc,
                fun e call _ he => halone e call he⟩
  | @settle n b body call result hn hb hresult =>
      refine ⟨⟨status, log, hc, hstage, ?_, halone⟩, hcopies⟩
      by_cases hmn : m = n
      · subst hmn
        rcases hm with hm | ⟨hm, -⟩
        · rw [hn] at hm
          cases hm
          rw [hc] at hb
          cases hb
          cases status with
          | returned o =>
              cases hresult
              have hfinal : o.retryable = false := (hcopies c _ hc hcopy).2
              refine .inr ⟨?_, o, rfl⟩
              simp [handleMessage, hfinal, Disposition.state]
          | raised e => exact hstage.elim
          | running ph => cases hresult
          | crashed => cases hresult
        · rw [hn] at hm
          cases hm
      · simpa [hmn] using hm
  | crash _ => exact hok.elim
  | @disturb e core hcore =>
      cases Phases.step_cases hcore with
      | disturb =>
          -- Redis may lose keys: a key that was free stays free, and rows stay
          refine ⟨⟨status, log, hc, ?_, hm, halone⟩, hcopies⟩
          refine hstage.frame (fun hnone => ?_) fun hrows => ?_
          · cases e with
            | flush => rfl
            | expire key =>
                show s.core.store.redis.delete key _ = none
                rw [Redis.delete, Function.update_apply]
                split
                · rfl
                · exact hnone
          · cases e <;> exact hrows

/-- A fresh copy, delivered as the first of its packet. -/
theorem First.start (hp : Genuine env p) {s s' : ConsumerPhases ι env}
    (hfirst : ∀ b call, s.core.calls b = some call → ¬ IsCopy env p call.tag.body)
    (hkey : s.core.store.redis (p.idempotencyKey env.prim) = none)
    (hrows : Unsettled env p s.core.store) {m c : Nat} {i : ι} {now : Int} {body : Bytes}
    (hm : s.messages m = some ⟨body, .ready⟩) (hcopy : IsCopy env p body)
    (hhops : FewHops env body) (hfresh : staleness env p now = none)
    (hstep : BrokerStep s (.deliver m c i now) s') :
    First p m c ⟨i, body, now⟩ s' ∧ ∃ a : Admitted env, a.For (⟨i, body, now⟩ : Delivery ι) ∧
      s'.core.calls c = some ⟨⟨i, body, now⟩, .running (.claiming a), []⟩ := by
  cases hstep with
  | @deliver _ _ _ _ body' core hn hcore =>
      rw [hm] at hn
      cases hn
      cases Phases.step_cases hcore with
      | start hc =>
          obtain ⟨a, ha, hstart⟩ := @Genuine.admits ι env p hp ⟨i, body, now⟩ hcopy hfresh
          have hclaiming : Phase.start env body now = .claiming a := hstart
          have hcall : (Phases.enter s.core c ⟨i, body, now⟩ (Phase.start env body now)
              s.core.store []).calls c = some ⟨⟨i, body, now⟩, .running (.claiming a), []⟩ := by
            rw [Phases.enter_calls, if_pos rfl, hclaiming]
            rfl
          refine ⟨⟨⟨.running (.claiming a), [], hcall, ?_, .inl (by simp), .inr ?_⟩, ?_⟩, a, ha,
            hcall⟩
          · have hunsettled : Unsettled env p (s.core.store.after (⟨i, body, now⟩ : Delivery ι)
                (Phase.start env body now)) := by
              simpa [Unsettled, HasKey, HasPacket] using hrows
            exact ⟨by simpa [Phases.enter] using hkey, hunsettled⟩
          · exact (Phases.forall_enter ..).mpr ⟨fun hne => absurd rfl hne,
              fun b call _ hb _ => hfirst b call hb⟩
          · exact (Phases.forall_enter ..).mpr ⟨fun _ => ⟨hhops, by rw [hclaiming]; trivial⟩,
              fun b call _ hb hbody => absurd hbody (hfirst b call hb)⟩

/-- A call that has not ended has an operation pending. -/
theorem running_live {ok : ProcessorLabel ι → Phases ι env → Prop} {s : Phases ι env}
    (h : Reach (Phases.step env) ok Phases.init s) {b : Nat} {call : PhaseCall ι env}
    (hb : s.calls b = some call) {ph : Phase env} (hph : call.status = .running ph) : ph.Live := by
  have hstatus : ∀ ph q : Phase env, ph.status = .running q → q.Live := by
    intro ph q hq
    cases ph <;> cases hq <;> trivial
  refine Phases.calls_invariant (fun _ status _ => ∀ q, status = .running q → q.Live)
    (fun _ => hstatus _) (fun _ _ _ _ _ _ _ _ _ _ _ => hstatus _) ?_ h b call hb ph hph
  intro d ph log _ q hq
  cases hq

/-- Calls run to their ends. -/
theorem runs_out {s : ConsumerPhases ι env} {b : Nat} {d : Delivery ι} {ph : Phase env}
    {log : List IoEvent} (hb : s.core.calls b = some ⟨d, .running ph, log⟩) (hlive : ph.Live)
    (clock : Int) :
    ∃ ls s' call', run (Consumers.step env) ls (s.map Phase.prog) = some s' ∧
      (∀ l ∈ ls, l = .io b .served clock) ∧ s'.core.calls b = some call' ∧
      call'.result.isSome = true := by
  have hstatus : ph.status = .running ph := by
    cases ph <;> first | rfl | exact hlive.elim
  obtain ⟨ls, s', ph', log', hrun, hls, -, hcall, hdead, -⟩ :=
    own_run (d := d) (Q := fun _ _ => True) (fun _ _ _ _ _ _ _ => trivial) (ahead ph) s ph log
      le_rfl (by rw [hstatus]; exact hb) trivial
  refine ⟨ls, s'.map Phase.prog, _, ?_, hls, congrArg (Option.map (Call.map Phase.prog)) hcall, ?_⟩
  · have hmap : run (Consumers.step env) ls (s.map Phase.prog) =
        (run (ConsumerPhases.step env) ls s).map (Broker.map Phase.prog) :=
      run_map (Broker.map Phase.prog) (fun l s => Broker.step_map (processCode_same env) l s) ls s
    rw [hmap, hrun]
    rfl
  · rw [Call.result_map]
    cases ph' <;> first | rfl | exact absurd trivial hdead

/-- **The first delivery goes smoothly**, and so do the copies after it. -/
theorem First.smooth {m c : Nat} {d : Delivery ι} {s : ConsumerPhases ι env} (h : First p m c d s)
    (hs : Holding s) (hr : Reach (Phases.step env) free Phases.init s.core) :
    Smooth env p c (s.map Phase.prog) where
  settled := by
    intro call result hc hresult
    obtain ⟨⟨status, log, hcall, hstage, -⟩, -⟩ := h
    obtain ⟨old, hold, rfl⟩ := State.of_map_calls hc
    rw [Call.result_map] at hresult
    rw [hcall] at hold
    cases hold
    cases status with
    | returned o =>
        cases hresult
        exact ⟨o, rfl, hstage⟩
    | raised e => exact hstage.elim
    | running ph => cases hresult
    | crashed => cases hresult
  acked := by
    intro n body b call result hn hcopy hc hresult
    obtain ⟨⟨e, status, log⟩, hb, rfl⟩ := State.of_map_calls hc
    rw [Call.result_map] at hresult
    obtain ⟨call, hb', htag, -⟩ := hs.held n body b hn
    rw [hb] at hb'
    cases hb'
    have hfine := (h.copies b _ hb (htag ▸ hcopy)).2
    cases status with
    | returned o =>
        cases hresult
        have hfinal : o.retryable = false := hfine
        simp [handleMessage, hfinal]
    | raised e => exact hfine.elim
    | running ph => cases hresult
    | crashed => cases hresult
  ends := by
    intro b call prog clock hc hprog
    obtain ⟨⟨e, status, log⟩, hb, rfl⟩ := State.of_map_calls hc
    obtain ⟨ph, rfl, -⟩ := Status.map_eq_running hprog
    exact runs_out hb (running_live hr hb rfl) clock

/-! ## A lifetime that Redis does not take -/

/-- How a delivery stands that is going to fail at its claim or at its marker. -/
def Doomed (p : PaymentPacket) (clock : Int) (w : World ι) : Phase env → Prop
  | .claiming a => w.redis (p.idempotencyKey env.prim) = none ∧
      a.packet.signingBytes = p.signingBytes
  | .inserting _ => ¬ AcceptsEx env.settledTtl clock
  | .marking _ _ => ¬ AcceptsEx env.settledTtl clock
  | .recovering _ => True
  | .ended o => o.status = .rejected
  | .failed _ => True
  | _ => False

omit [DecidableEq ι] in
theorem Doomed.advance (hp : Genuine env p) {clock : Int}
    (hrefused : ¬ (AcceptsEx env.settledTtl clock ∧ AcceptsEx env.claimTtl clock))
    {w w' : World ι} {ph ph' : Phase env} {ev : IoEvent}
    (hadv : Advance env .served clock w ph w' ph' ev) (h : Doomed p clock w ph) :
    Doomed p clock w' ph' := by
  cases hadv with
  | @claimWon a _ haccepts =>
      obtain ⟨o, -, hinsert⟩ := hp.claimed h.2
      rw [hinsert]
      exact fun hsettled => hrefused ⟨hsettled, haccepts⟩
  | @claimLost a _ _ htaken =>
      have hkey : a.key = p.idempotencyKey env.prim := (alike_of_signingBytes env h.2).key
      exact absurd (hkey ▸ h.1) htaken
  | claimFailed => trivial
  | inserted => exact h
  | duplicate => exact h
  | insertFailed => trivial
  | marked _ haccepts => exact absurd haccepts h
  | markFailed => trivial
  | recovered => rfl
  | recoverFailed hm => exact absurd rfl hm
  | _ => exact h.elim

/-- **With such a lifetime the first delivery is to be retried.** -/
theorem spins (hp : Genuine env p) {horizon : Int}
    (hrefused : ¬ (AcceptsEx env.settledTtl horizon ∧ AcceptsEx env.claimTtl horizon))
    {s : ConsumerPhases ι env} (m : Nat) {c : Nat} {d : Delivery ι} {a : Admitted env}
    {log : List IoEvent} (hc : s.core.calls c = some ⟨d, .running (.claiming a), log⟩)
    (hsame : a.packet.signingBytes = p.signingBytes)
    (hkey : s.core.store.redis (p.idempotencyKey env.prim) = none) :
    ∃ s', Reach (Consumers.step env) (Healthy env p horizon m) (s.map Phase.prog) s' ∧
      s'.messages = s.messages ∧ ¬ Smooth env p c s' := by
  have hkept : ∀ w w' ph ph' ev, Advance env .served horizon w ph w' ph' ev →
      Doomed p horizon w ph → Doomed p horizon (w'.after d ph') ph' := by
    intro w w' ph ph' ev hadv h
    have hnext := h.advance hp hrefused hadv
    cases ph' <;> exact hnext
  obtain ⟨ls, s', ph, log', hrun, hls, hmessages, hcall, hdead, hdoomed⟩ :=
    own_run hkept 4 s (.claiming a) log le_rfl hc ⟨hkey, hsame⟩
  refine ⟨s'.map Phase.prog, ?_, hmessages, fun hsmooth => ?_⟩
  · have hmap : run (Consumers.step env) ls (s.map Phase.prog) =
        (run (ConsumerPhases.step env) ls s).map (Broker.map Phase.prog) :=
      run_map (Broker.map Phase.prog) (fun l s => Broker.step_map (processCode_same env) l s) ls s
    have hok : ∀ l ∈ ls, ∀ t : Consumers ι, Healthy env p horizon m l t := by
      intro l hl t
      rw [hls l hl]
      exact ⟨rfl, le_rfl⟩
    exact .of_run hok (by rw [hmap, hrun]; rfl)
  · cases ph with
    | ended o =>
        obtain ⟨o', ho', hstatus⟩ := hsmooth.settled _ (.ok o)
          (congrArg (Option.map (Call.map Phase.prog)) hcall) rfl
        cases ho'
        have hrejected : o.status = .rejected := hdoomed
        rw [hstatus] at hrejected
        cases hrejected
    | failed e =>
        obtain ⟨o', ho', -⟩ := hsmooth.settled _ (.error e)
          (congrArg (Option.map (Call.map Phase.prog)) hcall) rfl
        cases ho'
    | _ => exact hdead trivial

/-- So is one in the queue of the coroutines. -/
theorem first_spins (hp : Genuine env p) {horizon : Int}
    (hrefused : ¬ (AcceptsEx env.settledTtl horizon ∧ AcceptsEx env.claimTtl horizon))
    {s s₁ : Consumers ι}
    (h : Reach (Consumers.step env) free Broker.init s) (hd : Distinct env s p)
    (hfirst : ∀ b call, s.core.calls b = some call → ¬ IsCopy env p call.tag.body)
    (hkey : s.core.store.redis (p.idempotencyKey env.prim) = none)
    (hrows : Unsettled env p s.core.store) {m c : Nat} {i : ι} {now : Int} {body : Bytes}
    (hm : s.messages m = some ⟨body, .ready⟩) (hcopy : IsCopy env p body)
    (hhops : FewHops env body) (hfresh : staleness env p now = none)
    (hdeliver : Consumers.step env (.deliver m c i now) s = some s₁) :
    ∃ s', Reach (Consumers.step env) (Healthy env p horizon m) s₁ s' ∧ Distinct env s' p ∧
      ¬ Smooth env p c s' := by
  obtain ⟨s, rfl, -⟩ := Consumers.reach_phases h
  obtain ⟨s₁, rfl, hstep⟩ := Consumers.step_phases hdeliver
  have hstart := ConsumerPhases.step_cases hstep
  obtain ⟨⟨⟨status, log, hc, hstage, -⟩, -⟩, a, ha, hcall⟩ := First.start hp
    (fun b call hb => hfirst b (call.map Phase.prog)
      (congrArg (Option.map (Call.map Phase.prog)) hb))
    hkey hrows hm hcopy hhops hfresh hstart
  rw [hcall] at hc
  cases hc
  obtain ⟨s', hs', hmessages, hspins⟩ :=
    spins hp hrefused m hcall (hcopy.admitted ha) hstage.1
  exact ⟨s', hs', (hd.of_map.deliver hstart).congr hmessages, hspins⟩

/-! ## The theorem -/

/-- **Settlement is smooth exactly when Redis takes the lifetimes.** For every
admitted `Settings`, a genuine packet, fresh in every sense, is delivered for the
first time: in all healthy runs from there, up to any horizon of the clocks, it is
settled and all its copies are acked, if and only if Redis takes the lifetimes of
the settled marker and of the claim until then. -/
theorem smooth_iff_ttl (base : Env) (settings : Settings) {s s₁ : Consumers ι}
    (h : Reach (Consumers.step (settings.configure base)) free Broker.init s)
    (hp : Genuine (settings.configure base) p) (hd : Distinct (settings.configure base) s p)
    (hfirst : ∀ b call, s.core.calls b = some call →
      ¬ IsCopy (settings.configure base) p call.tag.body)
    (hkey : s.core.store.redis (p.idempotencyKey (settings.configure base).prim) = none)
    (hrows : Unsettled (settings.configure base) p s.core.store) {m c : Nat} {i : ι} {now : Int}
    {body : Bytes} (hm : s.messages m = some ⟨body, .ready⟩)
    (hcopy : IsCopy (settings.configure base) p body)
    (hhops : FewHops (settings.configure base) body)
    (hfresh : staleness (settings.configure base) p now = none)
    (hdeliver : Consumers.step (settings.configure base) (.deliver m c i now) s = some s₁)
    (horizon : Int) :
    (∀ s', Reach (Consumers.step (settings.configure base))
      (Healthy (settings.configure base) p horizon m) s₁ s' →
      Distinct (settings.configure base) s' p → Smooth (settings.configure base) p c s') ↔
    AcceptsEx settings.dedupeTtlSeconds horizon ∧
      AcceptsEx settings.dedupeClaimTtlSeconds horizon := by
  have hsettled : (settings.configure base).settledTtl = settings.dedupeTtlSeconds := rfl
  have hclaim : (settings.configure base).claimTtl = settings.dedupeClaimTtlSeconds := rfl
  rw [← hsettled, ← hclaim]
  generalize settings.configure base = env at *
  constructor
  · intro hsmooth
    by_contra hnot
    obtain ⟨s', hs', hd', hspins⟩ := first_spins hp hnot h hd hfirst hkey hrows hm hcopy
      hhops hfresh hdeliver
    exact hspins (hsmooth s' hs' hd')
  · rintro ⟨hsettled, hclaim⟩ s' hs' hd'
    obtain ⟨s, rfl, hr⟩ := Consumers.reach_phases h
    obtain ⟨s₁, rfl, hstep⟩ := Consumers.step_phases hdeliver
    have hr₁ : Reach (ConsumerPhases.step env) free Broker.init s₁ := .next hr.free trivial hstep
    have hbegun := (First.start hp (fun b call hb => hfirst b (call.map Phase.prog)
      (congrArg (Option.map (Call.map Phase.prog)) hb)) hkey hrows hm hcopy hhops hfresh
      (ConsumerPhases.step_cases hstep)).1
    obtain ⟨s', rfl, hreach⟩ := Reach.lift s₁ (Broker.map Phase.prog)
      (fun l s => Broker.step_map (processCode_same env) l s) (fun _ _ hok => hok) hs'
    have hr' := hr₁.trans hreach.free
    have hthere : First p m c ⟨i, body, now⟩ s' := by
      refine hreach.invariant (P := fun u : ConsumerPhases ι env =>
        Distinct env u p → First p m c ⟨i, body, now⟩ u) (fun _ => hbegun) ?_ hd'.of_map
      intro u l u' hu ih hok hs hdu'
      have hs := ConsumerPhases.step_cases hs
      have hru := hr₁.trans hu.free
      have hdu := hdu'.before hs
      exact (ih hdu).step hp hclaim hsettled hcopy (ConsumerPhases.holding empty_ready hru)
        (ConsumerPhases.reach_core hru) hdu (Healthy.of_map hok) hs
    exact hthere.smooth (ConsumerPhases.holding empty_ready hr') (ConsumerPhases.reach_core hr')

/-- The reference payment on the queue. -/
noncomputable def queued : Consumers Unit := Broker.init.put 0 Reference.body .ready

/-- It is delivered to call 0. -/
theorem queued_delivered (env : Env) : ∃ s₁, Consumers.step env
    (.deliver 0 0 () Reference.instant.micros) queued = some s₁ := ⟨_, rfl⟩

theorem queued_distinct : Distinct Reference.onePayment queued Reference.payment := by
  refine Reference.distinct_of_body fun m msg hm => ?_
  simp only [queued, Broker.put_messages] at hm
  split at hm
  · rw [← Option.some.inj hm]
  · simp [Broker.init] at hm

theorem queued_reach (env : Env) :
    Reach (Consumers.step env) free Broker.init queued :=
  .next .start trivial
    (show Consumers.step env (.publish 0 Reference.body) Broker.init = _ from rfl)

theorem queued_unsettled (env : Env) (p : PaymentPacket) : Unsettled env p queued.core.store := by
  constructor
  · rintro ⟨row, hrow, -⟩
    cases hrow
  · rintro ⟨row, hrow, -⟩
    cases hrow

theorem body_fewHops : FewHops Reference.onePayment Reference.body := by
  intro q hq
  rw [← Except.ok.inj (Reference.body_payment.symm.trans hq)]
  decide

/-- With the shipped settings the reference payment is settled smoothly. -/
theorem smooth_iff_ttl_shipped : ∃ s₁, Consumers.step Reference.onePayment
    (.deliver 0 0 () Reference.instant.micros) queued = some s₁ ∧
    ∀ s', Reach (Consumers.step Reference.onePayment)
      (Healthy Reference.onePayment Reference.payment Reference.instant.micros 0) s₁ s' →
      Distinct Reference.onePayment s' Reference.payment →
      Smooth Reference.onePayment Reference.payment 0 s' := by
  obtain ⟨s₁, hs₁⟩ := queued_delivered Reference.onePayment
  exact ⟨s₁, hs₁, (smooth_iff_ttl Reference.onePayment {} (queued_reach _)
    Reference.genuine_payment queued_distinct (fun b call hb => by cases hb) rfl
    (queued_unsettled _ _) rfl Reference.copy_payment body_fewHops Reference.fresh_payment
    hs₁ Reference.instant.micros).mpr (by decide)⟩

/-- With a lifetime of zero, which `Settings` admits, it is not. -/
theorem zero_ttl_spins : ¬ ∀ (settings : Settings) (s₁ s' : Consumers Unit),
    Consumers.step (settings.configure Reference.onePayment)
      (.deliver 0 0 () Reference.instant.micros) queued = some s₁ →
    Reach (Consumers.step (settings.configure Reference.onePayment))
      (Healthy (settings.configure Reference.onePayment) Reference.payment
        Reference.instant.micros 0) s₁ s' →
    Distinct (settings.configure Reference.onePayment) s' Reference.payment →
    Smooth (settings.configure Reference.onePayment) Reference.payment 0 s' := by
  intro hall
  let settings : Settings := { dedupeTtlSeconds := 0 }
  obtain ⟨s₁, hs₁⟩ := queued_delivered (settings.configure Reference.onePayment)
  have hp : Genuine (settings.configure Reference.onePayment) Reference.payment :=
    ⟨Reference.genuine_payment.verified, Reference.genuine_payment.bound,
      Reference.genuine_payment.opens⟩
  have hd : Distinct (settings.configure Reference.onePayment) queued Reference.payment :=
    ⟨queued_distinct.own_id, queued_distinct.collision_free⟩
  have hrefused : ¬ (AcceptsEx (settings.configure Reference.onePayment).settledTtl
      Reference.instant.micros ∧ AcceptsEx (settings.configure Reference.onePayment).claimTtl
      Reference.instant.micros) := fun h => absurd h.1.1 (by decide)
  obtain ⟨s', hs', hd', hspins⟩ := first_spins hp hrefused (queued_reach _) hd
    (fun b call hb => by cases hb) rfl (queued_unsettled _ _) rfl Reference.copy_payment
    body_fewHops Reference.fresh_payment hs₁
  exact hspins (hall settings s₁ s' hs₁ hs' hd')

end MeshSettle.Theorems.Spinning
