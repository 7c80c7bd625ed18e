import MeshSettle.Settlement.Genuine
import MeshSettle.Settlement.Section

/-!
# Copies that were dropped, and what covers them

A copy refused as in flight relies on somebody else to settle the packet.
`Dropped` says that a fresh copy was refused so, `Alive` that a message of the
packet will settle it or come back; `Covering` is the invariant that a dropped
copy leaves a row or an alive message behind.

The invariant needs that a claim in Redis belongs to a call that is still at
work, or to a packet that is settled (`Covered`): a claim that survives its
call is what loses payments.
-/

namespace MeshSettle

open Lib.Await Lib.Interleave Lib.Transition

section Coverage

variable {ι : Type} {env : Env} {p : PaymentPacket}

/-- A call in this status settles its packet, or gives its message back. -/
def Carries : Status Exc SettlementOutcome (Phase env) → Prop
  | .running (.claiming _) => True
  | .running (.inserting _) => True
  | .running (.marking _ _) => True
  | .running (.recovering _) => True
  | .returned o => o.retryable = true
  | .raised _ => True
  | _ => False

/-- A call in this status has left its packet to the holder of the claim. -/
def Drops : Status Exc SettlementOutcome (Phase env) → Prop
  | .running (.looking _) => True
  | .returned o => ∃ a : Admitted env, o = inFlight env a.packet
  | _ => False

/-- A message with a copy that will settle the packet, or come back. -/
def Alive (p : PaymentPacket) (s : ConsumerPhases ι env) (m : Nat) : Prop :=
  ∃ body state, s.messages m = some ⟨body, state⟩ ∧ IsCopy env p body ∧
    (state = .ready ∨ ∃ c call, state = .held c ∧ s.core.calls c = some call ∧
      Carries call.status)

/-- A fresh copy of the packet was left to the holder of the claim. -/
def Dropped (p : PaymentPacket) (s : Phases ι env) : Prop :=
  ∃ c call, s.calls c = some call ∧ IsCopy env p call.tag.body ∧
    staleness env p call.tag.now = none ∧ Drops call.status

/-- A dropped copy is covered by a row or by an alive message. -/
def Covering (p : PaymentPacket) (s : ConsumerPhases ι env) : Prop :=
  Dropped p s.core → HasKey s.core.store (p.idempotencyKey env.prim) ∨ ∃ m, Alive p s m

/-- The step refuses the claim of a copy. -/
def ClaimRefused (p : PaymentPacket) (c : Nat) (mode : Mode) (s : Phases ι env) : Prop :=
  mode = .served ∧ ∃ d a log, s.calls c = some ⟨d, .running (.claiming a), log⟩ ∧
    IsCopy env p d.body ∧ s.store.redis a.key ≠ none

/-- A claim found on this key belongs to a running call that won it, or its
packet has a row. -/
def Covered (env : Env) (key : String) (l : BrokerLabel ι) (s : Consumers ι) : Prop :=
  ∀ c clock call ttl, l = .io c .served clock → s.core.calls c = some call →
    call.pending (processCode env) = some (.setNx key .claimed ttl) →
    s.core.store.redis.marker key = some .claimed →
    HasKey s.core.store key ∨ ∃ h holder prog, s.core.calls h = some holder ∧
      holder.status = .running prog ∧
      (⟨.setNx key .claimed ttl, .ok true⟩ : IoEvent) ∈ holder.log

/-- A claim is made with the claim's lifetime. -/
theorem claim_lifetime {call : PhaseCall ι env} {key : String} {ttl : Int}
    (h : call.pending (phaseCode env) = some (.setNx key .claimed ttl)) : ttl = env.claimTtl := by
  obtain ⟨d, status, log⟩ := call
  cases status with
  | running ph =>
      cases ph <;> simp only [Call.pending, phaseCode, Phase.view, Option.some.injEq,
        reduceCtorEq] at h
      cases h
      rfl
  | _ => cases h

/-- A claim is covered while a call that won it is at work. -/
theorem covered_of_holder {s : ConsumerPhases ι env} {c : Nat} {d : Delivery ι} {ph : Phase env}
    {log : List IoEvent} {key : String} (hc : s.core.calls c = some ⟨d, .running ph, log⟩)
    (hwon : (⟨.setNx key .claimed env.claimTtl, .ok true⟩ : IoEvent) ∈ log) (l : BrokerLabel ι) :
    Covered env key l (s.map Phase.prog) := by
  rintro b clock call ttl - hb hpending -
  have hmapped : (s.map Phase.prog).core.calls c =
      some (Call.map Phase.prog ⟨d, .running ph, log⟩) :=
    congrArg (Option.map (Call.map Phase.prog)) hc
  obtain ⟨call, -, rfl⟩ := State.of_map_calls hb
  rw [Call.pending_map (processCode_same env)] at hpending
  exact .inr ⟨c, _, _, hmapped, rfl, claim_lifetime hpending ▸ hwon⟩

/-- A copy that is admitted is the genuine packet, and is inserted once it is
claimed. -/
theorem Genuine.claimed (hp : Genuine env p) {a : Admitted env}
    (h : a.packet.signingBytes = p.signingBytes) :
    ∃ o : Opened env, o.toAdmitted = a ∧ Phase.claimed a = .inserting o := by
  obtain ⟨instruction, hopen⟩ := hp.opens
  have hopened : a.packet.opened env = .ok instruction :=
    (alike_of_signingBytes env h).opened.trans hopen
  exact ⟨⟨a, instruction, hopened⟩, rfl, Opened.claimed ⟨a, instruction, hopened⟩⟩

/-- A genuine packet is not rejected under the claim. -/
theorem Genuine.not_flawed (hp : Genuine env p) (f : Flawed env)
    (h : f.packet.signingBytes = p.signingBytes) : False := by
  obtain ⟨instruction, hopen⟩ := hp.opens
  have hopened := (alike_of_signingBytes env h).opened.trans hopen
  exact absurd (f.opened.symm.trans hopened) (by simp)

/-- The packet of a copy. -/
theorem IsCopy.admitted {a : Admitted env} {d : Delivery ι} (h : IsCopy env p d.body)
    (ha : a.For d) : a.packet.signingBytes = p.signingBytes := by
  obtain ⟨q, ⟨hparse, -⟩, hsame⟩ := h
  obtain rfl : a.packet = q := Except.ok.inj (a.parsed.symm.trans (ha.1 ▸ hparse))
  exact hsame

/-- A fresh copy of a genuine packet passes every check on its header. -/
theorem Genuine.admits (hp : Genuine env p) {d : Delivery ι} (hcopy : IsCopy env p d.body)
    (hfresh : staleness env p d.now = none) :
    ∃ a : Admitted env, a.For d ∧ Phase.start env d.body d.now = .claiming a := by
  obtain ⟨q, ⟨hparse, hverify⟩, hsame⟩ := hcopy
  have halike := alike_of_signingBytes env hsame
  let a : Admitted env := ⟨d.body, d.now, q, hparse, hverify,
    (halike.stale d.now).trans hfresh, halike.bound.mpr hp.bound⟩
  have ha : a.For d := ⟨rfl, rfl⟩
  exact ⟨a, ha, ha.start⟩

/-- A call that carries a claim on the packet's key has a copy. -/
theorem carries_of_holdsClaim (hp : Genuine env p) {ph : Phase env}
    (hsame : ∀ a : Admitted env, a.key = p.idempotencyKey env.prim →
      (∀ d : Delivery ι, ph.For d → a.For d) → a.packet.signingBytes = p.signingBytes)
    (h : ph.HoldsClaim (p.idempotencyKey env.prim)) :
    Carries (.running ph) ∧
      ∃ a : Admitted env, a.packet.signingBytes = p.signingBytes ∧
        ∀ d : Delivery ι, ph.For d → a.For d := by
  cases ph with
  | rejecting f => exact (hp.not_flawed f (hsame f.toAdmitted h fun _ hd => hd)).elim
  | releasing f => exact (hp.not_flawed f (hsame f.toAdmitted h fun _ hd => hd)).elim
  | inserting o => exact ⟨trivial, o.toAdmitted, hsame _ h fun _ hd => hd, fun _ hd => hd⟩
  | marking o id => exact ⟨trivial, o.toAdmitted, hsame _ h fun _ hd => hd, fun _ hd => hd⟩
  | recovering a => exact ⟨trivial, a, hsame _ h fun _ hd => hd, fun _ hd => hd⟩
  | refusing => exact h.elim
  | claiming => exact h.elim
  | looking => exact h.elim
  | ended => exact h.elim
  | failed => exact h.elim

variable [DecidableEq ι]

/-- A running call that won a claim holds it. -/
theorem Phases.won_holds {ok : ProcessorLabel ι → Phases ι env → Prop} {s : Phases ι env}
    (h : Reach (Phases.step env) ok Phases.init s) {c : Nat} {call : PhaseCall ι env}
    (hc : s.calls c = some call) {ph : Phase env} (hph : call.status = .running ph)
    {key : String} {ttl : Int}
    (hwon : (⟨.setNx key .claimed ttl, .ok true⟩ : IoEvent) ∈ call.log) :
    ph.HoldsClaim key := by
  refine Phases.calls_invariant (fun _ status log => ∀ ph, status = .running ph →
    (⟨.setNx key .claimed ttl, .ok true⟩ : IoEvent) ∈ log → ph.HoldsClaim key)
    ?_ ?_ ?_ h c call hc ph hph hwon
  · intro d ph _ hlog
    cases hlog
  · intro d ph log mode clock w w' ph' ev ih hadv q hq hlog
    have hold : (⟨.setNx key .claimed ttl, .ok true⟩ : IoEvent) ∈ log → ph.HoldsClaim key :=
      ih ph rfl
    -- only winning the claim adds such an entry; the other operations keep the phase's claim
    cases hadv with
    | @claimWon a =>
        have hq' : q = Phase.claimed a := by
          rcases Phase.claimed_cases a with ⟨o, -, h⟩ | ⟨f, -, h⟩ | ⟨e, -, -, h⟩ <;>
            rw [h] at hq ⊢ <;> exact (Status.running.inj hq).symm
        subst hq'
        rcases List.mem_cons.mp hlog with hev | hlog
        · cases hev; exact (Phase.holdsClaim_claimed a).mpr rfl
        · exact (hold hlog).elim
    | claimLost =>
        cases hq
        rcases List.mem_cons.mp hlog with hev | hlog
        · cases hev
        · exact hold hlog
    | noted => cases hq; exact hold ((List.mem_cons.mp hlog).resolve_left fun h => by cases h)
    | releaseFailed =>
        cases hq; exact hold ((List.mem_cons.mp hlog).resolve_left fun h => by cases h)
    | inserted => cases hq; exact hold ((List.mem_cons.mp hlog).resolve_left fun h => by cases h)
    | duplicate =>
        cases hq; exact hold ((List.mem_cons.mp hlog).resolve_left fun h => by cases h)
    | insertFailed =>
        cases hq; exact hold ((List.mem_cons.mp hlog).resolve_left fun h => by cases h)
    | markFailed =>
        cases hq; exact hold ((List.mem_cons.mp hlog).resolve_left fun h => by cases h)
    | _ => cases hq
  · intro d ph log _ ph' h
    cases h

omit [DecidableEq ι] in
/-- What makes a call drop its packet: a claim that is refused, or that it had
dropped it before. -/
theorem Advance.drops {mode : Mode} {clock : Int} {w w' : World ι} {ph ph' : Phase env}
    {ev : IoEvent} (h : Advance env mode clock w ph w' ph' ev) (hdrops : Drops ph'.status) :
    Drops (.running ph) ∨ ∃ a, ph = .claiming a ∧ mode = .served ∧ w.redis a.key ≠ none := by
  have hcode : ∀ {o : SettlementOutcome}, o.code ≠ some .duplicatePacket →
      ¬ Drops (.returned o : Status Exc SettlementOutcome (Phase env)) := by
    rintro o hne ⟨a, rfl⟩
    exact hne rfl
  cases h with
  | claimLost hm _ hk => exact .inr ⟨_, rfl, hm, hk⟩
  | found => exact .inl trivial
  | @refused r => exact absurd hdrops (hcode r.not_duplicate)
  | @released f => exact absurd hdrops (hcode f.not_duplicate)
  | @marked o id =>
      cases id with
      | some id => exact absurd hdrops (hcode (by simp [Opened.outcome, settledOutcome]))
      | none =>
          obtain ⟨a, ha⟩ := hdrops
          have htext : "packet was already settled" =
            "packet is already being settled by another consumer" :=
              congrArg SettlementOutcome.detail ha
          exact absurd htext (by decide)
  | recovered => exact absurd hdrops (hcode (by simp [internalError, rejected]))
  | @claimWon a =>
      rcases Phase.claimed_cases a with ⟨o, -, h⟩ | ⟨f, -, h⟩ | ⟨e, -, -, h⟩ <;>
        rw [h] at hdrops <;> exact hdrops.elim
  | _ => exact hdrops.elim

omit [DecidableEq ι] in
/-- A call with a copy keeps carrying it, ends with the row in the table, or
has its claim refused. -/
theorem Advance.carries (hp : Genuine env p) {mode : Mode} {clock : Int} {w w' : World ι}
    {ph ph' : Phase env} {ev : IoEvent} (h : Advance env mode clock w ph w' ph' ev)
    {d : Delivery ι} (hfor : ph.For d) (hcopy : IsCopy env p d.body)
    (hbacked : CallBacked (p.idempotencyKey env.prim) w (.running ph))
    (hcarries : Carries (.running ph)) :
    Carries ph'.status ∨ HasKey w (p.idempotencyKey env.prim) ∨
      ∃ a, ph = .claiming a ∧ mode = .served ∧ w.redis a.key ≠ none := by
  cases h with
  | @claimWon a =>
      obtain ⟨o, -, hinsert⟩ := hp.claimed (hcopy.admitted hfor)
      rw [hinsert]
      exact .inl trivial
  | claimLost hm _ hk => exact .inr (.inr ⟨_, rfl, hm, hk⟩)
  | @marked o id =>
      exact .inr (.inl (hbacked (alike_of_signingBytes env (hcopy.admitted hfor)).key))
  | recovered => exact .inl rfl
  | refused => exact hcarries.elim
  | found => exact hcarries.elim
  | lookFailed => exact hcarries.elim
  | noted => exact hcarries.elim
  | released => exact hcarries.elim
  | releaseFailed => exact hcarries.elim
  | _ => exact .inl trivial

/-- **A refused claim is covered**: the packet has a row, or the message of
another call is alive. -/
theorem claim_refused (hp : Genuine env p) {s : ConsumerPhases ι env} (hs : Holding s)
    (hr : Reach (Phases.step env) free Phases.init s.core) (hd : Distinct env s p)
    (hb : Backed (p.idempotencyKey env.prim) s.core) {c : Nat} {clock : Int}
    (hcov : Covered env (p.idempotencyKey env.prim) (.io c .served clock) (s.map Phase.prog))
    (hrefused : ClaimRefused p c .served s.core) :
    HasKey s.core.store (p.idempotencyKey env.prim) ∨ ∃ m body h call, h ≠ c ∧
      s.messages m = some ⟨body, .held h⟩ ∧ IsCopy env p body ∧
      s.core.calls h = some call ∧ Carries call.status := by
  obtain ⟨-, d, a, log, hc, hcopy, htaken⟩ := hrefused
  have hfor : a.For d := Phases.coherent hr c _ hc
  have hkey : a.key = p.idempotencyKey env.prim :=
    (alike_of_signingBytes env (hcopy.admitted hfor)).key
  rw [hkey] at htaken
  obtain ⟨entry, hentry⟩ := Option.ne_none_iff_exists'.mp htaken
  have hmarker : s.core.store.redis.marker (p.idempotencyKey env.prim) = some entry.value := by
    rw [Redis.marker, hentry, Option.map_some]
  cases hvalue : entry.value with
  | settled => exact .inl (hb.marker (hvalue ▸ hmarker))
  | claimed =>
      have hcall := congrArg (Option.map (Call.map Phase.prog)) hc
      have hpending : (Call.map Phase.prog ⟨d, .running (.claiming a), log⟩).pending
          (processCode env) = some (.setNx (p.idempotencyKey env.prim) .claimed env.claimTtl) := by
        rw [Call.pending_map (processCode_same env), ← hkey]
        rfl
      rcases hcov c clock _ env.claimTtl rfl hcall hpending (hvalue ▸ hmarker) with
        hrow | ⟨h, holder, prog, hh, hrun, hlog⟩
      · exact .inl hrow
      · -- the call that won the claim still holds it, with a copy of its own
        obtain ⟨call, hcalls, rfl⟩ := State.of_map_calls hh
        obtain ⟨ph, hph, -⟩ := Status.map_eq_running hrun
        have hholds := Phases.won_holds hr hcalls hph hlog
        have hcoherent := Phases.coherent hr h call hcalls
        rw [hph] at hcoherent
        obtain ⟨hcarries, b, hsame, hbfor⟩ := carries_of_holdsClaim hp
          (fun b hbkey hbfor => hd.of_key (hs.published hcalls (hbfor _ hcoherent)) hbkey) hholds
        obtain ⟨m, hm⟩ := hs.running h call ph hcalls hph
        refine .inr ⟨m, _, h, call, ?_, hm, ?_, hcalls, by rw [hph]; exact hcarries⟩
        · rintro rfl
          rw [hc] at hcalls
          cases hcalls
          cases hph
          exact hholds
        · have hbtag := hbfor _ hcoherent
          exact ⟨b.packet, ⟨hbtag.1 ▸ b.parsed, b.verified⟩, hsame⟩

/-- What is dropped was dropped before, or its claim is refused by this step. -/
theorem PhaseStep.dropped {l : ProcessorLabel ι} {s s' : Phases ι env} (hstep : PhaseStep s l s')
    (h : Dropped p s') :
    Dropped p s ∨ ∃ c mode clock, l = .io c mode clock ∧ ClaimRefused p c mode s := by
  obtain ⟨b, call, hb, hcopy, hfresh, hdrops⟩ := h
  cases hstep with
  | @start c d _ =>
      rw [Phases.enter_calls] at hb
      split at hb
      · cases hb
        rcases Phase.start_cases env d with ⟨r, h⟩ | ⟨a, -, h⟩ | ⟨e, -, h⟩ <;>
          rw [h] at hdrops <;> exact hdrops.elim
      · exact .inl ⟨b, call, hb, hcopy, hfresh, hdrops⟩
  | @io c mode clock d ph ph' log w' ev hc hadv =>
      rw [Phases.enter_calls] at hb
      split at hb
      · cases hb
        rcases Advance.drops hadv hdrops with hold | ⟨a, rfl, hm, htaken⟩
        · exact .inl ⟨c, _, hc, hcopy, hfresh, hold⟩
        · exact .inr ⟨c, mode, clock, rfl, hm, d, a, log, hc, hcopy, htaken⟩
      · exact .inl ⟨b, call, hb, hcopy, hfresh, hdrops⟩
  | @crash i =>
      obtain ⟨old, hold, rfl⟩ := Option.map_eq_some_iff.mp hb
      rcases Call.crashOn_cases platform i old with heq | ⟨-, -, -, heq⟩
      · rw [heq] at hcopy hfresh hdrops
        exact .inl ⟨b, old, hold, hcopy, hfresh, hdrops⟩
      · rw [heq] at hdrops
        exact hdrops.elim
  | disturb => exact .inl ⟨b, call, hb, hcopy, hfresh, hdrops⟩

theorem BrokerStep.dropped {l : BrokerLabel ι} {s s' : ConsumerPhases ι env}
    (hstep : BrokerStep s l s') (h : Dropped p s'.core) :
    Dropped p s.core ∨
      ∃ c mode clock, l = .io c mode clock ∧ ClaimRefused p c mode s.core := by
  cases hstep with
  | publish _ => exact .inl h
  | settle _ _ _ => exact .inl h
  | deliver _ hcore =>
      exact .inl (((Phases.step_cases hcore).dropped h).resolve_right (by simp))
  | io hcore =>
      rcases (Phases.step_cases hcore).dropped h with hold | ⟨c, mode, clock, heq, hcr⟩
      · exact .inl hold
      · cases heq
        exact .inr ⟨_, _, _, rfl, hcr⟩
  | crash hcore =>
      exact .inl (((Phases.step_cases hcore).dropped h).resolve_right (by simp))
  | disturb hcore =>
      exact .inl (((Phases.step_cases hcore).dropped h).resolve_right (by simp))

omit [DecidableEq ι] in
/-- A message held by a call that carries it is alive. -/
theorem alive_of_held {s : ConsumerPhases ι env} {m c : Nat} {body : Bytes}
    {call : PhaseCall ι env} (hm : s.messages m = some ⟨body, .held c⟩)
    (hcopy : IsCopy env p body) (hc : s.core.calls c = some call) (h : Carries call.status) :
    Alive p s m :=
  ⟨body, .held c, hm, hcopy, .inr ⟨c, call, rfl, hc, h⟩⟩

omit [DecidableEq ι] in
/-- A call that has ended and carries its copy gives the message back. -/
theorem carries_requeued {call : PhaseCall ι env} {result : Except Exc SettlementOutcome}
    (hresult : call.result = some result) (h : Carries call.status) :
    (handleMessage result).state = .ready := by
  unfold Call.result at hresult
  split at hresult
  · next o ho =>
      cases hresult
      rw [ho] at h
      simp only [handleMessage, (show o.retryable = true from h), if_true, Disposition.state]
  · cases hresult
    rfl
  · cases hresult

/-- **An alive message stays alive**, until the packet has its row or the
claim of its call is refused. -/
theorem Alive.step (hp : Genuine env p) {l : BrokerLabel ι} {s s' : ConsumerPhases ι env}
    (hs : Holding s) (hr : Reach (Phases.step env) free Phases.init s.core)
    (hb : Backed (p.idempotencyKey env.prim) s.core)
    (hfresh : ∀ m c i now body state, l = .deliver m c i now →
      s.messages m = some ⟨body, state⟩ → IsCopy env p body → staleness env p now = none)
    (hstep : BrokerStep s l s') {m : Nat} (h : Alive p s m) :
    Alive p s' m ∨ HasKey s.core.store (p.idempotencyKey env.prim) ∨
      ∃ c mode clock, l = .io c mode clock ∧ ClaimRefused p c mode s.core := by
  obtain ⟨body, state, hm, hcopy, hstate⟩ := h
  cases hstep with
  | @publish n body' hn =>
      have hne : m ≠ n := by rintro rfl; rw [hn] at hm; cases hm
      exact .inl ⟨body, state, by simpa [hne] using hm, hcopy, hstate⟩
  | @deliver n c i now body' core hn hcore =>
      cases Phases.step_cases hcore with
      | start hc =>
          by_cases hmn : m = n
          · -- the copy itself is delivered, and fresh: it comes to the claim
            subst hmn
            rw [hn] at hm
            cases hm
            obtain ⟨a, -, hstart⟩ := hp.admits (d := ⟨i, body, now⟩) hcopy
              (hfresh m c i now body .ready rfl hn hcopy)
            have hnew : Carries (Phase.start env body now).status := by
              simp only at hstart
              rw [hstart]
              trivial
            have hcall := Phases.enter_calls s.core c ⟨i, body, now⟩ (Phase.start env body now)
              s.core.store [] c
            rw [if_pos rfl] at hcall
            exact .inl (alive_of_held (by simp) hcopy hcall hnew)
          · refine .inl ⟨body, state, by simpa [hmn] using hm, hcopy, ?_⟩
            rcases hstate with hready | ⟨b, call, rfl, hbc, hcarries⟩
            · exact .inl hready
            · have hne : b ≠ c := by rintro rfl; rw [hc] at hbc; cases hbc
              exact .inr ⟨b, call, rfl, by simpa [Phases.enter_calls, hne] using hbc, hcarries⟩
  | @io c mode clock core hcore =>
      rcases hstate with rfl | ⟨b, call, rfl, hbc, hcarries⟩
      · exact .inl ⟨body, .ready, hm, hcopy, .inl rfl⟩
      · cases Phases.step_cases hcore with
        | @io _ _ _ d ph ph' log w' ev hc hadv =>
            by_cases hne : b = c
            · -- the call carries on, has a row, or is turned away by the claim
              subst hne
              rw [hc] at hbc
              cases hbc
              obtain ⟨call, hcall, hbody, -⟩ := hs.held m body b hm
              rw [hc] at hcall
              cases hcall
              rcases hadv.carries hp (Phases.coherent hr b _ hc) (hbody ▸ hcopy)
                (hb.calls b _ hc) hcarries with hnew | hrow | ⟨a, rfl, hmode, htaken⟩
              · exact .inl (alive_of_held hm hcopy (by rw [Phases.enter_calls, if_pos rfl]) hnew)
              · exact .inr (.inl hrow)
              · exact .inr (.inr ⟨b, mode, clock, rfl, hmode, d, a, log, hc, hbody ▸ hcopy,
                  htaken⟩)
            · refine .inl (alive_of_held hm hcopy ?_ hcarries)
              rw [Phases.enter_calls, if_neg hne]
              exact hbc
  | @settle n c body' call result hn hc hresult =>
      by_cases hmn : m = n
      · subst hmn
        rw [hn] at hm
        cases hm
        rcases hstate with hready | ⟨b, call', hheld, hbc, hcarries⟩
        · cases hready
        · cases hheld
          rw [hc] at hbc
          cases hbc
          exact .inl ⟨body, _, by simp, hcopy, .inl (carries_requeued hresult hcarries)⟩
      · exact .inl ⟨body, state, by simpa [hmn] using hm, hcopy, hstate⟩
  | @crash i core hcore =>
      cases Phases.step_cases hcore with
      | crash =>
          -- the message is still held elsewhere, or ready again
          rcases returned_cases s.core i ⟨body, state⟩ with ⟨heq, hother⟩ | ⟨c, -, -, heq⟩
          · refine .inl ⟨body, state, by simp only [hm, Option.map_some, heq], hcopy, ?_⟩
            rcases hstate with hready | ⟨b, call, rfl, hbc, hcarries⟩
            · exact .inl hready
            · refine .inr ⟨b, call, rfl, ?_, hcarries⟩
              simp only [hbc, Option.map_some, Option.some.injEq]
              rcases Call.crashOn_cases platform i call with hsame | ⟨-, -, hhost, -⟩
              · exact hsame
              · have hhost' : call.tag.processor = i := hhost
                have hon := hother b rfl
                simp [RunsOn, hbc, hhost'] at hon
          · exact .inl ⟨body, .ready, by simp only [hm, Option.map_some, heq], hcopy, .inl rfl⟩
  | @disturb e core hcore =>
      cases Phases.step_cases hcore with
      | disturb => exact .inl ⟨body, state, hm, hcopy, hstate⟩

/-- **What is dropped stays covered**, by every step that meets no stray claim
and delivers the packet's copies while they are fresh. -/
theorem Covering.step (hp : Genuine env p) {l : BrokerLabel ι} {s s' : ConsumerPhases ι env}
    (hs : Holding s) (hr : Reach (Phases.step env) free Phases.init s.core)
    (hd : Distinct env s p) (hb : Backed (p.idempotencyKey env.prim) s.core)
    (hcov : Covered env (p.idempotencyKey env.prim) l (s.map Phase.prog))
    (hfresh : ∀ m c i now body state, l = .deliver m c i now →
      s.messages m = some ⟨body, state⟩ → IsCopy env p body → staleness env p now = none)
    (hstep : BrokerStep s l s') (h : Covering p s) : Covering p s' := by
  intro hdropped
  have hrows : HasKey s.core.store (p.idempotencyKey env.prim) →
      HasKey s'.core.store (p.idempotencyKey env.prim) := by
    rcases hstep.core with heq | ⟨l', hl'⟩
    · rw [heq]; exact id
    · exact HasKey.mono (Phases.step_cases hl').rows_grow
  -- a claim that this step refuses is covered before it, by a call it leaves alone
  have hrefused : (∃ c mode clock, l = .io c mode clock ∧ ClaimRefused p c mode s.core) →
      HasKey s'.core.store (p.idempotencyKey env.prim) ∨ ∃ m, Alive p s' m := by
    rintro ⟨c, mode, clock, rfl, hcr⟩
    obtain rfl := hcr.1
    rcases claim_refused hp hs hr hd hb hcov hcr with hrow | ⟨m, body, b, call, hne, hm, hcopy,
      hbc, hcarries⟩
    · exact .inl (hrows hrow)
    · cases hstep with
      | io hcore =>
          cases Phases.step_cases hcore with
          | io _ _ =>
              refine .inr ⟨m, alive_of_held hm hcopy ?_ hcarries⟩
              rw [Phases.enter_calls, if_neg hne]
              exact hbc
  rcases hstep.dropped hdropped with hold | hcr
  · rcases h hold with hrow | ⟨m, hm⟩
    · exact .inl (hrows hrow)
    · rcases hm.step hp hs hr hb hfresh hstep with halive | hrow | hcr
      · exact .inr ⟨m, halive⟩
      · exact .inl (hrows hrow)
      · exact hrefused hcr
  · exact hrefused hcr

end Coverage

end MeshSettle
