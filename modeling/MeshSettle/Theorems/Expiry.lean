import MeshSettle.Settlement.Alone
import MeshSettle.Settlement.Clock
import MeshSettle.Settlement.Reference
import MeshSettle.Settlement.Serving

/-!
# Expiry is exact and final

A row is inserted only by a call whose own reading of the clock lies in the
window around the signed `created_at`, both ends included. A signed packet
outside of it gets the code of its side, whatever fails. With readings that do
not go back, a packet that was answered as expired stays expired for every call
that starts later.
-/

namespace MeshSettle.Theorems.Expiry

open Lib.Await Lib.Interleave Lib.Transition

variable {ι : Type} {env : Env}

/-- The row belongs to the packet: its key and its header. -/
structure RowOf (env : Env) (p : PaymentPacket) (row : Settlement) : Prop where
  key : row.idempotencyKey = p.idempotencyKey env.prim
  packetId : row.packetId = p.packetId
  senderId : row.senderId = p.senderId.1

/-- The call is still to answer, was stopped, or has answered with this code
without settling anything. -/
def AnswersOnly {P : Type} (code : ErrorCode)
    (call : Call Op Resp Exc SettlementOutcome (Delivery ι) P) : Prop :=
  (∃ prog, call.status = .running prog) ∨ call.status = .crashed ∨
    ∃ o, call.status = .returned o ∧ o.status = .rejected ∧ o.code = some code

/-- The call settles nothing: it does not say so, and it attempts no insert. -/
def SettlesNothing {P : Type}
    (call : Call Op Resp Exc SettlementOutcome (Delivery ι) P) : Prop :=
  (∀ o, call.status = .returned o → o.settled = false) ∧
    ∀ row ans, (⟨.insertSettlement row, ans⟩ : IoEvent) ∉ call.log

variable [DecidableEq ι]

/-- The timed runs of the processors. -/
abbrev Timed (env : Env) (t₀ : Int) (x : Int × Processors ι) : Prop :=
  Reach (Processors.timedStep startReading env) free (t₀, Processors.init) x

/-- They are timed runs of the phases. -/
theorem Timed.phases {t₀ : Int} {x : Int × Processors ι} (h : Timed env t₀ x) :
    ∃ y : Int × Phases ι env, x = coroutines y ∧
      Reach (Phases.timedStep startReading env) free (t₀, Phases.init) y :=
  Processors.timed_phases (x := (t₀, Phases.init)) h

/-- A step that adds a row is an operation of a call that read the clock in the
packet's window. -/
theorem inserted_in_window {t₀ : Int} {x x' : Int × Processors ι} {l : Int × ProcessorLabel ι}
    (h : Timed env t₀ x) (hstep : Processors.timedStep startReading env l x = some x')
    {row : SettlementRow} (hrow : row ∈ x'.2.store.settlements.rows)
    (hnew : row ∉ x.2.store.settlements.rows) :
    ∃ c mode clock call p, l.2 = .io c mode clock ∧ x.2.calls c = some call ∧
      SignedBody env call.tag.body p ∧ RowOf env p row.toSettlement ∧
      InWindow env p call.tag.now := by
  obtain ⟨y, rfl, hy⟩ := h.phases
  obtain ⟨y', rfl, hstep'⟩ := Processors.timed_step_phases hstep
  obtain ⟨-, -, -, hphase⟩ := timed_cases hstep'
  obtain ⟨c, mode, clock, d, o, log, hl, hc, hrow'⟩ :=
    (Phases.step_cases hphase).row_new hrow hnew
  have hfor : o.toAdmitted.For d := Phases.coherent hy.untimed c _ hc
  refine ⟨c, mode, clock, _, o.packet, hl, congrArg (Option.map (Call.map Phase.prog)) hc, ?_, ?_,
    ?_⟩
  · exact ⟨hfor.1 ▸ o.parsed, o.verified⟩
  · rw [hrow']
    exact ⟨rfl, rfl, rfl⟩
  · show InWindow env o.packet d.now
    rw [← hfor.2]
    exact staleness_none.mp o.fresh

/-- A call with a signed packet outside its window answers with its code. -/
theorem outside_answers {t₀ : Int} {x : Int × Processors ι} (h : Timed env t₀ x) {c : Nat}
    {call : ProcessCall ι} (hc : x.2.calls c = some call) {p : PaymentPacket}
    (hbody : SignedBody env call.tag.body p) (hout : ¬ InWindow env p call.tag.now) :
    AnswersOnly (staleCode env p call.tag.now) call ∧ SettlesNothing call := by
  obtain ⟨y, rfl, hy⟩ := h.phases
  obtain ⟨call', hcall', rfl⟩ := State.of_map_calls hc
  obtain ⟨r, hstart, hcode⟩ := hbody.refused hout
  have hcases := Phases.refused_call hy.untimed hcall' hstart
  obtain ⟨d, status, log⟩ := call'
  dsimp only at hcases
  rcases hcases with ⟨rfl, rfl⟩ | ⟨rfl, rfl⟩ | ⟨ans, rfl, rfl⟩
  · refine ⟨.inl ⟨_, rfl⟩, ?_, ?_⟩
    · intro o ho
      cases ho
    · intro row ans hmem
      cases hmem
  · refine ⟨.inr (.inl rfl), ?_, ?_⟩
    · intro o ho
      cases ho
    · intro row ans hmem
      cases hmem
  · refine ⟨.inr (.inr ⟨_, rfl, r.rejected, by rw [r.coded, hcode]⟩), ?_, ?_⟩
    · intro o ho
      cases ho
      rw [SettlementOutcome.settled, r.rejected]
      rfl
    · intro row ans' hmem
      cases List.mem_singleton.mp hmem

/-- Alone with the services, it answers in any case. -/
theorem alone_answers {d : Delivery ι} {p : PaymentPacket} (hbody : SignedBody env d.body p)
    (hout : ¬ InWindow env p d.now) (mode : Nat → Mode) (clock : Nat → Int) (w : World ι) :
    ∃ o, (processAlone env d mode clock w).2 = .ok o ∧ o.status = .rejected ∧
      o.code = some (staleCode env p d.now) := by
  obtain ⟨r, hstart, hcode⟩ := hbody.refused hout
  refine ⟨r.outcome, ?_, r.rejected, by rw [r.coded, hcode]⟩
  rw [processAlone_snd, exec_process, hstart]
  exact (exec_refusing mode clock w r).1

/-- An answer that says expired was given after the window. -/
theorem expired_of_answer {t₀ : Int} {y : Int × Phases ι env}
    (hy : Reach (Phases.timedStep startReading env) free (t₀, Phases.init) y) {c : Nat}
    {call : PhaseCall ι env} (hc : y.2.calls c = some call) {p : PaymentPacket}
    (hbody : SignedBody env call.tag.body p) {o : SettlementOutcome}
    (hreturned : call.status = .returned o) (hcode : o.code = some .packetExpired) :
    Expired env p call.tag.now := by
  obtain ⟨d, status, log⟩ := call
  cases hreturned
  have hverdict : Verdict env d o := Phases.coherent hy.untimed c _ hc
  cases hverdict with
  | @refused r hstart =>
      refine hbody.expired hstart ?_
      rw [r.coded] at hcode
      exact Option.some.inj hcode
  | lost marker _ =>
      unfold Phase.lostOutcome at hcode
      split at hcode <;> cases hcode
  | @flawed f _ =>
      have hexpired : f.code = .packetExpired := Option.some.inj hcode
      rcases f.code_cases with h | h
      · cases h.symm.trans hexpired
      · cases h.symm.trans hexpired
  | @written o id _ => cases id <;> cases hcode
  | internal _ => cases hcode

/-- **Expiry is exact and final.** -/
theorem expiry_exact (env : Env) (t₀ : Int) :
    (∀ (x x' : Int × Processors ι) l, Timed env t₀ x →
      Processors.timedStep startReading env l x = some x' →
      ∀ row ∈ x'.2.store.settlements.rows, row ∉ x.2.store.settlements.rows →
        ∃ c mode clock call p, l.2 = .io c mode clock ∧ x.2.calls c = some call ∧
          SignedBody env call.tag.body p ∧ RowOf env p row.toSettlement ∧
          InWindow env p call.tag.now) ∧
    (∀ (x : Int × Processors ι), Timed env t₀ x → ∀ c call p, x.2.calls c = some call →
      SignedBody env call.tag.body p → ¬ InWindow env p call.tag.now →
        AnswersOnly (staleCode env p call.tag.now) call ∧ SettlesNothing call) ∧
    (∀ (d : Delivery ι) p mode clock w, SignedBody env d.body p → ¬ InWindow env p d.now →
      ∃ o, (processAlone env d mode clock w).2 = .ok o ∧ o.status = .rejected ∧
        o.code = some (staleCode env p d.now)) ∧
    (∀ (x y : Int × Processors ι), Timed env t₀ x →
      Reach (Processors.timedStep startReading env) free x y →
      ∀ c call p o, x.2.calls c = some call → SignedBody env call.tag.body p →
        call.status = .returned o → o.code = some .packetExpired →
        ∀ c' call', x.2.calls c' = none → y.2.calls c' = some call' →
          IsCopy env p call'.tag.body → SettlesNothing call') := by
  refine ⟨fun x x' l h hstep row hrow hnew => inserted_in_window h hstep hrow hnew,
    fun x h c call p hc hbody hout => outside_answers h hc hbody hout,
    fun d p mode clock w hbody hout => alone_answers hbody hout mode clock w, ?_⟩
  intro x y hx hxy c call p o hc hbody hreturned hcode c' call' hnew hc' ⟨q, hq, hsame⟩
  obtain ⟨x', rfl, hx'⟩ := hx.phases
  obtain ⟨y', rfl, hxy'⟩ := Processors.timed_phases hxy
  obtain ⟨call₀, hcall₀, rfl⟩ := State.of_map_calls hc
  obtain ⟨call₁, hcall₁, rfl⟩ := State.of_map_calls hc'
  have hreads : ∀ c d, startReading (ι := ι) (.start c d) = some d.now := fun _ _ => rfl
  have hexpired := expired_of_answer hx' hcall₀ hbody (Status.map_eq_returned hreturned) hcode
  have hpast := Phases.timed_past hreads hx' c call₀ hcall₀
  have hlater := Phases.timed_later hreads hxy' (Option.map_eq_none_iff.mp hnew) call₁ hcall₁
  -- the copy is read after the window of the packet, which is its own
  have hcreated : q.createdAt = p.createdAt := (PaymentPacket.signed_eq hsame).2.2.1
  have hout : ¬ InWindow env q call₁.tag.now := by
    intro hin
    refine hexpired.not_fresh (hpast.trans hlater) (staleness_none.mpr ?_)
    unfold InWindow at hin ⊢
    rw [← hcreated]
    exact hin
  exact (outside_answers (hx.trans hxy) hc' hq hout).2

/-! ## A packet that expires -/

/-- A run on one packet: from `x` to `x'` its row is inserted, by `y` a copy has been
answered as expired, by `z` another copy has been delivered. -/
structure Expires (o : Opened env) (x x' y z : Int × Processors Unit) : Prop where
  timed : Timed env o.now x
  inserts : ∃ l, Processors.timedStep startReading env l x = some x'
  row : ∃ row ∈ x'.2.store.settlements.rows, row ∉ x.2.store.settlements.rows
  later : Reach (Processors.timedStep startReading env) free x' y
  answered : ∃ call outcome, y.2.calls 1 = some call ∧ SignedBody env call.tag.body o.packet ∧
    Expired env o.packet call.tag.now ∧ call.status = .returned outcome ∧
    outcome.code = some .packetExpired
  last : Reach (Processors.timedStep startReading env) free y z
  copy : y.2.calls 2 = none ∧ ∃ call, z.2.calls 2 = some call ∧
    SignedBody env call.tag.body o.packet

/-- A packet is settled at an instant of its window, and expires. -/
theorem expires {o : Opened env} (hclaim : AcceptsEx env.claimTtl o.now)
    (hfits : o.row.fits = true) {late : Int} (hlate : Expired env o.packet late) :
    ∃ x x' y z, Expires o x x' y z := by
  have hout : ¬ InWindow env o.packet late := fun h => hlate.not_fresh (Int.le_refl _)
    (staleness_none.mpr h)
  have hle : o.now ≤ late := by
    have hin := staleness_none.mp o.fresh
    unfold InWindow at hin
    unfold Expired at hlate
    omega
  let d (now : Int) : Delivery Unit := ⟨(), o.body, now⟩
  have hsigned : SignedBody env o.body o.packet := ⟨o.parsed, o.verified⟩
  -- the first copy, up to its insert
  let own (now : Int) (l : ProcessorLabel Unit) (_ : Phases Unit env) : Prop :=
    startReading l = none ∨ startReading l = some now
  obtain ⟨s₁, hs₁, hcall₁, hothers₁, hstore₁⟩ := Phases.run_claimed (own o.now)
    (s := Phases.init) (c := 0) (d := d o.now) (o := o) o.now (.inr rfl) (fun _ _ => .inl rfl)
    ⟨rfl, rfl⟩ rfl hclaim rfl
  have hempty : s₁.store.settlements.rows = [] := by
    rw [hstore₁]
    rfl
  have hinsert := Phases.step_answer hcall₁ rfl (perform_insert o.now hfits (o.accepted hempty))
  generalize hs₂ : Phases.enter s₁ 0 (d o.now) _ _ _ = s₂ at hinsert
  have hfree₂ : ∀ b, b ≠ 0 → s₂.calls b = none := fun b hb => by
    rw [← hs₂, Phases.enter_calls, if_neg hb, hothers₁ b hb]
    rfl
  have hrows₂ : ∃ row, s₂.store.settlements.rows = [row] := by
    rw [← hs₂]
    simp [Phases.enter, hempty]
  have htimed₁ : Reach (Phases.timedStep startReading env) free (o.now, Phases.init) (o.now, s₁) :=
    hs₁.instant (fun _ _ h => h) fun _ _ _ _ => trivial
  have hinsert' : Phases.timedStep startReading env (o.now, .io 0 .served o.now) (o.now, s₁) =
      some (o.now, s₂) := timed_step hinsert (Int.le_refl _) (.inl rfl)
  -- a copy after the window
  obtain ⟨s₃, hs₃, hcall₃, hothers₃, -⟩ := Phases.run_process (own late) (s := s₂) (c := 1)
    (d := d late) (fun _ => .served) (fun _ => late) (.inr rfl) (fun _ _ _ => .inl rfl)
    (hfree₂ 1 (by decide))
  obtain ⟨outcome, houtcome, -, hcode⟩ := alone_answers (d := d late) hsigned hout
    (fun _ => .served) (fun _ => late) s₂.store
  rw [houtcome] at hcall₃
  rw [staleCode, if_pos hlate] at hcode
  obtain ⟨u, hu, htimed₃⟩ : ∃ u, u ≤ late ∧
      Reach (Phases.timedStep startReading env) free (o.now, s₂) (u, s₃) := by
    have hfree : ∀ l s u, own late l s → free (late, l) ((u, s) : Int × Phases Unit env) :=
      fun _ _ _ _ => trivial
    obtain ⟨u, -, hu, hreach⟩ := hs₃.within hle (fun _ _ h => h) hfree
    exact ⟨u, hu, hreach⟩
  -- and another one
  have hfree₃ : s₃.calls 2 = none := (hothers₃ 2 (by decide)).trans (hfree₂ 2 (by decide))
  have hstart := Phases.step_start (d late) hfree₃
  generalize hs₄ : Phases.enter s₃ 2 (d late) _ _ _ = s₄ at hstart
  have hcall₄ : ∃ status, s₄.calls 2 = some ⟨d late, status, []⟩ := by
    rw [← hs₄]
    exact ⟨_, (Phases.enter_calls ..).trans (if_pos rfl)⟩
  obtain ⟨status, hcall₄⟩ := hcall₄
  have hstart' : Phases.timedStep startReading env (late, .start 2 (d late)) (u, s₃) =
      some (late, s₄) := timed_step hstart hu (.inr rfl)
  refine ⟨coroutines (o.now, s₁), coroutines (o.now, s₂), coroutines (u, s₃), coroutines (late, s₄),
    Phases.timed_processors (x := (o.now, Phases.init)) htimed₁,
    ⟨_, Phases.timed_step_processors hinsert'⟩, ?_, Phases.timed_processors htimed₃,
    ⟨_, outcome, congrArg (Option.map (Call.map Phase.prog)) hcall₃, hsigned, hlate, rfl, hcode⟩,
    .next .start trivial (Phases.timed_step_processors hstart'),
    Option.map_eq_none_iff.mpr hfree₃, _,
    congrArg (Option.map (Call.map Phase.prog)) hcall₄, hsigned⟩
  obtain ⟨row, hrow⟩ := hrows₂
  refine ⟨row, ?_, fun hmem => ?_⟩
  · show row ∈ s₂.store.settlements.rows
    rw [hrow]
    exact List.mem_singleton_self row
  · have hmem : row ∈ s₁.store.settlements.rows := hmem
    rw [hempty] at hmem
    cases hmem

/-- The reference payment is settled in its window and expires; a later copy of it
settles nothing. -/
theorem expiry_exact_payment : ∃ x' y z : Int × Processors Unit,
    (∃ row ∈ x'.2.store.settlements.rows, ∃ p now, RowOf Reference.onePayment p row.toSettlement ∧
      InWindow Reference.onePayment p now) ∧
    (∃ call, y.2.calls 1 = some call ∧ AnswersOnly .packetExpired call ∧ SettlesNothing call) ∧
    ∃ call, z.2.calls 2 = some call ∧ SettlesNothing call := by
  have hlate : Expired Reference.onePayment Reference.opened.packet
      (Reference.instant.micros + 86401000000) := by
    have hafter : (Reference.instant.micros : Int) + 86400 * 1000000 <
        Reference.instant.micros + 86401000000 := by omega
    exact hafter
  obtain ⟨x, x', y, z, h⟩ :=
    expires (o := Reference.opened) Reference.acceptsEx_claim Reference.fits_row hlate
  obtain ⟨hinserted, houtside, -, hfinal⟩ :=
    expiry_exact (ι := Unit) Reference.onePayment Reference.opened.now
  obtain ⟨l, hl⟩ := h.inserts
  obtain ⟨row, hrow, hnew⟩ := h.row
  obtain ⟨-, -, -, call, p, -, -, -, hof, hin⟩ := hinserted x x' l h.timed hl row hrow hnew
  obtain ⟨call₁, outcome, hcall₁, hsigned₁, hexpired, hreturned, hcode⟩ := h.answered
  obtain ⟨hnone, call₂, hcall₂, hsigned₂⟩ := h.copy
  have hy : Timed Reference.onePayment Reference.opened.now y :=
    (Reach.next h.timed trivial hl).trans h.later
  have hout : ¬ InWindow Reference.onePayment Reference.opened.packet call₁.tag.now := fun h =>
    hexpired.not_fresh (Int.le_refl _) (staleness_none.mpr h)
  have hanswers := houtside y hy 1 call₁ _ hcall₁ hsigned₁ hout
  rw [staleCode, if_pos hexpired] at hanswers
  exact ⟨x', y, z, ⟨row, hrow, p, _, hof, hin⟩, ⟨call₁, hcall₁, hanswers⟩, call₂, hcall₂,
    hfinal y z hy h.last 1 call₁ _ outcome hcall₁ hsigned₁ hreturned hcode 2 call₂ hnone hcall₂
      ⟨_, hsigned₂, rfl⟩⟩

end MeshSettle.Theorems.Expiry
