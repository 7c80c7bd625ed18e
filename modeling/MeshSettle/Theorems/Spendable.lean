import MeshSettle.Settlement.Clock
import MeshSettle.Settlement.Reference
import MeshSettle.Settlement.Section

/-!
# Duplicates of a settled packet

The settled marker keeps copies away from Postgres for as long as it lives: from
its write, for the TTL. A copy that claims in that time is refused by Redis.

The lifetime of the marker starts at the settlement, the window of the packet at
its `created_at`, which may lie ahead of the settlement by the skew tolerance.
Then the marker runs out before the window does (`duplicate_reaches_postgres`).
-/

namespace MeshSettle.Theorems.Spendable

open Lib.Await Lib.Interleave Lib.Transition

variable {ι : Type} {env : Env} {key : String}

/-! ## Statements -/

/-- When a marker written at an instant runs out. -/
def markerEnd (env : Env) (written : Int) : Int := written + env.settledTtl * 1000000

/-- The call was started after the moment, with a copy that passes every check on
the header. -/
def LateCopy {P : Type} (env : Env) (key : String)
    (x : Int × State Op Resp Exc SettlementOutcome (Delivery ι) (World ι) P) (c : Nat)
    (d : Delivery ι) : Prop :=
  x.2.calls c = none ∧ ∃ p, SignedBody env d.body p ∧ p.idempotencyKey env.prim = key ∧
    staleness env p d.now = none ∧ p.envelope.aad = p.expectedAad

/-- The call is refused by Redis: it wins no claim and opens no transaction. -/
def Refused {P : Type} (key : String)
    (call : Call Op Resp Exc SettlementOutcome (Delivery ι) P) : Prop :=
  (∀ ev ∈ call.log, ev.1.onRedis = true ∧ ¬ Wins key ev) ∧
    ∀ o, call.status = .returned o → o.status = .rejected ∧ o.code = some .duplicatePacket

variable [DecidableEq ι]

/-- Redis loses keys only when their TTL has run out. -/
def TtlOnly (l : Int × ProcessorLabel ι) (x : Int × Processors ι) : Prop :=
  l.2 ≠ .disturb .flush ∧ ∀ k, l.2 = .disturb (.expire k) →
    ∀ entry, x.2.store.redis k = some entry → entry.expiresAt ≤ l.1

/-- A claim on the key comes before the marker has run out. -/
def ClaimsInTime (env : Env) (key : String) (written : Int) (l : Int × ProcessorLabel ι)
    (x : Int × Processors ι) : Prop :=
  ∀ ev ex, Processors.performed env l.2 x.2 = some ev → ev.1 = .setNx key .claimed ex →
    l.1 < markerEnd env written

/-- A release of the key finds no settled marker. -/
def KeepsMarker (env : Env) (key : String) (l : Int × ProcessorLabel ι)
    (x : Int × Processors ι) : Prop :=
  ∀ ev, Processors.performed env l.2 x.2 = some ev → ev.1 = .delete key →
    x.2.store.redis.marker key ≠ some .settled

/-- The runs in which one clock drives Redis and settlement. -/
abbrev Driven (env : Env) (ok : Int × ProcessorLabel ι → Int × Processors ι → Prop)
    (x y : Int × Processors ι) : Prop :=
  Reach (Processors.timedStep commonReading env) (fun l x => TtlOnly l x ∧ ok l x) x y

/-- The row of the key is there, and its settled marker has just been written: it
has its whole life ahead, whether or not the SET was answered. -/
structure JustSettled (env : Env) (key : String) (t₀ : Int) (x : Int × Processors ι) : Prop where
  reach : Driven env free (t₀, Processors.init) x
  row : HasKey x.2.store key
  marker : x.2.store.redis key = some ⟨.settled, markerEnd env x.1⟩

/-- A SET of the settled marker has taken effect: it was answered, or Redis is not
as it was. -/
def TakesEffect (key : String) (ev : IoEvent) (w w' : World ι) : Prop :=
  Marks key ev ∨ (∃ ex, ev.1 = .set key .settled ex) ∧ w'.redis ≠ w.redis

omit [DecidableEq ι] in
/-- A step in which Redis loses nothing. -/
theorem ttlOnly_quiet {l : Int × ProcessorLabel ι} {x : Int × Processors ι}
    (h : ∀ e, l.2 ≠ .disturb e) : TtlOnly l x :=
  ⟨h _, fun _ hk => (h _ hk).elim⟩

/-! ## The life of the marker -/

/-- Before its end, the marker is settled and lives to its end. -/
def Lives (key : String) (bound : Int) (x : Int × Phases ι env) : Prop :=
  x.1 < bound → ∃ entry, x.2.store.redis key = some entry ∧ entry.value = .settled ∧
    bound ≤ entry.expiresAt

omit [DecidableEq ι] in
/-- An operation other than a release leaves a settled marker, or writes it
again. -/
theorem Advance.keeps_marker {mode : Mode} {clock : Int} {w w' : World ι} {ph ph' : Phase env}
    {ev : IoEvent} (h : Advance env mode clock w ph w' ph' ev) {entry : RedisEntry}
    (hentry : w.redis key = some entry) (hkeep : ev.1 ≠ .delete key) :
    w'.redis key = some entry ∨ w'.redis key = some ⟨.settled, markerEnd env clock⟩ := by
  have hother : ∀ k value ttl, k ≠ key → (w.mark k value ttl clock).redis key = some entry :=
    fun k value ttl hk => (Function.update_of_ne (Ne.symm hk) _ _).trans hentry
  have hrelease : ∀ k, k ≠ key → (w.release k).redis key = some entry :=
    fun k hk => (Function.update_of_ne (Ne.symm hk) _ _).trans hentry
  -- a claim wins on a free key only, and this one is taken
  have hclaim : ∀ a : Admitted env, w.redis a.key = none →
      (w.mark a.key .claimed env.claimTtl clock).redis key = some entry := by
    intro a hfree
    refine hother _ _ _ fun hk => ?_
    rw [hk, hentry] at hfree
    cases hfree
  have hmark : ∀ o : Opened env,
      (w.mark o.key .settled env.settledTtl clock).redis key = some entry ∨
        (w.mark o.key .settled env.settledTtl clock).redis key =
          some ⟨.settled, markerEnd env clock⟩ := by
    intro o
    by_cases hk : o.key = key
    · rw [hk]
      exact .inr (Function.update_self ..)
    · exact .inl (hother _ _ _ hk)
  cases h with
  | refused hw => obtain ⟨rows, rfl⟩ := hw; exact .inl hentry
  | noted hw => obtain ⟨rows, rfl⟩ := hw; exact .inl hentry
  | claimWon _ _ hfree => exact .inl (hclaim _ hfree)
  | claimFailed _ hw =>
      rcases hw with rfl | ⟨hfree, rfl⟩
      · exact .inl hentry
      · exact .inl (hclaim _ hfree)
  | @released f _ => exact .inl (hrelease _ fun hk => hkeep (congrArg Op.delete hk))
  | @releaseFailed f _ _ hw =>
      rcases hw with rfl | rfl
      · exact .inl hentry
      · exact .inl (hrelease _ fun hk => hkeep (congrArg Op.delete hk))
  | insertFailed _ _ hw => rcases hw with ⟨rfl | rfl, -⟩ | ⟨-, -, _, rfl⟩ <;> exact .inl hentry
  | marked => exact hmark _
  | markFailed _ hw =>
      rcases hw with rfl | rfl
      · exact .inl hentry
      · exact hmark _
  | @recovered a _ => exact .inl (hrelease _ fun hk => hkeep (congrArg Op.delete hk))
  | @recoverFailed a _ _ hw =>
      rcases hw with rfl | rfl
      · exact .inl hentry
      · exact .inl (hrelease _ fun hk => hkeep (congrArg Op.delete hk))
  | _ => exact .inl hentry

omit [DecidableEq ι] in
/-- A SET that takes effect writes the entry. -/
theorem Advance.set_entry {mode : Mode} {clock : Int} {w w' : World ι} {ph ph' : Phase env}
    {ev : IoEvent} (h : Advance env mode clock w ph w' ph' ev) (hset : TakesEffect key ev w w') :
    w'.redis key = some ⟨.settled, markerEnd env clock⟩ := by
  rcases hset with hmarks | ⟨⟨ex, hop⟩, hchanged⟩
  · cases h with
    | @marked o id _ _ =>
        rw [← show o.key = key from hmarks]
        exact Function.update_self ..
    | _ => exact (show False from hmarks).elim
  · cases h with
    | @marked o id _ _ =>
        cases hop
        exact Function.update_self ..
    | @markFailed o id _ _ hw =>
        -- without its reply: nothing was written, or the entry
        rcases hw with rfl | rfl
        · exact absurd rfl hchanged
        · cases hop
          exact Function.update_self ..
    | _ => cases hop

/-- The state after such a SET, when the row is there. -/
theorem justSettled_of_set {t₀ : Int} {x₀ x : Int × Processors ι} {l : Int × ProcessorLabel ι}
    {ev : IoEvent} (hx₀ : Driven env free (t₀, Processors.init) x₀)
    (hstep : Processors.timedStep commonReading env l x₀ = some x)
    (hev : Processors.performed env l.2 x₀.2 = some ev)
    (hset : TakesEffect key ev x₀.2.store x.2.store) (hrow : HasKey x.2.store key) :
    JustSettled env key t₀ x := by
  obtain ⟨y₀, rfl, -⟩ := Processors.timed_phases (x := (t₀, Phases.init)) hx₀
  obtain ⟨y, rfl, hstep'⟩ := Processors.timed_step_phases hstep
  have hev' : Phases.performed env l.2 y₀.2 = some ev :=
    (Processors.performed_phases ..).symm.trans hev
  obtain ⟨-, hreading, htime, hphase⟩ := timed_cases hstep'
  obtain ⟨t, l⟩ := l
  cases l with
  | io c mode clock =>
      obtain ⟨d, ph, ph', log, w', ev', -, hadv, hperformed, hs⟩ := Phases.step_performed hphase
      obtain rfl : ev' = ev := Option.some.inj (hperformed.symm.trans hev')
      have hredis : y.2.store.redis = w'.redis := by
        rw [hs]
        exact World.after_redis ..
      have hset' : TakesEffect key ev' y₀.2.store w' := hset.imp_right fun h =>
        ⟨h.1, fun hsame => h.2 (hredis.trans hsame)⟩
      have hquiet : TtlOnly (t, .io c mode clock) (coroutines y₀) := ttlOnly_quiet nofun
      refine ⟨.next hx₀ ⟨hquiet, trivial⟩ hstep, hrow, ?_⟩
      show y.2.store.redis key = some ⟨.settled, markerEnd env y.1⟩
      rw [hredis, htime, Advance.set_entry hadv hset', hreading clock rfl]
  | _ => cases hev'

/-- **The marker lives on in every step** that takes it neither early nor by a
release. -/
theorem Lives.step {x x' : Int × Phases ι env} {l : Int × ProcessorLabel ι} {written : Int}
    (h : Lives key (markerEnd env written) x) (hwritten : written ≤ x.1)
    (httl : TtlOnly l (coroutines x)) (hkeeps : KeepsMarker env key l (coroutines x))
    (hstep : Phases.timedStep commonReading env l x = some x') :
    Lives key (markerEnd env written) x' := by
  obtain ⟨hle, hreading, htime, hstep⟩ := timed_cases hstep
  intro hbefore
  rw [htime] at hbefore
  obtain ⟨entry, hentry, hvalue, hends⟩ := h (by omega)
  obtain ⟨t, l⟩ := l
  obtain ⟨t', s'⟩ := x'
  dsimp only at hle hreading hbefore hstep htime ⊢
  cases l with
  | start c d =>
      cases Phases.step_cases hstep with
      | start _ => exact ⟨entry, (congrFun (World.after_redis ..) key).trans hentry, hvalue, hends⟩
  | crash i =>
      cases hstep
      exact ⟨entry, hentry, hvalue, hends⟩
  | disturb e =>
      cases hstep
      cases e with
      | flush => exact (httl.1 rfl).elim
      | expire k =>
          -- the entry of the key has not run out
          have hk : key ≠ k := by
            rintro rfl
            have hexpires : entry.expiresAt ≤ t := httl.2 key rfl entry hentry
            omega
          exact ⟨entry, (Function.update_of_ne hk _ _).trans hentry, hvalue, hends⟩
  | io c mode clock =>
      obtain ⟨d, ph, ph', log, w', ev, hc, hadv, hev, rfl⟩ := Phases.step_performed hstep
      have hsettled : x.2.store.redis.marker key = some .settled := by
        rw [Redis.marker, hentry, Option.map_some, hvalue]
      have hkeep : ev.1 ≠ .delete key := fun hdelete =>
        hkeeps ev ((Processors.performed_phases ..).trans hev) hdelete hsettled
      have hclock : clock = t := hreading clock rfl
      show ∃ entry, (w'.after d ph').redis key = some entry ∧ _
      rw [World.after_redis]
      rcases Advance.keeps_marker hadv hentry hkeep with hsame | hnew
      · exact ⟨entry, hsame, hvalue, hends⟩
      · refine ⟨_, hnew, rfl, ?_⟩
        show written + env.settledTtl * 1000000 ≤ clock + env.settledTtl * 1000000
        omega

/-! ## The copies -/

/-- A copy that is at the gate, or was turned away there. -/
def TurnedAway (key : String) (call : PhaseCall ι env) : Prop :=
  (∀ ev ∈ call.log, ev.1.onRedis = true ∧ ¬ Wins key ev) ∧
    ((∃ a : Admitted env, a.key = key ∧
        (call.status = .running (.claiming a) ∨ call.status = .running (.looking a))) ∨
      (∃ a : Admitted env, ∃ marker, call.status = .returned (Phase.lostOutcome a marker)) ∨
      (∃ e, call.status = .raised e) ∨ call.status = .crashed)

omit [DecidableEq ι] in
/-- Turned away is refused. -/
theorem TurnedAway.refused {call : PhaseCall ι env} (h : TurnedAway key call) :
    Refused key (call.map Phase.prog) := by
  obtain ⟨hlog, hstatus⟩ := h
  refine ⟨hlog, fun o ho => ?_⟩
  have ho' : call.status = .returned o := Status.map_eq_returned ho
  rcases hstatus with ⟨a, -, h | h⟩ | ⟨a, marker, h⟩ | ⟨e, h⟩ | h
  · cases h.symm.trans ho'
  · cases h.symm.trans ho'
  · cases h.symm.trans ho'
    unfold Phase.lostOutcome
    split <;> exact ⟨rfl, rfl⟩
  · cases h.symm.trans ho'
  · cases h.symm.trans ho'

omit [DecidableEq ι] in
/-- A copy that passes the checks on the header comes to the gate. -/
theorem LateCopy.start {x : Int × Phases ι env} {c : Nat} {d : Delivery ι}
    (h : LateCopy env key x c d) :
    ∃ a : Admitted env, a.key = key ∧ Phase.start env d.body d.now = .claiming a := by
  obtain ⟨-, p, ⟨hparsed, hverified⟩, hkey, hfresh, hbound⟩ := h
  let a : Admitted env := ⟨d.body, d.now, p, hparsed, hverified, hfresh, hbound⟩
  exact ⟨a, hkey, Admitted.For.start (a := a) ⟨rfl, rfl⟩⟩

omit [DecidableEq ι] in
/-- An operation at the gate while the marker is there. -/
theorem TurnedAway.advance {mode : Mode} {clock : Int} {w w' : World ι} {d : Delivery ι}
    {ph ph' : Phase env} {log : List IoEvent} {ev : IoEvent}
    (h : TurnedAway key (⟨d, .running ph, log⟩ : PhaseCall ι env))
    (hadv : Advance env mode clock w ph w' ph' ev)
    (hthere : ∀ ex, ev.1 = .setNx key .claimed ex → w.redis key ≠ none) :
    TurnedAway key (⟨d, ph'.status, ev :: log⟩ : PhaseCall ι env) := by
  obtain ⟨hlog, hstatus⟩ := h
  have hgrow : ev.1.onRedis = true → ¬ Wins key ev →
      ∀ ev' ∈ ev :: log, ev'.1.onRedis = true ∧ ¬ Wins key ev' := by
    intro hredis hwins ev' hmem
    rcases List.mem_cons.mp hmem with rfl | hmem
    · exact ⟨hredis, hwins⟩
    · exact hlog ev' hmem
  rcases hstatus with ⟨a, ha, h | h⟩ | ⟨a, marker, h⟩ | ⟨e, h⟩ | h
  · cases h
    cases hadv with
    | claimWon _ _ hfree =>
        refine (hthere _ (by rw [ha]) ?_).elim
        rw [← ha]
        exact hfree
    | claimLost => exact ⟨hgrow rfl id, .inl ⟨a, ha, .inr rfl⟩⟩
    | claimFailed => exact ⟨hgrow rfl id, .inr (.inr (.inl ⟨_, rfl⟩))⟩
  · cases h
    cases hadv with
    | found => exact ⟨hgrow rfl id, .inr (.inl ⟨a, _, rfl⟩)⟩
    | lookFailed => exact ⟨hgrow rfl id, .inr (.inr (.inl ⟨_, rfl⟩))⟩
  · cases h
  · cases h
  · cases h

/-- The marker lives, and every later copy is at the gate or was turned away. -/
structure Guarded (key : String) (written : Int) (x y : Int × Phases ι env) : Prop where
  later : written ≤ y.1
  lives : Lives key (markerEnd env written) y
  copies : ∀ c call, y.2.calls c = some call → LateCopy env key x c call.tag →
    TurnedAway key call

/-- **The gate stays guarded in every step.** -/
theorem Guarded.step {x y y' : Int × Phases ι env} {l : Int × ProcessorLabel ι} {written : Int}
    (h : Guarded key written x y) (httl : TtlOnly l (coroutines y))
    (hclaims : ClaimsInTime env key written l (coroutines y))
    (hkeeps : KeepsMarker env key l (coroutines y))
    (hstep : Phases.timedStep commonReading env l y = some y') : Guarded key written x y' := by
  obtain ⟨hle, -, htime, hphase⟩ := timed_cases hstep
  refine ⟨by have := h.later; omega, h.lives.step h.later httl hkeeps hstep, ?_⟩
  intro c call hc hcopy
  cases Phases.call_step hphase hc with
  | stayed hold => exact h.copies c call hold hcopy
  | started =>
      obtain ⟨a, ha, hstart⟩ := hcopy.start
      refine ⟨fun ev hev => (List.not_mem_nil hev).elim, .inl ⟨a, ha, .inl ?_⟩⟩
      rw [hstart]
      rfl
  | crashed hold => exact ⟨(h.copies c _ hold hcopy).1, .inr (.inr (.inr rfl))⟩
  | @advanced mode clock d ph ph' log w' ev _ hold hadv hev _ =>
      refine (h.copies c _ hold hcopy).advance hadv fun ex hclaim => ?_
      have hbefore : l.1 < markerEnd env written :=
        hclaims ev ex ((Processors.performed_phases ..).trans hev) hclaim
      obtain ⟨entry, hentry, -⟩ := h.lives (by omega)
      rw [hentry]
      simp

omit [DecidableEq ι] in
/-- Where the marker has just been written, the gate is guarded. -/
theorem guarded_start {x : Int × Phases ι env}
    (hmarker : x.2.store.redis key = some ⟨.settled, markerEnd env x.1⟩) :
    Guarded key x.1 x x := by
  refine ⟨Int.le_refl _, fun _ => ⟨_, hmarker, rfl, Int.le_refl _⟩, fun c call hc hcopy => ?_⟩
  rw [hcopy.1] at hc
  cases hc

/-- **Duplicates are refused by Redis** while the marker of the settled packet
lives. -/
theorem duplicates_refused (env : Env) (key : String) {t₀ : Int} {x y : Int × Processors ι}
    (hx : JustSettled env key t₀ x)
    (hy : Driven env (fun l z => ClaimsInTime env key x.1 l z ∧ KeepsMarker env key l z) x y) :
    ∀ c call, y.2.calls c = some call → LateCopy env key x c call.tag → Refused key call := by
  obtain ⟨x', rfl, -⟩ := Processors.timed_phases (x := (t₀, Phases.init)) hx.reach
  obtain ⟨y', rfl, hy'⟩ := Processors.timed_phases hy
  have hguarded : Guarded key x'.1 x' y' := by
    refine hy'.invariant (P := Guarded key x'.1 x') (guarded_start hx.marker) ?_
    intro z l z' _ hz hl hz'
    exact hz.step hl.1 hl.2.1 hl.2.2 hz'
  intro c call hc hcopy
  obtain ⟨call', hcall', rfl⟩ := State.of_map_calls hc
  refine (hguarded.copies c call' hcall' ⟨?_, hcopy.2⟩).refused
  exact Option.map_eq_none_iff.mp hcopy.1

/-! ## The marker runs out -/

/-- A first delivery comes to the SET of its marker, at the instant it reads. The SET
is done, but its reply may be lost. -/
theorem just_settled {o : Opened env} {mode : Mode} (hmode : mode ≠ .refused)
    (hclaim : AcceptsEx env.claimTtl o.now) (hsettled : AcceptsEx env.settledTtl o.now)
    (hfits : o.row.fits = true) : ∃ s : Phases Unit env,
      JustSettled env o.key o.now (coroutines (o.now, s)) ∧ (∀ b, b ≠ 0 → s.calls b = none) ∧
        (mode = .lost → ∃ d ph log, s.calls 0 = some ⟨d, .running ph, log⟩) := by
  let d : Delivery Unit := ⟨(), o.body, o.now⟩
  -- the labels of the run, all at one instant
  let own (l : ProcessorLabel Unit) (_ : Phases Unit env) : Prop :=
    l = .start 0 d ∨ l = .io 0 .served o.now
  have hreads : ∀ l (s : Phases Unit env), own l s →
      commonReading l = none ∨ commonReading l = some o.now := by
    rintro l - (rfl | rfl)
    · exact .inr rfl
    · exact .inr rfl
  obtain ⟨s, id, log, hs, hcall, hothers, hstore⟩ := Phases.run_inserted own (s := Phases.init)
    (c := 0) (d := d) (o := o) o.now (.inl rfl) (fun _ _ => .inr rfl) ⟨rfl, rfl⟩ rfl hclaim rfl
    hfits
  obtain ⟨r, hanswer⟩ := answer_set_done hmode s.store o.key .settled o.now hsettled
  have hmarked := Phases.step_answer hcall rfl hanswer
  have hrun : Driven env free (o.now, Processors.init) (coroutines (o.now, s)) := by
    refine Phases.timed_processors (x := (o.now, Phases.init))
      (hs.instant hreads fun l t u hl => ?_)
    rcases hl with rfl | rfl
    · exact ⟨ttlOnly_quiet nofun, trivial⟩
    · exact ⟨ttlOnly_quiet nofun, trivial⟩
  have hrow : HasKey s.store o.key := by
    have hacc : (World.empty.mark (ι := Unit) o.key .claimed env.claimTtl o.now).settlements.Accepts
        o.row := ⟨o.instruction.amountMinor.2.1, fun row hrow => nomatch hrow⟩
    rw [hstore, World.afterInsert,
      dif_pos (show (Phases.init.store.mark _ _ _ _).settlements.Accepts _ from hacc)]
    exact hasKey_commit ..
  have hclaimed : s.store.redis.marker o.key = some .claimed := by
    simp only [hstore, World.afterInsert]
    split <;> simp [Redis.marker]
  refine ⟨_, justSettled_of_set hrun
    (Phases.timed_step_processors (timed_step hmarked (Int.le_refl _) (.inr rfl)))
    ((Processors.performed_phases ..).trans (Phases.performed_answer hcall rfl hanswer))
    (.inr ⟨⟨_, rfl⟩, fun hsame => ?_⟩) (hrow.mono ?_), fun b hb => ?_, fun hlost => ?_⟩
  · -- the entry was a claim
    have hmarker := congrArg (fun redis => Redis.marker redis o.key) hsame
    dsimp only [Prod.map_snd, State.map_store] at hmarker
    rw [hclaimed] at hmarker
    simp [Phases.enter, Redis.marker] at hmarker
  · show _ <+: ((s.store.mark o.key .settled env.settledTtl o.now).after d _).settlements.rows
    rw [World.after_settlements]
    exact List.prefix_rfl
  · rw [Phases.enter_calls, if_neg hb, hothers b hb]
    rfl
  · subst hlost
    obtain rfl : r = .error .infrastructure := (congrArg Prod.snd hanswer).symm
    exact ⟨_, _, _, (Phases.enter_calls ..).trans (if_pos rfl)⟩

/-- **A copy after the marker's end**, while its packet is in the window: it wins
the claim and goes to Postgres. -/
theorem copy_after_end {o q : Opened env} (hclaim : AcceptsEx env.claimTtl q.now)
    (hsettled : AcceptsEx env.settledTtl o.now) (hfits : o.row.fits = true)
    (hsame : q.packet = o.packet) (hend : markerEnd env o.now ≤ q.now) :
    ∃ x y : Int × Processors Unit, JustSettled env o.key o.now x ∧ Driven env free x y ∧
      ∃ c call, y.2.calls c = some call ∧ LateCopy env o.key x c call.tag ∧
        ¬ Refused o.key call := by
  have hpositive := hsettled.1
  have hlater : o.now ≤ q.now := by
    unfold markerEnd at hend
    omega
  obtain ⟨s, hs, hnone, -⟩ := just_settled (show Mode.served ≠ .refused from nofun)
    (hclaim.earlier hlater) hsettled hfits
  have hmarker : s.store.redis o.key = some ⟨.settled, markerEnd env o.now⟩ := hs.marker
  have hkey : q.key = o.key := congrArg (PaymentPacket.idempotencyKey env.prim) hsame
  let d : Delivery Unit := ⟨(), q.body, q.now⟩
  -- the marker runs out
  have hexpire : Phases.timedStep commonReading env (q.now, .disturb (.expire o.key)) (o.now, s) =
      some (q.now, { s with store := s.store.disturb (.expire o.key) }) := by
    exact timed_step rfl hlater (.inl rfl)
  have hexpires : TtlOnly (q.now, .disturb (.expire o.key)) (coroutines (o.now, s)) := by
    refine ⟨nofun, ?_⟩
    rintro k hk entry hentry
    cases hk
    cases hmarker.symm.trans hentry
    exact hend
  let own (l : ProcessorLabel Unit) (_ : Phases Unit env) : Prop :=
    l = .start 1 d ∨ l = .io 1 .served q.now
  have hreads : ∀ l (s : Phases Unit env), own l s →
      commonReading l = none ∨ commonReading l = some q.now := by
    rintro l - (rfl | rfl)
    · exact .inr rfl
    · exact .inr rfl
  -- the copy wins the claim, and inserts
  obtain ⟨s₁, hs₁, hcall₁, -, -⟩ := Phases.run_claimed own
    (s := { s with store := s.store.disturb (.expire o.key) }) (c := 1) (d := d) (o := q) q.now
    (.inl rfl) (fun _ _ => .inr rfl) ⟨rfl, rfl⟩ (hnone 1 (by decide)) hclaim
    (by rw [hkey]; exact Function.update_self ..)
  have hrun : Driven env free (coroutines (o.now, s)) (coroutines (q.now, s₁)) := by
    refine Phases.timed_processors ((Reach.next .start ⟨hexpires, trivial⟩ hexpire).trans
      (hs₁.instant hreads fun l t u hl => ?_))
    rcases hl with rfl | rfl
    · exact ⟨ttlOnly_quiet nofun, trivial⟩
    · exact ⟨ttlOnly_quiet nofun, trivial⟩
  have hinsert := Phases.step_io .served q.now hcall₁ rfl
  generalize hs₂ : Phases.enter s₁ 1 d _ _ _ = s₂ at hinsert
  have hcall₂ : ∃ status ans log,
      s₂.calls 1 = some ⟨d, status, ⟨.insertSettlement q.row, ans⟩ :: log⟩ := by
    rw [← hs₂]
    exact ⟨_, _, _, (Phases.enter_calls ..).trans (if_pos rfl)⟩
  obtain ⟨status, ans, log, hcall₂⟩ := hcall₂
  have hcopy : LateCopy env o.key (coroutines (o.now, s)) 1 d :=
    ⟨Option.map_eq_none_iff.mpr (hnone 1 (by decide)), q.packet, ⟨q.parsed, q.verified⟩, hkey,
      q.fresh, q.bound⟩
  have hquiet : TtlOnly (q.now, .io 1 .served q.now) (coroutines (q.now, s₁)) :=
    ttlOnly_quiet nofun
  refine ⟨_, _, hs, .next hrun ⟨hquiet, trivial⟩
    (Phases.timed_step_processors (timed_step hinsert (Int.le_refl _) (.inr rfl))), 1, _,
    congrArg (Option.map (Call.map Phase.prog)) hcall₂, hcopy, fun hrefused => ?_⟩
  cases (hrefused.1 _ List.mem_cons_self).1

/-- What is no operation meets every condition on operations. -/
theorem conditions_of_idle {written : Int} {l : Int × ProcessorLabel ι} {x : Int × Processors ι}
    (h : Processors.performed env l.2 x.2 = none) :
    ClaimsInTime env key written l x ∧ KeepsMarker env key l x := by
  refine ⟨fun ev ex hev => ?_, fun ev hev => ?_⟩
  · cases h.symm.trans hev
  · cases h.symm.trans hev

/-- **A copy in time**, after a settlement whose marker was written, whose reply was
lost and whose processor then crashed: the claim of the copy finds the marker. -/
theorem copy_in_time {o : Opened env} (hclaim : AcceptsEx env.claimTtl o.now)
    (hsettled : AcceptsEx env.settledTtl o.now) (hfits : o.row.fits = true) :
    ∃ x y : Int × Processors Unit, JustSettled env o.key o.now x ∧
      Driven env (fun l z => ClaimsInTime env o.key x.1 l z ∧ KeepsMarker env o.key l z) x y ∧
      (∃ call, y.2.calls 0 = some call ∧ call.status = .crashed) ∧
      ∃ c call, y.2.calls c = some call ∧ LateCopy env o.key x c call.tag ∧ call.log ≠ [] := by
  obtain ⟨s, hs, hnone, hrunning⟩ := just_settled (show Mode.lost ≠ .refused from nofun)
    hclaim hsettled hfits
  obtain ⟨d₀, ph, log, hcall₀⟩ := hrunning rfl
  -- the processor crashes
  obtain ⟨s', hcrash, hstopped, hfree, hstore⟩ : ∃ s', Phases.step env (.crash ()) s = some s' ∧
      s'.calls 0 = some ⟨d₀, .crashed, log⟩ ∧ s'.calls 1 = none ∧ s'.store = s.store := by
    refine ⟨_, rfl, ?_, ?_, rfl⟩
    · exact congrArg (Option.map (Call.crashOn platform ())) hcall₀
    · exact congrArg (Option.map (Call.crashOn platform ())) (hnone 1 (by decide))
  have hmarker : s'.store.redis o.key ≠ none := by
    rw [hstore]
    exact ne_of_eq_of_ne hs.marker (Option.some_ne_none _)
  let d : Delivery Unit := ⟨(), o.body, o.now⟩
  have hstart : Phases.step env (.start 1 d) s' = some (s'.enter 1 d (.claiming o.toAdmitted)
      s'.store []) := by
    rw [Phases.step_start d hfree, Admitted.For.start (a := o.toAdmitted) ⟨rfl, rfl⟩]
  generalize hs₁ : Phases.enter s' 1 d _ _ _ = s₁ at hstart
  have hcall₁ : s₁.calls 1 = some ⟨d, .running (.claiming o.toAdmitted), []⟩ := by
    rw [← hs₁]
    exact (Phases.enter_calls ..).trans (if_pos rfl)
  have htaken : s₁.store.redis o.key ≠ none := by
    rw [← hs₁]
    exact hmarker
  have hanswer := perform_setNx_taken .claimed o.now hclaim htaken
  have hlost := Phases.step_answer hcall₁ rfl hanswer
  have hev := Phases.performed_answer hcall₁ rfl hanswer
  have hothers₁ : s₁.calls 0 = s'.calls 0 := by
    rw [← hs₁]
    exact (Phases.enter_calls ..).trans (if_neg (by decide))
  generalize hs₂ : Phases.enter s₁ 1 d _ _ _ = s₂ at hlost
  have hcall₂ : ∃ status ev, s₂.calls 1 = some ⟨d, status, [ev]⟩ := by
    rw [← hs₂]
    exact ⟨_, _, (Phases.enter_calls ..).trans (if_pos rfl)⟩
  have hothers₂ : s₂.calls 0 = s₁.calls 0 := by
    rw [← hs₂]
    exact (Phases.enter_calls ..).trans (if_neg (by decide))
  obtain ⟨status, ev, hcall₂⟩ := hcall₂
  have hintime : ClaimsInTime env o.key o.now (o.now, .io 1 .served o.now)
      (coroutines (o.now, s₁)) := by
    intro _ _ _ _
    have hpositive := hsettled.1
    show o.now < o.now + env.settledTtl * 1000000
    omega
  have hkeeps : KeepsMarker env o.key (o.now, .io 1 .served o.now) (coroutines (o.now, s₁)) := by
    intro ev hperformed hdelete
    cases hev.symm.trans ((Processors.performed_phases ..).symm.trans hperformed)
    cases hdelete
  have hcopy : LateCopy env o.key (coroutines (o.now, s)) 1 d :=
    ⟨Option.map_eq_none_iff.mpr (hnone 1 (by decide)), o.packet, ⟨o.parsed, o.verified⟩, rfl,
      o.fresh, o.bound⟩
  have hquiet : TtlOnly (o.now, .crash ()) (coroutines (o.now, s)) := ttlOnly_quiet nofun
  have hquiet' : TtlOnly (o.now, .start 1 d) (coroutines (o.now, s')) := ttlOnly_quiet nofun
  have hquiet₁ : TtlOnly (o.now, .io 1 .served o.now) (coroutines (o.now, s₁)) :=
    ttlOnly_quiet nofun
  have hrun : Driven env (fun l z => ClaimsInTime env o.key o.now l z ∧ KeepsMarker env o.key l z)
      (coroutines (o.now, s)) (coroutines (o.now, s₂)) := by
    refine Phases.timed_processors (.next (.next (.next .start
      ⟨hquiet, conditions_of_idle rfl⟩ (timed_step hcrash (Int.le_refl _) (.inl rfl)))
      ⟨hquiet', conditions_of_idle rfl⟩ (timed_step hstart (Int.le_refl _) (.inr rfl)))
      ⟨hquiet₁, hintime, hkeeps⟩ (timed_step hlost (Int.le_refl _) (.inr rfl)))
  refine ⟨_, _, hs, hrun, ⟨_, congrArg (Option.map (Call.map Phase.prog))
    ((hothers₂.trans hothers₁).trans hstopped), rfl⟩, 1, _,
    congrArg (Option.map (Call.map Phase.prog)) hcall₂, hcopy, nofun⟩

section Shipped

open Reference (payment onePayment openedAt instant instruction)

theorem inWindow_payment {now : Int} (hfrom : (instant.micros : Int) - 300000000 ≤ now)
    (hto : now ≤ (instant.micros : Int) + 86400000000) : InWindow onePayment payment now :=
  ⟨hfrom, hto⟩

/-- The reference payment, opened at a reading in its window. -/
def paymentAt (now : Int) (h : InWindow onePayment payment now) : Opened onePayment :=
  openedAt (i := instruction) now (by simp; rfl) (staleness_none.mpr h)

/-- **A duplicate reaches Postgres** under the shipped settings: the payment is
dated 300 s ahead, it is settled at once, and a copy comes a day later, when the
marker has run out and the window has 300 s left. -/
theorem duplicate_reaches_postgres :
    onePayment.freshnessWindowSeconds ≤ onePayment.settledTtl ∧
      ∃ t₀, ∃ x y : Int × Processors Unit, JustSettled onePayment Reference.key t₀ x ∧
        Driven onePayment free x y ∧ ∃ c call, y.2.calls c = some call ∧
          LateCopy onePayment Reference.key x c call.tag ∧ ¬ Refused Reference.key call := by
  have hearly : InWindow onePayment payment (instant.micros - 300000000) :=
    inWindow_payment (by omega) (by omega)
  have hlate : InWindow onePayment payment (instant.micros - 300000000 + 86400000000) :=
    inWindow_payment (by omega) (by omega)
  have hclaim : AcceptsEx onePayment.claimTtl (instant.micros - 300000000 + 86400000000) := by
    decide
  have hsettled : AcceptsEx onePayment.settledTtl (instant.micros - 300000000) := by decide
  exact ⟨by decide, _, copy_after_end (o := paymentAt _ hearly) (q := paymentAt _ hlate) hclaim
    hsettled Reference.fits_row rfl (Int.le_refl _)⟩

/-- A second copy of the reference payment is refused, although the settlement of
the first one went down before it heard of its marker. -/
theorem duplicates_refused_payment : ∃ t₀, ∃ x y : Int × Processors Unit,
    JustSettled onePayment Reference.key t₀ x ∧
      (∃ call, y.2.calls 0 = some call ∧ call.status = .crashed) ∧
      ∃ c call, y.2.calls c = some call ∧ LateCopy onePayment Reference.key x c call.tag ∧
        Refused Reference.key call := by
  obtain ⟨x, y, hx, hy, hcrashed, c, call, hc, hcopy, -⟩ := copy_in_time (o := Reference.opened)
    Reference.acceptsEx_claim Reference.acceptsEx_settled Reference.fits_row
  exact ⟨_, x, y, hx, hcrashed, c, call, hc, hcopy,
    duplicates_refused onePayment Reference.key hx hy c call hc hcopy⟩

end Shipped

end MeshSettle.Theorems.Spendable
