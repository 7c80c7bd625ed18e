import MeshSettle.Settlement.Reference
import MeshSettle.Settlement.Section

/-!
# Whose marker a release removes

`release_claim` deletes whatever the key holds. It is the call's own claim as
long as no second call wins the key while the first one still works: then the
key holds the claim of the one call in the section, or nothing.

Where a claim runs out under its holder and another call settles the packet,
the holder's release takes the settled marker away (`settled_marker_released`).
-/

namespace MeshSettle.Theorems.Release

open Lib.Await Lib.Interleave Lib.Transition

variable {ι : Type} {env : Env} {key : String}

/-! ## Statements -/

/-- A step of the past: its label, the operation it performed, and the entry of
the key before it. -/
structure Moment (ι : Type) where
  label : ProcessorLabel ι
  event : Option IoEvent
  entry : Option RedisEntry

/-- The entry is the claim of the call: the call won it, and the key has held it
ever since. -/
def OwnClaim (key : String) (c : Nat) (past : List (Moment ι)) (entry : RedisEntry) : Prop :=
  entry.value = .claimed ∧ ∃ newer older m, past = newer ++ m :: older ∧
    (∃ mode clock, m.label = .io c mode clock) ∧ (∃ ev, m.event = some ev ∧ Wins key ev) ∧
    ∀ m' ∈ newer, m'.entry = some entry

variable [DecidableEq ι]

/-- What is remembered of a step. -/
def moment (env : Env) (key : String) (l : ProcessorLabel ι) (s : Processors ι) :
    Option (Moment ι) :=
  some ⟨l, Processors.performed env l s, s.store.redis key⟩

/-- The system with its past. -/
abbrev Recorded (env : Env) (key : String) (ok : ProcessorLabel ι → Processors ι → Prop)
    (x : List (Moment ι) × Processors ι) : Prop :=
  Reach (observed (moment env key) (Processors.step env)) (fun l x => ok l x.2)
    ([], Processors.init) x

/-- A release of the key removes nothing, or the claim of the call that performs
it; a settled marker goes by its TTL or by a flush only. -/
def RemovesOwn (env : Env) (key : String) (x : List (Moment ι) × Processors ι) : Prop :=
  (∀ c mode clock ev, Processors.performed env (.io c mode clock) x.2 = some ev →
    Releases key ev → x.2.store.redis key = none ∨
      ∃ entry, x.2.store.redis key = some entry ∧ OwnClaim key c x.1 entry) ∧
  ∀ l s', RedisAnswers env l x.2 → Processors.step env l x.2 = some s' →
    x.2.store.redis.marker key = some .settled → s'.store.redis.marker key ≠ some .settled →
      l = .disturb (.expire key) ∨ l = .disturb .flush

/-- No call wins the key while another one that has won it is still running and
has neither marked nor released it. -/
def LoneClaim (env : Env) (key : String) (l : ProcessorLabel ι) (s : Processors ι) : Prop :=
  ∀ c mode clock ev, l = .io c mode clock → Processors.performed env l s = some ev →
    Wins key ev → ∀ b d prog log, b ≠ c → s.calls b = some ⟨d, .running prog, log⟩ →
      ¬ InSection key log

/-- A step that performs nothing. -/
theorem loneClaim_quiet {l : ProcessorLabel ι} {s : Processors ι}
    (h : Processors.performed env l s = none) : LoneClaim env key l s := by
  intro c mode clock ev hl hev
  cases h.symm.trans hev

/-! ## The invariant -/

/-- A running call is in the section of the key. -/
def Working (key : String) (s : Phases ι env) (c : Nat) : Prop :=
  ∃ d ph log, s.calls c = some ⟨d, .running ph, log⟩ ∧ InSection key log

/-- At most one call works on the key, and the key holds its claim or nothing. -/
structure Owned (key : String) (past : List (Moment ι)) (s : Phases ι env) : Prop where
  alone : ∀ b c, Working key s b → Working key s c → b = c
  own : ∀ c, Working key s c → s.store.redis key = none ∨
    ∃ entry, s.store.redis key = some entry ∧ OwnClaim key c past entry

variable {s : Phases ι env} {past : List (Moment ι)}

/-- Who works on the key when one call has reached a phase. -/
theorem working_enter {c : Nat} {d : Delivery ι} {ph : Phase env} {w : World ι}
    {log : List IoEvent} {b : Nat} (h : Working key (s.enter c d ph w log) b) :
    (b = c ∧ InSection key log) ∨ (b ≠ c ∧ Working key s b) := by
  obtain ⟨d', ph', log', hb, hin⟩ := h
  rw [Phases.enter_calls] at hb
  split at hb
  · next hbc =>
      obtain ⟨-, -, rfl⟩ := Call.mk.inj (Option.some.inj hb)
      exact .inl ⟨hbc, hin⟩
  · next hbc => exact .inr ⟨hbc, d', ph', log', hb, hin⟩

omit [DecidableEq ι] in
/-- An entry that stays is still the call's own. -/
theorem OwnClaim.later {c : Nat} {entry : RedisEntry} (h : OwnClaim key c past entry)
    {m : Moment ι} (hm : m.entry = some entry) : OwnClaim key c (m :: past) entry := by
  obtain ⟨hvalue, newer, older, m₀, rfl, hlabel, hwins, hnewer⟩ := h
  refine ⟨hvalue, m :: newer, older, m₀, rfl, hlabel, hwins, fun m' hm' => ?_⟩
  rcases List.mem_cons.mp hm' with rfl | hmem
  · exact hm
  · exact hnewer m' hmem

omit [DecidableEq ι] in
/-- A step that leaves the entry of the key, or removes it, while nobody starts
to work on it. -/
theorem Owned.keep (hs : Owned key past s) {s' : Phases ι env} {m : Moment ι}
    (hm : m.entry = s.store.redis key) (hworking : ∀ c, Working key s' c → Working key s c)
    (hredis : s'.store.redis key = s.store.redis key ∨ s'.store.redis key = none) :
    Owned key (m :: past) s' where
  alone b c hb hc := hs.alone b c (hworking b hb) (hworking c hc)
  own c hc := by
    rcases hredis with hsame | hnone
    · rcases hs.own c (hworking c hc) with hnone | ⟨entry, hentry, hown⟩
      · exact .inl (hsame.trans hnone)
      · exact .inr ⟨entry, hsame.trans hentry, hown.later (hm.trans hentry)⟩
    · exact .inl hnone

omit [DecidableEq ι] in
/-- A state in which nobody works on the key. -/
theorem Owned.idle (h : ∀ c, ¬ Working key s c) : Owned key past s :=
  ⟨fun b _ hb _ => (h b hb).elim, fun c hc => (h c hc).elim⟩

/-- **A step keeps the key with its owner**, while no second claim is won. -/
theorem Owned.step (hs : Owned key past s)
    (htracks : ∀ c call, s.calls c = some call → Tracks call.log call.status)
    {l : ProcessorLabel ι} {s' : Phases ι env} (hredis : RedisAnswers env l (s.map Phase.prog))
    (hlone : LoneClaim env key l (s.map Phase.prog)) (hstep : Phases.step env l s = some s') :
    Owned key (⟨l, Phases.performed env l s, s.store.redis key⟩ :: past) s' := by
  cases l with
  | start c d =>
      cases Phases.step_cases hstep with
      | start hc =>
          refine hs.keep rfl (fun b hb => ?_) (.inl (congrFun (World.after_redis ..) key))
          rcases working_enter hb with ⟨-, hin⟩ | ⟨-, hold⟩
          · exact (not_inSection_nil hin).elim
          · exact hold
  | crash i =>
      cases hstep
      refine hs.keep rfl ?_ (.inl rfl)
      rintro b ⟨d, ph, log, hb, hin⟩
      obtain ⟨call, hcall, hcrash⟩ := Option.map_eq_some_iff.mp hb
      rcases Call.crashOn_cases platform i call with heq | ⟨-, -, -, heq⟩
      · rw [heq] at hcrash
        exact ⟨d, ph, log, hcrash ▸ hcall, hin⟩
      · rw [heq] at hcrash
        cases hcrash
  | disturb e =>
      cases hstep
      refine hs.keep rfl (fun _ hb => hb) ?_
      cases e with
      | flush => exact .inr rfl
      | expire k =>
          by_cases hk : key = k
          · exact .inr (by rw [hk]; exact Function.update_self ..)
          · exact .inl (Function.update_of_ne hk _ _)
  | io c mode clock =>
      obtain ⟨d, ph, ph', log, w', ev, hc, hadv, hev, rfl⟩ := Phases.step_performed hstep
      have hperformed := (Processors.performed_phases (.io c mode clock) s).trans hev
      -- once the call is out of the section, nobody works on the key
      have hidle : InSection key log → ¬ InSection key (ev :: log) →
          ∀ b, ¬ Working key (s.enter c d ph' w' (ev :: log)) b := by
        intro hin hout b hb
        rcases working_enter hb with ⟨-, hin'⟩ | ⟨hne, hold⟩
        · exact hout hin'
        · exact hne (hs.alone b c hold ⟨d, ph, log, hc, hin⟩)
      cases hadv.move (htracks c _ hc) (hredis ev hperformed) key with
      | aside hiff hsame =>
          refine hs.keep rfl (fun b hb => ?_) (.inl ((congrFun (World.after_redis ..) key).trans
            hsame))
          rcases working_enter hb with ⟨rfl, hin⟩ | ⟨-, hold⟩
          · exact ⟨d, ph, log, hc, hiff.mp hin⟩
          · exact hold
      | enter _ hwins _ hclaimed =>
          have honly : ∀ b, Working key (s.enter c d ph' w' (ev :: log)) b → b = c := by
            intro b hb
            rcases working_enter hb with ⟨rfl, -⟩ | ⟨hne, d', ph₀, log', hb', hin⟩
            · rfl
            · exact (hlone c mode clock ev rfl hperformed hwins b d' ph₀.prog log' hne
                (congrArg (Option.map (Call.map Phase.prog)) hb') hin).elim
          obtain ⟨entry, hentry, hvalue⟩ := Option.map_eq_some_iff.mp hclaimed
          refine ⟨fun a b ha hb => (honly a ha).trans (honly b hb).symm, fun b hb => .inr ?_⟩
          obtain rfl := honly b hb
          refine ⟨entry, (congrFun (World.after_redis ..) key).trans hentry, hvalue, [], past, _,
            rfl, ⟨mode, clock, rfl⟩, ⟨ev, hev, hwins⟩, fun m hm => by cases hm⟩
      | mark hin hmarks => exact .idle (hidle hin (not_inSection_marks hmarks))
      | release hin hreleases => exact .idle (hidle hin (not_inSection_releases hreleases))

/-- The recorded runs of the phases. -/
abbrev Lone (env : Env) (key : String) (x : List (Moment ι) × Phases ι env) : Prop :=
  Reach (observed (fun l s => some ⟨l, Phases.performed env l s, s.store.redis key⟩)
      (Phases.step env))
    (fun l (x : List (Moment ι) × Phases ι env) => RedisAnswers env l (x.2.map Phase.prog) ∧
      LoneClaim env key l (x.2.map Phase.prog)) ([], Phases.init) x

theorem Lone.tracks {x : List (Moment ι) × Phases ι env} (h : Lone env key x) :
    ∀ c call, x.2.calls c = some call → Tracks call.log call.status :=
  Phases.tracks (fun l s (hl : RedisAnswers env l (s.map Phase.prog)) => hl)
    (Reach.unobserved (fun _ _ hl => hl.1) h)

/-- **The key stays with its owner in every such run.** -/
theorem Lone.owned {x : List (Moment ι) × Phases ι env} (h : Lone env key x) :
    Owned key x.1 x.2 := by
  refine h.invariant (P := fun x => Owned key x.1 x.2) (.idle ?_) ?_
  · rintro c ⟨d, ph, log, hc, -⟩
    cases hc
  · rintro ⟨past, s⟩ l ⟨past', s'⟩ hr hinv hl hstep
    obtain ⟨hpast, hstep'⟩ := observed_cases hstep
    dsimp only at hpast ⊢
    rw [hpast]
    exact hinv.step (Lone.tracks hr) hl.1 hl.2 hstep'

/-- A release of the key removes the entry of the call that works on it. -/
theorem Lone.removesOwn {x : List (Moment ι) × Phases ι env} (h : Lone env key x) :
    RemovesOwn env key (x.1, x.2.map Phase.prog) := by
  obtain ⟨past, s⟩ := x
  have howned : Owned key past s := h.owned
  refine ⟨fun c mode clock ev hev hreleases => ?_, fun l s' hredis hstep hsettled hgone => ?_⟩
  · obtain ⟨d, ph, ph', log, w', hc, hadv⟩ :=
      Phases.performed_cases ((Processors.performed_phases ..).symm.trans hev)
    cases hadv.move (h.tracks c _ hc) hreleases.answered key with
    | aside _ _ _ _ hnot => exact (hnot hreleases).elim
    | enter _ hwins => exact (hwins.not_releases hreleases).elim
    | mark _ hmarks => exact (hmarks.not_releases hreleases).elim
    | release hin => exact howned.own c ⟨d, ph, log, hc, hin⟩
  · obtain ⟨t, rfl, hstep'⟩ := Processors.step_phases hstep
    have hsame : t.store.redis key ≠ s.store.redis key := by
      intro hsame
      refine hgone ?_
      rw [State.map_store, Redis.marker, hsame]
      exact hsettled
    cases l with
    | start c d =>
        cases Phases.step_cases hstep' with
        | start _ => exact (hsame (congrFun (World.after_redis ..) key)).elim
    | crash i =>
        cases hstep'
        exact (hsame rfl).elim
    | disturb e =>
        cases hstep'
        cases e with
        | flush => exact .inr rfl
        | expire k =>
            by_cases hk : key = k
            · exact .inl (by rw [hk])
            · exact (hsame (Function.update_of_ne hk _ _)).elim
    | io c mode clock =>
        obtain ⟨d, ph, ph', log, w', ev, hc, hadv, hev, rfl⟩ := Phases.step_performed hstep'
        have hstore := congrFun (World.after_redis d ph' w') key
        have hanswered := hredis ev ((Processors.performed_phases ..).trans hev)
        cases hadv.move (h.tracks c _ hc) hanswered key with
        | aside _ heq => exact (hsame (hstore.trans heq)).elim
        | enter hfree =>
            rw [State.map_store, Redis.marker, hfree] at hsettled
            cases hsettled
        | mark _ _ hmarked =>
            refine (hgone ?_).elim
            rw [State.map_store, Redis.marker, show (s.enter ..).store.redis key = _ from hstore]
            exact hmarked
        | release hin =>
            -- the call works on the key, which holds its claim or nothing
            rcases howned.own c ⟨d, ph, log, hc, hin⟩ with hnone | ⟨entry, hentry, hvalue, -⟩
            · rw [State.map_store, Redis.marker, hnone] at hsettled
              cases hsettled
            · rw [State.map_store, Redis.marker, hentry, Option.map_some, hvalue] at hsettled
              cases hsettled

/-- **A release removes the call's own claim**, in every run in which no call wins
a key that another one still works on. -/
theorem release_removes_own (env : Env) (key : String) {x : List (Moment ι) × Processors ι}
    (h : Recorded env key (fun l s => RedisAnswers env l s ∧ LoneClaim env key l s) x) :
    RemovesOwn env key x := by
  obtain ⟨⟨past, s⟩, rfl, hs⟩ := Reach.lift (([], Phases.init) : List (Moment ι) × Phases ι env)
    (Prod.map id (State.map Phase.prog))
    (observed_map (fun l s => some ⟨l, Phases.performed env l s, s.store.redis key⟩)
      (State.map Phase.prog) (fun l s => step_map (processCode_same env) l s)
      fun l s => by rw [moment, Processors.performed_phases]; rfl)
    (fun _ _ hok => hok) h
  exact Lone.removesOwn hs

/-- The insert of a call fails, and its handler is about to release the claim. -/
theorem insert_fails {s : Phases ι env} {c : Nat} {d : Delivery ι} {o : Opened env}
    {log : List IoEvent} (clock : Int) (hc : s.calls c = some ⟨d, .running (.inserting o), log⟩) :
    ∃ s', Phases.step env (.io c .refused clock) s = some s' ∧
      RedisAnswers env (.io c .refused clock) (s.map Phase.prog) ∧
      (∀ key, LoneClaim env key (.io c .refused clock) (s.map Phase.prog)) ∧
      (∃ log, s'.calls c = some ⟨d, .running (.recovering o.toAdmitted), log⟩) ∧
      s'.store = s.store := by
  have hrefused : platform.answer .refused (.insertSettlement o.row) clock s.store =
      (s.store, .error .infrastructure) := rfl
  have hperformed : Processors.performed env (.io c .refused clock) (s.map Phase.prog) =
      some ⟨.insertSettlement o.row, .error .infrastructure⟩ :=
    (Processors.performed_phases _ _).trans (Phases.performed_answer hc rfl hrefused)
  refine ⟨_, Phases.step_answer hc rfl hrefused, ?_, ?_,
    ⟨_, (Phases.enter_calls ..).trans (if_pos rfl)⟩, rfl⟩
  · intro ev hev honRedis
    cases hperformed.symm.trans hev
    cases honRedis
  · intro key b mode time ev hl hev hwins
    cases hperformed.symm.trans hev
    exact hwins.elim

/-- The release of a claim. -/
theorem release_step {s : Phases ι env} {c : Nat} {d : Delivery ι} {a : Admitted env}
    {log : List IoEvent} (clock : Int) (hc : s.calls c = some ⟨d, .running (.recovering a), log⟩) :
    Processors.performed env (.io c .served clock) (s.map Phase.prog) =
        some ⟨.delete a.key, .ok ()⟩ ∧
      ∃ t, Processors.step env (.io c .served clock) (s.map Phase.prog) = some t ∧
        t.store.redis.marker a.key = none := by
  have hdelete : platform.answer .served (.delete a.key) clock s.store =
      (s.store.release a.key, .ok ()) := rfl
  refine ⟨(Processors.performed_phases _ _).trans (Phases.performed_answer hc rfl hdelete), _,
    (step_map (processCode_same env) _ s).trans
      (congrArg (Option.map _) (Phases.step_answer hc rfl hdelete)), ?_⟩
  simp only [State.map_store, Phases.enter, Redis.marker, World.after_redis]
  simp

/-- A single call whose insert fails makes such a run: it is about to release its
claim. -/
theorem lone_releases {o : Opened env} {clock : Int} (hclaim : AcceptsEx env.claimTtl clock)
    (hsettled : AcceptsEx env.settledTtl clock) : ∃ s : Phases Unit env,
      Reach (Processors.step env) (fun l s => RedisAnswers env l s ∧ LoneClaim env o.key l s)
        Processors.init (s.map Phase.prog) ∧
      (∃ d log, s.calls 0 = some ⟨d, .running (.recovering o.toAdmitted), log⟩) ∧
      s.store.redis.marker o.key = some .claimed := by
  -- the call is the only one
  have hserved : ∀ s : Phases Unit env, (∀ b, b ≠ 0 → s.calls b = none) →
      RedisAnswers env (.io 0 .served clock) (s.map Phase.prog) ∧
        LoneClaim env o.key (.io 0 .served clock) (s.map Phase.prog) := by
    refine fun s hs => ⟨redisAnswers_served hclaim hsettled 0 s, ?_⟩
    rintro c mode time ev hl - - b d prog log hb hcall
    cases hl
    rw [State.map_calls, hs b hb] at hcall
    cases hcall
  obtain ⟨s₁, hs₁, hcall₁, -, hstore₁⟩ := Phases.run_claimed
    (fun l s => RedisAnswers env l (s.map Phase.prog) ∧ LoneClaim env o.key l (s.map Phase.prog))
    (s := Phases.init) (c := 0) (d := ⟨(), o.body, o.now⟩) (o := o) clock
    ⟨redisAnswers_quiet rfl, loneClaim_quiet rfl⟩ (fun s hs => hserved s hs) ⟨rfl, rfl⟩ rfl
    hclaim rfl
  obtain ⟨s₂, hstep₂, hanswers₂, hlone₂, ⟨log, hcall₂⟩, hstore₂⟩ := insert_fails clock hcall₁
  refine ⟨s₂, Phases.reach_processors (.next hs₁ ⟨hanswers₂, hlone₂ _⟩ hstep₂), ⟨_, log, hcall₂⟩,
    ?_⟩
  rw [hstore₂, hstore₁]
  simp [Redis.marker]

/-- The insert of the reference payment fails, and the call deletes its own
claim. -/
theorem release_removes_own_payment :
    ∃ (x : List (Moment Unit) × Processors Unit) (ev : IoEvent) (t : Processors Unit),
      Processors.performed Reference.onePayment (.io 0 .served Reference.instant.micros) x.2 =
        some ev ∧ Releases Reference.key ev ∧
      x.2.store.redis.marker Reference.key = some .claimed ∧
      Processors.step Reference.onePayment (.io 0 .served Reference.instant.micros) x.2 = some t ∧
      t.store.redis.marker Reference.key = none ∧
      RemovesOwn Reference.onePayment Reference.key x := by
  obtain ⟨s, hs, ⟨d, log, hcall⟩, hmarker⟩ := lone_releases (o := Reference.opened)
    Reference.acceptsEx_claim Reference.acceptsEx_settled
  obtain ⟨past, hpast⟩ := hs.observed []
  obtain ⟨hperformed, t, hstep, hgone⟩ := release_step Reference.instant.micros hcall
  exact ⟨(past, s.map Phase.prog), _, t, hperformed, rfl, hmarker, hstep, hgone,
    release_removes_own Reference.onePayment Reference.key hpast⟩

/-! ## A claim that runs out -/

/-- The claim of call 0 runs out while it works, call 1 settles the packet, and
the insert of call 0 fails: its handler deletes the settled marker. -/
theorem released_after_expiry {o : Opened env} {clock : Int}
    (hclaim : AcceptsEx env.claimTtl clock) (hsettled : AcceptsEx env.settledTtl clock)
    (hfits : o.row.fits = true) :
    ∃ s t : Processors Unit, Reach (Processors.step env) (RedisAnswers env) Processors.init s ∧
      RedisAnswers env (.io 0 .served clock) s ∧
      Processors.step env (.io 0 .served clock) s = some t ∧
      s.store.redis.marker o.key = some .settled ∧ t.store.redis.marker o.key = none := by
  let answers (l : ProcessorLabel Unit) (s : Phases Unit env) : Prop :=
    RedisAnswers env l (s.map Phase.prog)
  have hserved : ∀ c (s : Phases Unit env), answers (.io c .served clock) s :=
    fun c s => redisAnswers_served hclaim hsettled c s
  let d : Delivery Unit := ⟨(), o.body, o.now⟩
  obtain ⟨s₁, hs₁, hcall₁, hothers₁, hstore₁⟩ := Phases.run_claimed answers (s := Phases.init)
    (c := 0) (d := d) (o := o) clock (redisAnswers_quiet rfl) (fun s _ => hserved 0 s) ⟨rfl, rfl⟩
    rfl hclaim rfl
  -- the claim of call 0 runs out
  have hexpire : Phases.step env (.disturb (.expire o.key)) s₁ =
      some { s₁ with store := s₁.store.disturb (.expire o.key) } := rfl
  have hquiet : answers (.disturb (.expire o.key)) s₁ := redisAnswers_quiet rfl
  obtain ⟨s₂, -, -, hs₂, -, hothers₂, hredis₂, -⟩ := Phases.run_opened answers
    (s := { s₁ with store := s₁.store.disturb (.expire o.key) }) (c := 1) (d := d) (o := o) clock
    (redisAnswers_quiet rfl) (fun s _ => hserved 1 s) ⟨rfl, rfl⟩ (hothers₁ 1 (by decide)) hclaim
    hsettled (Function.update_self ..) hfits
  -- its insert fails, and the handler releases what is there now
  obtain ⟨s₃, hstep₃, hanswers₃, -, ⟨log, hcall₃⟩, hstore₃⟩ :=
    insert_fails clock ((hothers₂ 0 (by decide)).trans hcall₁)
  obtain ⟨-, t, hstep, hgone⟩ := release_step clock hcall₃
  have hreach : Reach (Phases.step env) answers Phases.init s₃ :=
    .next ((Reach.next hs₁ hquiet hexpire).trans hs₂) hanswers₃ hstep₃
  refine ⟨s₃.map Phase.prog, t, Phases.reach_processors hreach, hserved 0 s₃, hstep, ?_, hgone⟩
  rw [State.map_store, hstore₃, Redis.marker, hredis₂]
  simp

/-- **The settled marker is deleted** by a call whose claim has run out. -/
theorem settled_marker_released : ∃ x : List (Moment Unit) × Processors Unit,
    Recorded Reference.onePayment Reference.key (RedisAnswers Reference.onePayment) x ∧
      ¬ RemovesOwn Reference.onePayment Reference.key x := by
  obtain ⟨s, t, hs, hanswers, hstep, hsettled, hgone⟩ := released_after_expiry
    (o := Reference.opened) Reference.acceptsEx_claim Reference.acceptsEx_settled
    Reference.fits_row
  obtain ⟨past, hpast⟩ := hs.observed []
  refine ⟨(past, s), hpast, fun hown => ?_⟩
  have hnot : t.store.redis.marker Reference.key ≠ some .settled := by
    intro h
    cases hgone.symm.trans h
  rcases hown.2 _ t hanswers hstep hsettled hnot with h | h
  · cases h
  · cases h

end MeshSettle.Theorems.Release
