import MeshSettle.Settlement.Reference
import MeshSettle.Settlement.Section
import MeshSettle.Settlement.Serving

/-!
# The gate is a mutual exclusion

While Redis answers and loses no key, the claim alone keeps calls apart: a key
is claimed by whoever is in its section, and at most one call is. A section may
be left by any of its exits, or never, when its call crashes.
-/

namespace MeshSettle.Theorems.Exclusion

open Lib.Await Lib.Interleave Lib.Transition

variable {ι : Type} {env : Env} {key : String}

/-! ## Statements -/

/-- The answer of a claim on the key. -/
def claimAnswer (key : String) : IoEvent → Option Bool
  | ⟨.setNx k .claimed _, .ok won⟩ => if k = key then some won else none
  | _ => none

/-- At most one call is in the section of the key. -/
def SectionAlone (key : String) (t : Processors ι) : Prop :=
  ∀ b c call call', t.calls b = some call → t.calls c = some call' →
    InSection key call.log → InSection key call'.log → b = c

/-- The call is at the insert of a row of the key. -/
def AtInsert (env : Env) (key : String) (call : ProcessCall ι) : Prop :=
  ∃ row, call.pending (processCode env) = some (.insertSettlement row) ∧ row.idempotencyKey = key

/-- At most one call is at the insert of a row of the key. -/
def InsertAlone (env : Env) (key : String) (t : Processors ι) : Prop :=
  ∀ b c call call', t.calls b = some call → t.calls c = some call' →
    AtInsert env key call → AtInsert env key call' → b = c

variable [DecidableEq ι]

/-- Redis answers every call and loses no key by itself. -/
def Undisturbed (env : Env) (l : ProcessorLabel ι) (s : Processors ι) : Prop :=
  (∀ e, l ≠ .disturb e) ∧ RedisAnswers env l s

/-- Such a step that does not release the key. -/
def Unreleased (env : Env) (key : String) (l : ProcessorLabel ι) (s : Processors ι) : Prop :=
  Undisturbed env l s ∧ ∀ ev, Processors.performed env l s = some ev → ¬ Releases key ev

/-- The answers of the claims on the key, as they are given. -/
def claimAnswers (env : Env) (key : String) (l : ProcessorLabel ι) (s : Processors ι) :
    Option Bool :=
  (Processors.performed env l s).bind (claimAnswer key)

/-- Of the claims on an absent key, however many and however interleaved, one is
won before the key is released. -/
def OneClaimWins (env : Env) (key : String) (t : Processors ι) : Prop :=
  t.store.redis key = none → ∀ answers u,
    Reach (observed (claimAnswers env key) (Processors.step env))
      (fun l s => Unreleased env key l s.2) ([], t) (answers, u) →
    answers ≠ [] → answers.count true = 1

/-- The call has not claimed the key yet. -/
def Late (key : String) (t : Processors ι) (c : Nat) : Prop :=
  ∀ call, t.calls c = some call → ∀ ev ∈ call.log, ¬ Claims key ev

/-- Once the key is marked settled it stays so, and every later claim on it is
answered that the packet was settled. -/
def SettledForGood (env : Env) (key : String) (t : Processors ι) : Prop :=
  (∃ c call, t.calls c = some call ∧ ∃ ev ∈ call.log, Marks key ev) →
    ∀ u, Reach (Processors.step env) (Undisturbed env) t u →
      u.store.redis.marker key = some .settled ∧
      ∀ c call, u.calls c = some call → Late key t c → (∃ ev ∈ call.log, Claims key ev) →
        (∀ ev ∈ call.log, ¬ Wins key ev) ∧
        ∀ outcome, call.status = .returned outcome → outcome.code = some .duplicatePacket ∧
          outcome.detail = "packet was already settled" ∧ outcome.idempotencyKey = some key

/-! ## The gate -/

/-- A call, crashed or not, is in the section of the key. -/
def Inside (key : String) (s : Phases ι env) (c : Nat) : Prop :=
  ∃ call, s.calls c = some call ∧ InSection key call.log

/-- Whoever is in the section has the key claimed, and is there alone. -/
structure Gate (key : String) (s : Phases ι env) : Prop where
  claimed : ∀ c, Inside key s c → s.store.redis.marker key = some .claimed
  alone : ∀ b c, Inside key s b → Inside key s c → b = c

variable {s : Phases ι env}

/-- Who is inside when one call has reached a phase. -/
theorem inside_enter {c : Nat} {d : Delivery ι} {ph : Phase env} {w : World ι}
    {log : List IoEvent} {b : Nat} : Inside key (s.enter c d ph w log) b ↔
      (b = c ∧ InSection key log) ∨ (b ≠ c ∧ Inside key s b) := by
  unfold Inside
  rw [Phases.enter_calls]
  by_cases hb : b = c
  · simp [hb]
  · simp [hb]

/-- A crash moves nobody. -/
theorem inside_crash {i : ι} {b : Nat} :
    Inside key { s with calls := fun c => (s.calls c).map (Call.crashOn platform i) } b ↔
      Inside key s b := by
  have hlog : ∀ call : PhaseCall ι env, (call.crashOn platform i).log = call.log := by
    intro call
    rcases Call.crashOn_cases platform i call with h | ⟨-, -, -, h⟩ <;> rw [h]
  constructor
  · rintro ⟨call, hc, hin⟩
    obtain ⟨call', hc', rfl⟩ := Option.map_eq_some_iff.mp hc
    exact ⟨call', hc', hlog call' ▸ hin⟩
  · rintro ⟨call, hc, hin⟩
    exact ⟨_, congrArg (Option.map _) hc, (hlog call).symm ▸ hin⟩

omit [DecidableEq ι] in
/-- Whoever is inside finds the key in Redis. -/
theorem Gate.present (hs : Gate key s) {c : Nat} (hc : Inside key s c) :
    s.store.redis key ≠ none := by
  intro hnone
  have hclaimed := hs.claimed c hc
  rw [Redis.marker, hnone] at hclaimed
  cases hclaimed

/-- **The gate holds after an operation**, while Redis answers. -/
theorem Gate.io (hs : Gate key s) {c : Nat} {d : Delivery ι} {ph' : Phase env} {w' : World ι}
    {ev : IoEvent} {status : Status Exc SettlementOutcome (Phase env)} {log : List IoEvent}
    (hc : s.calls c = some ⟨d, status, log⟩) (hmove : Move key s.store w' log ev) :
    Gate key (s.enter c d ph' w' (ev :: log)) := by
  have hmarker : ∀ {m}, w'.redis.marker key = m →
      (s.enter c d ph' w' (ev :: log)).store.redis.marker key = m := by
    intro m hm
    show (w'.after d ph').redis.marker key = m
    rw [World.after_redis]
    exact hm
  -- nobody else is inside when the call leaves
  have hleft : InSection key log → ¬ InSection key (ev :: log) →
      ∀ b, ¬ Inside key (s.enter c d ph' w' (ev :: log)) b := by
    intro hin hout b hb
    rcases inside_enter.mp hb with ⟨-, hin'⟩ | ⟨hne, hin'⟩
    · exact hout hin'
    · exact hne (hs.alone b c hin' ⟨_, hc, hin⟩)
  cases hmove with
  | aside hiff hredis =>
      have hsame : ∀ b, Inside key (s.enter c d ph' w' (ev :: log)) b → Inside key s b := by
        intro b hb
        rcases inside_enter.mp hb with ⟨rfl, hin⟩ | ⟨-, hin⟩
        · exact ⟨_, hc, hiff.mp hin⟩
        · exact hin
      refine ⟨fun b hb => hmarker ?_, fun a b ha hb => hs.alone a b (hsame a ha) (hsame b hb)⟩
      rw [Redis.marker, hredis]
      exact hs.claimed b (hsame b hb)
  | enter hfree _ _ hclaimed =>
      -- the key was free, so nobody was inside
      have honly : ∀ b, Inside key (s.enter c d ph' w' (ev :: log)) b → b = c := by
        intro b hb
        rcases inside_enter.mp hb with ⟨rfl, -⟩ | ⟨-, hin⟩
        · rfl
        · exact (hs.present hin hfree).elim
      exact ⟨fun _ _ => hmarker hclaimed, fun a b ha hb => (honly a ha).trans (honly b hb).symm⟩
  | mark hin hmarks =>
      have hnone := hleft hin (not_inSection_marks hmarks)
      exact ⟨fun b hb => (hnone b hb).elim, fun a _ ha _ => (hnone a ha).elim⟩
  | release hin hreleases =>
      have hnone := hleft hin (not_inSection_releases hreleases)
      exact ⟨fun b hb => (hnone b hb).elim, fun a _ ha _ => (hnone a ha).elim⟩

/-- A step of an undisturbed run, for one key: nobody moves, or one call does. -/
inductive Passes (key : String) (s : Phases ι env) : Phases ι env → Option IoEvent → Prop
  | quiet {s' : Phases ι env} : s'.store.redis = s.store.redis →
      (∀ c, Inside key s' c ↔ Inside key s c) → Passes key s s' none
  | op {c : Nat} {d : Delivery ι} {ph ph' : Phase env} {w' : World ι} {log : List IoEvent}
      {ev : IoEvent} : s.calls c = some ⟨d, .running ph, log⟩ → Move key s.store w' log ev →
      Passes key s (s.enter c d ph' w' (ev :: log)) (some ev)

/-- **Inversion of an undisturbed step**, for one key. -/
theorem Phases.passes (key : String)
    (hs : ∀ c call, s.calls c = some call → Tracks call.log call.status) {l : ProcessorLabel ι}
    {s' : Phases ι env} (hok : Undisturbed env l (s.map Phase.prog))
    (hstep : Phases.step env l s = some s') : Passes key s s' (Phases.performed env l s) := by
  cases l with
  | start c d =>
      cases Phases.step_cases hstep with
      | start hc =>
          refine .quiet (World.after_redis ..) fun b => ?_
          rw [inside_enter]
          constructor
          · rintro (⟨-, hin⟩ | ⟨-, hin⟩)
            · exact (not_inSection_nil hin).elim
            · exact hin
          · intro hin
            refine .inr ⟨?_, hin⟩
            rintro rfl
            obtain ⟨call, hcall, -⟩ := hin
            cases hc.symm.trans hcall
  | io c mode clock =>
      obtain ⟨d, ph, ph', log, w', ev, hc, hadv, hev, rfl⟩ := Phases.step_performed hstep
      have hanswered : Answered ev := hok.2 ev ((Processors.performed_phases ..).trans hev)
      rw [hev]
      exact .op hc (hadv.move (hs c _ hc) hanswered key)
  | crash i =>
      cases hstep
      exact .quiet rfl fun b => inside_crash
  | disturb e => exact (hok.1 e rfl).elim

/-- **The gate holds after a step.** -/
theorem Gate.step {s' : Phases ι env} {o : Option IoEvent} (hs : Gate key s)
    (hstep : Passes key s s' o) : Gate key s' := by
  cases hstep with
  | quiet hredis hinside =>
      refine ⟨fun c hc => ?_, fun b c hb hc =>
        hs.alone b c ((hinside b).mp hb) ((hinside c).mp hc)⟩
      rw [hredis]
      exact hs.claimed c ((hinside c).mp hc)
  | op hc hmove => exact hs.io hc hmove

/-- The undisturbed runs of the phases. -/
abbrev Calm (env : Env) (s : Phases ι env) : Prop :=
  Reach (Phases.step env) (fun l s => Undisturbed env l (s.map Phase.prog)) Phases.init s

theorem Calm.tracks (h : Calm env s) :
    ∀ c call, s.calls c = some call → Tracks call.log call.status :=
  Phases.tracks (fun _ _ hl => hl.2) h

/-- **The gate holds in every undisturbed run.** -/
theorem Calm.gate (h : Calm env s) (key : String) : Gate key s := by
  refine h.invariant (P := Gate key) ⟨?_, ?_⟩ ?_
  · rintro c ⟨call, hc, -⟩
    cases hc
  · rintro b c ⟨call, hb, -⟩
    cases hb
  · intro s l s' hr hs hl hstep
    exact hs.step (Phases.passes key (Calm.tracks hr) hl hstep)

/-! ## One claim wins -/

theorem claimAnswer_wins {ev : IoEvent} (h : Wins key ev) : claimAnswer key ev = some true := by
  unfold Wins at h
  split at h
  · exact if_pos h
  · exact h.elim

theorem claimAnswer_marks {ev : IoEvent} (h : Marks key ev) : claimAnswer key ev = none := by
  unfold Marks at h
  split at h
  · rfl
  · exact h.elim

/-- An answer is that of a claim, which is won or lost. -/
theorem claimAnswer_claims {ev : IoEvent} {won : Bool} (h : claimAnswer key ev = some won) :
    Claims key ev ∧ (won = true → Wins key ev) := by
  unfold claimAnswer at h
  split at h
  · next k ex won' =>
      split at h
      · next hk =>
          cases h
          refine ⟨hk, ?_⟩
          rintro rfl
          exact hk
      · cases h
  · cases h

/-- The claims answered since the key was free, latest first: none while it is
free, else one that won and others that lost after it. -/
def Answers (key : String) (answers : List Bool) (s : Phases ι env) : Prop :=
  (s.store.redis key = none ∧ answers = []) ∨
    s.store.redis key ≠ none ∧ ∃ n, answers = List.replicate n false ++ [true]

/-- A step that does not release the key adds its answer. -/
theorem Answers.step {answers : List Bool} {s' : Phases ι env} {o : Option IoEvent}
    (h : Answers key answers s) (hgate : Gate key s) (hstep : Passes key s s' o)
    (hkeep : ∀ ev, o = some ev → ¬ Releases key ev) :
    Answers key ((o.bind (claimAnswer key)).toList ++ answers) s' := by
  cases hstep with
  | quiet hredis _ =>
      unfold Answers
      rw [hredis]
      exact h
  | @op c d ph ph' w' log ev hc hmove =>
      have hstore : (s.enter c d ph' w' (ev :: log)).store.redis = w'.redis := World.after_redis ..
      have hpresent : ∀ {m}, w'.redis.marker key = some m →
          (s.enter c d ph' w' (ev :: log)).store.redis key ≠ none := by
        intro m hm hnone
        rw [hstore] at hnone
        rw [Redis.marker, hnone] at hm
        cases hm
      cases hmove with
      | aside _ hredis hwins _ _ hclaims =>
          unfold Answers
          rw [hstore, hredis]
          -- a claim that leaves Redis alone has lost, and adds a `false`
          cases hanswer : claimAnswer key ev with
          | none =>
              rw [Option.bind_some, hanswer]
              exact h
          | some won =>
              obtain ⟨hclaim, hwon⟩ := claimAnswer_claims hanswer
              rw [Option.bind_some, hanswer]
              rcases h with ⟨hnone, -⟩ | ⟨hsome, n, rfl⟩
              · exact (hclaims hclaim hnone).elim
              · cases won with
                | true => exact (hwins (hwon rfl)).elim
                | false => exact .inr ⟨hsome, n + 1, rfl⟩
      | enter hfree hwins _ hclaimed =>
          rw [Option.bind_some, claimAnswer_wins hwins]
          rcases h with ⟨-, rfl⟩ | ⟨hsome, -⟩
          · exact .inr ⟨hpresent hclaimed, 0, rfl⟩
          · exact (hsome hfree).elim
      | mark hin hmarks hsettled =>
          rw [Option.bind_some, claimAnswer_marks hmarks]
          rcases h with ⟨hnone, -⟩ | ⟨-, n, rfl⟩
          · exact (hgate.present ⟨_, hc, hin⟩ hnone).elim
          · exact .inr ⟨hpresent hsettled, n, rfl⟩
      | release _ hreleases => exact (hkeep ev rfl hreleases).elim

/-- The runs of the phases that do not release the key, with the answers of the
claims on it. -/
abbrev Claiming (env : Env) (key : String) (s : Phases ι env) :
    List Bool × Phases ι env → Prop :=
  Reach (observed (fun l s => (Phases.performed env l s).bind (claimAnswer key)) (Phases.step env))
    (fun l (x : List Bool × Phases ι env) => Unreleased env key l (x.2.map Phase.prog)) ([], s)

/-- They are undisturbed runs. -/
theorem Claiming.calm (h : Calm env s) {x : List Bool × Phases ι env} (hx : Claiming env key s x) :
    Calm env x.2 :=
  h.trans (Reach.unobserved (fun _ _ hl => hl.1) hx)

/-- The answers along such a run from a state in which the key is free. -/
theorem Claiming.answers (h : Calm env s) (hnone : s.store.redis key = none)
    {x : List Bool × Phases ι env} (hx : Claiming env key s x) : Answers key x.1 x.2 := by
  refine hx.invariant (P := fun x => Answers key x.1 x.2) (.inl ⟨hnone, rfl⟩) ?_
  rintro ⟨as, y⟩ l ⟨as', y'⟩ hr hinv hl hstep
  obtain ⟨hobs, hstep'⟩ := observed_cases hstep
  have hcalm := Claiming.calm h hr
  have hpasses := Phases.passes key hcalm.tracks hl.1 hstep'
  dsimp only at hobs ⊢
  rw [hobs]
  refine hinv.step (hcalm.gate key) hpasses fun ev hev => hl.2 ev ?_
  exact (Processors.performed_phases ..).trans hev

/-- **Of the claims on an absent key exactly one wins.** -/
theorem Calm.oneClaimWins (h : Calm env s) (key : String) :
    OneClaimWins env key (s.map Phase.prog) := by
  intro hnone answers u hrun hne
  obtain ⟨⟨answers', s'⟩, hpair, hrun'⟩ := Reach.lift (([], s) : List Bool × Phases ι env)
    (Prod.map id (State.map Phase.prog))
    (observed_map (fun l s => (Phases.performed env l s).bind (claimAnswer key))
      (State.map Phase.prog) (fun l s => step_map (processCode_same env) l s)
      fun l s => congrArg (Option.bind · (claimAnswer key)) (Processors.performed_phases l s))
    (fun _ _ hok => hok) hrun
  cases hpair
  rcases Claiming.answers h hnone hrun' with ⟨-, hnil⟩ | ⟨-, n, hall⟩
  · exact (hne hnil).elim
  · show answers'.count true = 1
    rw [show answers' = _ from hall, List.count_append, List.count_replicate]
    rfl

/-! ## Settled for good -/

/-- A settled key stays settled. -/
theorem Gate.settled_step (hs : Gate key s) {s' : Phases ι env} {o : Option IoEvent}
    (hstep : Passes key s s' o) (hsettled : s.store.redis.marker key = some .settled) :
    s'.store.redis.marker key = some .settled := by
  have hnot : ∀ c, ¬ Inside key s c := by
    intro c hc
    cases (hs.claimed c hc).symm.trans hsettled
  cases hstep with
  | quiet hredis _ => rw [hredis]; exact hsettled
  | @op c d ph ph' w' log ev hc hmove =>
      show (w'.after d ph').redis.marker key = some .settled
      rw [World.after_redis]
      cases hmove with
      | aside _ hredis => rw [Redis.marker, hredis]; exact hsettled
      | enter hfree => rw [Redis.marker, hfree] at hsettled; cases hsettled
      | mark hin => exact (hnot c ⟨_, hc, hin⟩).elim
      | release hin => exact (hnot c ⟨_, hc, hin⟩).elim

/-- A mark settles the key. -/
theorem Passes.marks {s' : Phases ι env} {ev : IoEvent} (hstep : Passes key s s' (some ev))
    (hmarks : Marks key ev) : s'.store.redis.marker key = some .settled := by
  cases hstep with
  | @op c d ph ph' w' log _ _ hmove =>
      show (w'.after d ph').redis.marker key = some .settled
      rw [World.after_redis]
      cases hmove with
      | aside _ _ _ hnot => exact (hnot hmarks).elim
      | enter _ hwins => exact (hmarks.not_wins hwins).elim
      | mark _ _ hsettled => exact hsettled
      | release _ hreleases => exact (hmarks.not_releases hreleases).elim

/-- **A marked key is settled**, from the mark on. -/
theorem Calm.settled (h : Calm env s) :
    (∃ c call, s.calls c = some call ∧ ∃ ev ∈ call.log, Marks key ev) →
      s.store.redis.marker key = some .settled := by
  refine h.invariant (P := fun s => (∃ c call, s.calls c = some call ∧
    ∃ ev ∈ call.log, Marks key ev) → s.store.redis.marker key = some .settled) ?_ ?_
  · rintro ⟨c, call, hc, -⟩
    cases hc
  · rintro s l s' hr ih hl hstep ⟨c, call, hc, ev, hev, hmarks⟩
    have hpasses := Phases.passes key (Calm.tracks hr) hl hstep
    rcases Phases.step_log hstep hc hev with ⟨call₀, hold, hmem⟩ | hperformed
    · exact (Calm.gate hr key).settled_step hpasses (ih ⟨c, call₀, hold, ev, hmem, hmarks⟩)
    · rw [hperformed] at hpasses
      exact hpasses.marks hmarks

/-- A call that has not claimed the key, or was told that it is settled. -/
def Told (key : String) (call : PhaseCall ι env) : Prop :=
  (∀ ev ∈ call.log, ¬ Claims key ev) ∨
    (∀ ev ∈ call.log, ¬ Wins key ev) ∧ ∃ a : Admitted env, a.key = key ∧
      (call.status = .running (.looking a) ∨ call.status = .crashed ∨
        call.status = .returned (alreadySettled env a.packet))

omit [DecidableEq ι] in
/-- A claim on a settled key is told so, while Redis answers. -/
theorem Told.advance {mode : Mode} {clock : Int} {w w' : World ι} {d : Delivery ι}
    {ph ph' : Phase env} {log : List IoEvent} {ev : IoEvent}
    (h : Told key (⟨d, .running ph, log⟩ : PhaseCall ι env))
    (hadv : Advance env mode clock w ph w' ph' ev) (hanswered : Answered ev)
    (hsettled : w.redis.marker key = some .settled) :
    Told key (⟨d, ph'.status, ev :: log⟩ : PhaseCall ι env) := by
  have hpresent : w.redis key ≠ none := by
    intro hnone
    rw [Redis.marker, hnone] at hsettled
    cases hsettled
  rcases h with hnone | ⟨hwins, a, ha, hstatus⟩
  · -- the call has not claimed yet: only its claim matters
    have hquiet : ¬ Claims key ev → Told key (⟨d, ph'.status, ev :: log⟩ : PhaseCall ι env) := by
      intro hev
      refine .inl fun ev' hmem => ?_
      rcases List.mem_cons.mp hmem with rfl | hmem
      · exact hev
      · exact hnone ev' hmem
    cases hadv with
    | @claimWon a _ _ hfree =>
        refine hquiet fun hkey => hpresent ?_
        rw [← show a.key = key from hkey]
        exact hfree
    | @claimLost a =>
        by_cases hkey : a.key = key
        · refine .inr ⟨fun ev' hmem hwin => ?_, a, hkey, .inl rfl⟩
          rcases List.mem_cons.mp hmem with rfl | hmem
          · exact hwin
          · exact hnone ev' hmem hwin.claims
        · exact hquiet hkey
    | claimFailed => exact hquiet id
    | _ => exact hquiet id
  · -- it was told that the key is taken, and looks what it holds
    rcases hstatus with hlooking | hcrashed | hreturned
    · cases hlooking
      cases hadv with
      | found =>
          refine .inr ⟨fun ev' hmem hwin => ?_, a, ha, .inr (.inr ?_)⟩
          · rcases List.mem_cons.mp hmem with rfl | hmem
            · exact hwin
            · exact hwins ev' hmem hwin
          · rw [ha, hsettled]
            rfl
      | lookFailed => obtain ⟨ans, hans⟩ := hanswered rfl; cases hans
    · cases hcrashed
    · cases hreturned

/-- **Every later claim is told so.** -/
theorem Calm.told (h : Calm env s) (hmarked : ∃ c call, s.calls c = some call ∧
    ∃ ev ∈ call.log, Marks key ev) {u : Phases ι env}
    (hu : Reach (Phases.step env) (fun l s => Undisturbed env l (s.map Phase.prog)) s u) :
    u.store.redis.marker key = some .settled ∧
      ∀ c call, u.calls c = some call →
        (∀ call₀, s.calls c = some call₀ → ∀ ev ∈ call₀.log, ¬ Claims key ev) →
        Told key call := by
  refine hu.invariant (P := fun u => u.store.redis.marker key = some .settled ∧
    ∀ c call, u.calls c = some call →
      (∀ call₀, s.calls c = some call₀ → ∀ ev ∈ call₀.log, ¬ Claims key ev) → Told key call) ?_ ?_
  · exact ⟨h.settled hmarked, fun c call hc hlate => .inl (hlate call hc)⟩
  · rintro v l v' hr ⟨hsettled, htold⟩ hl hstep
    have hcalm : Calm env v := h.trans hr
    have hpasses := Phases.passes key hcalm.tracks hl hstep
    refine ⟨(hcalm.gate key).settled_step hpasses hsettled, fun c call hc hlate => ?_⟩
    cases Phases.call_step hstep hc with
    | stayed hold => exact htold c call hold hlate
    | started => exact .inl fun ev hev => by cases hev
    | @crashed d ph log hold =>
        rcases htold c _ hold hlate with hnone | ⟨hwins, a, ha, -⟩
        · exact .inl hnone
        · exact .inr ⟨hwins, a, ha, .inr (.inl rfl)⟩
    | advanced _ hold hadv hperformed _ =>
        exact (htold c _ hold hlate).advance hadv
          (hl.2 _ ((Processors.performed_phases ..).trans hperformed)) hsettled

theorem Calm.settledForGood (h : Calm env s) (key : String) :
    SettledForGood env key (s.map Phase.prog) := by
  rintro ⟨c, call, hc, hmarks⟩ u hu
  obtain ⟨call₀, hcall₀, rfl⟩ := State.of_map_calls hc
  obtain ⟨v, rfl, hv⟩ := Reach.lift s (State.map Phase.prog)
    (fun l s => step_map (processCode_same env) l s) (fun _ _ hok => hok) hu
  obtain ⟨hsettled, htold⟩ := h.told ⟨c, call₀, hcall₀, hmarks⟩ hv
  refine ⟨hsettled, fun b call' hb hlate hclaims => ?_⟩
  obtain ⟨call₁, hcall₁, rfl⟩ := State.of_map_calls hb
  have hlate' : ∀ call₂, s.calls b = some call₂ → ∀ ev ∈ call₂.log, ¬ Claims key ev :=
    fun call₂ hb₂ => hlate _ (congrArg (Option.map (Call.map Phase.prog)) hb₂)
  rcases htold b call₁ hcall₁ hlate' with hnone | ⟨hwins, a, ha, hstatus⟩
  · obtain ⟨ev, hev, hclaim⟩ := hclaims
    exact (hnone ev hev hclaim).elim
  · refine ⟨hwins, fun outcome hreturned => ?_⟩
    have hreturned' := Status.map_eq_returned hreturned
    rcases hstatus with h | h | h
    · cases h.symm.trans hreturned'
    · cases h.symm.trans hreturned'
    · cases h.symm.trans hreturned'
      exact ⟨rfl, rfl, congrArg some ha⟩

/-! ## The theorem -/

theorem Calm.sectionAlone (h : Calm env s) (key : String) :
    SectionAlone key (s.map Phase.prog) := by
  intro b c call call' hb hc hin hin'
  obtain ⟨call₀, hb₀, rfl⟩ := State.of_map_calls hb
  obtain ⟨call₁, hc₁, rfl⟩ := State.of_map_calls hc
  exact (h.gate key).alone b c ⟨call₀, hb₀, hin⟩ ⟨call₁, hc₁, hin'⟩

/-- A call at its insert is in the section of its key. -/
theorem Calm.atInsert (h : Calm env s) {c : Nat} {call : PhaseCall ι env}
    (hc : s.calls c = some call) (hat : AtInsert env key (call.map Phase.prog)) :
    InSection key call.log := by
  obtain ⟨row, hpending, hkey⟩ := hat
  rw [Call.pending_map (processCode_same env)] at hpending
  obtain ⟨d, status, log⟩ := call
  cases status with
  | running ph =>
      have hsection := (h.tracks c _ hc).1 key
      cases ph with
      | inserting o =>
          refine hsection.mpr ?_
          obtain rfl : o.row = row := by simpa [Call.pending, phaseCode, Phase.view] using hpending
          exact hkey
      | _ => simp [Call.pending, phaseCode, Phase.view] at hpending
  | _ => simp [Call.pending] at hpending

theorem Calm.insertAlone (h : Calm env s) (key : String) :
    InsertAlone env key (s.map Phase.prog) := by
  intro b c call call' hb hc hat hat'
  obtain ⟨call₀, hb₀, rfl⟩ := State.of_map_calls hb
  obtain ⟨call₁, hc₁, rfl⟩ := State.of_map_calls hc
  exact (h.gate key).alone b c ⟨call₀, hb₀, h.atInsert hb₀ hat⟩ ⟨call₁, hc₁, h.atInsert hc₁ hat'⟩

/-- **The gate is a mutual exclusion.** -/
theorem gate_is_exclusive (env : Env) (key : String) {t : Processors ι}
    (h : Reach (Processors.step env) (Undisturbed env) Processors.init t) :
    SectionAlone key t ∧ InsertAlone env key t ∧ OneClaimWins env key t ∧
      SettledForGood env key t := by
  obtain ⟨s, rfl, hs⟩ := Processors.reach_phases h
  have hcalm : Calm env s := hs
  exact ⟨hcalm.sectionAlone key, hcalm.insertAlone key, hcalm.oneClaimWins key,
    hcalm.settledForGood key⟩

/-- While call 0 is at its insert, call 1 contends for the key and is refused; then
call 0 settles the packet. -/
theorem settles_contended {o : Opened env} {clock : Int} (hclaim : AcceptsEx env.claimTtl clock)
    (hsettled : AcceptsEx env.settledTtl clock) (hfits : o.row.fits = true) :
    ∃ s : Phases Unit env, Calm env s ∧ s.store.redis.marker o.key = some .settled ∧
      (∃ call, s.calls 0 = some call ∧ call.status = .returned (settledOutcome env o.packet 0)) ∧
      ∃ call, s.calls 1 = some call ∧ call.status = .returned (inFlight env o.packet) := by
  let d : Delivery Unit := ⟨(), o.body, o.now⟩
  have ho : o.toAdmitted.For d := ⟨rfl, rfl⟩
  let ok : ProcessorLabel Unit → Phases Unit env → Prop :=
    fun l s => Undisturbed env l (s.map Phase.prog)
  have hstart : ∀ c s, ok (.start c d) s := fun c s => ⟨nofun, redisAnswers_quiet rfl⟩
  have hserved : ∀ c s, ok (.io c .served clock) s :=
    fun c s => ⟨nofun, redisAnswers_served hclaim hsettled c s⟩
  obtain ⟨s₀, hs₀, hcall₀, hothers₀, hstore₀⟩ := Phases.run_claimed ok (s := Phases.init) (c := 0)
    (o := o) clock (hstart 0 _) (fun s _ => hserved 0 s) ho rfl hclaim rfl
  have hmarker₀ : s₀.store.redis.marker o.key = some .claimed := by
    rw [hstore₀]
    simp [Redis.marker]
  -- call 1 meets the claim of call 0
  obtain ⟨s₁, hs₁, hcall₁, hothers₁, hstore₁⟩ := Phases.run_process ok (s := s₀) (c := 1)
    (d := d) (fun _ => .served) (fun _ => clock) (hstart 1 _) (fun _ s _ => hserved 1 s)
    (hothers₀ 1 (by decide))
  obtain ⟨hresult₁, hredis₁, hrows₁⟩ := processAlone_lost ho (fun _ => clock) hclaim hmarker₀
  rw [hresult₁] at hcall₁
  have hacc : s₁.store.settlements.Accepts o.row := by
    refine o.accepted ?_
    rw [hstore₁, hrows₁, hstore₀]
    rfl
  have hcall₀' := (hothers₁ 0 (by decide)).trans hcall₀
  obtain ⟨s₂, hs₂, hcall₂, hothers₂, hstore₂⟩ := Phases.run_rest ok (.inserting o)
    (fun _ => .served) (fun _ => clock) s₁.store s₁ _ hcall₀' rfl fun _ s _ => hserved 0 s
  rw [exec_inserts (fun _ => clock) hsettled hfits hacc] at hcall₂ hstore₂
  refine ⟨s₂, (hs₀.trans hs₁).trans hs₂, ?_, ⟨_, hcall₂, ?_⟩,
    ⟨_, (hothers₂ 1 (by decide)).trans hcall₁, rfl⟩⟩
  · rw [hstore₂]
    simp [World.countedFor, World.recordOutcome, Redis.marker]
  · show Status.returned (settledOutcome env o.packet s₁.store.settlements.nextId) = _
    rw [hstore₁, hrows₁, hstore₀]
    rfl

/-- Two calls contend for the key of the reference payment. -/
theorem gate_is_exclusive_payment : ∃ t : Processors Unit,
    (∃ call, t.calls 0 = some call ∧
      call.status = .returned (settledOutcome Reference.onePayment Reference.payment 0)) ∧
    (∃ call, t.calls 1 = some call ∧
      call.status = .returned (inFlight Reference.onePayment Reference.payment)) ∧
    t.store.redis.marker Reference.key = some .settled ∧ SectionAlone Reference.key t ∧
      InsertAlone Reference.onePayment Reference.key t ∧
      OneClaimWins Reference.onePayment Reference.key t ∧
      SettledForGood Reference.onePayment Reference.key t := by
  obtain ⟨s, hs, hmarker, hcall₀, hcall₁⟩ := settles_contended (o := Reference.opened)
    Reference.acceptsEx_claim Reference.acceptsEx_settled Reference.fits_row
  exact ⟨s.map Phase.prog, Phases.status_prog hcall₀, Phases.status_prog hcall₁, hmarker,
    gate_is_exclusive Reference.onePayment Reference.key (Phases.reach_processors hs)⟩

end MeshSettle.Theorems.Exclusion
