import MeshSettle.Settlement.Processors

/-!
# Between the claim and its release

A call is in the section of a key from the claim it wins to its
`mark_settled` or `release_claim`, as its own log shows. While Redis answers,
the phase of a call and its log agree about the section (`Tracks`), and an
operation either stays aside, or enters on a free key, or marks, or releases
(`Move`).

`Gate` is the invariant of one key: whoever is in its section finds it
claimed, and is there alone. It counts the calls that `live` selects: all of
them where keys do not run out, the running ones where they may.
-/

namespace MeshSettle

open Lib.Await Lib.Interleave Lib.Transition

section Events

/-- The event is a claim on the key, answered either way. -/
def Claims (key : String) : IoEvent → Prop
  | ⟨.setNx k .claimed _, .ok _⟩ => k = key
  | _ => False

/-- The event is a claim on the key that is won. -/
def Wins (key : String) : IoEvent → Prop
  | ⟨.setNx k .claimed _, .ok true⟩ => k = key
  | _ => False

/-- The event is a `mark_settled` of the key. -/
def Marks (key : String) : IoEvent → Prop
  | ⟨.set k .settled _, .ok _⟩ => k = key
  | _ => False

/-- The event is a `release_claim` of the key. -/
def Releases (key : String) : IoEvent → Prop
  | ⟨.delete k, .ok _⟩ => k = key
  | _ => False

/-- The log is that of a call which has won the claim on the key, and neither
marked the key nor released it since. -/
def InSection (key : String) (log : List IoEvent) : Prop :=
  (∃ ev ∈ log, Wins key ev) ∧ ∀ ev ∈ log, ¬ Marks key ev ∧ ¬ Releases key ev

/-- An operation on Redis. -/
def Op.onRedis : Op → Bool
  | .insertSettlement _ => false
  | .insertRejection _ => false
  | _ => true

/-- The event is not a failed Redis call. -/
def Answered (ev : IoEvent) : Prop := ev.1.onRedis = true → ∃ ans, ev.2 = .ok ans

variable {key : String} {ev : IoEvent} {log : List IoEvent}

theorem not_inSection_nil : ¬ InSection key [] := by
  rintro ⟨⟨ev, hev, -⟩, -⟩
  cases hev

theorem Wins.claims (h : Wins key ev) : Claims key ev := by
  unfold Wins at h
  split at h
  · exact h
  · exact h.elim

theorem Wins.not_releases (h : Wins key ev) : ¬ Releases key ev := by
  unfold Wins at h
  split at h
  · exact id
  · exact h.elim

theorem Releases.answered (h : Releases key ev) : Answered ev := by
  unfold Releases at h
  split at h
  · exact fun _ => ⟨_, rfl⟩
  · exact h.elim

theorem Marks.not_wins (h : Marks key ev) : ¬ Wins key ev := by
  unfold Marks at h
  split at h
  · exact id
  · exact h.elim

theorem Marks.not_releases (h : Marks key ev) : ¬ Releases key ev := by
  unfold Marks at h
  split at h
  · exact id
  · exact h.elim

/-- An event that neither wins, marks nor releases. -/
theorem inSection_cons (hwins : ¬ Wins key ev) (hmarks : ¬ Marks key ev)
    (hreleases : ¬ Releases key ev) : InSection key (ev :: log) ↔ InSection key log := by
  simp only [InSection, List.mem_cons, exists_eq_or_imp, forall_eq_or_imp, hwins, hmarks,
    hreleases, false_or, not_false_eq_true, and_self, true_and]

/-- Such an event leaves a call out of the section it is not in. -/
theorem inSection_other {p : Prop} (hsection : InSection key log ↔ p) (hnot : ¬ p)
    (hwins : ¬ Wins key ev) (hmarks : ¬ Marks key ev) (hreleases : ¬ Releases key ev) :
    ¬ InSection key (ev :: log) :=
  fun hin => hnot (hsection.mp ((inSection_cons hwins hmarks hreleases).mp hin))

/-- The event that wins. -/
theorem inSection_wins (hwins : Wins key ev) (hmarks : ¬ Marks key ev)
    (hreleases : ¬ Releases key ev) : InSection key [ev] := by
  refine ⟨⟨ev, List.mem_singleton_self ev, hwins⟩, ?_⟩
  intro ev' hev'
  rw [List.mem_singleton.mp hev']
  exact ⟨hmarks, hreleases⟩

theorem not_inSection_marks (h : Marks key ev) : ¬ InSection key (ev :: log) :=
  fun hin => (hin.2 ev List.mem_cons_self).1 h

theorem not_inSection_releases (h : Releases key ev) : ¬ InSection key (ev :: log) :=
  fun hin => (hin.2 ev List.mem_cons_self).2 h

end Events

section Section

variable {ι : Type} {env : Env} {key : String}

/-- The key whose claim a phase holds. -/
def Phase.HoldsClaim (key : String) : Phase env → Prop
  | .rejecting f => f.key = key
  | .releasing f => f.key = key
  | .inserting o => o.key = key
  | .marking o _ => o.key = key
  | .recovering a => a.key = key
  | _ => False

/-- Winning a claim is holding it. -/
theorem Phase.holdsClaim_claimed (a : Admitted env) :
    (Phase.claimed a).HoldsClaim key ↔ a.key = key := by
  rcases Phase.claimed_cases a with ⟨o, rfl, h⟩ | ⟨f, rfl, h⟩ | ⟨e, -, -, h⟩ <;> rw [h] <;>
    exact Iff.rfl

/-- The log agrees with the status: a running call is in the section of the key
whose claim it holds, an ended one in none. -/
def Tracks (log : List IoEvent) : Status Exc SettlementOutcome (Phase env) → Prop
  | .running ph => (∀ key, InSection key log ↔ ph.HoldsClaim key) ∧
      ∀ a, ph = .claiming a → log = []
  | .returned _ => ∀ key, ¬ InSection key log
  | .raised _ => ∀ key, ¬ InSection key log
  | .crashed => True

/-- What an operation of a call means for a key: nothing, or a claim that is won
on a free key, or the end of the call's section. -/
inductive Move (key : String) (w w' : World ι) (log : List IoEvent) (ev : IoEvent) : Prop
  | aside : (InSection key (ev :: log) ↔ InSection key log) → w'.redis key = w.redis key →
      ¬ Wins key ev → ¬ Marks key ev → ¬ Releases key ev →
      (Claims key ev → w.redis key ≠ none) → Move key w w' log ev
  | enter : w.redis key = none → Wins key ev → InSection key (ev :: log) →
      w'.redis.marker key = some .claimed → Move key w w' log ev
  | mark : InSection key log → Marks key ev → w'.redis.marker key = some .settled →
      Move key w w' log ev
  | release : InSection key log → Releases key ev → w'.redis key = none → Move key w w' log ev

/-- An operation that has nothing to do with the key. -/
theorem Move.other {w w' : World ι} {log : List IoEvent} {ev : IoEvent}
    (hredis : w'.redis key = w.redis key) (hwins : ¬ Wins key ev) (hmarks : ¬ Marks key ev)
    (hreleases : ¬ Releases key ev) (hclaims : Claims key ev → w.redis key ≠ none) :
    Move key w w' log ev :=
  .aside (inSection_cons hwins hmarks hreleases) hredis hwins hmarks hreleases hclaims

/-- **What an operation means for a key**, while Redis answers. -/
theorem Advance.move {mode : Mode} {clock : Int} {w w' : World ι} {ph ph' : Phase env}
    {ev : IoEvent} {log : List IoEvent} (h : Advance env mode clock w ph w' ph' ev)
    (htracks : Tracks log (.running ph)) (hanswered : Answered ev) (key : String) :
    Move key w w' log ev := by
  obtain ⟨hsection, hfirst⟩ := htracks
  cases h with
  | refused hw => obtain ⟨rows, rfl⟩ := hw; exact .other rfl id id id fun h => h.elim
  | noted hw => obtain ⟨rows, rfl⟩ := hw; exact .other rfl id id id fun h => h.elim
  | inserted => exact .other rfl id id id fun h => h.elim
  | duplicate => exact .other rfl id id id fun h => h.elim
  | found => exact .other rfl id id id fun h => h.elim
  | insertFailed _ _ hw =>
      rcases hw with ⟨rfl | rfl, -⟩ | ⟨-, -, _, rfl⟩ <;>
        exact .other rfl id id id fun h => h.elim
  | @claimLost a _ _ htaken => exact .other rfl id id id fun h => (show a.key = key from h) ▸ htaken
  | @claimWon a _ _ hfree =>
      by_cases hkey : a.key = key
      · subst hkey
        rw [hfirst a rfl]
        exact .enter hfree rfl (inSection_wins rfl id id) (by simp [Redis.marker])
      · exact .other (Function.update_of_ne (Ne.symm hkey) _ _) hkey id id fun h => (hkey h).elim
  | @marked o id _ _ =>
      by_cases hkey : o.key = key
      · exact .mark ((hsection key).mpr hkey) hkey (by simp [Redis.marker, hkey])
      · exact .other (Function.update_of_ne (Ne.symm hkey) _ _) (fun h => h) hkey (fun h => h)
          fun h => h.elim
  | @released f _ =>
      by_cases hkey : f.key = key
      · exact .release ((hsection key).mpr hkey) hkey (by simp [hkey])
      · exact .other (Function.update_of_ne (Ne.symm hkey) _ _) id id hkey fun h => h.elim
  | @recovered a _ =>
      by_cases hkey : a.key = key
      · exact .release ((hsection key).mpr hkey) hkey (by simp [hkey])
      · exact .other (Function.update_of_ne (Ne.symm hkey) _ _) id id hkey fun h => h.elim
  | claimFailed => obtain ⟨ans, hans⟩ := hanswered rfl; cases hans
  | lookFailed => obtain ⟨ans, hans⟩ := hanswered rfl; cases hans
  | releaseFailed => obtain ⟨ans, hans⟩ := hanswered rfl; cases hans
  | markFailed => obtain ⟨ans, hans⟩ := hanswered rfl; cases hans
  | recoverFailed => obtain ⟨ans, hans⟩ := hanswered rfl; cases hans

/-- The claimed phase is at an operation. -/
theorem Phase.status_claimed (a : Admitted env) :
    (Phase.claimed a).status = .running (Phase.claimed a) := by
  rcases Phase.claimed_cases a with ⟨o, -, h⟩ | ⟨f, -, h⟩ | ⟨e, -, -, h⟩ <;> rw [h] <;> rfl

theorem Phase.claimed_ne_claiming (a b : Admitted env) : Phase.claimed a ≠ .claiming b := by
  rcases Phase.claimed_cases a with ⟨o, -, h⟩ | ⟨f, -, h⟩ | ⟨e, -, -, h⟩ <;> rw [h] <;> simp

/-- **The log goes on agreeing with the status**, while Redis answers. -/
theorem Advance.tracks {mode : Mode} {clock : Int} {w w' : World ι} {ph ph' : Phase env}
    {ev : IoEvent} {log : List IoEvent} (h : Advance env mode clock w ph w' ph' ev)
    (htracks : Tracks log (.running ph)) (hanswered : Answered ev) :
    Tracks (ev :: log) ph'.status := by
  obtain ⟨hsection, hfirst⟩ := htracks
  -- an operation that is quiet for every key keeps the call in its section
  have hquiet : (∀ key, ¬ Wins key ev ∧ ¬ Marks key ev ∧ ¬ Releases key ev) →
      ∀ key, InSection key (ev :: log) ↔ ph.HoldsClaim key := by
    intro hev key
    obtain ⟨hwins, hmarks, hreleases⟩ := hev key
    exact (inSection_cons hwins hmarks hreleases).trans (hsection key)
  cases h with
  | refused => exact fun key => (hquiet (fun _ => ⟨id, id, id⟩) key).not.mpr id
  | claimLost => exact ⟨hquiet fun _ => ⟨id, id, id⟩, fun _ h => by cases h⟩
  | found => exact fun key => (hquiet (fun _ => ⟨id, id, id⟩) key).not.mpr id
  | noted => exact ⟨hquiet fun _ => ⟨id, id, id⟩, fun _ h => by cases h⟩
  | inserted => exact ⟨hquiet fun _ => ⟨id, id, id⟩, fun _ h => by cases h⟩
  | duplicate => exact ⟨hquiet fun _ => ⟨id, id, id⟩, fun _ h => by cases h⟩
  | insertFailed => exact ⟨hquiet fun _ => ⟨id, id, id⟩, fun _ h => by cases h⟩
  | @claimWon a _ _ _ =>
      rw [Phase.status_claimed, hfirst a rfl]
      refine ⟨fun key => ?_, fun b hb => (Phase.claimed_ne_claiming a b hb).elim⟩
      rw [Phase.holdsClaim_claimed]
      constructor
      · rintro ⟨⟨ev, hev, hwins⟩, -⟩
        rw [List.mem_singleton.mp hev] at hwins
        exact hwins
      · intro hkey
        exact inSection_wins hkey id id
  | @marked o id _ _ =>
      intro key
      by_cases hkey : o.key = key
      · exact not_inSection_marks hkey
      · exact inSection_other (hsection key) hkey (fun h => h) hkey fun h => h
  | @released f _ =>
      intro key
      by_cases hkey : f.key = key
      · exact not_inSection_releases hkey
      · exact inSection_other (hsection key) hkey id id hkey
  | @recovered a _ =>
      intro key
      by_cases hkey : a.key = key
      · exact not_inSection_releases hkey
      · exact inSection_other (hsection key) hkey id id hkey
  | claimFailed => obtain ⟨ans, hans⟩ := hanswered rfl; cases hans
  | lookFailed => obtain ⟨ans, hans⟩ := hanswered rfl; cases hans
  | releaseFailed => obtain ⟨ans, hans⟩ := hanswered rfl; cases hans
  | markFailed => obtain ⟨ans, hans⟩ := hanswered rfl; cases hans
  | recoverFailed => obtain ⟨ans, hans⟩ := hanswered rfl; cases hans

/-- A call has performed nothing when it starts. -/
theorem Phase.tracks_start (d : Delivery ι) :
    Tracks [] (Phase.start env d.body d.now).status := by
  rcases Phase.start_cases env d with ⟨r, h⟩ | ⟨a, -, h⟩ | ⟨e, -, h⟩ <;> rw [h]
  · exact ⟨fun key => iff_of_false not_inSection_nil id, fun _ _ => rfl⟩
  · exact ⟨fun key => iff_of_false not_inSection_nil id, fun _ _ => rfl⟩
  · exact fun key => not_inSection_nil

/-! ## Runs in which Redis answers -/

variable [DecidableEq ι]

/-- No Redis call fails in this step. -/
def RedisAnswers (env : Env) (l : ProcessorLabel ι) (s : Processors ι) : Prop :=
  ∀ ev, Processors.performed env l s = some ev → Answered ev

/-- A step that performs nothing. -/
theorem redisAnswers_quiet {l : ProcessorLabel ι} {s : Processors ι}
    (h : Processors.performed env l s = none) : RedisAnswers env l s := by
  intro ev hev
  cases h.symm.trans hev

/-- A served operation does not fail while Redis takes both TTLs. -/
theorem redisAnswers_served {clock : Int} (hclaim : AcceptsEx env.claimTtl clock)
    (hsettled : AcceptsEx env.settledTtl clock) (c : Nat) (s : Phases ι env) :
    RedisAnswers env (.io c .served clock) (s.map Phase.prog) := by
  intro ev hev hredis
  rw [Processors.performed_phases] at hev
  simp only [Phases.performed, Lib.Interleave.performed, Option.map_eq_some_iff,
    Option.bind_eq_some_iff] at hev
  obtain ⟨op, ⟨⟨d, status, log⟩, -, hop⟩, rfl⟩ := hev
  cases status with
  | running ph =>
      cases ph <;> simp only [Call.pending, phaseCode, Phase.view, Option.some.injEq,
        reduceCtorEq] at hop <;> subst hop
      case claiming a =>
        by_cases hfree : s.store.redis a.key = none
        · exact ⟨_, congrArg Prod.snd (perform_setNx_free .claimed clock hclaim hfree)⟩
        · exact ⟨_, congrArg Prod.snd (perform_setNx_taken .claimed clock hclaim hfree)⟩
      case marking o id =>
        exact ⟨_, congrArg Prod.snd (perform_set s.store o.key .settled clock hsettled)⟩
      case looking => exact ⟨_, rfl⟩
      case releasing => exact ⟨_, rfl⟩
      case recovering => exact ⟨_, rfl⟩
      all_goals cases hredis
  | _ => cases hop

/-- **The log of every call agrees with its status**, while Redis answers. -/
theorem Phases.tracks {ok : ProcessorLabel ι → Phases ι env → Prop}
    (hok : ∀ l s, ok l s → RedisAnswers env l (s.map Phase.prog)) {s : Phases ι env}
    (h : Reach (Phases.step env) ok Phases.init s) :
    ∀ c call, s.calls c = some call → Tracks call.log call.status := by
  refine h.invariant (P := fun s => ∀ c call, s.calls c = some call →
    Tracks call.log call.status) (fun c call hc => by cases hc) ?_
  intro s l s' _ ih hl hstep
  cases l with
  | start c d =>
      cases Phases.step_cases hstep with
      | start _ =>
          exact (Phases.forall_enter ..).mpr
            ⟨Phase.tracks_start d, fun b call _ hb => ih b call hb⟩
  | io c mode clock =>
      obtain ⟨d, ph, ph', log, w', ev, hc, hadv, hev, rfl⟩ := Phases.step_performed hstep
      have hanswered : Answered ev := hok _ _ hl ev ((Processors.performed_phases ..).trans hev)
      exact (Phases.forall_enter ..).mpr
        ⟨hadv.tracks (ih c _ hc) hanswered, fun b call _ hb => ih b call hb⟩
  | crash i =>
      cases hstep
      exact Phases.forall_crash s i ih fun _ _ _ _ _ => trivial
  | disturb e => cases hstep; exact ih

end Section

end MeshSettle
