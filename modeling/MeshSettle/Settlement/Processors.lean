import MeshSettle.Settlement.Advance

/-!
# The system of processors, phase by phase

`Phases` is the system of `Processors` with every coroutine shown as its
phase. Its runs are the runs of the coroutines (`Processors.reach_phases`), and
its steps are listed by `PhaseStep`.

Two invariants hold in every run, whatever fails: each call stands where its
own delivery can lead (`coherent`), and rows are only ever appended
(`rows_grow`).
-/

namespace MeshSettle

open Lib.Await Lib.Interleave Lib.Transition

/-- A call shown as its phase. -/
abbrev PhaseCall (ι : Type) (env : Env) :=
  Call Op Resp Exc SettlementOutcome (Delivery ι) (Phase env)

/-- A state of the system, with every coroutine shown as its phase. -/
abbrev Phases (ι : Type) (env : Env) :=
  State Op Resp Exc SettlementOutcome (Delivery ι) (World ι) (Phase env)

/-- The bookkeeping when a call reaches a phase: an outcome is counted. -/
def World.after {ι : Type} [DecidableEq ι] {env : Env} (d : Delivery ι) (ph : Phase env)
    (w : World ι) : World ι :=
  match ph with
  | .ended outcome => w.recordOutcome d outcome
  | _ => w

section System

variable {ι : Type} [DecidableEq ι] {env : Env}

@[simp] theorem World.after_redis (d : Delivery ι) (ph : Phase env) (w : World ι) :
    (w.after d ph).redis = w.redis := by
  cases ph <;> rfl

@[simp] theorem World.after_settlements (d : Delivery ι) (ph : Phase env) (w : World ι) :
    (w.after d ph).settlements = w.settlements := by
  cases ph <;> rfl

namespace Phases

/-- Before the first delivery. -/
def init : Phases ι env := ⟨World.empty, fun _ => none⟩

/-- The system on phases. -/
def step (env : Env) : ProcessorLabel ι → Phases ι env → Option (Phases ι env) :=
  Lib.Interleave.step platform (phaseCode env)

/-- Call `c` reaches a phase. -/
def enter (s : Phases ι env) (c : Nat) (d : Delivery ι) (ph : Phase env) (w : World ι)
    (log : List IoEvent) : Phases ι env :=
  ⟨w.after d ph, Function.update s.calls c (some ⟨d, ph.status, log⟩)⟩

theorem enter_calls (s : Phases ι env) (c : Nat) (d : Delivery ι) (ph : Phase env) (w : World ι)
    (log : List IoEvent) (b : Nat) : (s.enter c d ph w log).calls b =
      if b = c then some ⟨d, ph.status, log⟩ else s.calls b :=
  Function.update_apply ..

/-- What holds of every call when one call has reached a phase. -/
theorem forall_enter {P : Nat → PhaseCall ι env → Prop} (s : Phases ι env) (c : Nat)
    (d : Delivery ι) (ph : Phase env) (w : World ι) (log : List IoEvent) :
    (∀ b call, (s.enter c d ph w log).calls b = some call → P b call) ↔
      P c ⟨d, ph.status, log⟩ ∧ ∀ b call, b ≠ c → s.calls b = some call → P b call := by
  simp only [enter_calls]
  constructor
  · intro h
    exact ⟨h c _ (if_pos rfl), fun b call hb hc => h b call (by rw [if_neg hb]; exact hc)⟩
  · rintro ⟨hnew, hold⟩ b call hc
    split at hc
    · next hb => cases hc; rw [hb]; exact hnew
    · next hb => exact hold b call hb hc

/-- What holds of every call after a crash. -/
theorem forall_crash {P : Nat → PhaseCall ι env → Prop} (s : Phases ι env) (h : ι)
    (hkeep : ∀ b call, s.calls b = some call → P b call)
    (hstop : ∀ b d ph log, s.calls b = some ⟨d, .running ph, log⟩ → P b ⟨d, .crashed, log⟩) :
    ∀ b call, (s.calls b).map (Call.crashOn platform h) = some call → P b call := by
  intro b call hc
  obtain ⟨⟨d, status, log⟩, hb, rfl⟩ := Option.map_eq_some_iff.mp hc
  rcases Call.crashOn_cases platform h ⟨d, status, log⟩ with heq | ⟨ph, hph, -, heq⟩
  · rw [heq]; exact hkeep b _ hb
  · rw [heq]
    cases hph
    exact hstop b d ph log hb

end Phases

theorem settle_phase (d : Delivery ι) (ph : Phase env) (log : List IoEvent) (w : World ι) :
    platform.settle (phaseCode env) d ph log w = (w.after d ph, ⟨d, ph.status, log⟩) := by
  cases ph <;> rfl

/-- The steps of the system. -/
inductive PhaseStep (s : Phases ι env) : ProcessorLabel ι → Phases ι env → Prop
  | start {c : Nat} {d : Delivery ι} : s.calls c = none →
      PhaseStep s (.start c d) (s.enter c d (Phase.start env d.body d.now) s.store [])
  | io {c : Nat} {mode : Mode} {clock : Int} {d : Delivery ι} {ph ph' : Phase env}
      {log : List IoEvent} {w' : World ι} {ev : IoEvent} :
      s.calls c = some ⟨d, .running ph, log⟩ →
      Advance env mode clock s.store ph w' ph' ev →
      PhaseStep s (.io c mode clock) (s.enter c d ph' w' (ev :: log))
  | crash {h : ι} :
      PhaseStep s (.crash h) { s with calls := fun c => (s.calls c).map (Call.crashOn platform h) }
  | disturb {e : Disturbance} :
      PhaseStep s (.disturb e) { s with store := s.store.disturb e }

/-- A delivery to a new call. -/
theorem Phases.step_start {s : Phases ι env} {c : Nat} (d : Delivery ι) (hc : s.calls c = none) :
    Phases.step env (.start c d) s =
      some (s.enter c d (Phase.start env d.body d.now) s.store []) := by
  simp only [Phases.step, Lib.Interleave.step, hc]
  rw [settle_phase]
  rfl

/-- The pending operation of a call is answered. -/
theorem Phases.step_io {s : Phases ι env} {c : Nat} {d : Delivery ι} {ph : Phase env}
    {log : List IoEvent} {op : Op} {k : Except Exc (Resp op) → Phase env} (mode : Mode)
    (clock : Int) (hc : s.calls c = some ⟨d, .running ph, log⟩) (hview : ph.view = .await op k) :
    Phases.step env (.io c mode clock) s =
      some (s.enter c d (k (platform.answer mode op clock s.store).2)
        (platform.answer mode op clock s.store).1
        (⟨op, (platform.answer mode op clock s.store).2⟩ :: log)) := by
  have hview' : (phaseCode (ι := ι) env).view ph = .await op k := hview
  simp only [Phases.step, Lib.Interleave.step, hc, hview']
  rw [settle_phase]
  rfl

/-- The pending operation of a call is answered, with this answer. -/
theorem Phases.step_answer {s : Phases ι env} {c : Nat} {d : Delivery ι} {ph : Phase env}
    {log : List IoEvent} {op : Op} {k : Except Exc (Resp op) → Phase env} {mode : Mode}
    {clock : Int} {w : World ι} {r : Except Exc (Resp op)}
    (hc : s.calls c = some ⟨d, .running ph, log⟩) (hview : ph.view = .await op k)
    (hanswer : platform.answer mode op clock s.store = (w, r)) :
    Phases.step env (.io c mode clock) s = some (s.enter c d (k r) w (⟨op, r⟩ :: log)) := by
  rw [Phases.step_io mode clock hc hview, hanswer]

/-- The call that an operation belongs to. -/
theorem Phases.step_io_inv {s s' : Phases ι env} {c : Nat} {mode : Mode} {clock : Int}
    (h : Phases.step env (.io c mode clock) s = some s') :
    ∃ d ph log op k, s.calls c = some ⟨d, .running ph, log⟩ ∧ ph.view = .await op k := by
  simp only [Phases.step, Lib.Interleave.step] at h
  split at h
  · next d ph log hc =>
      split at h
      · next op k hview => exact ⟨d, ph, log, op, k, hc, hview⟩
      · cases h
  · cases h

/-- **Inversion of a step.** -/
theorem Phases.step_cases {l : ProcessorLabel ι} {s s' : Phases ι env}
    (h : Phases.step env l s = some s') : PhaseStep s l s' := by
  cases l with
  | start c d =>
      cases hc : s.calls c with
      | some call => simp [Phases.step, Lib.Interleave.step, hc] at h
      | none =>
          rw [Phases.step_start d hc] at h
          cases h
          exact .start hc
  | io c mode clock =>
      obtain ⟨d, ph, log, op, k, hc, hview⟩ := Phases.step_io_inv h
      rw [Phases.step_io mode clock hc hview] at h
      cases h
      exact .io hc (advance_of_answer hview mode clock s.store)
  | crash host => cases h; exact .crash
  | disturb e => cases h; exact .disturb

/-- **The runs of the coroutines are the runs of the phases.** -/
theorem Processors.reach_phases {ok : ProcessorLabel ι → Processors ι → Prop}
    {t : Processors ι} (h : Reach (Processors.step env) ok Processors.init t) :
    ∃ s : Phases ι env, t = s.map Phase.prog ∧
      Reach (Phases.step env) (fun l s => ok l (s.map Phase.prog)) Phases.init s :=
  Reach.lift Phases.init (State.map Phase.prog)
    (fun l s => step_map (processCode_same env) l s) (fun _ _ h => h) h

/-- A run of the phases is a run of the coroutines. -/
theorem Phases.reach_processors {ok : ProcessorLabel ι → Processors ι → Prop} {s : Phases ι env}
    (h : Reach (Phases.step env) (fun l s => ok l (s.map Phase.prog)) Phases.init s) :
    Reach (Processors.step env) ok Processors.init (s.map Phase.prog) :=
  Reach.image (State.map Phase.prog)
    (fun l s => step_map (processCode_same env) l s) (fun _ _ h => h) h

omit [DecidableEq ι] in
/-- A call of the phases stands as its coroutine does. -/
theorem Phases.status_prog {s : Phases ι env} {c : Nat}
    {status : Status Exc SettlementOutcome (Phase env)}
    (h : ∃ call, s.calls c = some call ∧ call.status = status) :
    ∃ call, (s.map Phase.prog).calls c = some call ∧ call.status = status.map Phase.prog := by
  obtain ⟨call, hc, rfl⟩ := h
  exact ⟨call.map Phase.prog, congrArg (Option.map (Call.map Phase.prog)) hc, rfl⟩

/-- A step of the coroutines is a step of the phases. -/
theorem Processors.step_phases {l : ProcessorLabel ι} {s : Phases ι env} {t : Processors ι}
    (h : Processors.step env l (s.map Phase.prog) = some t) :
    ∃ s', t = s'.map Phase.prog ∧ Phases.step env l s = some s' := by
  have hsim : Processors.step env l (s.map Phase.prog) =
      (Phases.step env l s).map (State.map Phase.prog) :=
    step_map (processCode_same env) l s
  obtain ⟨s', hs', rfl⟩ := Option.map_eq_some_iff.mp (hsim.symm.trans h)
  exact ⟨s', rfl, hs'⟩

/-- Any delivery can be the first one. -/
theorem Processors.first_delivery (env : Env) (d : Delivery ι) : ∃ t call,
    Reach (Processors.step env) free Processors.init t ∧ t.calls 0 = some call ∧ call.tag = d := by
  have hstart : Phases.step env (.start 0 d) Phases.init = some _ := Phases.step_start d rfl
  have hreach : Reach (Processors.step env) free Processors.init _ :=
    Phases.reach_processors (.next .start trivial hstart)
  refine ⟨_, Call.map Phase.prog ⟨d, (Phase.start env d.body d.now).status, []⟩, hreach, ?_, rfl⟩
  rw [State.map_calls, Phases.enter_calls, if_pos rfl]
  rfl

/-! ## What a step performs -/

/-- The operation that a step of the processors performs. -/
def Processors.performed (env : Env) : ProcessorLabel ι → Processors ι → Option IoEvent :=
  Lib.Interleave.performed platform (processCode env)

/-- The operation that a step of the phases performs. -/
def Phases.performed (env : Env) : ProcessorLabel ι → Phases ι env → Option IoEvent :=
  Lib.Interleave.performed platform (phaseCode env)

@[simp] theorem Processors.performed_phases (l : ProcessorLabel ι) (s : Phases ι env) :
    Processors.performed env l (s.map Phase.prog) = Phases.performed env l s :=
  performed_map (processCode_same env) l s

/-- The operation of a step, and what becomes of its call. -/
theorem Phases.step_performed {s s' : Phases ι env} {c : Nat} {mode : Mode} {clock : Int}
    (h : Phases.step env (.io c mode clock) s = some s') :
    ∃ d ph ph' log w' ev, s.calls c = some ⟨d, .running ph, log⟩ ∧
      Advance env mode clock s.store ph w' ph' ev ∧
      Phases.performed env (.io c mode clock) s = some ev ∧
      s' = s.enter c d ph' w' (ev :: log) := by
  obtain ⟨d, ph, log, op, k, hc, hview⟩ := Phases.step_io_inv h
  rw [Phases.step_io mode clock hc hview] at h
  cases h
  refine ⟨d, ph, _, log, _, _, hc, advance_of_answer hview mode clock s.store, ?_, rfl⟩
  simp only [Phases.performed, Lib.Interleave.performed, hc, Option.bind_some, Call.pending,
    phaseCode, hview, Option.map_some]

theorem Phases.performed_answer {s : Phases ι env} {c : Nat} {d : Delivery ι} {ph : Phase env}
    {log : List IoEvent} {op : Op} {k : Except Exc (Resp op) → Phase env} {mode : Mode}
    {clock : Int} {w : World ι} {r : Except Exc (Resp op)}
    (hc : s.calls c = some ⟨d, .running ph, log⟩) (hview : ph.view = .await op k)
    (hanswer : platform.answer mode op clock s.store = (w, r)) :
    Phases.performed env (.io c mode clock) s = some ⟨op, r⟩ := by
  simp only [Phases.performed, Lib.Interleave.performed, hc, Option.bind_some, Call.pending,
    phaseCode, hview, Option.map_some, hanswer]

/-- A performed operation is that of a running call. -/
theorem Phases.performed_cases {c : Nat} {mode : Mode} {clock : Int} {s : Phases ι env}
    {ev : IoEvent} (h : Phases.performed env (.io c mode clock) s = some ev) :
    ∃ d ph ph' log w', s.calls c = some ⟨d, .running ph, log⟩ ∧
      Advance env mode clock s.store ph w' ph' ev := by
  simp only [Phases.performed, Lib.Interleave.performed, Option.map_eq_some_iff,
    Option.bind_eq_some_iff] at h
  obtain ⟨op, ⟨⟨d, status, log⟩, hc, hop⟩, rfl⟩ := h
  cases status with
  | running ph =>
      cases hview : ph.view with
      | await op' k =>
          simp only [Call.pending, phaseCode, hview, Option.some.injEq] at hop
          subst hop
          exact ⟨d, ph, _, log, _, hc, advance_of_answer hview mode clock s.store⟩
      | _ => simp [Call.pending, phaseCode, hview] at hop
  | _ => cases hop

/-- What a step does to one call. -/
inductive CallStep (s : Phases ι env) (l : ProcessorLabel ι) (s' : Phases ι env) (c : Nat) :
    PhaseCall ι env → Prop
  | stayed {call : PhaseCall ι env} : s.calls c = some call → CallStep s l s' c call
  | started {d : Delivery ι} : s.calls c = none → l = .start c d →
      CallStep s l s' c ⟨d, (Phase.start env d.body d.now).status, []⟩
  | crashed {d : Delivery ι} {ph : Phase env} {log : List IoEvent} :
      s.calls c = some ⟨d, .running ph, log⟩ → CallStep s l s' c ⟨d, .crashed, log⟩
  | advanced {mode : Mode} {clock : Int} {d : Delivery ι} {ph ph' : Phase env}
      {log : List IoEvent} {w' : World ι} {ev : IoEvent} : l = .io c mode clock →
      s.calls c = some ⟨d, .running ph, log⟩ → Advance env mode clock s.store ph w' ph' ev →
      Phases.performed env l s = some ev → s' = s.enter c d ph' w' (ev :: log) →
      CallStep s l s' c ⟨d, ph'.status, ev :: log⟩

/-- **Inversion of a step**, for one call. -/
theorem Phases.call_step {l : ProcessorLabel ι} {s s' : Phases ι env}
    (h : Phases.step env l s = some s') {c : Nat} {call' : PhaseCall ι env}
    (hc : s'.calls c = some call') : CallStep s l s' c call' := by
  cases l with
  | start b d =>
      cases Phases.step_cases h with
      | start hb =>
          rw [Phases.enter_calls] at hc
          split at hc
          · next hcb =>
              subst hcb
              cases hc
              exact .started hb rfl
          · exact .stayed hc
  | io b mode clock =>
      obtain ⟨d, ph, ph', log, w', ev, hb, hadv, hev, rfl⟩ := Phases.step_performed h
      rw [Phases.enter_calls] at hc
      split at hc
      · next hcb =>
          subst hcb
          cases hc
          exact .advanced rfl hb hadv hev rfl
      · exact .stayed hc
  | crash i =>
      cases h
      obtain ⟨⟨d, status, log⟩, hb, rfl⟩ := Option.map_eq_some_iff.mp hc
      rcases Call.crashOn_cases platform i ⟨d, status, log⟩ with heq | ⟨ph, hph, -, heq⟩
      · rw [heq]
        exact .stayed hb
      · rw [heq]
        cases hph
        exact .crashed hb
  | disturb e =>
      cases h
      exact .stayed hc

/-- An event of a log was there, or has just been performed. -/
theorem Phases.step_log {l : ProcessorLabel ι} {s s' : Phases ι env}
    (h : Phases.step env l s = some s') {c : Nat} {call' : PhaseCall ι env}
    (hc : s'.calls c = some call') {ev : IoEvent} (hev : ev ∈ call'.log) :
    (∃ call, s.calls c = some call ∧ ev ∈ call.log) ∨ Phases.performed env l s = some ev := by
  cases Phases.call_step h hc with
  | stayed hold => exact .inl ⟨_, hold, hev⟩
  | started => cases hev
  | crashed hold => exact .inl ⟨_, hold, hev⟩
  | advanced _ hold _ hperformed _ =>
      rcases List.mem_cons.mp hev with rfl | hmem
      · exact .inr hperformed
      · exact .inl ⟨_, hold, hmem⟩

/-! ## A call in which nothing fails -/

/-- The services after an insert: with the row, or with an id consumed. -/
def World.afterInsert (w : World ι) (row : Settlement) (clock : Int) : World ι :=
  if h : w.settlements.Accepts row then w.commit row clock h else w.skipId

/-- An opened packet on a free key, delivered to a new call, is claimed when
nothing fails. -/
theorem Phases.run_claimed (ok : ProcessorLabel ι → Phases ι env → Prop) {s : Phases ι env}
    {c : Nat} {d : Delivery ι} {o : Opened env} (clock : Int) (hstarts : ok (.start c d) s)
    (hserved : ∀ s', (∀ b, b ≠ c → s'.calls b = s.calls b) → ok (.io c .served clock) s')
    (ho : o.toAdmitted.For d) (hc : s.calls c = none) (hclaim : AcceptsEx env.claimTtl clock)
    (hfree : s.store.redis o.key = none) :
    ∃ s', Reach (Phases.step env) ok s s' ∧
      s'.calls c = some ⟨d, .running (.inserting o),
        [⟨.setNx o.key .claimed env.claimTtl, .ok true⟩]⟩ ∧
      (∀ b, b ≠ c → s'.calls b = s.calls b) ∧
      s'.store = s.store.mark o.key .claimed env.claimTtl clock := by
  have hstart := Phases.step_start d hc
  rw [ho.start] at hstart
  have hcall : ∀ (s : Phases ι env) ph w log, (Phases.enter s c d ph w log).calls c =
      some ⟨d, ph.status, log⟩ := fun s ph w log => (Phases.enter_calls ..).trans (if_pos rfl)
  have hothers : ∀ (s : Phases ι env) ph w log b, b ≠ c →
      (Phases.enter s c d ph w log).calls b = s.calls b :=
    fun s ph w log b hb => (Phases.enter_calls ..).trans (if_neg hb)
  have hclaimed := Phases.step_answer (hcall s (.claiming o.toAdmitted) s.store []) rfl
    (perform_setNx_free .claimed clock hclaim hfree)
  simp only [if_true, o.claimed] at hclaimed
  refine ⟨_, .next (.next .start hstarts hstart) (hserved _ (hothers _ _ _ _)) hclaimed, hcall ..,
    fun b hb => ?_, rfl⟩
  rw [hothers _ _ _ _ b hb, hothers _ _ _ _ b hb]

/-- It goes on to its insert. -/
theorem Phases.run_inserted (ok : ProcessorLabel ι → Phases ι env → Prop) {s : Phases ι env}
    {c : Nat} {d : Delivery ι} {o : Opened env} (clock : Int) (hstarts : ok (.start c d) s)
    (hserved : ∀ s', (∀ b, b ≠ c → s'.calls b = s.calls b) → ok (.io c .served clock) s')
    (ho : o.toAdmitted.For d) (hc : s.calls c = none) (hclaim : AcceptsEx env.claimTtl clock)
    (hfree : s.store.redis o.key = none) (hfits : o.row.fits = true) :
    ∃ s' id log, Reach (Phases.step env) ok s s' ∧
      s'.calls c = some ⟨d, .running (.marking o id), log⟩ ∧
      (∀ b, b ≠ c → s'.calls b = s.calls b) ∧
      s'.store = (s.store.mark o.key .claimed env.claimTtl clock).afterInsert o.row clock := by
  obtain ⟨s₁, hreach, hcall, hothers, hstore⟩ :=
    Phases.run_claimed ok clock hstarts hserved ho hc hclaim hfree
  by_cases hacc : s₁.store.settlements.Accepts o.row
  · refine ⟨_, _, _, .next hreach (hserved _ hothers)
      (Phases.step_answer hcall rfl (perform_insert clock hfits hacc)),
      (Phases.enter_calls ..).trans (if_pos rfl), fun b hb => ?_, ?_⟩
    · rw [Phases.enter_calls, if_neg hb, hothers b hb]
    · rw [← hstore, World.afterInsert, dif_pos hacc]
      rfl
  · refine ⟨_, _, _, .next hreach (hserved _ hothers)
      (Phases.step_answer hcall rfl (perform_insert_refused clock hfits hacc)),
      (Phases.enter_calls ..).trans (if_pos rfl), fun b hb => ?_, ?_⟩
    · rw [Phases.enter_calls, if_neg hb, hothers b hb]
    · rw [← hstore, World.afterInsert, dif_neg hacc]
      rfl

/-- **An opened packet on a free key**, delivered to a new call in which nothing
fails: the call claims, inserts, and writes the marker. -/
theorem Phases.run_opened (ok : ProcessorLabel ι → Phases ι env → Prop) {s : Phases ι env}
    {c : Nat} {d : Delivery ι} {o : Opened env} (clock : Int) (hstarts : ok (.start c d) s)
    (hserved : ∀ s', (∀ b, b ≠ c → s'.calls b = s.calls b) → ok (.io c .served clock) s')
    (ho : o.toAdmitted.For d) (hc : s.calls c = none) (hclaim : AcceptsEx env.claimTtl clock)
    (hsettled : AcceptsEx env.settledTtl clock) (hfree : s.store.redis o.key = none)
    (hfits : o.row.fits = true) :
    ∃ s' outcome log, Reach (Phases.step env) ok s s' ∧
      s'.calls c = some ⟨d, .returned outcome, log⟩ ∧ (∀ b, b ≠ c → s'.calls b = s.calls b) ∧
      s'.store.redis = (s.store.mark o.key .claimed env.claimTtl clock |>.mark o.key .settled
        env.settledTtl clock).redis ∧
      s'.store.settlements = ((s.store.mark o.key .claimed env.claimTtl clock).afterInsert o.row
        clock).settlements := by
  obtain ⟨s₁, id, log, hreach, hcall, hothers, hstore⟩ :=
    Phases.run_inserted ok clock hstarts hserved ho hc hclaim hfree hfits
  have hmarked := Phases.step_answer hcall rfl (perform_set _ o.key .settled clock hsettled)
  refine ⟨_, o.outcome id, _, .next hreach (hserved _ hothers) hmarked,
    (Phases.enter_calls ..).trans (if_pos rfl), fun b hb => ?_, ?_, ?_⟩
  · rw [Phases.enter_calls, if_neg hb, hothers b hb]
  · simp only [Phases.enter, World.after_redis, World.mark_redis, hstore, World.afterInsert]
    split <;> rfl
  · simp only [Phases.enter, World.after_settlements, World.mark_settlements, hstore]

/-! ## Invariants of every run -/

/-- **Rows are only appended**, by every step. -/
theorem PhaseStep.rows_grow {l : ProcessorLabel ι} {s s' : Phases ι env}
    (h : PhaseStep s l s') : s.store.settlements.rows <+: s'.store.settlements.rows := by
  cases h with
  | start _ => simp [Phases.enter]
  | crash => exact List.prefix_refl _
  | @disturb e => cases e <;> exact List.prefix_refl _
  | io _ hadv =>
      simp only [Phases.enter, World.after_settlements]
      rcases hadv.rows with hsame | ⟨o, hacc, -, rfl⟩
      · exact hsame ▸ List.prefix_refl _
      · exact List.prefix_append _ _

/-- **A new row** is the row of the opened packet whose call performed the
operation. -/
theorem PhaseStep.row_new {l : ProcessorLabel ι} {s s' : Phases ι env} (h : PhaseStep s l s')
    {row : SettlementRow} (hrow : row ∈ s'.store.settlements.rows)
    (hnew : row ∉ s.store.settlements.rows) :
    ∃ c mode clock d, ∃ o : Opened env, ∃ log, l = .io c mode clock ∧
      s.calls c = some ⟨d, .running (.inserting o), log⟩ ∧ row.toSettlement = o.row := by
  cases h with
  | start _ => exact absurd (by simpa [Phases.enter] using hrow) hnew
  | crash => exact absurd hrow hnew
  | @disturb e => cases e <;> exact absurd hrow hnew
  | @io c mode clock d ph ph' log w' ev hc hadv =>
      simp only [Phases.enter, World.after_settlements] at hrow
      rcases hadv.rows with hsame | ⟨o, hacc, rfl, rfl⟩
      · rw [hsame] at hrow
        exact absurd hrow hnew
      · rcases List.mem_append.mp hrow with hmem | hmem
        · exact absurd hmem hnew
        · rw [List.mem_singleton.mp hmem]
          exact ⟨c, mode, clock, d, o, log, rfl, hc, rfl⟩

/-- Calls stay, with their deliveries. -/
theorem PhaseStep.calls_stay {l : ProcessorLabel ι} {s s' : Phases ι env} (h : PhaseStep s l s')
    {c : Nat} {call : PhaseCall ι env} (hc : s.calls c = some call) :
    ∃ call', s'.calls c = some call' ∧ call'.tag = call.tag := by
  cases h with
  | @start b d hb =>
      have hne : c ≠ b := by rintro rfl; rw [hb] at hc; cases hc
      exact ⟨call, by simp [Phases.enter, hne, hc], rfl⟩
  | @io b mode clock d ph ph' log w' ev hb _ =>
      by_cases hcb : c = b
      · subst hcb
        rw [hb] at hc
        cases hc
        exact ⟨⟨d, ph'.status, ev :: log⟩, by simp [Phases.enter], rfl⟩
      · exact ⟨call, by simp [Phases.enter, hcb, hc], rfl⟩
  | @crash host =>
      refine ⟨call.crashOn platform host, by simp only [hc, Option.map_some], ?_⟩
      rcases Call.crashOn_cases platform host call with h | ⟨-, -, -, h⟩ <;> rw [h]
  | disturb => exact ⟨call, hc, rfl⟩

/-- A property of single calls, along a whole run: it holds when a call
starts and after each of its operations, and crashing keeps it. -/
theorem Phases.calls_invariant {ok : ProcessorLabel ι → Phases ι env → Prop}
    (P : Delivery ι → Status Exc SettlementOutcome (Phase env) → List IoEvent → Prop)
    (hstart : ∀ d, P d (Phase.start env d.body d.now).status [])
    (hadvance : ∀ d ph log mode clock w w' ph' ev, P d (.running ph) log →
      Advance (ι := ι) env mode clock w ph w' ph' ev → P d ph'.status (ev :: log))
    (hcrash : ∀ d ph log, P d (.running ph) log → P d .crashed log)
    {s : Phases ι env} (h : Reach (Phases.step env) ok Phases.init s) :
    ∀ c call, s.calls c = some call → P call.tag call.status call.log := by
  refine Reach.invariant (P := fun s : Phases ι env =>
    ∀ c call, s.calls c = some call → P call.tag call.status call.log) ?_ ?_ h
  · intro c call hc
    cases hc
  · intro s l s' _ ih _ hs
    cases Phases.step_cases hs with
    | @start c d _ =>
        exact (Phases.forall_enter ..).mpr ⟨hstart d, fun b call _ hb => ih b call hb⟩
    | io hc hadv =>
        exact (Phases.forall_enter ..).mpr
          ⟨hadvance _ _ _ _ _ _ _ _ _ (ih _ _ hc) hadv, fun b call _ hb => ih b call hb⟩
    | crash =>
        exact Phases.forall_crash s _ ih fun b d ph log hb => hcrash d ph log (ih b _ hb)
    | disturb => exact ih

/-- **Every call stands where its own delivery can lead.** -/
theorem Phases.coherent {ok : ProcessorLabel ι → Phases ι env → Prop} {s : Phases ι env}
    (h : Reach (Phases.step env) ok Phases.init s) :
    ∀ c call, s.calls c = some call → Coherent call.tag call.status :=
  Phases.calls_invariant (fun d status _ => Coherent d status)
    (fun d => (Phase.start_for d).coherent)
    (fun _ _ _ _ _ _ _ _ _ hP hadv => (hadv.for hP).coherent)
    (fun _ _ _ _ => trivial) h

/-- **Every row was opened.** A committed row is the row of an admitted packet,
delivered to some call, whose instruction was opened. -/
theorem Phases.rows_opened {ok : ProcessorLabel ι → Phases ι env → Prop} {s : Phases ι env}
    (h : Reach (Phases.step env) ok Phases.init s) :
    ∀ row ∈ s.store.settlements.rows, ∃ o : Opened env, row.toSettlement = o.row ∧
      ∃ c call, s.calls c = some call ∧ o.toAdmitted.For call.tag := by
  refine h.invariant (P := fun s : Phases ι env => ∀ row ∈ s.store.settlements.rows,
    ∃ o : Opened env, row.toSettlement = o.row ∧
      ∃ c call, s.calls c = some call ∧ o.toAdmitted.For call.tag) ?_ ?_
  · intro row hrow
    cases hrow
  · intro s l s' hr ih _ hstep row hrow
    have hs := Phases.step_cases hstep
    by_cases hold : row ∈ s.store.settlements.rows
    · obtain ⟨o, ho, c, call, hc, hfor⟩ := ih row hold
      obtain ⟨call', hc', htag⟩ := hs.calls_stay hc
      exact ⟨o, ho, c, call', hc', by rw [htag]; exact hfor⟩
    · obtain ⟨c, mode, clock, d, o, log, -, hc, hrow'⟩ := hs.row_new hrow hold
      obtain ⟨call', hc', htag⟩ := hs.calls_stay hc
      exact ⟨o, hrow', c, call', hc', by rw [htag]; exact Phases.coherent hr c _ hc⟩

/-- **A refused delivery** does nothing but record its rejection. -/
theorem Phases.refused_call {ok : ProcessorLabel ι → Phases ι env → Prop} {s : Phases ι env}
    (h : Reach (Phases.step env) ok Phases.init s) {c : Nat} {call : PhaseCall ι env}
    (hc : s.calls c = some call) {r : Refusal}
    (hstart : Phase.start env call.tag.body call.tag.now = .refusing r) :
    (call.status = .running (.refusing r) ∧ call.log = []) ∨
      (call.status = .crashed ∧ call.log = []) ∨
      ∃ ans, call.status = .returned r.outcome ∧ call.log = [⟨.insertRejection r.row, ans⟩] := by
  refine Phases.calls_invariant
    (fun d status log => Phase.start env d.body d.now = .refusing r →
      (status = .running (.refusing r) ∧ log = []) ∨ (status = .crashed ∧ log = []) ∨
        ∃ ans, status = .returned r.outcome ∧ log = [⟨.insertRejection r.row, ans⟩])
    ?_ ?_ ?_ h c call hc hstart
  · intro d hd
    rw [hd]
    exact .inl ⟨rfl, rfl⟩
  · intro d ph log mode clock w w' ph' ev hP hadv hd
    rcases hP hd with ⟨hrun, rfl⟩ | ⟨hcrash, -⟩ | ⟨-, hreturn, -⟩
    · cases hrun
      cases hadv with
      | refused _ => exact .inr (.inr ⟨_, rfl, rfl⟩)
    · cases hcrash
    · cases hreturn
  · intro d ph log hP hd
    rcases hP hd with ⟨-, rfl⟩ | ⟨-, rfl⟩ | ⟨-, hreturn, -⟩
    · exact .inr (.inl ⟨rfl, rfl⟩)
    · exact .inr (.inl ⟨rfl, rfl⟩)
    · cases hreturn

/-- A call that returned did so in the phases, with a verdict on its delivery. -/
theorem Processors.returned_phases {ok : ProcessorLabel ι → Phases ι env → Prop}
    {s : Phases ι env} (h : Reach (Phases.step env) ok Phases.init s) {c : Nat}
    {call : ProcessCall ι} {o : SettlementOutcome}
    (hc : (s.map Phase.prog).calls c = some call) (hstatus : call.status = .returned o) :
    s.calls c = some ⟨call.tag, .returned o, call.log⟩ ∧ Verdict env call.tag o := by
  obtain ⟨⟨d, status, log⟩, hs, rfl⟩ := State.of_map_calls hc
  obtain rfl : status = .returned o := Status.map_eq_returned hstatus
  exact ⟨hs, Phases.coherent h c _ hs⟩

end System

end MeshSettle
