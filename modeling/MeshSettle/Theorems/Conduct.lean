import MeshSettle.Lib.Simulation
import MeshSettle.Settlement.Reference

/-!
# The protocol of a call with its stores

What one call of `process` may ask of Redis and Postgres, as an automaton over
its operations and their answers: a rejection and nothing else; or a claim, and
under a won claim one insert and the settled marker, or a rejection and the
release, or the release alone. A failure leads to one release and to no other
operation.

Every call keeps to it, whatever the other calls do and whatever fails. So a
call makes four operations at most, and asks for a row only after its own claim
of the row's key was won.
-/

namespace MeshSettle.Theorems.Conduct

open Lib.Await Lib.Interleave Lib.Transition

/-! ## The protocol -/

/-- Where a call is in its protocol, with the key that it claimed. -/
inductive Stage where
  | fresh
  | lost (key : String)
  | held (key : String)
  | noted (key : String)
  | written (key : String)
  | failing (key : String)
  | over
  deriving DecidableEq, Repr

/-- The operations that a stage admits, and where their answers lead. -/
def Stage.next (env : Env) : IoEvent → Stage → Option Stage
  | ⟨.insertRejection _, _⟩, .fresh => some .over
  | ⟨.setNx key .claimed ttl, answer⟩, .fresh =>
      if ttl = env.claimTtl then
        match answer with
        | .ok true => some (.held key)
        | .ok false => some (.lost key)
        | .error _ => some .over
      else none
  | ⟨.get key', _⟩, .lost key => if key' = key then some .over else none
  | ⟨.insertRejection row, _⟩, .held key =>
      if row.idempotencyKey = some key then some (.noted key) else none
  | ⟨.insertSettlement row, answer⟩, .held key =>
      if row.idempotencyKey = key then
        match answer with
        | .ok _ => some (.written key)
        | .error .integrityError => some (.written key)
        | .error _ => some (.failing key)
      else none
  | ⟨.delete key', _⟩, .held key => if key' = key then some .over else none
  | ⟨.delete key', answer⟩, .noted key =>
      if key' = key then
        match answer with
        | .ok _ => some .over
        | .error _ => some (.failing key)
      else none
  | ⟨.set key' .settled ttl, answer⟩, .written key =>
      if key' = key ∧ ttl = env.settledTtl then
        match answer with
        | .ok _ => some .over
        | .error _ => some (.failing key)
      else none
  | ⟨.delete key', _⟩, .failing key => if key' = key then some .over else none
  | _, _ => none

/-- How many operations a stage leaves. -/
def Stage.left : Stage → Nat
  | .fresh => 4
  | .held _ => 3
  | .noted _ => 2
  | .written _ => 2
  | .lost _ => 1
  | .failing _ => 1
  | .over => 0

section Protocol

variable {env : Env}

/-- Every operation uses up one. -/
theorem Stage.next_left {ev : IoEvent} {stage stage' : Stage}
    (h : Stage.next env ev stage = some stage') : stage'.left + 1 ≤ stage.left := by
  unfold Stage.next at h
  repeat' split at h
  all_goals cases h
  all_goals exact Nat.le_of_ble_eq_true rfl

/-- A protocol run has four operations at most. -/
theorem run_length {events : List IoEvent} {stage : Stage}
    (h : run (Stage.next env) events .fresh = some stage) : events.length ≤ 4 := by
  have hstep : ∀ (stage : Stage) (ev : IoEvent) (stage' : Stage), True → True →
      Stage.next env ev stage = some stage' → True ∧ stage'.left + 1 ≤ stage.left :=
    fun _ _ _ _ _ hnext => ⟨trivial, Stage.next_left hnext⟩
  obtain ⟨-, hcost⟩ := run_cost_le hstep trivial (fun _ _ => trivial) h
  rw [List.map_const', List.sum_replicate_nat, Nat.mul_one] at hcost
  have hfour : Stage.fresh.left = 4 := rfl
  omega

/-- A stage behind a won claim. -/
def Stage.Holds (key : String) : Stage → Prop
  | .held key' => key' = key
  | .noted key' => key' = key
  | .written key' => key' = key
  | _ => False

/-- A stage that holds a claim keeps it until the call is over or fails, and is
reached by winning it. -/
theorem Stage.Holds.before {ev : IoEvent} {stage stage' : Stage} {key : String}
    (h : Stage.next env ev stage = some stage') (hholds : stage'.Holds key) :
    stage.Holds key ∨ ev = ⟨.setNx key .claimed env.claimTtl, .ok true⟩ := by
  unfold Stage.next at h
  repeat' split at h
  all_goals cases h
  all_goals first
    | exact hholds.elim
    | exact .inl hholds
    | skip
  · next httl _ =>
      subst httl
      cases hholds
      exact .inr rfl

/-- A run that ends behind a won claim has won it. -/
theorem run_holds {events : List IoEvent} {stage : Stage} {key : String}
    (h : run (Stage.next env) events .fresh = some stage) (hholds : stage.Holds key) :
    (⟨.setNx key .claimed env.claimTtl, .ok true⟩ : IoEvent) ∈ events := by
  induction events using List.reverseRecOn generalizing stage with
  | nil =>
      cases h
      exact hholds.elim
  | append_singleton events ev ih =>
      rw [run_append] at h
      obtain ⟨before, hbefore, hlast⟩ := Option.bind_eq_some_iff.mp h
      obtain ⟨after, hnext, hend⟩ := Option.bind_eq_some_iff.mp hlast
      obtain rfl : after = stage := Option.some.inj hend
      rcases Stage.Holds.before hnext hholds with hold | rfl
      · exact List.mem_append_left _ (ih hbefore hold)
      · exact List.mem_append_right _ (List.mem_singleton_self _)

/-- A row is asked for under a won claim of its key. -/
theorem insert_claimed {events : List IoEvent} {stage : Stage} {row : Settlement}
    {ans : Except Exc Nat} (h : run (Stage.next env) events .fresh = some stage)
    (hrow : (⟨.insertSettlement row, ans⟩ : IoEvent) ∈ events) :
    (⟨.setNx row.idempotencyKey .claimed env.claimTtl, .ok true⟩ : IoEvent) ∈ events := by
  obtain ⟨pre, post, rfl⟩ := List.append_of_mem hrow
  rw [run_append] at h
  obtain ⟨before, hbefore, hlast⟩ := Option.bind_eq_some_iff.mp h
  obtain ⟨after, hnext, -⟩ := Option.bind_eq_some_iff.mp hlast
  have hholds : before.Holds row.idempotencyKey := by
    cases before with
    | held key =>
        simp only [Stage.next] at hnext
        split at hnext
        · next hkey => exact hkey.symm
        · cases hnext
    | _ => cases hnext
  exact List.mem_append_left _ (run_holds hbefore hholds)

end Protocol

/-! ## A call keeps to it -/

section Calls

variable {ι : Type} {env : Env}

/-- The stages that a phase may be at. -/
def Standing : Phase env → Stage → Prop
  | .refusing _, stage => stage = .fresh
  | .claiming _, stage => stage = .fresh
  | .looking a, stage => stage = .lost a.key
  | .rejecting f, stage => stage = .held f.key
  | .releasing f, stage => stage = .noted f.key
  | .inserting o, stage => stage = .held o.key
  | .marking o _, stage => stage = .written o.key
  | .recovering a, stage => stage = .held a.key ∨ stage = .failing a.key
  | .ended _, stage => stage = .over
  | .failed _, stage => stage = .over

/-- **One operation of a call is one of the protocol.** -/
theorem Standing.step {mode : Mode} {clock : Int} {w w' : World ι} {ph ph' : Phase env}
    {ev : IoEvent} {stage : Stage} (h : Standing ph stage)
    (hadv : Advance env mode clock w ph w' ph' ev) :
    ∃ stage', Stage.next env ev stage = some stage' ∧ Standing ph' stage' := by
  cases hadv with
  | refused _ =>
      cases h
      exact ⟨.over, rfl, rfl⟩
  | @claimWon a _ _ _ =>
      cases h
      refine ⟨.held a.key, if_pos rfl, ?_⟩
      -- what is done with the claim: insert, reject, or release it
      rcases Phase.claimed_cases a with ⟨o, rfl, hph⟩ | ⟨f, rfl, hph⟩ | ⟨e, -, -, hph⟩
      · rw [hph]
        rfl
      · rw [hph]
        rfl
      · rw [hph]
        exact .inl rfl
  | @claimLost a _ _ _ =>
      cases h
      exact ⟨.lost a.key, if_pos rfl, rfl⟩
  | claimFailed _ _ =>
      cases h
      exact ⟨.over, if_pos rfl, rfl⟩
  | found _ =>
      cases h
      exact ⟨.over, if_pos rfl, rfl⟩
  | lookFailed _ =>
      cases h
      exact ⟨.over, if_pos rfl, rfl⟩
  | @noted f _ _ _ =>
      cases h
      exact ⟨.noted f.key, if_pos rfl, rfl⟩
  | released _ =>
      cases h
      exact ⟨.over, if_pos rfl, rfl⟩
  | @releaseFailed f _ _ _ =>
      cases h
      exact ⟨.failing f.key, if_pos rfl, .inr rfl⟩
  | @inserted o _ _ _ =>
      cases h
      exact ⟨.written o.key, if_pos rfl, rfl⟩
  | @duplicate o _ _ _ =>
      cases h
      exact ⟨.written o.key, if_pos rfl, rfl⟩
  | @insertFailed o _ e he _ _ =>
      cases h
      refine ⟨.failing o.key, ?_, .inr rfl⟩
      cases e <;> first | exact absurd rfl he | exact if_pos rfl
  | marked _ _ =>
      cases h
      exact ⟨.over, if_pos ⟨rfl, rfl⟩, rfl⟩
  | @markFailed o _ _ _ _ =>
      cases h
      exact ⟨.failing o.key, if_pos ⟨rfl, rfl⟩, .inr rfl⟩
  | recovered _ =>
      rcases h with rfl | rfl <;> exact ⟨.over, if_pos rfl, rfl⟩
  | recoverFailed _ _ =>
      rcases h with rfl | rfl <;> exact ⟨.over, if_pos rfl, rfl⟩

/-- The protocol of a call, as far as it has come. -/
structure Conducted (env : Env) (status : Status Exc SettlementOutcome (Phase env))
    (log : List IoEvent) (stage : Stage) : Prop where
  run : run (Stage.next env) log.reverse .fresh = some stage
  running : ∀ ph, status = .running ph → Standing ph stage
  returned : ∀ o, status = .returned o → stage = .over
  raised : ∀ e, status = .raised e → stage = .over ∨ log = []

/-- A call that has reached a phase is as far as the phase. -/
theorem Standing.conducted {ph : Phase env} {stage : Stage} {log : List IoEvent}
    (h : Standing ph stage) (hrun : run (Stage.next env) log.reverse .fresh = some stage) :
    Conducted env ph.status log stage where
  run := hrun
  running := by
    intro ph' hstatus
    cases ph with
    | ended _ => cases hstatus
    | failed _ => cases hstatus
    | _ =>
        cases hstatus
        exact h
  returned := by
    intro o hstatus
    cases ph with
    | ended _ => exact h
    | _ => cases hstatus
  raised := by
    intro e hstatus
    cases ph with
    | failed _ => exact .inl h
    | _ => cases hstatus

variable [DecidableEq ι]

/-- **Every call keeps to the protocol**, in every run of the phases. -/
theorem conducted {ok : ProcessorLabel ι → Phases ι env → Prop} {s : Phases ι env}
    (h : Reach (Phases.step env) ok Phases.init s) {c : Nat} {call : PhaseCall ι env}
    (hc : s.calls c = some call) : ∃ stage, Conducted env call.status call.log stage := by
  refine Phases.calls_invariant (fun _ status log => ∃ stage, Conducted env status log stage)
    ?_ ?_ ?_ h c call hc
  · intro d
    rcases Phase.start_cases env d with ⟨r, hph⟩ | ⟨a, -, hph⟩ | ⟨e, -, hph⟩
    · rw [hph]
      have hstanding : Standing (.refusing r : Phase env) .fresh := rfl
      exact ⟨.fresh, hstanding.conducted rfl⟩
    · rw [hph]
      have hstanding : Standing (.claiming a) .fresh := rfl
      exact ⟨.fresh, hstanding.conducted rfl⟩
    · -- a body that makes parsing raise reaches no store
      rw [hph]
      exact ⟨.fresh,
        { run := rfl
          running := fun _ hs => by cases hs
          returned := fun _ hs => by cases hs
          raised := fun _ _ => .inr rfl }⟩
  · intro d ph log mode clock w w' ph' ev ih hadv
    obtain ⟨stage, hstage⟩ := ih
    obtain ⟨stage', hnext, hstanding⟩ := (hstage.running ph rfl).step hadv
    refine ⟨stage', hstanding.conducted ?_⟩
    rw [List.reverse_cons, run_append, hstage.run]
    show (Stage.next env ev stage).bind _ = _
    rw [hnext]
    rfl
  · intro d ph log ih
    obtain ⟨stage, hstage⟩ := ih
    exact ⟨stage,
      { run := hstage.run
        running := fun _ hs => by cases hs
        returned := fun _ hs => by cases hs
        raised := fun _ hs => by cases hs }⟩

/-! ## In every run -/

/-- **A call keeps to its protocol.** In every run, whatever fails, its log is a
run of the automaton, finished when the call has returned, or has raised after
its first operation. It has four operations at most, and asks for a row only
under its own won claim of the row's key. -/
theorem call_keeps_protocol {ok : ProcessorLabel ι → Processors ι → Prop} {s : Processors ι}
    (h : Reach (Processors.step env) ok Processors.init s) {c : Nat} {call : ProcessCall ι}
    (hc : s.calls c = some call) :
    (∃ stage, run (Stage.next env) call.log.reverse .fresh = some stage ∧
      (∀ o, call.status = .returned o → stage = .over) ∧
      (∀ e, call.status = .raised e → stage = .over ∨ call.log = [])) ∧
    call.log.length ≤ 4 ∧
    ∀ row ans, (⟨.insertSettlement row, ans⟩ : IoEvent) ∈ call.log →
      (⟨.setNx row.idempotencyKey .claimed env.claimTtl, .ok true⟩ : IoEvent) ∈ call.log := by
  obtain ⟨s, rfl, hr⟩ := Processors.reach_phases h
  obtain ⟨⟨d, status, log⟩, hold, rfl⟩ := State.of_map_calls hc
  obtain ⟨stage, hstage⟩ := conducted hr hold
  refine ⟨⟨stage, hstage.run, fun o hstatus => ?_, fun e hstatus => ?_⟩, ?_, fun row ans hrow => ?_⟩
  · exact hstage.returned o (Status.map_eq_returned hstatus)
  · cases status with
    | raised e' => exact hstage.raised e' rfl
    | _ => cases hstatus
  · have hlength := run_length hstage.run
    rw [List.length_reverse] at hlength
    exact hlength
  · have hclaimed := insert_claimed hstage.run (List.mem_reverse.mpr hrow)
    exact List.mem_reverse.mp hclaimed

end Calls

section Payment

open Reference

/-- The log of the call that settled the reference payment, oldest first. -/
noncomputable def paymentLog : List IoEvent :=
  [⟨.setNx key .claimed 60, .ok true⟩, ⟨.insertSettlement opened.row, .ok 0⟩,
    ⟨.set key .settled 86400, .ok ()⟩]

/-- It is a run of the automaton to its end, under the claim of its own key. -/
theorem call_keeps_protocol_payment :
    (∃ stage, run (Stage.next onePayment) paymentLog .fresh = some stage ∧ stage = .over) ∧
      (⟨.setNx opened.row.idempotencyKey .claimed onePayment.claimTtl, .ok true⟩ : IoEvent) ∈
        paymentLog := by
  have hcall := congrArg (Option.map (Call.map Phase.prog)) settled_call
  obtain ⟨⟨stage, hrun, hreturned, -⟩, -, hclaimed⟩ := call_keeps_protocol
    Reference.reach_processors_settled (c := 0) hcall
  refine ⟨⟨stage, hrun, hreturned _ rfl⟩, ?_⟩
  have hmem := hclaimed opened.row (.ok 0) (List.mem_cons_of_mem _ (List.mem_cons_self ..))
  exact List.mem_reverse.mpr hmem

end Payment

end MeshSettle.Theorems.Conduct
