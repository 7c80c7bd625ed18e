import MeshSettle.Settlement.Processors

/-!
# The consumers and their queue (`consumer.py`)

A queue of messages in front of the processors. A message is ready, held by
the call that a consumer runs on it, or acked. `handleMessage` decides what
becomes of a message when its call has ended; a consumer that crashes gives
its messages back.

The step function is the same for coroutines and phases: `Consumers.step` is
the system the claims are about, `Broker.step_cases` lists its steps on
phases.
-/

namespace MeshSettle

open Lib.Await Lib.Interleave Lib.Transition

/-! ## Messages -/

/-- What the consumer tells the broker. -/
inductive Disposition where
  | ack
  | nackRequeue
  deriving DecidableEq, Repr

/-- `_handle_message`: ack or nack, based on the outcome. -/
def handleMessage : Except Exc SettlementOutcome → Disposition
  | .error _ => .nackRequeue
  | .ok outcome => if outcome.retryable then .nackRequeue else .ack

/-- Where a message is. -/
inductive MessageState where
  | ready
  | held (call : Nat)
  | acked
  deriving DecidableEq, Repr

/-- A message of the queue. -/
structure Message where
  body : Bytes
  state : MessageState
  deriving DecidableEq

/-- What becomes of a settled message. -/
def Disposition.state : Disposition → MessageState
  | .ack => .acked
  | .nackRequeue => .ready

/-- The processors and the queue in front of them. -/
structure Broker (ι P : Type) where
  core : State Op Resp Exc SettlementOutcome (Delivery ι) (World ι) P
  messages : Nat → Option Message

/-- A message is replaced. -/
def Broker.put {ι P : Type} (s : Broker ι P) (m : Nat) (body : Bytes) (state : MessageState) :
    Broker ι P :=
  { s with messages := Function.update s.messages m (some ⟨body, state⟩) }

@[simp] theorem Broker.put_messages {ι P : Type} (s : Broker ι P) (m : Nat) (body : Bytes)
    (state : MessageState) (m' : Nat) : (s.put m body state).messages m' =
      if m' = m then some ⟨body, state⟩ else s.messages m' :=
  Function.update_apply ..

@[simp] theorem Broker.put_core {ι P : Type} (s : Broker ι P) (m : Nat) (body : Bytes)
    (state : MessageState) : (s.put m body state).core = s.core := rfl

/-- A step of the consumers. -/
inductive BrokerLabel (ι : Type) where
  | publish (m : Nat) (body : Bytes)
  | deliver (m c : Nat) (processor : ι) (now : Int)
  | io (c : Nat) (mode : Mode) (clock : Int)
  | settle (m : Nat)
  | crash (processor : ι)
  | disturb (e : Disturbance)

section Semantics

variable {ι P Q : Type} [DecidableEq ι]

/-- A call runs on processor `i`. -/
def RunsOn (core : State Op Resp Exc SettlementOutcome (Delivery ι) (World ι) P) (i : ι)
    (c : Nat) : Bool :=
  match core.calls c with
  | some call => call.tag.processor = i
  | none => false

/-- A crash of processor `i` gives a message back that one of its calls holds. -/
def Message.returned (core : State Op Resp Exc SettlementOutcome (Delivery ι) (World ι) P)
    (i : ι) (msg : Message) : Message :=
  match msg.state with
  | .held c => if RunsOn core i c then { msg with state := .ready } else msg
  | _ => msg

/-- The consumers. -/
def Broker.step (code : Code Op Resp Exc SettlementOutcome (Delivery ι) P) :
    BrokerLabel ι → Broker ι P → Option (Broker ι P)
  | .publish m body, s =>
      match s.messages m with
      | some _ => none
      | none => some (s.put m body .ready)
  | .deliver m c i now, s =>
      match s.messages m with
      | some ⟨body, .ready⟩ =>
          (Lib.Interleave.step platform code (.start c ⟨i, body, now⟩) s.core).map fun core =>
            { s with core := core }.put m body (.held c)
      | _ => none
  | .io c mode clock, s =>
      (Lib.Interleave.step platform code (.io c mode clock) s.core).map fun core =>
        { s with core := core }
  | .settle m, s =>
      match s.messages m with
      | some ⟨body, .held c⟩ =>
          ((s.core.calls c).bind Call.result).map fun result =>
            s.put m body (handleMessage result).state
      | _ => none
  | .crash i, s =>
      (Lib.Interleave.step platform code (.crash i) s.core).map fun core =>
        ⟨core, fun m => (s.messages m).map (Message.returned s.core i)⟩
  | .disturb e, s =>
      (Lib.Interleave.step platform code (.disturb e) s.core).map fun core =>
        { s with core := core }

/-- Translate every program of a state. -/
def Broker.map (f : P → Q) (s : Broker ι P) : Broker ι Q := ⟨s.core.map f, s.messages⟩

theorem RunsOn.map (f : P → Q)
    (core : State Op Resp Exc SettlementOutcome (Delivery ι) (World ι) P) (i : ι) (c : Nat) :
    RunsOn (core.map f) i c = RunsOn core i c := by
  unfold RunsOn
  rw [State.map_calls]
  cases core.calls c <;> rfl

theorem Message.returned_map (f : P → Q)
    (core : State Op Resp Exc SettlementOutcome (Delivery ι) (World ι) P) (i : ι)
    (msg : Message) : Message.returned (core.map f) i msg = Message.returned core i msg := by
  obtain ⟨body, state⟩ := msg
  cases state with
  | held c => simp only [Message.returned, RunsOn.map]
  | ready => rfl
  | acked => rfl

/-- The same programs have the same runs behind a queue. -/
theorem Broker.step_map {code : Code Op Resp Exc SettlementOutcome (Delivery ι) P}
    {code' : Code Op Resp Exc SettlementOutcome (Delivery ι) Q} {f : P → Q}
    (same : Same code code' f) (l : BrokerLabel ι) (s : Broker ι P) :
    Broker.step code' l (s.map f) = (Broker.step code l s).map (Broker.map f) := by
  have hcore : ∀ l', Lib.Interleave.step platform code' l' (s.map f).core =
      (Lib.Interleave.step platform code l' s.core).map (State.map f) :=
    fun l' => Lib.Interleave.step_map same l' s.core
  cases l with
  | publish m body =>
      simp only [Broker.step, Broker.map]
      cases s.messages m <;> rfl
  | deliver m c i now =>
      simp only [Broker.step, hcore]
      simp only [Broker.map]
      cases s.messages m with
      | none => rfl
      | some msg =>
          obtain ⟨body, state⟩ := msg
          cases state with
          | ready => simp only [Option.map_map]; rfl
          | held c => rfl
          | acked => rfl
  | io c mode clock => simp only [Broker.step, hcore, Option.map_map]; rfl
  | settle m =>
      simp only [Broker.step]
      simp only [Broker.map]
      cases s.messages m with
      | none => rfl
      | some msg =>
          obtain ⟨body, state⟩ := msg
          cases state with
          | held c =>
              simp only [State.map_calls]
              cases s.core.calls c with
              | none => rfl
              | some call =>
                  simp only [Option.map_some, Option.bind_some, Call.result_map, Option.map_map]
                  rfl
          | ready => rfl
          | acked => rfl
  | crash i =>
      simp only [Broker.step, hcore, Option.map_map]
      refine congrArg (fun g => Option.map g _) (funext fun core => ?_)
      refine congrArg (Broker.mk _) (funext fun m => ?_)
      exact congrArg (fun g => Option.map g _) (funext fun msg => Message.returned_map f _ i msg)
  | disturb e => simp only [Broker.step, hcore, Option.map_map]; rfl

end Semantics

/-! ## The system -/

/-- The consumers, running coroutines. -/
abbrev Consumers (ι : Type) := Broker ι (Io SettlementOutcome)

/-- The consumers, with every coroutine shown as its phase. -/
abbrev ConsumerPhases (ι : Type) (env : Env) := Broker ι (Phase env)

section System

variable {ι : Type} [DecidableEq ι] {env : Env}

/-- Any number of consumers on one queue, one Redis and one Postgres. -/
def Consumers.step (env : Env) : BrokerLabel ι → Consumers ι → Option (Consumers ι) :=
  Broker.step (processCode env)

/-- The same system on phases. -/
def ConsumerPhases.step (env : Env) :
    BrokerLabel ι → ConsumerPhases ι env → Option (ConsumerPhases ι env) :=
  Broker.step (phaseCode env)

/-- An empty queue, before the first message. -/
def Broker.init {P : Type} : Broker ι P := ⟨⟨World.empty, fun _ => none⟩, fun _ => none⟩

/-- The steps of the consumers. -/
inductive BrokerStep (s : ConsumerPhases ι env) : BrokerLabel ι → ConsumerPhases ι env → Prop
  | publish {m : Nat} {body : Bytes} : s.messages m = none →
      BrokerStep s (.publish m body) (s.put m body .ready)
  | deliver {m c : Nat} {i : ι} {now : Int} {body : Bytes} {core : Phases ι env} :
      s.messages m = some ⟨body, .ready⟩ →
      Phases.step env (.start c ⟨i, body, now⟩) s.core = some core →
      BrokerStep s (.deliver m c i now) ({ s with core := core }.put m body (.held c))
  | io {c : Nat} {mode : Mode} {clock : Int} {core : Phases ι env} :
      Phases.step env (.io c mode clock) s.core = some core →
      BrokerStep s (.io c mode clock) { s with core := core }
  | settle {m c : Nat} {body : Bytes} {call : PhaseCall ι env}
      {result : Except Exc SettlementOutcome} :
      s.messages m = some ⟨body, .held c⟩ → s.core.calls c = some call →
      call.result = some result →
      BrokerStep s (.settle m) (s.put m body (handleMessage result).state)
  | crash {i : ι} {core : Phases ι env} : Phases.step env (.crash i) s.core = some core →
      BrokerStep s (.crash i) ⟨core, fun m => (s.messages m).map (Message.returned s.core i)⟩
  | disturb {e : Disturbance} {core : Phases ι env} :
      Phases.step env (.disturb e) s.core = some core →
      BrokerStep s (.disturb e) { s with core := core }

/-- **Inversion of a step of the consumers.** -/
theorem ConsumerPhases.step_cases {l : BrokerLabel ι} {s s' : ConsumerPhases ι env}
    (h : ConsumerPhases.step env l s = some s') : BrokerStep s l s' := by
  cases l with
  | publish m body =>
      simp only [ConsumerPhases.step, Broker.step] at h
      split at h
      · cases h
      · next hm => cases h; exact .publish hm
  | deliver m c i now =>
      simp only [ConsumerPhases.step, Broker.step] at h
      split at h
      · next body hm =>
          obtain ⟨core, hcore, rfl⟩ := Option.map_eq_some_iff.mp h
          exact .deliver hm hcore
      · cases h
  | io c mode clock =>
      simp only [ConsumerPhases.step, Broker.step] at h
      obtain ⟨core, hcore, rfl⟩ := Option.map_eq_some_iff.mp h
      exact .io hcore
  | settle m =>
      simp only [ConsumerPhases.step, Broker.step] at h
      split at h
      · next body c hm =>
          obtain ⟨result, hresult, rfl⟩ := Option.map_eq_some_iff.mp h
          obtain ⟨call, hcall, hr⟩ := Option.bind_eq_some_iff.mp hresult
          exact .settle hm hcall hr
      · cases h
  | crash i =>
      simp only [ConsumerPhases.step, Broker.step] at h
      obtain ⟨core, hcore, rfl⟩ := Option.map_eq_some_iff.mp h
      exact .crash hcore
  | disturb e =>
      simp only [ConsumerPhases.step, Broker.step] at h
      obtain ⟨core, hcore, rfl⟩ := Option.map_eq_some_iff.mp h
      exact .disturb hcore

/-- A ready message is delivered to a new call. -/
theorem ConsumerPhases.step_deliver {s : ConsumerPhases ι env} {m c : Nat} {body : Bytes} {i : ι}
    {now : Int} {core : Phases ι env} (hm : s.messages m = some ⟨body, .ready⟩)
    (h : Phases.step env (.start c ⟨i, body, now⟩) s.core = some core) :
    ConsumerPhases.step env (.deliver m c i now) s =
      some ({ s with core := core }.put m body (.held c)) := by
  simp only [ConsumerPhases.step, Broker.step, hm]
  show (Phases.step env _ s.core).map _ = _
  rw [h]
  rfl

/-- An operation of a call. -/
theorem ConsumerPhases.step_io {s : ConsumerPhases ι env} {c : Nat} {mode : Mode} {clock : Int}
    {core : Phases ι env} (h : Phases.step env (.io c mode clock) s.core = some core) :
    ConsumerPhases.step env (.io c mode clock) s = some { s with core := core } := by
  show (Phases.step env _ s.core).map _ = _
  rw [h]
  rfl

/-- The pending operation of a call is answered. -/
theorem ConsumerPhases.step_answer {s : ConsumerPhases ι env} {c : Nat} {d : Delivery ι}
    {ph : Phase env} {log : List IoEvent} {op : Op} {k : Except Exc (Resp op) → Phase env}
    {mode : Mode} {clock : Int} {w : World ι} {r : Except Exc (Resp op)}
    (hc : s.core.calls c = some ⟨d, .running ph, log⟩) (hview : ph.view = .await op k)
    (hanswer : platform.answer mode op clock s.core.store = (w, r)) :
    ConsumerPhases.step env (.io c mode clock) s =
      some { s with core := Phases.enter s.core c d (k r) w (⟨op, r⟩ :: log) } :=
  ConsumerPhases.step_io (Phases.step_answer hc hview hanswer)

/-- The message of an ended call is acked or given back. -/
theorem ConsumerPhases.step_settle {s : ConsumerPhases ι env} {m c : Nat} {body : Bytes}
    {call : PhaseCall ι env} {result : Except Exc SettlementOutcome}
    (hm : s.messages m = some ⟨body, .held c⟩) (hc : s.core.calls c = some call)
    (hresult : call.result = some result) :
    ConsumerPhases.step env (.settle m) s =
      some (s.put m body (handleMessage result).state) := by
  simp only [ConsumerPhases.step, Broker.step, hm, hc, Option.bind_some, hresult, Option.map_some]

/-- A step of the consumers is a step of the processors, or leaves them alone. -/
theorem BrokerStep.core {l : BrokerLabel ι} {s s' : ConsumerPhases ι env}
    (h : BrokerStep s l s') :
    s'.core = s.core ∨ ∃ l', Phases.step env l' s.core = some s'.core := by
  cases h with
  | publish => exact .inl rfl
  | settle => exact .inl rfl
  | deliver _ hcore => exact .inr ⟨_, hcore⟩
  | io hcore => exact .inr ⟨_, hcore⟩
  | crash hcore => exact .inr ⟨_, hcore⟩
  | disturb hcore => exact .inr ⟨_, hcore⟩

/-- The queue with the messages it was loaded with, before the first delivery. -/
def Broker.loaded {P : Type} (messages : Nat → Option Message) : Broker ι P :=
  ⟨⟨World.empty, fun _ => none⟩, messages⟩

/-- The processors behind the queue run as any processors do. -/
theorem ConsumerPhases.reach_core {ok : BrokerLabel ι → ConsumerPhases ι env → Prop}
    {messages : Nat → Option Message} {s : ConsumerPhases ι env}
    (h : Reach (ConsumerPhases.step env) ok (Broker.loaded messages) s) :
    Reach (Phases.step env) free Phases.init s.core := by
  refine h.invariant (P := fun s : ConsumerPhases ι env =>
    Reach (Phases.step env) free Phases.init s.core) .start fun s l s' _ ih _ hstep => ?_
  rcases (ConsumerPhases.step_cases hstep).core with heq | ⟨l', hl'⟩
  · rw [heq]; exact ih
  · exact .next ih trivial hl'

/-- **The runs of the consumers are the runs of their phases.** -/
theorem Consumers.reach_phases {ok : BrokerLabel ι → Consumers ι → Prop}
    {messages : Nat → Option Message} {t : Consumers ι}
    (h : Reach (Consumers.step env) ok (Broker.loaded messages) t) :
    ∃ s : ConsumerPhases ι env, t = s.map Phase.prog ∧
      Reach (ConsumerPhases.step env) (fun l s => ok l (s.map Phase.prog))
        (Broker.loaded messages) s :=
  Reach.lift (Broker.loaded messages) (Broker.map Phase.prog)
    (fun l s => Broker.step_map (processCode_same env) l s) (fun _ _ h => h) h

/-- A run of the phases is a run of the consumers. -/
theorem ConsumerPhases.reach_consumers {ok : BrokerLabel ι → Consumers ι → Prop}
    {s₀ s : ConsumerPhases ι env}
    (h : Reach (ConsumerPhases.step env) (fun l s => ok l (s.map Phase.prog)) s₀ s) :
    Reach (Consumers.step env) ok (s₀.map Phase.prog) (s.map Phase.prog) :=
  Reach.image (Broker.map Phase.prog)
    (fun l s => Broker.step_map (processCode_same env) l s) (fun _ _ h => h) h

/-- A step of the phases is a step of the consumers. -/
theorem ConsumerPhases.step_coroutines {l : BrokerLabel ι} {s s' : ConsumerPhases ι env}
    (h : ConsumerPhases.step env l s = some s') :
    Consumers.step env l (s.map Phase.prog) = some (s'.map Phase.prog) := by
  have hsim : Consumers.step env l (s.map Phase.prog) =
      (ConsumerPhases.step env l s).map (Broker.map Phase.prog) :=
    Broker.step_map (processCode_same env) l s
  rw [hsim, h]
  rfl

/-- A step of the consumers is a step of their phases. -/
theorem Consumers.step_phases {l : BrokerLabel ι} {s : ConsumerPhases ι env} {t : Consumers ι}
    (h : Consumers.step env l (s.map Phase.prog) = some t) :
    ∃ s', t = s'.map Phase.prog ∧ ConsumerPhases.step env l s = some s' := by
  have hsim : Consumers.step env l (s.map Phase.prog) =
      (ConsumerPhases.step env l s).map (Broker.map Phase.prog) :=
    Broker.step_map (processCode_same env) l s
  obtain ⟨s', hs', rfl⟩ := Option.map_eq_some_iff.mp (hsim.symm.trans h)
  exact ⟨s', rfl, hs'⟩

end System

end MeshSettle
