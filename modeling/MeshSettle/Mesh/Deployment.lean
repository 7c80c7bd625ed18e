import MeshSettle.Mesh.Sender
import MeshSettle.Settlement.Genuine

/-!
# The payment system, from the device to the table

The payer's device in front of the consumers. The device makes a packet of
every valid request that it is sent. What is published on the queue is up to
the mesh, and to anyone who can reach the broker: the packets of the device,
copies of them, and any other bytes. `Unforged` is the one thing that nobody
can do: sign in the name of the device.
-/

namespace MeshSettle

open Lib.Await Lib.Interleave Lib.Transition

/-! ## Orders -/

/-- The payer's device: its libraries, how it reads requests, and its keys. -/
structure Device where
  sealer : SealPrimitives
  web : FastApi
  node : SenderNode

/-- A request that the device has turned into a packet, and what it drew for
it. -/
structure Order where
  request : TransactionRequest
  draws : Draws

namespace Order

/-- The packet of the order. -/
def packet (prim : Primitives) (device : Device) (o : Order) : PaymentPacket :=
  builtPacket prim device.sealer device.node o.draws o.request

/-- The payment that was asked for. -/
def instruction (o : Order) : PaymentInstruction :=
  o.request.instruction o.draws.packetId o.draws.instructionAt

/-- The `settlements` row of the order, before any hop. -/
def settlement (env : Env) (device : Device) (o : Order) : Settlement :=
  settlementOf env (o.packet env.prim device) o.instruction

end Order

/-- The row pays the order: what was asked for, under the identity of the packet
and of the device. The hop count is not part of it. -/
def Pays (env : Env) (device : Device) (row : SettlementRow) (o : Order) : Prop :=
  row.toSettlement.core = (o.settlement env device).core

section Pays

variable {env : Env} {device : Device} {row : SettlementRow} {o : Order}

theorem Pays.packetId (h : Pays env device row o) : row.packetId = o.draws.packetId :=
  congrArg Settlement.packetId h

theorem Pays.payer (h : Pays env device row o) : row.payerId = o.request.payerId.1 :=
  congrArg Settlement.payerId h

theorem Pays.payee (h : Pays env device row o) : row.payeeId = o.request.payeeId.1 :=
  congrArg Settlement.payeeId h

theorem Pays.amount (h : Pays env device row o) : row.amountMinor = o.request.amountMinor.1 :=
  congrArg Settlement.amountMinor h

theorem Pays.currency (h : Pays env device row o) : row.currency = o.request.currency.1 :=
  congrArg Settlement.currency h

end Pays

/-! ## The system -/

/-- What the device has made packets of, and the consumers. -/
structure Deployment (ι P : Type) where
  orders : List Order
  broker : Broker ι P

/-- A step of the system: a request to the device, or a step of the
consumers. -/
inductive DeploymentLabel (ι : Type) where
  | create (rawBody : Bytes) (draws : Draws)
  | queue (l : BrokerLabel ι)

namespace Deployment

variable {ι P Q : Type} [DecidableEq ι]

/-- Before the first request. -/
def init : Deployment ι P := ⟨[], Broker.init⟩

/-- The device and the consumers. Both of its endpoints make the same packet. -/
def step (device : Device) (code : Code Op Resp Exc SettlementOutcome (Delivery ι) P) :
    DeploymentLabel ι → Deployment ι P → Option (Deployment ι P)
  | .create rawBody draws, s =>
      match readBody device.web TransactionRequest.validate rawBody with
      | .error _ => some s
      | .ok request => some { s with orders := s.orders ++ [⟨request, draws⟩] }
  | .queue l, s => (Broker.step code l s.broker).map fun broker => { s with broker := broker }

/-- Translate every program of a state. -/
def map (f : P → Q) (s : Deployment ι P) : Deployment ι Q := ⟨s.orders, s.broker.map f⟩

theorem step_map {code : Code Op Resp Exc SettlementOutcome (Delivery ι) P}
    {code' : Code Op Resp Exc SettlementOutcome (Delivery ι) Q} {f : P → Q}
    (same : Same code code' f) (device : Device) (l : DeploymentLabel ι) (s : Deployment ι P) :
    step device code' l (s.map f) = (step device code l s).map (map f) := by
  cases l with
  | create rawBody draws =>
      simp only [step]
      split <;> rfl
  | queue l =>
      simp only [step, map, Broker.step_map same, Option.map_map]
      rfl

end Deployment

/-- Nobody else signs with the key of the device: a published packet that
verifies carries the signed region of a packet that the device has made. -/
def Unforged {ι P : Type} (env : Env) (device : Device) :
    DeploymentLabel ι → Deployment ι P → Prop
  | .queue (.publish _ body), s => ∀ q, SignedBody env body q →
      ∃ o ∈ s.orders, q.signingBytes = (o.packet env.prim device).signingBytes
  | _, _ => True

section System

variable {ι : Type} [DecidableEq ι]

/-- The system, running coroutines. -/
abbrev Payments (ι : Type) := Deployment ι (Io SettlementOutcome)

/-- The system, with every coroutine shown as its phase. -/
abbrev PaymentPhases (ι : Type) (env : Env) := Deployment ι (Phase env)

/-- A step of the system. -/
def Payments.step (env : Env) (device : Device) :
    DeploymentLabel ι → Payments ι → Option (Payments ι) :=
  Deployment.step device (processCode env)

/-- The same system on phases. -/
def PaymentPhases.step (env : Env) (device : Device) :
    DeploymentLabel ι → PaymentPhases ι env → Option (PaymentPhases ι env) :=
  Deployment.step device (phaseCode env)

variable {env : Env} {device : Device}

/-- The steps of the system. -/
inductive PaymentStep (device : Device) (s : PaymentPhases ι env) :
    DeploymentLabel ι → PaymentPhases ι env → Prop
  | refused {rawBody : Bytes} {draws : Draws} : PaymentStep device s (.create rawBody draws) s
  | created {rawBody : Bytes} {draws : Draws} {request : TransactionRequest} :
      readBody device.web TransactionRequest.validate rawBody = .ok request →
      PaymentStep device s (.create rawBody draws)
        { s with orders := s.orders ++ [⟨request, draws⟩] }
  | queue {l : BrokerLabel ι} {broker : ConsumerPhases ι env} :
      ConsumerPhases.step env l s.broker = some broker →
      PaymentStep device s (.queue l) { s with broker := broker }

/-- **Inversion of a step of the system.** -/
theorem PaymentPhases.step_cases {l : DeploymentLabel ι} {s s' : PaymentPhases ι env}
    (h : PaymentPhases.step env device l s = some s') : PaymentStep device s l s' := by
  cases l with
  | create rawBody draws =>
      simp only [PaymentPhases.step, Deployment.step] at h
      split at h
      · cases h
        exact .refused
      · next hread =>
          cases h
          exact .created hread
  | queue l =>
      simp only [PaymentPhases.step, Deployment.step] at h
      obtain ⟨broker, hbroker, rfl⟩ := Option.map_eq_some_iff.mp h
      exact .queue hbroker

/-- The runs of the system are the runs of its phases. -/
theorem Payments.reach_phases {ok : DeploymentLabel ι → Payments ι → Prop} {t : Payments ι}
    (h : Reach (Payments.step env device) ok Deployment.init t) :
    ∃ s : PaymentPhases ι env, t = s.map Phase.prog ∧
      Reach (PaymentPhases.step env device) (fun l s => ok l (s.map Phase.prog))
        Deployment.init s :=
  Reach.lift Deployment.init (Deployment.map Phase.prog)
    (fun l s => Deployment.step_map (processCode_same env) device l s) (fun _ _ h => h) h

/-- Its unforged runs are the unforged runs of its phases. -/
theorem Payments.reach_unforged {t : Payments ι}
    (h : Reach (Payments.step env device) (Unforged env device) Deployment.init t) :
    ∃ s : PaymentPhases ι env, t = s.map Phase.prog ∧
      Reach (PaymentPhases.step env device) (Unforged env device) Deployment.init s := by
  obtain ⟨s, rfl, hr⟩ := Payments.reach_phases h
  refine ⟨s, rfl, hr.mono fun l s hok => ?_⟩
  cases l with
  | create _ _ => trivial
  | queue l => cases l <;> exact hok

/-- An unforged run of the phases is one of the coroutines. -/
theorem Payments.reach_coroutines {s : PaymentPhases ι env}
    (h : Reach (PaymentPhases.step env device) (Unforged env device) Deployment.init s) :
    Reach (Payments.step env device) (Unforged env device) Deployment.init (s.map Phase.prog) := by
  refine Reach.image (Deployment.map Phase.prog)
    (fun l s => Deployment.step_map (processCode_same env) device l s) (fun l s hok => ?_) h
  cases l with
  | create _ _ => trivial
  | queue l => cases l <;> exact hok

/-- The consumers behind the device run as any consumers do. -/
theorem PaymentPhases.reach_broker {ok : DeploymentLabel ι → PaymentPhases ι env → Prop}
    {s : PaymentPhases ι env}
    (h : Reach (PaymentPhases.step env device) ok Deployment.init s) :
    Reach (ConsumerPhases.step env) free (Broker.loaded fun _ => none) s.broker := by
  refine h.invariant (P := fun s : PaymentPhases ι env =>
    Reach (ConsumerPhases.step env) free (Broker.loaded fun _ => none) s.broker) .start ?_
  intro s l s' _ ih _ hstep
  cases PaymentPhases.step_cases hstep with
  | refused => exact ih
  | created _ => exact ih
  | queue hbroker => exact .next ih trivial hbroker

/-- A run of the consumers that publishes nothing is a run of the system. -/
theorem PaymentPhases.reach_quiet {s : PaymentPhases ι env} {broker : ConsumerPhases ι env}
    (h : Reach (ConsumerPhases.step env) (fun l _ => ∀ m body, l ≠ .publish m body) s.broker
      broker) :
    Reach (PaymentPhases.step env device) (Unforged env device) s { s with broker := broker } := by
  induction h with
  | start => exact .start
  | @next broker broker' l _ hquiet hstep ih =>
      refine .next (l := .queue l) ih ?_ ?_
      · cases l with
        | publish m body => exact absurd rfl (hquiet m body)
        | _ => trivial
      · show (ConsumerPhases.step env l broker).map _ = _
        rw [hstep]
        rfl

end System

end MeshSettle
