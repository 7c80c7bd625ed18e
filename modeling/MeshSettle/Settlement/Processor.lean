import MeshSettle.Lib.Interleave
import MeshSettle.Settlement.Stores

/-!
# The settlement pipeline (`processor.py`, `dedupe.py`)

`process` is one packet's way through the pipeline, as a program that awaits
Redis and Postgres: parse, verify, check the freshness, compare the AAD,
claim, decrypt and cross-check, insert. Every `await` of the source is an
operation of the program and every handler is a `tryCatch`.

The clock is read before the first await, so the reading is an argument of
the call. `platform` runs many calls against one `World`; the bookkeeping it
does for a returned call is `self.metrics.record(outcome)`.
-/

namespace MeshSettle

open Lib.Await Lib.Interleave
open Lib.Schema (ErrorDetails Json Loc)

/-- What the processors are configured with. -/
structure Env where
  prim : Primitives
  pydantic : Pydantic
  python : Interpreter
  senderPublicKey : Bytes
  settlementPrivateKey : Bytes
  freshnessWindowSeconds : Int
  clockSkewToleranceSeconds : Int
  claimTtl : Int
  settledTtl : Int

/-- `json.loads`, as the processors call it. -/
def Env.jsonLoads (env : Env) : Bytes → Except LoadsFailure Json := env.python.jsonLoads

/-- A coroutine of the settlement service. -/
abbrev Io := Prog Op Resp Exc

/-! ## The dedupe store -/

/-- `ClaimOutcome`. -/
inductive ClaimOutcome where
  | claimed
  | inFlight
  | alreadySettled
  deriving DecidableEq, Repr

namespace DedupeStore

/-- Attempt to claim a packet for settlement. -/
def claim (env : Env) (idempotencyKey : String) : Io ClaimOutcome := do
  let won ← Prog.perform (Op.setNx idempotencyKey .claimed env.claimTtl)
  if won then
    pure .claimed
  else do
    let current ← Prog.perform (Op.get idempotencyKey)
    if current = some .settled then pure .alreadySettled else pure .inFlight

/-- Promote a claim to the durable settled marker. -/
def markSettled (env : Env) (idempotencyKey : String) : Io Unit :=
  Prog.perform (Op.set idempotencyKey .settled env.settledTtl)

/-- Drop a claim without settling. -/
def releaseClaim (idempotencyKey : String) : Io Unit :=
  Prog.perform (Op.delete idempotencyKey)

end DedupeStore

/-! ## Rejections -/

/-- `text[:256]`. -/
def truncate (s : String) : String := String.ofList (s.toList.take 256)

/-- Describe a schema failure without echoing the payload. -/
def summarizeValidationError : List ErrorDetails → String
  | [] => "packet failed schema validation"
  | first :: _ =>
      let location := ".".intercalate (first.loc.map Loc.text)
      truncate ((if location = "" then "packet" else location) ++ ": " ++ first.msg)

/-- The row that `record_rejection` adds. -/
def rejection (code : ErrorCode) (detail : String) (idempotencyKey : Option String)
    (packetId : Option UUID) : RejectedPacket :=
  ⟨idempotencyKey, packetId, code.value, truncate detail⟩

/-- Store durable evidence of a rejection; a failure to do so is swallowed. -/
def persistRejection (row : RejectedPacket) : Io Unit :=
  Prog.tryCatch (Prog.perform (Op.insertRejection row)) fun _ => pure ()

/-- The rejection of a packet that parsed. -/
def rejected (env : Env) (packet : PaymentPacket) (code : ErrorCode) (detail : String)
    (retryable : Bool := false) : SettlementOutcome where
  status := .rejected
  code := some code
  detail := detail
  idempotencyKey := some (packet.idempotencyKey env.prim)
  packetId := some packet.packetId
  retryable := retryable

/-- Its `rejected_packets` row. -/
def rejectedRow (env : Env) (packet : PaymentPacket) (code : ErrorCode) (detail : String) :
    RejectedPacket :=
  rejection code detail (some (packet.idempotencyKey env.prim)) (some packet.packetId)

/-- Persist and build a rejection for a packet refused before the claim. -/
def rejectBeforeClaim (env : Env) (packet : PaymentPacket) (code : ErrorCode)
    (detail : String) : Io SettlementOutcome := do
  persistRejection (rejectedRow env packet code detail)
  pure (rejected env packet code detail)

/-- Persist the rejection and release the claim. -/
def rejectAfterClaim (env : Env) (packet : PaymentPacket) (code : ErrorCode)
    (detail : String) : Io Unit := do
  persistRejection (rejectedRow env packet code detail)
  DedupeStore.releaseClaim (packet.idempotencyKey env.prim)

/-! ## The freshness window -/

/-- `(now - created_at).total_seconds()` in microseconds. -/
def ageMicros (packet : PaymentPacket) (now : Int) : Int := now - packet.createdAt.micros

/-- Whole seconds of a duration, rounded towards zero. -/
def wholeSeconds (micros : Int) : Int := micros.tdiv 1000000

/-- Why a packet is outside the window: the code and the text. Both bounds are
inclusive at the edge. -/
def staleness (env : Env) (packet : PaymentPacket) (now : Int) : Option (ErrorCode × String) :=
  let age := ageMicros packet now
  if age > env.freshnessWindowSeconds * 1000000 then
    some (.packetExpired, "packet is " ++ toString (wholeSeconds age) ++ "s old, older than the " ++
      toString env.freshnessWindowSeconds ++ "s freshness window")
  else if -age > env.clockSkewToleranceSeconds * 1000000 then
    some (.packetNotYetValid, "packet is dated " ++ toString (wholeSeconds (-age)) ++
      "s in the future, beyond the " ++ toString env.clockSkewToleranceSeconds ++
      "s clock-skew tolerance")
  else none

/-- Refuse a packet that is stale or improbably future-dated. -/
def checkFreshness (env : Env) (packet : PaymentPacket) (now : Int) :
    Io (Option SettlementOutcome) :=
  match staleness env packet now with
  | some (code, detail) => do
      let outcome ← rejectBeforeClaim env packet code detail
      pure (some outcome)
  | none => pure none

/-! ## Settling -/

/-- The `settlements` row of an opened packet. -/
def settlementOf (env : Env) (packet : PaymentPacket) (instruction : PaymentInstruction) :
    Settlement where
  idempotencyKey := packet.idempotencyKey env.prim
  packetId := packet.packetId
  senderId := packet.senderId.1
  payerId := instruction.payerId.1
  payeeId := instruction.payeeId.1
  amountMinor := instruction.amountMinor.1
  currency := instruction.currency.1
  packetCreatedAt := instruction.createdAt
  hopCount := packet.hopCount

/-- The outcome of a call that committed its row. -/
def settledOutcome (env : Env) (packet : PaymentPacket) (id : Nat) : SettlementOutcome where
  status := .settled
  detail := "settled"
  idempotencyKey := some (packet.idempotencyKey env.prim)
  packetId := some packet.packetId
  settlementId := some id

/-- The outcome of a call that found the packet settled. -/
def alreadySettled (env : Env) (packet : PaymentPacket) : SettlementOutcome :=
  rejected env packet .duplicatePacket "packet was already settled"

/-- The outcome of a call that found the packet claimed. -/
def inFlight (env : Env) (packet : PaymentPacket) : SettlementOutcome :=
  rejected env packet .duplicatePacket "packet is already being settled by another consumer"

/-- The outcome of a call that failed while holding the claim. -/
def internalError (env : Env) (packet : PaymentPacket) : SettlementOutcome :=
  rejected env packet .internalError "settlement failed unexpectedly" true

/-- Insert the settlement row, then publish the settled marker. A row refused
by a constraint is reported as already settled. -/
def writeSettlement (env : Env) (packet : PaymentPacket) (instruction : PaymentInstruction) :
    Io SettlementOutcome := do
  let key := packet.idempotencyKey env.prim
  let id ← Prog.tryCatch
    (do
      let id ← Prog.perform (Op.insertSettlement (settlementOf env packet instruction))
      pure (some id))
    (fun
      | .integrityError => pure none
      | e => .raise e)
  match id with
  | none => do
      DedupeStore.markSettled env key
      pure (alreadySettled env packet)
  | some id => do
      DedupeStore.markSettled env key
      pure (settledOutcome env packet id)

/-- What the two handlers around `open_instruction` make of an exception: a
rejection, or nothing when it propagates. -/
def openRejection (env : Env) : Exc → Option (ErrorCode × String)
  | .decryptionError _ => some (.decryptionFailed, "packet payload could not be decrypted")
  | .valueError msg => some (.malformedPayload, truncate msg)
  | .validationError title errors =>
      some (.malformedPayload, truncate (env.pydantic.errorText title errors))
  | _ => none

/-- The body of the `try` that runs while the claim is held. -/
def settleClaimed (env : Env) (packet : PaymentPacket) : Io SettlementOutcome :=
  match packet.openInstruction env.prim env.pydantic env.jsonLoads env.settlementPrivateKey with
  | .ok instruction => writeSettlement env packet instruction
  | .error e =>
      match openRejection env e with
      | some (code, detail) => do
          rejectAfterClaim env packet code detail
          pure (rejected env packet code detail)
      | none => .raise e

/-- Its handler: release the claim so that a redelivery can retry. -/
def recover (env : Env) (packet : PaymentPacket) : Io SettlementOutcome := do
  DedupeStore.releaseClaim (packet.idempotencyKey env.prim)
  pure (internalError env packet)

/-- The part of the pipeline behind the checks on the header: the claim, and
what is done under it. -/
def settlePacket (env : Env) (packet : PaymentPacket) : Io SettlementOutcome := do
  let claim ← DedupeStore.claim env (packet.idempotencyKey env.prim)
  match claim with
  | .alreadySettled => pure (alreadySettled env packet)
  | .inFlight => pure (inFlight env packet)
  | .claimed => Prog.tryCatch (settleClaimed env packet) fun _ => recover env packet

/-- Run one packet through the pipeline. -/
def process (env : Env) (rawBody : Bytes) (now : Int) : Io SettlementOutcome :=
  match PaymentPacket.modelValidateJson env.pydantic rawBody with
  | .error (.raised e) => .raise e
  | .error (.invalid errors) => do
      let detail := summarizeValidationError errors
      persistRejection (rejection .malformedPayload detail none none)
      pure { status := .rejected, code := some .malformedPayload, detail := detail }
  | .ok packet =>
      match packet.verify env.prim env.senderPublicKey with
      | .error (.signatureVerificationError _) =>
          rejectBeforeClaim env packet .invalidSignature "packet signature did not verify"
      | .error e => .raise e
      | .ok () => do
          let freshness ← checkFreshness env packet now
          match freshness with
          | some outcome => pure outcome
          | none =>
              if packet.envelope.aad ≠ packet.expectedAad then
                rejectBeforeClaim env packet .malformedPayload
                  "envelope AAD does not match the packet header"
              else settlePacket env packet

/-! ## The system of processors -/

/-- A call of `process`: by which processor, on which body, at which reading
of the clock. -/
structure Delivery (ι : Type) where
  processor : ι
  body : Bytes
  now : Int
  deriving DecidableEq

/-- What Redis does on its own. -/
inductive Disturbance where
  | expire (key : String)
  | flush

/-- `self.metrics.record(outcome)` of one processor. -/
def World.recordOutcome {ι : Type} [DecidableEq ι] (d : Delivery ι) (outcome : SettlementOutcome)
    (w : World ι) : World ι :=
  let counted := (w.metrics d.processor).record outcome
  { w with metrics := Function.update w.metrics d.processor counted }

/-- A key is evicted or runs out, or Redis is wiped. -/
def World.disturb {ι : Type} (e : Disturbance) (w : World ι) : World ι :=
  match e with
  | .expire key => { w with redis := w.redis.delete key }
  | .flush => { w with redis := fun _ => none }

/-- Redis, Postgres and the processors' counters. -/
def platform {ι : Type} [DecidableEq ι] :
    Platform Op Resp Exc SettlementOutcome (Delivery ι) ι Disturbance (World ι) where
  perform := perform
  fault := .infrastructure
  record := World.recordOutcome
  disturb := World.disturb
  host := Delivery.processor

/-- The coroutines the processors run. -/
def processCode {ι : Type} (env : Env) :
    Code Op Resp Exc SettlementOutcome (Delivery ι) (Io SettlementOutcome) where
  init d := process env d.body d.now
  view := Prog.view

/-- A step of the system. -/
abbrev ProcessorLabel (ι : Type) := Label (Delivery ι) ι Disturbance

/-- A call of the system. -/
abbrev ProcessCall (ι : Type) :=
  Call Op Resp Exc SettlementOutcome (Delivery ι) (Io SettlementOutcome)

/-- A state of the system. -/
abbrev Processors (ι : Type) :=
  State Op Resp Exc SettlementOutcome (Delivery ι) (World ι) (Io SettlementOutcome)

/-- Before the first delivery. -/
def Processors.init {ι : Type} : Processors ι := ⟨World.empty, fun _ => none⟩

/-- Any number of processors against one Redis and one Postgres. -/
def Processors.step {ι : Type} [DecidableEq ι] (env : Env) :
    ProcessorLabel ι → Processors ι → Option (Processors ι) :=
  Lib.Interleave.step platform (processCode env)

end MeshSettle
