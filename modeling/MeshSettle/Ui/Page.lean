import Mathlib.Data.Int.Notation
import Mathlib.Logic.Function.Basic
import MeshSettle.Lib.Transition

/-!
# The demo page (`services/ui/static/app.js`)

The page's state, its two actions and what an answer of the backend does to it.
An action runs until it awaits a call; several may be in flight, since a replay
leaves the send button enabled. `null` and `undefined` are both `none`. Of the
document only the two buttons and the attempts table are kept, the parts that
the actions depend on or that report an attempt.
-/

namespace MeshSettle.Ui

/-! ## State -/

/-- The outcomes that a row of the attempts table shows. -/
inductive Outcome where
  | refusedByMesh
  | noSettlementSeen
  | settled
  | duplicateRefused
  | unexpectedChange
  deriving DecidableEq

/-- The text of an outcome. -/
def Outcome.text : Outcome → String
  | .refusedByMesh => "Refused by mesh"
  | .noSettlementSeen => "No settlement seen"
  | .settled => "Settled"
  | .duplicateRefused => "Duplicate refused"
  | .unexpectedChange => "Unexpected change"

/-- The kind of dot in front of an outcome. -/
def Outcome.kind : Outcome → String
  | .refusedByMesh => "rejected"
  | .noSettlementSeen => "pending"
  | .settled => "settled"
  | .duplicateRefused => "pending"
  | .unexpectedChange => "rejected"

/-- A row of the attempts table: `index`, outcome and detail. -/
structure AttemptRow where
  index : Nat
  outcome : Outcome
  detail : String

/-- The action that an attempt belongs to. -/
inductive Origin where
  | sendNewPayment
  | replayPacket
  deriving DecidableEq

/-- Where an action in flight awaits an answer, with its local variables. -/
inductive InFlight (Packet Key : Type) where
  | minting
  | relaying (origin : Origin) (packet : Packet) (attempt : Nat)
  | waiting (origin : Origin) (packet : Packet) (attempt : Nat) (key : Option Key)
      (before : Option Int)

/-- The page. Actions in flight are numbered as they start. -/
structure Page (Packet Key : Type) where
  packet : Option Packet
  idempotencyKey : Option Key
  attempts : Nat
  settledAmount : Option Int
  sendDisabled : Bool
  replayDisabled : Bool
  attemptsBody : List AttemptRow
  started : Nat
  flows : Nat → Option (InFlight Packet Key)

/-- The page when it is loaded. -/
def Page.initial {Packet Key : Type} : Page Packet Key where
  packet := none
  idempotencyKey := none
  attempts := 0
  settledAmount := none
  sendDisabled := false
  replayDisabled := true
  attemptsBody := []
  started := 0
  flows := fun _ => none

/-! ## Answers -/

/-- A settlement as `GET /api/settlements/...` returns it. -/
structure SettlementView where
  id : Int
  amountMinor : Int

/-- An error answer of the mesh. A missing code or detail is empty. -/
structure MeshRefusal where
  status : Nat
  code : String
  detail : String

/-- The detail of a refused attempt. -/
def MeshRefusal.text (r : MeshRefusal) : String :=
  (if r.code = "" then "HTTP " ++ toString r.status else r.code) ++
    if r.detail = "" then "" else " — " ++ r.detail

/-- What happens to the page: an action of the user, with the trimmed names, or
an answer to the action `f`. `lost` is a call that throws, such as a refused
packet creation. -/
inductive PageLabel (Packet Key : Type) where
  | sendNewPayment (payer payee : String)
  | replayPacket
  | minted (f : Nat) (packet : Option Packet) (key : Option Key)
  | accepted (f : Nat)
  | refused (f : Nat) (r : MeshRefusal)
  | fetched (f : Nat) (settlement : Option SettlementView)
  | timedOut (f : Nat)
  | lost (f : Nat)

/-! ## The actions -/

namespace Page

variable {Packet Key : Type}

/-- `addAttemptRow`. -/
def addAttemptRow (s : Page Packet Key) (outcome : Outcome) (detail : String) : Page Packet Key :=
  { s with attemptsBody := s.attemptsBody ++ [⟨s.attempts, outcome, detail⟩] }

/-- The `finally` of an action. -/
def finish (s : Page Packet Key) (f : Nat) : Origin → Page Packet Key
  | .sendNewPayment => { s with sendDisabled := false, flows := Function.update s.flows f none }
  | .replayPacket =>
      { s with
        replayDisabled := s.packet.isNone
        flows := Function.update s.flows f none }

@[simp] theorem finish_packet (s : Page Packet Key) (f : Nat) (origin : Origin) :
    (s.finish f origin).packet = s.packet := by cases origin <;> rfl

@[simp] theorem finish_idempotencyKey (s : Page Packet Key) (f : Nat) (origin : Origin) :
    (s.finish f origin).idempotencyKey = s.idempotencyKey := by cases origin <;> rfl

@[simp] theorem finish_started (s : Page Packet Key) (f : Nat) (origin : Origin) :
    (s.finish f origin).started = s.started := by cases origin <;> rfl

@[simp] theorem finish_flows (s : Page Packet Key) (f : Nat) (origin : Origin) :
    (s.finish f origin).flows = Function.update s.flows f none := by cases origin <;> rfl

/-- `submitAndTrack`, up to the answer of the mesh. -/
def submit (s : Page Packet Key) (f : Nat) (origin : Origin) (packet : Packet) :
    Page Packet Key :=
  { s with
    attempts := s.attempts + 1
    flows := Function.update s.flows f (some (.relaying origin packet (s.attempts + 1))) }

/-- The outcome of an attempt that sees the settlement. -/
def seen (attempt : Nat) (before : Option Int) (settlement : SettlementView) : Outcome :=
  if attempt = 1 then .settled
  else if before = some settlement.amountMinor then .duplicateRefused
  else .unexpectedChange

/-- The detail of an attempt that sees the settlement. -/
def seenDetail (settlement : SettlementView) : Outcome → String
  | .settled => "settlement #" ++ toString settlement.id
  | .duplicateRefused => "still settlement #" ++ toString settlement.id ++ ", amount unchanged"
  | _ => "the settled amount changed between attempts"

/-- One step of the page. -/
def step : PageLabel Packet Key → Page Packet Key → Option (Page Packet Key)
  | .sendNewPayment payer payee, s =>
      if s.sendDisabled then none
      else if payer = payee then some s
      else
        some { s with
          packet := none
          idempotencyKey := none
          attempts := 0
          settledAmount := none
          attemptsBody := []
          replayDisabled := true
          sendDisabled := true
          started := s.started + 1
          flows := Function.update s.flows s.started (some .minting) }
  | .replayPacket, s =>
      if s.replayDisabled then none
      else
        match s.packet with
        | none => some s
        | some packet =>
            some (submit { s with replayDisabled := true, started := s.started + 1 } s.started
              .replayPacket packet)
  | .minted f packet key, s =>
      match s.flows f with
      | some .minting =>
          let created := { s with packet := packet, idempotencyKey := key }
          match packet with
          -- `created.packet.packet_id` throws
          | none => some (created.finish f .sendNewPayment)
          | some p => some (created.submit f .sendNewPayment p)
      | _ => none
  | .accepted f, s =>
      match s.flows f with
      | some (.relaying origin packet attempt) =>
          some { s with
            flows := Function.update s.flows f
              (some (.waiting origin packet attempt s.idempotencyKey s.settledAmount)) }
      | _ => none
  | .refused f r, s =>
      match s.flows f with
      | some (.relaying origin _ _) =>
          some (finish { s.addAttemptRow .refusedByMesh r.text with
            replayDisabled := s.packet.isNone } f origin)
      | _ => none
  | .fetched f settlement, s =>
      match s.flows f, settlement with
      | some (.waiting _ _ _ _ _), none => some s
      | some (.waiting origin _ attempt _ before), some settlement =>
          let outcome := seen attempt before settlement
          let reported := s.addAttemptRow outcome (seenDetail settlement outcome)
          some (finish { reported with
            settledAmount := some settlement.amountMinor
            replayDisabled := false } f origin)
      | _, _ => none
  | .timedOut f, s =>
      match s.flows f with
      | some (.waiting origin _ _ _ _) =>
          some (finish { s.addAttemptRow .noSettlementSeen "timed out waiting" with
            replayDisabled := false } f origin)
      | _ => none
  | .lost f, s =>
      match s.flows f with
      | some .minting => some (s.finish f .sendNewPayment)
      | some (.relaying origin _ _) => some (s.finish f origin)
      | some (.waiting origin _ _ _ _) => some (s.finish f origin)
      | none => none

end Page

end MeshSettle.Ui
