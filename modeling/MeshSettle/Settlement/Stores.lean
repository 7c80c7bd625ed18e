import MeshSettle.Shared.Models

/-!
# Redis, Postgres and the counters

The state that settlement calls share: the Redis keys (`dedupe.py`), the two
Postgres tables (`db.py`) and the in-process counters, with the operations the
service performs on them. A transaction is one operation: it commits a row or
leaves the tables as they were. The unique constraints are fields of the
settlements table, so that a table violating them cannot be built.
-/

namespace MeshSettle

/-! ## Outcomes -/

/-- What happened to one packet. -/
structure SettlementOutcome where
  status : PacketStatus
  detail : String
  code : Option ErrorCode := none
  idempotencyKey : Option String := none
  packetId : Option UUID := none
  settlementId : Option Nat := none
  retryable : Bool := false
  deriving DecidableEq

/-- `outcome.settled`. -/
def SettlementOutcome.settled (o : SettlementOutcome) : Bool := o.status = .settled

/-- `SettlementMetrics`: the counters of one processor. -/
structure SettlementMetrics where
  settled : Nat := 0
  duplicates : Nat := 0
  invalidSignature : Nat := 0
  malformed : Nat := 0
  decryptionFailed : Nat := 0
  expired : Nat := 0
  notYetValid : Nat := 0
  internalErrors : Nat := 0
  byCode : ErrorCode → Nat := fun _ => 0

/-- `SettlementMetrics.record`. -/
def SettlementMetrics.record (m : SettlementMetrics) (outcome : SettlementOutcome) :
    SettlementMetrics :=
  if outcome.settled then { m with settled := m.settled + 1 }
  else
    match outcome.code with
    | none => m
    | some code =>
        let m := { m with byCode := Function.update m.byCode code (m.byCode code + 1) }
        match code with
        | .duplicatePacket => { m with duplicates := m.duplicates + 1 }
        | .invalidSignature => { m with invalidSignature := m.invalidSignature + 1 }
        | .malformedPayload => { m with malformed := m.malformed + 1 }
        | .decryptionFailed => { m with decryptionFailed := m.decryptionFailed + 1 }
        | .packetExpired => { m with expired := m.expired + 1 }
        | .packetNotYetValid => { m with notYetValid := m.notYetValid + 1 }
        | .internalError => { m with internalErrors := m.internalErrors + 1 }

/-- Only a SETTLED outcome counts as settled. -/
theorem SettlementMetrics.record_settled (m : SettlementMetrics) (o : SettlementOutcome) :
    (m.record o).settled = m.settled + if o.settled then 1 else 0 := by
  unfold record
  split
  · rfl
  · cases o.code with
    | none => rfl
    | some code => cases code <;> rfl

/-- `SettlementMetrics.rejected`: the sum over the codes. -/
def SettlementMetrics.rejected (m : SettlementMetrics) : Nat :=
  ([.malformedPayload, .invalidSignature, .duplicatePacket, .decryptionFailed, .packetExpired,
    .packetNotYetValid, .internalError].map m.byCode).sum

/-- Everything a processor has counted. -/
def SettlementMetrics.total (m : SettlementMetrics) : Nat := m.settled + m.rejected

/-- An outcome that is settled or has a code is counted once. -/
theorem SettlementMetrics.record_total (m : SettlementMetrics) (o : SettlementOutcome)
    (h : o.settled = true ∨ o.code.isSome = true) : (m.record o).total = m.total + 1 := by
  unfold record
  cases hs : o.settled with
  | true => simp only [if_true, total, rejected]; omega
  | false =>
      rw [hs] at h
      simp only [Bool.false_eq_true, false_or, Option.isSome_iff_exists] at h
      obtain ⟨code, hcode⟩ := h
      rw [hcode]
      cases code <;> simp [total, rejected] <;> omega

/-! ## Redis -/

/-- The two values a dedupe key holds: `CLAIMED_MARKER`, `SETTLED_MARKER`. -/
inductive Marker where
  | claimed
  | settled
  deriving DecidableEq, Repr

/-- A key's value and the instant its TTL runs out. -/
structure RedisEntry where
  value : Marker
  expiresAt : Int
  deriving DecidableEq

/-- The live keys. -/
abbrev Redis := String → Option RedisEntry

/-- `LLONG_MAX`, the largest integer of Redis. -/
def llongMax : Int := 2 ^ 63 - 1

/-- The clock of Redis, in milliseconds from the start of 1970. -/
def unixMillis (clock : Int) : Int := (clock - 62135596800000000) / 1000

/-- The expiries that Redis takes: positive, an integer of Redis when counted
in milliseconds, and one still when added to the clock, which has passed 1970. -/
def AcceptsEx (ex clock : Int) : Prop :=
  0 < ex ∧ ex ≤ llongMax / 1000 ∧ unixMillis clock + ex * 1000 ≤ llongMax

instance (ex clock : Int) : Decidable (AcceptsEx ex clock) :=
  inferInstanceAs (Decidable (_ ∧ _ ∧ _))

/-- What is accepted at an instant has been accepted before. -/
theorem AcceptsEx.earlier {ex clock clock' : Int} (h : AcceptsEx ex clock) (hle : clock' ≤ clock) :
    AcceptsEx ex clock' := by
  obtain ⟨hpositive, hmillis, hsum⟩ := h
  unfold unixMillis at hsum
  refine ⟨hpositive, hmillis, ?_⟩
  unfold unixMillis
  omega

/-- `SET key value EX ex`; an expiry that Redis does not take is an error. -/
def Redis.set (r : Redis) (key : String) (value : Marker) (ex clock : Int) :
    Redis × Except Exc Unit :=
  if AcceptsEx ex clock then
    (Function.update r key (some ⟨value, clock + ex * 1000000⟩), .ok ())
  else (r, .error .infrastructure)

/-- `SET key value NX EX ex`: whether the key was absent and is now set. -/
def Redis.setNx (r : Redis) (key : String) (value : Marker) (ex clock : Int) :
    Redis × Except Exc Bool :=
  if AcceptsEx ex clock then
    match r key with
    | some _ => (r, .ok false)
    | none => (Function.update r key (some ⟨value, clock + ex * 1000000⟩), .ok true)
  else (r, .error .infrastructure)

/-- `DEL key`, and a key whose TTL runs out. -/
def Redis.delete (r : Redis) (key : String) : Redis := Function.update r key none

/-- The value of a key. -/
def Redis.marker (r : Redis) (key : String) : Option Marker := (r key).map RedisEntry.value

/-! ## Postgres -/

/-- A text that a `String(width)` column accepts. -/
def storable (width : Nat) (s : String) : Bool :=
  s.length ≤ width && s.toList.all fun c => c ≠ '\x00'

/-- A `settlements` row before it is inserted. -/
structure Settlement where
  idempotencyKey : String
  packetId : UUID
  senderId : String
  payerId : String
  payeeId : String
  amountMinor : Int
  currency : String
  packetCreatedAt : UtcTimestamp
  hopCount : Nat
  deriving DecidableEq

/-- A committed `settlements` row. -/
structure SettlementRow extends Settlement where
  id : Nat
  settledAt : Int
  deriving DecidableEq

/-- Every value fits the type of its column. -/
def Settlement.fits (s : Settlement) : Bool :=
  storable 80 s.idempotencyKey && storable 64 s.senderId && storable 64 s.payerId &&
    storable 64 s.payeeId && storable 3 s.currency &&
    -2 ^ 63 ≤ s.amountMinor && s.amountMinor < 2 ^ 63 && s.hopCount < 2 ^ 31

/-- The `settlements` table with its two unique constraints; ids come from a
sequence. -/
structure SettlementTable where
  rows : List SettlementRow
  nextId : Nat
  uqIdempotencyKey : (rows.map fun r => r.idempotencyKey).Nodup
  uqPacketId : (rows.map fun r => r.packetId).Nodup
  ids_lt : ∀ row ∈ rows, row.id < nextId
  uqId : (rows.map fun r => r.id).Nodup

/-- The empty table. -/
def SettlementTable.empty : SettlementTable :=
  ⟨[], 0, List.nodup_nil, List.nodup_nil, by simp, List.nodup_nil⟩

/-- The check constraint and both unique constraints admit the row. -/
def SettlementTable.Accepts (t : SettlementTable) (s : Settlement) : Prop :=
  0 < s.amountMinor ∧ ∀ row ∈ t.rows,
    row.idempotencyKey ≠ s.idempotencyKey ∧ row.packetId ≠ s.packetId

instance (t : SettlementTable) (s : Settlement) : Decidable (t.Accepts s) :=
  inferInstanceAs (Decidable (_ ∧ _))

/-- Append an admitted row. -/
def SettlementTable.commit (t : SettlementTable) (s : Settlement) (clock : Int)
    (h : t.Accepts s) : SettlementTable where
  rows := t.rows ++ [{ s with id := t.nextId, settledAt := clock }]
  nextId := t.nextId + 1
  uqIdempotencyKey := by
    rw [List.map_append, List.nodup_append]
    refine ⟨t.uqIdempotencyKey, List.nodup_singleton _, ?_⟩
    intro a ha b hb
    obtain ⟨row, hrow, rfl⟩ := List.mem_map.mp ha
    rw [List.mem_singleton.mp hb]
    exact (h.2 row hrow).1
  uqPacketId := by
    rw [List.map_append, List.nodup_append]
    refine ⟨t.uqPacketId, List.nodup_singleton _, ?_⟩
    intro a ha b hb
    obtain ⟨row, hrow, rfl⟩ := List.mem_map.mp ha
    rw [List.mem_singleton.mp hb]
    exact (h.2 row hrow).2
  ids_lt := by
    intro row hrow
    rcases List.mem_append.mp hrow with hr | hr
    · exact Nat.lt_succ_of_lt (t.ids_lt row hr)
    · rw [List.mem_singleton.mp hr]; exact Nat.lt_succ_self _
  uqId := by
    rw [List.map_append, List.nodup_append]
    refine ⟨t.uqId, List.nodup_singleton _, ?_⟩
    intro a ha b hb
    obtain ⟨row, hrow, rfl⟩ := List.mem_map.mp ha
    rw [List.mem_singleton.mp hb]
    exact Nat.ne_of_lt (t.ids_lt row hrow)

/-- A row refused by a constraint still consumes an id. -/
def SettlementTable.skipId (t : SettlementTable) : SettlementTable :=
  { t with nextId := t.nextId + 1,
           ids_lt := fun row hrow => Nat.lt_succ_of_lt (t.ids_lt row hrow) }

/-- The transaction that inserts one row: a value that does not fit its column
is refused before the constraints are looked at. -/
def SettlementTable.insert (t : SettlementTable) (s : Settlement) (clock : Int) :
    SettlementTable × Except Exc Nat :=
  if s.fits then
    if h : t.Accepts s then (t.commit s clock h, .ok t.nextId)
    else (t.skipId, .error .integrityError)
  else (t, .error .dataError)

/-- A `rejected_packets` row. -/
structure RejectedPacket where
  idempotencyKey : Option String
  packetId : Option UUID
  reason : String
  detail : String
  deriving DecidableEq

/-- A committed `rejected_packets` row. -/
structure RejectedRow extends RejectedPacket where
  rejectedAt : Int
  deriving DecidableEq

/-- Every value fits the type of its column. -/
def RejectedPacket.fits (r : RejectedPacket) : Bool :=
  r.idempotencyKey.all (storable 80) && storable 32 r.reason && storable 256 r.detail

/-! ## The shared state and its operations -/

/-- Everything that settlement calls share; `ι` names the processors. -/
structure World (ι : Type) where
  redis : Redis
  settlements : SettlementTable
  rejected : List RejectedRow
  metrics : ι → SettlementMetrics

/-- No key, no row, no count. -/
def World.empty {ι : Type} : World ι :=
  ⟨fun _ => none, .empty, [], fun _ => {}⟩

/-- The calls to Redis and Postgres. -/
inductive Op where
  | setNx (key : String) (value : Marker) (ex : Int)
  | get (key : String)
  | set (key : String) (value : Marker) (ex : Int)
  | delete (key : String)
  | insertSettlement (row : Settlement)
  | insertRejection (row : RejectedPacket)

/-- What a call returns. -/
abbrev Resp : Op → Type
  | .setNx .. => Bool
  | .get _ => Option Marker
  | .set .. => Unit
  | .delete _ => Unit
  | .insertSettlement _ => Nat
  | .insertRejection _ => Unit

/-- A call that reaches its service. -/
def perform {ι : Type} (op : Op) (clock : Int) (w : World ι) : World ι × Except Exc (Resp op) :=
  match op with
  | .setNx key value ex =>
      let r := w.redis.setNx key value ex clock
      ({ w with redis := r.1 }, r.2)
  | .get key => (w, .ok (w.redis.marker key))
  | .set key value ex =>
      let r := w.redis.set key value ex clock
      ({ w with redis := r.1 }, r.2)
  | .delete key => ({ w with redis := w.redis.delete key }, .ok ())
  | .insertSettlement row =>
      let r := w.settlements.insert row clock
      ({ w with settlements := r.1 }, r.2)
  | .insertRejection row =>
      if row.fits then ({ w with rejected := w.rejected ++ [⟨row, clock⟩] }, .ok ())
      else (w, .error .dataError)

end MeshSettle
