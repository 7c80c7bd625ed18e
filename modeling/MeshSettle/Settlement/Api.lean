import MeshSettle.Mesh.Http
import MeshSettle.Settlement.Columns
import MeshSettle.Settlement.Processors

/-!
# The read-only API of settlement (`db.py`, `app.py`)

The queries on the two tables, and the routes that answer from them. A query
fails when Postgres cannot be reached, or when a text that is bound to it has
U+0000; the routes do not catch either. In which order Postgres returns rows
with one `settled_at` is its own choice, so a sorted result is a parameter.
-/

namespace MeshSettle.Api

open Lib.Transition

/-! ## Queries -/

section Queries

variable {ι : Type} (w : World ι)

/-- `get_settlement`. -/
def getSettlement (idempotencyKey : String) : Option SettlementRow :=
  w.settlements.rows.find? fun row => row.idempotencyKey = idempotencyKey

/-- `settlement_exists`. -/
def settlementExists (idempotencyKey : String) : Bool :=
  (((w.settlements.rows.filter fun row => row.idempotencyKey = idempotencyKey).take 1).map
    fun row => row.id).head?.isSome

/-- `count_settlements`. -/
def countSettlements (idempotencyKey : Option String) : Nat :=
  match idempotencyKey with
  | none => w.settlements.rows.length
  | some key => (w.settlements.rows.filter fun row => row.idempotencyKey = key).length

/-- `count_rejections`. -/
def countRejections (reason : Option String) : Nat :=
  match reason with
  | none => w.rejected.length
  | some code => (w.rejected.filter fun row => row.reason = code).length

end Queries

/-- `ORDER BY settled_at DESC`, as this Postgres does it. -/
structure SettledAtDesc where
  sort : List SettlementRow → List SettlementRow
  perm : ∀ rows, (sort rows).Perm rows
  sorted : ∀ rows, (sort rows).Pairwise fun a b => b.settledAt ≤ a.settledAt

/-- A query with bound texts. -/
def query {α : Type} (reachable : Bool) (bound : List String) (answer : α) : Except Exc α :=
  if reachable = false then .error .infrastructure
  else if bound.any (fun text => text.toList.any fun c => c = '\x00') then .error .dataError
  else .ok answer

/-! ## Views -/

/-- A settled payment, as shown in the demo UI. -/
structure SettlementView where
  id : Nat
  idempotencyKey : String
  packetId : UUID
  senderId : String
  payerId : String
  payeeId : String
  amountMinor : Int
  currency : String
  packetCreatedAt : UtcTimestamp
  settledAt : Int
  hopCount : Nat
  deriving DecidableEq

/-- `SettlementView.model_validate`. -/
def SettlementView.modelValidate (row : SettlementRow) : SettlementView where
  id := row.id
  idempotencyKey := row.idempotencyKey
  packetId := row.packetId
  senderId := row.senderId
  payerId := row.payerId
  payeeId := row.payeeId
  amountMinor := row.amountMinor
  currency := row.currency
  packetCreatedAt := row.packetCreatedAt
  settledAt := row.settledAt
  hopCount := row.hopCount

/-- A row is known by its view. -/
theorem SettlementView.modelValidate_inj {row row' : SettlementRow}
    (h : SettlementView.modelValidate row = SettlementView.modelValidate row') : row = row' := by
  obtain ⟨⟨_, _, _, _, _, _, _, _, _⟩, _, _⟩ := row
  obtain ⟨⟨_, _, _, _, _, _, _, _, _⟩, _, _⟩ := row'
  cases h
  rfl

/-- What a route answers. `plain` is the 500 of an unhandled exception. -/
inductive ApiReply where
  | settlement (view : SettlementView)
  | settlements (views : List SettlementView)
  | error (httpStatus : Nat) (r : ErrorResponse)
  | plain (httpStatus : Nat)

/-- `SettlementMetrics.snapshot`. -/
structure Snapshot where
  settled : Nat
  rejected : Nat
  duplicates : Nat
  invalidSignature : Nat
  malformed : Nat
  decryptionFailed : Nat
  expired : Nat
  notYetValid : Nat
  internalErrors : Nat

/-- The counters of a processor under the names of the snapshot. -/
def snapshot (m : SettlementMetrics) : Snapshot where
  settled := m.settled
  rejected := m.rejected
  duplicates := m.duplicates
  invalidSignature := m.invalidSignature
  malformed := m.malformed
  decryptionFailed := m.decryptionFailed
  expired := m.expired
  notYetValid := m.notYetValid
  internalErrors := m.internalErrors

/-- Counters and queue depth. -/
structure MetricsView extends Snapshot where
  queueDepth : Option Nat := none

/-- `GET /metrics`; without a consumer there is no queue depth. -/
def metricsEndpoint (metrics : SettlementMetrics) (depth : Option Nat) : MetricsView :=
  { snapshot metrics with queueDepth := depth }

/-- The HTTP status of an answer. -/
def ApiReply.statusCode : ApiReply → Nat
  | .settlement _ | .settlements _ => 200
  | .error httpStatus _ => httpStatus
  | .plain httpStatus => httpStatus

/-! ## Routes -/

section Routes

variable {ι : Type} (w : World ι) (reachable : Bool)

/-- `GET /settlements/{idempotency_key}`. -/
def readSettlement (idempotencyKey : String) : ApiReply :=
  match query reachable [idempotencyKey] (getSettlement w idempotencyKey) with
  | .error _ => .plain 500
  | .ok none => .error 404 ⟨.malformedPayload, "no settlement for that idempotency key"⟩
  | .ok (some row) => .settlement (.modelValidate row)

/-- `GET /settlements`. -/
def listSettlements (order : SettledAtDesc) (limit : Int := 20) : ApiReply :=
  let capped := max 1 (min limit 100)
  match query reachable [] ((order.sort w.settlements.rows).take capped.toNat) with
  | .error _ => .plain 500
  | .ok rows => .settlements (rows.map .modelValidate)

end Routes

/-! ## What the queries find -/

section Lookups

variable {ι : Type} {w : World ι} {key : String} {row : SettlementRow}

/-- **A key has one row at most**, so `LIMIT 1` leaves nothing out. -/
theorem getSettlement_iff : getSettlement w key = some row ↔
    row ∈ w.settlements.rows ∧ row.idempotencyKey = key := by
  constructor
  · intro h
    exact ⟨List.mem_of_find?_eq_some h, by simpa [getSettlement] using List.find?_some h⟩
  · rintro ⟨hrow, hkey⟩
    cases hfound : getSettlement w key with
    | none => exact absurd (decide_eq_true hkey) (List.find?_eq_none.mp hfound row hrow)
    | some found =>
        have hfoundKey := List.find?_some hfound
        rw [decide_eq_true_eq] at hfoundKey
        have hsame : found = row := List.inj_on_of_nodup_map w.settlements.uqIdempotencyKey
          (List.mem_of_find?_eq_some hfound) hrow (hfoundKey.trans hkey.symm)
        rw [hsame]

/-- The rows of a key are the one that is found. -/
theorem filter_key : (w.settlements.rows.filter fun row => row.idempotencyKey = key) =
    (getSettlement w key).toList := by
  have hnodup : (w.settlements.rows.filter fun row => row.idempotencyKey = key).Nodup :=
    (List.Nodup.of_map _ w.settlements.uqIdempotencyKey).filter _
  cases hfound : getSettlement w key with
  | none =>
      refine List.filter_eq_nil_iff.mpr fun row hrow hkey => ?_
      have hsome := getSettlement_iff.mpr ⟨hrow, by simpa using hkey⟩
      cases hfound.symm.trans hsome
  | some row =>
      refine List.perm_singleton.mp ((List.perm_ext_iff_of_nodup hnodup (by simp)).mpr ?_)
      intro row'
      rw [List.mem_filter, decide_eq_true_eq, ← getSettlement_iff, hfound]
      simp [eq_comm]

/-- The three queries about a key agree. -/
theorem queries_agree : countSettlements w (some key) = (getSettlement w key).toList.length ∧
    settlementExists w key = (getSettlement w key).isSome := by
  refine ⟨congrArg List.length filter_key, ?_⟩
  unfold settlementExists
  rw [filter_key]
  cases getSettlement w key <;> rfl

/-- A lookup that is answered with a view. -/
theorem readSettlement_iff {reachable : Bool} {view : SettlementView} :
    readSettlement w reachable key = .settlement view ↔
      reachable = true ∧ '\x00' ∉ key.toList ∧
        ∃ row ∈ w.settlements.rows, row.idempotencyKey = key ∧ view = .modelValidate row := by
  have hbound : ([key].any fun text => text.toList.any fun c => c = '\x00') = true ↔
      '\x00' ∈ key.toList := by
    simp
  unfold readSettlement query
  constructor
  · intro h
    split at h
    · cases h
    · cases h
    · next row hquery =>
        cases h
        split at hquery
        · cases hquery
        · next hreach =>
            split at hquery
            · cases hquery
            · next hclean =>
                have hfound := getSettlement_iff.mp (Except.ok.inj hquery)
                exact ⟨by simpa using hreach, fun hnul => hclean (hbound.mpr hnul), row,
                  hfound.1, hfound.2, rfl⟩
  · rintro ⟨rfl, hclean, row, hrow, hkey, rfl⟩
    rw [if_neg (by simp), if_neg (fun hnul => hclean (hbound.mp hnul)),
      getSettlement_iff.mpr ⟨hrow, hkey⟩]

/-- What a state answers, a later one answers too. -/
theorem readSettlement_mono {w' : World ι} (hgrow : w.settlements.rows <+: w'.settlements.rows)
    {view : SettlementView} (h : readSettlement w true key = .settlement view) :
    readSettlement w' true key = .settlement view := by
  obtain ⟨-, hclean, row, hrow, hkey, hview⟩ := readSettlement_iff.mp h
  exact readSettlement_iff.mpr ⟨rfl, hclean, row, hgrow.subset hrow, hkey, hview⟩

end Lookups

/-! ## Keys of rows -/

section Keys

variable {ι : Type} [DecidableEq ι] {env : Env}

/-- A row can be looked up by its key. -/
theorem row_key_clean {ok : ProcessorLabel ι → Phases ι env → Prop} {s : Phases ι env}
    (h : Reach (Phases.step env) ok Phases.init s) {row : SettlementRow}
    (hrow : row ∈ s.store.settlements.rows) : '\x00' ∉ row.idempotencyKey.toList := by
  obtain ⟨o, ho, -⟩ := Phases.rows_opened h row hrow
  have hkey : row.idempotencyKey = o.key := congrArg Settlement.idempotencyKey ho
  have hstorable : storable 80 o.key = true := storable_key env.prim o.packet.signingBytes
  rw [hkey]
  intro hnul
  unfold storable at hstorable
  rw [Bool.and_eq_true, List.all_eq_true] at hstorable
  exact absurd (hstorable.2 _ hnul) (by decide)

/-- So it is answered with its view. -/
theorem readSettlement_row {ok : ProcessorLabel ι → Phases ι env → Prop} {s : Phases ι env}
    (h : Reach (Phases.step env) ok Phases.init s) {row : SettlementRow}
    (hrow : row ∈ s.store.settlements.rows) :
    readSettlement s.store true row.idempotencyKey = .settlement (.modelValidate row) :=
  readSettlement_iff.mpr ⟨rfl, row_key_clean h hrow, row, hrow, rfl, rfl⟩

end Keys

end MeshSettle.Api
