import MeshSettle.Settlement.Alone
import MeshSettle.Settlement.Genuine
import MeshSettle.Settlement.Reference

/-!
# Hops never influence a settlement decision

Two bodies that parse to packets which differ in their hops alone are
processed in step: the same operations on Redis and Postgres, the row of the
payment apart, which differs in its hop count. So every answer is the same,
whatever fails, and the two runs end in the same outcome and in stores that
differ in hop counts only.
-/

namespace MeshSettle.Theorems.HopBlind

open Lib.Await Lib.Interleave

variable {ι : Type} {env : Env}

/-- A committed row without the hop count. -/
def rowCore (row : SettlementRow) : SettlementRow := { row with hopCount := 0 }

/-- The same operation, or the inserts of two rows that differ in their hop
count. -/
inductive SameButHops : (op op' : Op) → (Resp op → Resp op') → Prop
  | same (op : Op) : SameButHops op op id
  | insert {row row' : Settlement} : row.core = row'.core → row.fits = row'.fits →
      SameButHops (.insertSettlement row) (.insertSettlement row') id

/-- The stores differ in hop counts only. -/
structure Blind (w w' : World ι) : Prop where
  redis : w.redis = w'.redis
  rejected : w.rejected = w'.rejected
  metrics : w.metrics = w'.metrics
  nextId : w.settlements.nextId = w'.settlements.nextId
  rows : w.settlements.rows.map rowCore = w'.settlements.rows.map rowCore

theorem Blind.refl (w : World ι) : Blind w w := ⟨rfl, rfl, rfl, rfl, rfl⟩

/-! ## The table does not look at hop counts -/

/-- A row that one table accepts is accepted, with another hop count, by a
table that differs in hop counts. -/
theorem accepts_of_core {t t' : SettlementTable} {row row' : Settlement}
    (hrows : t.rows.map rowCore = t'.rows.map rowCore) (hcore : row.core = row'.core)
    (h : t.Accepts row) : t'.Accepts row' := by
  have hamount : row.amountMinor = row'.amountMinor := by
    show row.core.amountMinor = row'.core.amountMinor
    rw [hcore]
  have hkey : row.idempotencyKey = row'.idempotencyKey := by
    show row.core.idempotencyKey = row'.core.idempotencyKey
    rw [hcore]
  have hid : row.packetId = row'.packetId := by
    show row.core.packetId = row'.core.packetId
    rw [hcore]
  refine ⟨hamount ▸ h.1, fun r hr => ?_⟩
  have hmem : rowCore r ∈ t.rows.map rowCore := by
    rw [hrows]
    exact List.mem_map_of_mem hr
  obtain ⟨r', hr', heq⟩ := List.mem_map.mp hmem
  obtain ⟨hk, hp⟩ := h.2 r' hr'
  have hk' : r'.idempotencyKey = r.idempotencyKey := by
    show (rowCore r').idempotencyKey = (rowCore r).idempotencyKey
    rw [heq]
  have hp' : r'.packetId = r.packetId := by
    show (rowCore r').packetId = (rowCore r).packetId
    rw [heq]
  rw [← hk', ← hp', ← hkey, ← hid]
  exact ⟨hk, hp⟩

/-- Two inserts that differ in the hop count are answered alike. -/
theorem Blind.insert {w w' : World ι} (h : Blind w w') {row row' : Settlement}
    (hcore : row.core = row'.core) (hfits : row.fits = row'.fits) (clock : Int) :
    Blind (perform (.insertSettlement row) clock w).1
      (perform (.insertSettlement row') clock w').1 ∧
    (perform (.insertSettlement row') clock w').2 =
      (perform (.insertSettlement row) clock w).2 := by
  have hacc : w.settlements.Accepts row ↔ w'.settlements.Accepts row' :=
    ⟨accepts_of_core h.rows hcore, accepts_of_core h.rows.symm hcore.symm⟩
  simp only [perform, SettlementTable.insert]
  rw [← hfits]
  by_cases hf : row.fits = true
  · simp only [hf, if_true]
    by_cases ha : w.settlements.Accepts row
    · have ha' := hacc.mp ha
      simp only [dif_pos ha, dif_pos ha']
      refine ⟨⟨h.redis, h.rejected, h.metrics, ?_, ?_⟩, by rw [h.nextId]⟩
      · show _ + 1 = _ + 1
        rw [h.nextId]
      · show List.map rowCore (_ ++ [_]) = List.map rowCore (_ ++ [_])
        rw [List.map_append, List.map_append, h.rows]
        have hrow : rowCore { row with id := w.settlements.nextId, settledAt := clock } =
            rowCore { row' with id := w'.settlements.nextId, settledAt := clock } := by
          show SettlementRow.mk row.core _ _ = SettlementRow.mk row'.core _ _
          rw [hcore, h.nextId]
        rw [List.map_singleton, List.map_singleton, hrow]
    · have ha' := fun h' => ha (hacc.mpr h')
      simp only [dif_neg ha, dif_neg ha']
      refine ⟨⟨h.redis, h.rejected, h.metrics, ?_, h.rows⟩, trivial⟩
      show _ + 1 = _ + 1
      rw [h.nextId]
  · simp only [hf, Bool.false_eq_true, if_false]
    exact ⟨h, trivial⟩

/-- Related operations are answered alike. -/
theorem Blind.perform {op op' : Op} {f : Resp op → Resp op'} (hop : SameButHops op op' f)
    (clock : Int) {w w' : World ι} (h : Blind w w') :
    Blind (perform op clock w).1 (perform op' clock w').1 ∧
      (perform op' clock w').2 = (perform op clock w).2.map f := by
  have hid : ∀ {β : Type} (r : Except Exc β), r.map id = r := fun r => by cases r <;> rfl
  cases hop with
  | insert hcore hfits =>
      obtain ⟨hblind, hanswer⟩ := h.insert hcore hfits clock
      exact ⟨hblind, hanswer.trans (hid _).symm⟩
  | same op =>
      rw [hid]
      obtain ⟨redis, settlements, rejected, metrics⟩ := w
      obtain ⟨redis', settlements', rejected', metrics'⟩ := w'
      obtain ⟨rfl, rfl, rfl, hnext, hrows⟩ := h
      cases op with
      | insertSettlement row =>
          have h : Blind (⟨redis, settlements, rejected, metrics⟩ : World ι)
              ⟨redis, settlements', rejected, metrics⟩ := ⟨rfl, rfl, rfl, hnext, hrows⟩
          exact h.insert rfl rfl clock
      | insertRejection row =>
          simp only [MeshSettle.perform]
          split
          · exact ⟨⟨rfl, rfl, rfl, hnext, hrows⟩, rfl⟩
          · exact ⟨⟨rfl, rfl, rfl, hnext, hrows⟩, rfl⟩
      | _ => exact ⟨⟨rfl, rfl, rfl, hnext, hrows⟩, rfl⟩

/-! ## The pipeline in step -/

/-- The pipelines of a packet with two lists of hops. -/
abbrev Together (p p' : Io SettlementOutcome) : Prop := Prog.InStep SameButHops p p'

/-- Whatever does not depend on the hops is in step with itself. -/
theorem alike {α : Type} (p : Io α) : Prog.InStep SameButHops p p := .refl SameButHops.same p

/-- With fewer hops than its column holds, a row is refused for nothing that
depends on them. -/
theorem fits_of_hops {p : PaymentPacket} {hops : List HopRecord} (hp : p.hops.length < 2 ^ 31)
    (hh : hops.length < 2 ^ 31) (i : PaymentInstruction) :
    (settlementOf env p i).fits = (settlementOf env { p with hops := hops } i).fits := by
  have h : decide (p.hopCount < 2 ^ 31) =
      decide (({ p with hops := hops } : PaymentPacket).hopCount < 2 ^ 31) :=
    decide_eq_decide.mpr (iff_of_true hp hh)
  show (_ && decide (p.hopCount < 2 ^ 31)) = (_ && decide (_ < 2 ^ 31))
  rw [h]
  rfl

section Pipeline

variable {p : PaymentPacket} {hops : List HopRecord} (hp : p.hops.length < 2 ^ 31)
  (hh : hops.length < 2 ^ 31)
include hp hh

/-- The transaction and what follows it. -/
theorem writeSettlement_together (i : PaymentInstruction) :
    Together (writeSettlement env p i) (writeSettlement env { p with hops := hops } i) := by
  unfold writeSettlement
  refine Prog.InStep.bind (Prog.InStep.tryCatch (Prog.InStep.bind ?_ fun id => .ret (some id))
    fun e => alike _) fun id => ?_
  · refine .await (.insert rfl (fits_of_hops hp hh i)) fun r => ?_
    cases r with
    | ok id => exact .ret id
    | error e => exact .raise e
  · cases id with
    | none => exact alike _
    | some id => exact alike _

/-- What is done under the claim. -/
theorem settleClaimed_together :
    Together (settleClaimed env p) (settleClaimed env { p with hops := hops }) := by
  have hopen : ({ p with hops := hops } : PaymentPacket).openInstruction env.prim env.pydantic
      env.jsonLoads env.settlementPrivateKey = p.openInstruction env.prim env.pydantic
        env.jsonLoads env.settlementPrivateKey := rfl
  unfold settleClaimed
  rw [hopen]
  cases p.openInstruction env.prim env.pydantic env.jsonLoads env.settlementPrivateKey with
  | ok i => exact writeSettlement_together hp hh i
  | error e => exact alike _

/-- The claim and what is done under it. -/
theorem settlePacket_together :
    Together (settlePacket env p) (settlePacket env { p with hops := hops }) := by
  unfold settlePacket
  refine Prog.InStep.bind (alike _) fun claim => ?_
  cases claim with
  | alreadySettled => exact .ret _
  | inFlight => exact .ret _
  | claimed =>
      exact Prog.InStep.tryCatch (settleClaimed_together hp hh) fun _ => alike _

/-- **Two bodies with the same packet, the hops apart, are processed in step.** -/
theorem process_together {body body' : Bytes}
    (hb : PaymentPacket.modelValidateJson env.pydantic body = .ok p)
    (hb' : PaymentPacket.modelValidateJson env.pydantic body' = .ok { p with hops := hops })
    (now : Int) : Together (process env body now) (process env body' now) := by
  have hverify : ({ p with hops := hops } : PaymentPacket).verify env.prim env.senderPublicKey =
      p.verify env.prim env.senderPublicKey := rfl
  have hfresh : checkFreshness env { p with hops := hops } now = checkFreshness env p now := rfl
  unfold process
  rw [hb, hb']
  dsimp only
  rw [hverify, hfresh]
  cases p.verify env.prim env.senderPublicKey with
  | error e => cases e <;> exact alike _
  | ok _ =>
      refine Prog.InStep.bind (alike _) fun freshness => ?_
      cases freshness with
      | some outcome => exact .ret outcome
      | none =>
          dsimp only
          by_cases haad : p.envelope.aad ≠ p.expectedAad
          · rw [if_pos haad, if_pos (show ({ p with hops := hops } : PaymentPacket).envelope.aad ≠
              ({ p with hops := hops } : PaymentPacket).expectedAad from haad)]
            exact alike _
          · rw [if_neg haad, if_neg (show ¬ ({ p with hops := hops } : PaymentPacket).envelope.aad ≠
              ({ p with hops := hops } : PaymentPacket).expectedAad from haad)]
            exact settlePacket_together hp hh

end Pipeline

variable [DecidableEq ι]

/-- The two runs cannot be told apart, the hop counts of the table aside. -/
structure SameDecision (r r' : World ι × Except Exc SettlementOutcome) : Prop where
  result : r.2 = r'.2
  stores : Blind r.1 r'.1

/-- **Hops are ignored.** For two bodies whose packets are equal in everything
but hops, every state of the stores, every reading of the clock and every
pattern of failures, the result, Redis and the rejected packets are the same,
and so are the settlements but for their hop counts. -/
theorem hops_ignored {body body' : Bytes} {p q : PaymentPacket}
    (hb : PaymentPacket.modelValidateJson env.pydantic body = .ok p)
    (hb' : PaymentPacket.modelValidateJson env.pydantic body' = .ok q)
    (hequal : q = { p with hops := q.hops }) (hp : p.hops.length < 2 ^ 31)
    (hq : q.hops.length < 2 ^ 31) (i : ι) (now : Int) (mode : Nat → Mode) (clock : Nat → Int)
    (w : World ι) :
    SameDecision (processAlone env ⟨i, body, now⟩ mode clock w)
      (processAlone env ⟨i, body', now⟩ mode clock w) := by
  have htogether := process_together hp hq hb (hequal ▸ hb') now
  obtain ⟨hblind, hresult⟩ := (platform (ι := ι)).exec_inStep (Q := Blind)
    (fun _ _ _ hop clock _ _ hQ => Blind.perform hop clock hQ) htogether mode clock (Blind.refl w)
  unfold processAlone
  dsimp only
  rw [hresult]
  generalize platform.exec (process env body now) mode clock w = r at hblind ⊢
  generalize platform.exec (process env body' now) mode clock w = r' at hblind ⊢
  cases r.2 with
  | error e => exact ⟨rfl, hblind⟩
  | ok outcome =>
      refine ⟨rfl, hblind.redis, hblind.rejected, ?_, hblind.nextId, hblind.rows⟩
      show Function.update r.1.metrics _ _ = Function.update r'.1.metrics _ _
      rw [hblind.metrics]

/-- The reference payment before and after a hop. -/
theorem hops_ignored_payment : SameDecision
    (processAlone Reference.onePayment
      (⟨(), Reference.payment.modelDumpJson, Reference.instant.micros⟩ : Delivery Unit)
      (fun _ => .served) (fun _ => 0) World.empty)
    (processAlone Reference.onePayment
      (⟨(), Reference.hopped.modelDumpJson, Reference.instant.micros⟩ : Delivery Unit)
      (fun _ => .served) (fun _ => 0) World.empty) :=
  hops_ignored (Reference.body_packet Reference.payment) (Reference.body_packet Reference.hopped)
    rfl (by decide) (by decide) () _ _ _ _

end MeshSettle.Theorems.HopBlind
