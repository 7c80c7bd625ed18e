import MeshSettle.Settlement.Api
import MeshSettle.Settlement.Reference

/-!
# What the API says of a settled payment

A call that returns SETTLED has left its row in the table, where nothing
changes or removes it. So a lookup of the key in the outcome answers with the
id in the outcome and with the payment that was sealed in the delivered packet,
from then on and whatever fails, as long as Postgres answers. The listing shows
newest rows first, at most a hundred, and each as a lookup does.
-/

namespace MeshSettle.Theorems.Reads

open Lib.Await Lib.Interleave Lib.Transition Api

/-! ## The row of a settled call -/

section Deposits

variable {ι : Type} {env : Env}

/-- The row of the opened packet is in the table, under this id. -/
def HasRowOf (w : World ι) (o : Opened env) (id : Nat) : Prop :=
  ∃ row ∈ w.settlements.rows, row.id = id ∧ row.toSettlement = o.row

/-- A call that is about to report a row, or has reported it, has left it in the
table. -/
def Deposited (w : World ι) (d : Delivery ι) : Status Exc SettlementOutcome (Phase env) → Prop
  | .running (.marking o (some id)) => HasRowOf w o id
  | .returned outcome => outcome.status = .settled → ∃ o : Opened env, ∃ id,
      o.toAdmitted.For d ∧ outcome = settledOutcome env o.packet id ∧ HasRowOf w o id
  | _ => True

theorem HasRowOf.mono {w w' : World ι} {o : Opened env} {id : Nat}
    (hgrow : w.settlements.rows <+: w'.settlements.rows) (h : HasRowOf w o id) :
    HasRowOf w' o id := by
  obtain ⟨row, hrow, hid⟩ := h
  exact ⟨row, hgrow.subset hrow, hid⟩

theorem Deposited.mono {w w' : World ι} {d : Delivery ι}
    {status : Status Exc SettlementOutcome (Phase env)}
    (hgrow : w.settlements.rows <+: w'.settlements.rows) (h : Deposited w d status) :
    Deposited w' d status := by
  cases status with
  | running ph =>
      cases ph with
      | marking o id =>
          cases id with
          | none => trivial
          | some id => exact HasRowOf.mono hgrow h
      | _ => trivial
  | returned outcome =>
      intro hsettled
      obtain ⟨o, id, hfor, hout, hrow⟩ := h hsettled
      exact ⟨o, id, hfor, hout, hrow.mono hgrow⟩
  | _ => trivial

/-- A rejection has nothing to leave. -/
theorem deposited_rejected {w : World ι} {d : Delivery ι} {outcome : SettlementOutcome}
    (h : outcome.status = .rejected) :
    Deposited w d (.returned outcome : Status Exc SettlementOutcome (Phase env)) := by
  intro hsettled
  cases h.symm.trans hsettled

/-- **An operation of a call** leaves its row before the call reports it. -/
theorem Deposited.advance {w w' : World ι} {d : Delivery ι} {mode : Mode} {clock : Int}
    {ph ph' : Phase env} {ev : IoEvent} (h : Deposited w d (.running ph)) (hfor : ph.For d)
    (hadv : Advance env mode clock w ph w' ph' ev) : Deposited w' d ph'.status := by
  cases hadv with
  | @refused r _ _ _ => exact deposited_rejected r.rejected
  | @claimWon a _ _ _ =>
      rcases Phase.claimed_cases a with ⟨o, -, hph⟩ | ⟨f, -, hph⟩ | ⟨e, -, -, hph⟩
      · rw [hph]
        trivial
      · rw [hph]
        trivial
      · rw [hph]
        trivial
  | found _ =>
      refine deposited_rejected ?_
      unfold Phase.lostOutcome
      split <;> rfl
  | released _ => exact deposited_rejected rfl
  | inserted _ _ _ => exact ⟨_, List.mem_append_right _ (List.mem_singleton_self _), rfl, rfl⟩
  | @marked o id _ _ =>
      cases id with
      | none => exact deposited_rejected rfl
      | some id => exact fun _ => ⟨o, id, hfor, rfl, h⟩
  | recovered _ => exact deposited_rejected rfl
  | _ => trivial

variable [DecidableEq ι]

/-- **Every call** has left the row that it reports. -/
theorem deposited {ok : ProcessorLabel ι → Phases ι env → Prop} {s : Phases ι env}
    (h : Reach (Phases.step env) ok Phases.init s) :
    ∀ c call, s.calls c = some call → Deposited s.store call.tag call.status := by
  refine h.invariant (P := fun s : Phases ι env => ∀ c call, s.calls c = some call →
    Deposited s.store call.tag call.status) ?_ ?_
  · intro c call hc
    cases hc
  · intro s l s' hr ih _ hstep
    have hs := Phases.step_cases hstep
    have hgrow := hs.rows_grow
    cases hs with
    | @start c d _ =>
        refine (Phases.forall_enter ..).mpr ⟨?_, fun b call _ hb => (ih b call hb).mono hgrow⟩
        rcases Phase.start_cases env d with ⟨r, hph⟩ | ⟨a, -, hph⟩ | ⟨e, -, hph⟩
        · rw [hph]
          trivial
        · rw [hph]
          trivial
        · rw [hph]
          trivial
    | @io c mode clock d ph ph' log w' ev hc hadv =>
        have hfor : ph.For d := Phases.coherent hr c _ hc
        have hafter : w'.settlements.rows <+: (w'.after d ph').settlements.rows := by
          rw [World.after_settlements]
        exact (Phases.forall_enter ..).mpr ⟨((ih c _ hc).advance hfor hadv).mono hafter,
          fun b call _ hb => (ih b call hb).mono hgrow⟩
    | crash => exact Phases.forall_crash s _ ih fun b d ph log _ => trivial
    | disturb => exact fun c call hc => (ih c call hc).mono hgrow

/-- Rows stay along a run. -/
theorem rows_stay {ok : ProcessorLabel ι → Phases ι env → Prop} {s s' : Phases ι env}
    (h : Reach (Phases.step env) ok s s') :
    s.store.settlements.rows <+: s'.store.settlements.rows := by
  refine h.invariant
    (P := fun s' : Phases ι env => s.store.settlements.rows <+: s'.store.settlements.rows)
    (List.prefix_refl _) ?_
  intro u l u' _ ih _ hstep
  exact ih.trans (Phases.step_cases hstep).rows_grow

end Deposits

/-! ## Lookups -/

section Lookups

variable {ι : Type} [DecidableEq ι] {env : Env}

/-- **What is reported SETTLED can be read, for good.** The lookup of the key in
the outcome answers with the packet id and the settlement id in the outcome, and
with the payment that was sealed in the delivered packet, in that state and in
every later one. -/
theorem settled_readable {ok : ProcessorLabel ι → Processors ι → Prop} {s : Processors ι}
    (h : Reach (Processors.step env) ok Processors.init s) {c : Nat} {call : ProcessCall ι}
    (hc : s.calls c = some call) {outcome : SettlementOutcome}
    (hstatus : call.status = .returned outcome) (hsettled : outcome.status = .settled) :
    ∃ (o : Opened env) (view : SettlementView), o.toAdmitted.For call.tag ∧
      view = .modelValidate { o.row with id := view.id, settledAt := view.settledAt } ∧
      outcome.idempotencyKey = some view.idempotencyKey ∧
      outcome.packetId = some view.packetId ∧ outcome.settlementId = some view.id ∧
      ∀ (ok' : ProcessorLabel ι → Processors ι → Prop) s',
        Reach (Processors.step env) ok' s s' →
          readSettlement s'.store true view.idempotencyKey = .settlement view ∧
          countSettlements s'.store (some view.idempotencyKey) = 1 := by
  obtain ⟨t, rfl, ht⟩ := Processors.reach_phases h
  obtain ⟨hphase, -⟩ := Processors.returned_phases ht hc hstatus
  obtain ⟨o, id, hfor, rfl, row, hrow, rfl, hcols⟩ := deposited ht c _ hphase hsettled
  have hrowIs : row = { o.row with id := row.id, settledAt := row.settledAt } := by
    rw [← hcols]
  refine ⟨o, .modelValidate row, hfor, ?_, ?_, ?_, rfl, ?_⟩
  · exact congrArg SettlementView.modelValidate hrowIs
  · exact congrArg some (congrArg Settlement.idempotencyKey hcols).symm
  · exact congrArg some (congrArg Settlement.packetId hcols).symm
  · intro ok' s' hlater
    obtain ⟨t', rfl, ht'⟩ := Reach.lift t (State.map Phase.prog)
      (fun l s => step_map (processCode_same env) l s) (fun _ _ h => h) hlater
    have hread := readSettlement_row ht hrow
    have hgrow : t.store.settlements.rows <+: t'.store.settlements.rows := rows_stay ht'
    refine ⟨readSettlement_mono hgrow hread, ?_⟩
    show countSettlements t'.store (some row.idempotencyKey) = 1
    rw [queries_agree.1, getSettlement_iff.mpr ⟨hgrow.subset hrow, rfl⟩]
    rfl

end Lookups

/-! ## The listing -/

section Listing

variable {ι : Type} [DecidableEq ι] {env : Env}

/-- **The listing shows the newest rows.** In every reachable state and for every
limit, it is as long as the limit allows, lists no row twice and each as a
lookup answers it, newest first, and leaves out no row that is newer than one it
lists. -/
theorem listing_newest {ok : ProcessorLabel ι → Processors ι → Prop} {s : Processors ι}
    (h : Reach (Processors.step env) ok Processors.init s) (order : SettledAtDesc) (limit : Int) :
    ∃ views, listSettlements s.store true order limit = .settlements views ∧
      views.length = min (max 1 (min limit 100)).toNat (countSettlements s.store none) ∧
      views.Nodup ∧ (views.Pairwise fun a b => b.settledAt ≤ a.settledAt) ∧
      (∀ view ∈ views,
        readSettlement s.store true view.idempotencyKey = .settlement view) ∧
      ∀ key view, readSettlement s.store true key = .settlement view → view ∉ views →
        ∀ listed ∈ views, view.settledAt ≤ listed.settledAt := by
  obtain ⟨t, rfl, ht⟩ := Processors.reach_phases h
  have hperm := order.perm t.store.settlements.rows
  have hsorted := order.sorted t.store.settlements.rows
  have hnodup : t.store.settlements.rows.Nodup := List.Nodup.of_map _ t.store.settlements.uqId
  generalize hn : (max 1 (min limit 100)).toNat = n
  refine ⟨((order.sort t.store.settlements.rows).take n).map .modelValidate, ?_, ?_, ?_, ?_, ?_, ?_⟩
  · unfold listSettlements
    dsimp only
    rw [hn]
    rfl
  · rw [List.length_map, List.length_take, hperm.length_eq]
    rfl
  · have hrows := (hperm.nodup_iff.mpr hnodup).sublist (List.take_sublist n _)
    exact hrows.map fun row row' => SettlementView.modelValidate_inj
  · exact List.pairwise_map.mpr (hsorted.sublist (List.take_sublist n _))
  · intro view hview
    obtain ⟨row, hrow, rfl⟩ := List.mem_map.mp hview
    exact readSettlement_row ht (hperm.mem_iff.mp (List.mem_of_mem_take hrow))
  · intro key view hread hunlisted listed hlisted
    obtain ⟨-, -, row, hrow, -, rfl⟩ := readSettlement_iff.mp hread
    obtain ⟨row', hrow', rfl⟩ := List.mem_map.mp hlisted
    -- a row that is not among the first is among the rest
    have hsplit := hperm.mem_iff.mpr hrow
    rw [← List.take_append_drop n (order.sort t.store.settlements.rows)] at hsplit hsorted
    have hrest := (List.mem_append.mp hsplit).resolve_left fun htake =>
      hunlisted (List.mem_map_of_mem htake)
    exact (List.pairwise_append.mp hsorted).2.2 row' hrow' row hrest

end Listing

/-! ## The reference payment -/

section Payment

open Reference

/-- A stable sort is one way to order rows. -/
def stableOrder : SettledAtDesc where
  sort rows := rows.mergeSort fun a b => b.settledAt ≤ a.settledAt
  perm rows := List.mergeSort_perm ..
  sorted rows := by
    have hsorted : (rows.mergeSort fun a b => b.settledAt ≤ a.settledAt).Pairwise
        fun a b => decide (b.settledAt ≤ a.settledAt) = true := by
      apply List.pairwise_mergeSort
      · intro a b c hab hbc
        rw [decide_eq_true_eq] at hab hbc ⊢
        omega
      · intro a b
        rw [Bool.or_eq_true, decide_eq_true_eq, decide_eq_true_eq]
        omega
    exact hsorted.imp fun h => of_decide_eq_true h

/-- Its settlement can be read. -/
theorem settled_readable_payment : ∃ view : SettlementView,
    some key = some view.idempotencyKey ∧
      readSettlement (settled.core.map Phase.prog).store true view.idempotencyKey =
        .settlement view := by
  have hcall := congrArg (Option.map (Call.map Phase.prog)) settled_call
  obtain ⟨o, view, -, -, hkey, -, -, hread⟩ :=
    settled_readable reach_processors_settled (c := 0) hcall rfl rfl
  exact ⟨view, hkey, (hread free _ .start).1⟩

/-- It is the one that is listed. -/
theorem listing_newest_payment : ∃ views,
    listSettlements (settled.core.map Phase.prog).store true stableOrder = .settlements views ∧
      views.length = 1 := by
  obtain ⟨views, hlist, hlength, -⟩ := listing_newest reach_processors_settled stableOrder 20
  exact ⟨views, hlist, hlength⟩

end Payment

end MeshSettle.Theorems.Reads
