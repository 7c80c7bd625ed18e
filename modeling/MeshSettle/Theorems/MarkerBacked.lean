import MeshSettle.Settlement.Columns
import MeshSettle.Settlement.Reference

/-!
# The settled marker is backed by a row

The marker is written after a commit and after an `IntegrityError`. The error
is read as "this packet has its row", but the table has a second unique
constraint: a packet id that another signed packet has used refuses the insert
as well, and then the marker of a key without a row is written.

`marker_backed` is the statement for the runs in which no insert of the key is
refused by its packet id alone.
-/

namespace MeshSettle.Theorems.MarkerBacked

open Lib.Await Lib.Interleave Lib.Transition

variable {ι : Type} {env : Env}

/-- The marker of the key, and every outcome that calls its packet settled
already, is backed by a row. -/
def RowBehind {P : Type}
    (s : State Op Resp Exc SettlementOutcome (Delivery ι) (World ι) P) (key : String) : Prop :=
  (s.store.redis.marker key = some .settled → HasKey s.store key) ∧
  ∀ c call o, s.calls c = some call → call.status = .returned o →
    o.code = some .duplicatePacket → o.detail = "packet was already settled" →
      o.idempotencyKey = some key → HasKey s.store key

/-- **The marker is backed** in every state of a run whose inserts with the key
meet their packet id in the table only together with the key. -/
theorem marker_backed [DecidableEq ι] {key : String} {s : Processors ι}
    (h : Reach (Processors.step env) (CleanInsert env key) Processors.init s) :
    RowBehind s key := by
  obtain ⟨t, rfl, ht⟩ := Processors.reach_phases h
  have hbacked := Phases.backed (fun _ _ hclean => hclean) ht
  refine ⟨hbacked.marker, fun c call o hc hstatus hcode hdetail hkey => ?_⟩
  obtain ⟨hcall, -⟩ := Processors.returned_phases ht hc hstatus
  exact hbacked.calls c _ hcall ⟨hkey, .inr ⟨hcode, hdetail⟩⟩

/-- In the run that settles the reference payment, the marker has its row. -/
theorem marker_backed_settled :
    RowBehind (Reference.settled.core.map Phase.prog) Reference.key :=
  marker_backed (Phases.reach_processors
    (ConsumerPhases.reach_clean empty_ready Reference.reach_settled Reference.distinct_settled))

/-! ## One id on two packets -/

/-- Two packets with one packet id and keys of their own, delivered one after
the other: the second one's marker says settled, and it has no row. -/
theorem unbacked_of_shared_id {o o' : Opened env} {clock : Int}
    (hclaim : AcceptsEx env.claimTtl clock) (hsettled : AcceptsEx env.settledTtl clock)
    (hid : o'.packet.packetId = o.packet.packetId) (hkey : o'.key ≠ o.key)
    (hhops : o.packet.hops = [] ∧ o'.packet.hops = []) :
    ∃ s : Processors Unit, Reach (Processors.step env) free Processors.init s ∧
      ¬ RowBehind s o'.key := by
  have hfits : ∀ o : Opened env, o.packet.hops = [] → o.row.fits = true := fun o ho =>
    (row_fits_iff o).mpr (by rw [PaymentPacket.hopCount, ho]; decide)
  obtain ⟨s, _, _, hs, -, hcalls, hredis, htable⟩ :=
    Phases.run_opened free (s := Phases.init) (c := 0) (d := (⟨(), o.body, o.now⟩ : Delivery Unit))
      (o := o) clock trivial (fun _ _ => trivial) ⟨rfl, rfl⟩ rfl hclaim hsettled rfl
      (hfits o hhops.1)
  have hrows : ∃ row, s.store.settlements.rows = [row] ∧ row.toSettlement = o.row := by
    have hacc : (World.empty.mark (ι := Unit) o.key .claimed env.claimTtl clock).settlements.Accepts
        o.row := ⟨o.instruction.amountMinor.2.1, fun row hrow => absurd hrow List.not_mem_nil⟩
    rw [htable]
    unfold World.afterInsert
    rw [dif_pos (show (Phases.init.store.mark _ _ _ _).settlements.Accepts _ from hacc)]
    exact ⟨_, rfl, rfl⟩
  obtain ⟨row, hrow, hrowOf⟩ := hrows
  have hfree : s.store.redis o'.key = none := by
    rw [hredis]
    simp only [World.mark_redis, Function.update_of_ne hkey]
    rfl
  obtain ⟨t, _, _, ht, -, -, hredis', htable'⟩ :=
    Phases.run_opened free (s := s) (c := 1) (d := (⟨(), o'.body, o'.now⟩ : Delivery Unit))
      (o := o') clock trivial (fun _ _ => trivial) ⟨rfl, rfl⟩ (hcalls 1 (by decide)) hclaim
      hsettled hfree (hfits o' hhops.2)
  have hrefused : ¬ (s.store.mark o'.key .claimed env.claimTtl clock).settlements.Accepts
      o'.row := by
    intro hacc
    refine (hacc.2 row ?_).2 ((congrArg Settlement.packetId hrowOf).trans hid.symm)
    rw [World.mark_settlements, hrow]
    exact List.mem_singleton_self row
  have hreach : Reach (Processors.step env) free Processors.init (t.map Phase.prog) :=
    Phases.reach_processors (hs.trans ht)
  have hmarker : t.store.redis.marker o'.key = some .settled := by
    rw [Redis.marker, hredis']
    simp
  refine ⟨_, hreach, fun hbehind => ?_⟩
  obtain ⟨row', hrow', hkey'⟩ := hbehind.1 hmarker
  rw [State.map_store, htable', World.afterInsert, dif_neg hrefused, World.skipId_rows,
    World.mark_settlements, hrow, List.mem_singleton] at hrow'
  rw [hrow'] at hkey'
  exact hkey (hkey'.symm.trans (congrArg Settlement.idempotencyKey hrowOf))

section SharedId

open Reference (packet sender instant instruction)

/-- A second later. -/
def later : UtcTimestamp := ⟨instant.micros + 1000000, by decide⟩

/-- Two packets with one packet id, signed a second apart. -/
def first : PaymentPacket := packet instruction.packetId sender instant instruction []
def second : PaymentPacket := packet instruction.packetId sender later instruction []

theorem signingBytes_ne : second.signingBytes ≠ first.signingBytes := fun h =>
  absurd (PaymentPacket.signed_eq h).2.2.1 (by decide)

/-- A digest that tells them apart. -/
noncomputable def digest (message : Bytes) : Vector UInt8 32 :=
  if message = first.signingBytes then Vector.replicate 32 0 else Vector.replicate 32 1

/-- The configuration in which every message is signed. -/
noncomputable def sharedId : Env := Reference.env (fun _ => true) digest

theorem key_ne : second.idempotencyKey sharedId.prim ≠ first.idempotencyKey sharedId.prim := by
  intro h
  have hprim : ∀ message, sharedId.prim.sha256 message = digest message := fun _ => rfl
  have hdigest := sha256_of_key h
  rw [hprim, hprim, digest, digest, if_neg signingBytes_ne, if_pos rfl] at hdigest
  exact absurd hdigest (by decide)

/-- A packet up to a second old is fresh. -/
theorem fresh_later {p : PaymentPacket} (hold : p.createdAt = instant ∨ p.createdAt = later) :
    staleness sharedId p later.micros = none := by
  have hage : ageMicros p later.micros = 1000000 ∨ ageMicros p later.micros = 0 := by
    unfold ageMicros
    rcases hold with h | h <;> rw [h]
    · exact .inl (by decide)
    · exact .inr (by decide)
  unfold staleness
  rcases hage with h | h <;> rw [h] <;> rfl

/-- The evidence for both, gathered a second after the first was signed. -/
noncomputable def firstOpened : Opened sharedId :=
  Reference.openedAt later.micros rfl (fresh_later (p := first) (.inl rfl))

noncomputable def secondOpened : Opened sharedId :=
  Reference.openedAt later.micros rfl (fresh_later (p := second) (.inr rfl))

/-- **A marker without a row**: both packets are delivered, nothing fails, and
the second one's marker says settled. -/
theorem marker_unbacked : ¬ ∀ s : Processors Unit,
    Reach (Processors.step sharedId) free Processors.init s →
      RowBehind s (second.idempotencyKey sharedId.prim) := by
  intro hall
  have hclaim : AcceptsEx sharedId.claimTtl later.micros := (by decide : AcceptsEx 60 _)
  have hsettled : AcceptsEx sharedId.settledTtl later.micros := (by decide : AcceptsEx 86400 _)
  have hfirst : firstOpened.packet.packetId = instruction.packetId := rfl
  have hsecond : secondOpened.packet.packetId = instruction.packetId := rfl
  have hid := hsecond.trans hfirst.symm
  have hkey : secondOpened.key ≠ firstOpened.key := key_ne
  have hhops : firstOpened.packet.hops = [] ∧ secondOpened.packet.hops = [] := ⟨rfl, rfl⟩
  obtain ⟨s, hs, hbehind⟩ := unbacked_of_shared_id hclaim hsettled hid hkey hhops
  exact hbehind (hall s hs)

end SharedId

end MeshSettle.Theorems.MarkerBacked
