import MeshSettle.Settlement.Reference
import MeshSettle.Settlement.Serving

/-!
# At most once

Whatever is delivered, lost, flushed or crashed, the table keeps its rows and
its uniqueness, and one key is reported SETTLED at most once.

The Redis gate plays no part in the argument. A call that commits a row holds
the row's id as a *ticket* until it reports it; ids are fresh, so tickets are
never shared (`Tickets`), and two calls that report one key would hold tickets
of two rows of one key.
-/

namespace MeshSettle.Theorems.AtMostOnce

open Lib.Await Lib.Interleave Lib.Transition

variable {ι : Type} {env : Env}

/-- The id and key of the row a call has committed and not given up. -/
def ticket : Status Exc SettlementOutcome (Phase env) → Option (Nat × String)
  | .running (.marking o (some id)) => some (id, o.key)
  | .returned o =>
      match o.settled, o.settlementId, o.idempotencyKey with
      | true, some id, some key => some (id, key)
      | _, _, _ => none
  | _ => none

/-- A row that has a given id and key. -/
def HasRow (w : World ι) (id : Nat) (key : String) : Prop :=
  ∃ row ∈ w.settlements.rows, row.id = id ∧ row.idempotencyKey = key

/-- Every ticket is for a committed row, and no two calls share one. -/
structure Tickets (s : Phases ι env) : Prop where
  backed : ∀ c call id key, s.calls c = some call → ticket call.status = some (id, key) →
    HasRow s.store id key
  unshared : ∀ c c' call call' id key key', s.calls c = some call → s.calls c' = some call' →
    ticket call.status = some (id, key) → ticket call'.status = some (id, key') → c = c'

/-- A rejection holds no ticket. -/
theorem ticket_rejected {o : SettlementOutcome} (h : o.status = .rejected) :
    ticket (.returned o : Status Exc SettlementOutcome (Phase env)) = none := by
  simp [ticket, SettlementOutcome.settled, h]

theorem lostOutcome_rejected (a : Admitted env) (marker : Option Marker) :
    (Phase.lostOutcome a marker).status = .rejected := by
  unfold Phase.lostOutcome
  split <;> rfl

/-- A ticket is taken by committing a row, and kept or given up afterwards. -/
theorem Advance.ticket {mode : Mode} {clock : Int} {w w' : World ι} {ph ph' : Phase env}
    {ev : IoEvent} (h : Advance env mode clock w ph w' ph' ev) :
    ticket ph'.status = none ∨ ticket ph'.status = ticket (.running ph) ∨
      ∃ o : Opened env, ∃ hacc, ph = .inserting o ∧ w' = w.commit o.row clock hacc ∧
        ticket ph'.status = some (w.settlements.nextId, o.key) := by
  cases h with
  | inserted hacc => exact .inr (.inr ⟨_, hacc, rfl, rfl, rfl⟩)
  | @marked o id =>
      cases id with
      | none => exact .inl rfl
      | some id => exact .inr (.inl rfl)
  | @refused r => exact .inl (ticket_rejected r.rejected)
  | found => exact .inl (ticket_rejected (lostOutcome_rejected _ _))
  | @claimWon a =>
      left
      unfold Phase.claimed
      split
      · rfl
      · split <;> rfl
  | _ => exact .inl rfl

theorem start_ticket (d : Delivery ι) :
    ticket (Phase.start env d.body d.now).status = none := by
  rcases Phase.start_cases env d with ⟨r, h⟩ | ⟨a, -, h⟩ | ⟨e, -, h⟩ <;> rw [h] <;> rfl

theorem HasRow.mono {w w' : World ι} (h : w.settlements.rows <+: w'.settlements.rows) {id : Nat}
    {key : String} (hrow : HasRow w id key) : HasRow w' id key := by
  obtain ⟨row, hmem, hid⟩ := hrow
  exact ⟨row, h.subset hmem, hid⟩

/-- A SETTLED outcome reports the row the call has a ticket for. -/
theorem Verdict.ticket {d : Delivery ι} {o : SettlementOutcome} {key : String}
    (h : Verdict env d o) (hsettled : o.settled = true) (hkey : o.idempotencyKey = some key) :
    ∃ id, ticket (.returned o : Status Exc SettlementOutcome (Phase env)) = some (id, key) := by
  have hnot : o.status = .rejected → False := by
    intro hr
    simp [SettlementOutcome.settled, hr] at hsettled
  cases h with
  | @refused r _ => exact absurd r.rejected hnot
  | lost marker _ => exact absurd (lostOutcome_rejected _ _) hnot
  | flawed _ => exact absurd rfl hnot
  | internal _ => exact absurd rfl hnot
  | @written op id _ =>
      cases id with
      | none => exact absurd rfl hnot
      | some id => exact ⟨id, by cases hkey; rfl⟩

variable [DecidableEq ι]

/-- A new status of one call: its ticket is an old one of the same call, or new
and for a row that is there, and no other call has it. -/
theorem Tickets.enter {s : Phases ι env} (hs : Tickets s) {c : Nat} {d : Delivery ι}
    {ph : Phase env} {w : World ι} {log : List IoEvent}
    (hrows : s.store.settlements.rows <+: w.settlements.rows)
    (hbacked : ∀ id key, ticket ph.status = some (id, key) → HasRow w id key)
    (hown : ∀ id key, ticket ph.status = some (id, key) → ∀ b call key', b ≠ c →
      s.calls b = some call → ticket call.status ≠ some (id, key')) :
    Tickets (s.enter c d ph w log) where
  backed := by
    intro b call id key hb ht
    simp only [Phases.enter, Function.update_apply] at hb
    have hrow : HasRow w id key := by
      split at hb
      · cases hb; exact hbacked id key ht
      · exact (hs.backed b call id key hb ht).mono hrows
    obtain ⟨row, hmem, hid⟩ := hrow
    exact ⟨row, by simpa [Phases.enter] using hmem, hid⟩
  unshared := by
    intro b b' call call' id key key' hb hb' ht ht'
    simp only [Phases.enter, Function.update_apply] at hb hb'
    split at hb
    · next hbc =>
        split at hb'
        · next hbc' => rw [hbc, hbc']
        · next hbc' =>
            cases hb
            exact absurd ht' (hown id key ht b' call' key' hbc' hb')
    · next hbc =>
        split at hb'
        · cases hb'
          exact absurd ht (hown id key' ht' b call key hbc hb)
        · exact hs.unshared b b' call call' id key key' hb hb' ht ht'

/-- Tickets survive every step. -/
theorem Tickets.step {l : ProcessorLabel ι} {s s' : Phases ι env} (hs : Tickets s)
    (hstep : PhaseStep s l s') : Tickets s' := by
  have hrows := hstep.rows_grow
  cases hstep with
  | @start c d hc =>
      refine hs.enter (List.prefix_refl _) ?_ ?_
      · intro id key ht
        rw [start_ticket] at ht
        cases ht
      · intro id key ht
        rw [start_ticket] at ht
        cases ht
  | @io c mode clock d ph ph' log w' ev hc hadv =>
      simp only [Phases.enter, World.after_settlements] at hrows
      -- an operation drops the ticket, keeps it, or draws one by an accepted insert
      rcases Advance.ticket hadv with h | h | ⟨o, hacc, rfl, rfl, h⟩
      · exact hs.enter hrows (by simp [h]) (by simp [h])
      · refine hs.enter hrows ?_ ?_
        · intro id key ht
          exact (hs.backed c _ id key hc (h ▸ ht)).mono hrows
        · intro id key ht b call key' hbc hb ht'
          exact hbc (hs.unshared b c call _ id key' key hb hc ht' (h ▸ ht))
      · refine hs.enter hrows ?_ ?_
        · intro id key ht
          obtain ⟨rfl, rfl⟩ := Prod.mk.inj (Option.some.inj (h.symm.trans ht))
          exact ⟨_, List.mem_append_right _ (List.mem_singleton_self _), rfl, rfl⟩
        · -- the id is fresh, so no other call can hold a ticket with it
          intro id key ht b call key' hbc hb ht'
          obtain ⟨rfl, rfl⟩ := Prod.mk.inj (Option.some.inj (h.symm.trans ht))
          obtain ⟨row, hmem, hid, -⟩ := hs.backed b call _ key' hb ht'
          exact absurd hid (Nat.ne_of_lt (s.store.settlements.ids_lt row hmem))
  | @crash host =>
      -- a crash takes tickets away and hands out none
      have hcall : ∀ c call, (s.calls c).map (Call.crashOn platform host) = some call →
          ∃ old, s.calls c = some old ∧
            ∀ id key, ticket call.status = some (id, key) → ticket old.status = some (id, key) := by
        intro c call hc
        obtain ⟨old, hold, rfl⟩ := Option.map_eq_some_iff.mp hc
        refine ⟨old, hold, fun id key ht => ?_⟩
        rcases Call.crashOn_cases platform host old with h | ⟨ph, -, -, h⟩
        · rwa [h] at ht
        · rw [h] at ht; cases ht
      refine ⟨?_, ?_⟩
      · intro c call id key hc ht
        obtain ⟨old, hold, himp⟩ := hcall c call hc
        exact hs.backed c old id key hold (himp id key ht)
      · intro c c' call call' id key key' hc hc' ht ht'
        obtain ⟨old, hold, himp⟩ := hcall c call hc
        obtain ⟨old', hold', himp'⟩ := hcall c' call' hc'
        exact hs.unshared c c' old old' id key key' hold hold' (himp id key ht)
          (himp' id key' ht')
  | disturb =>
      exact ⟨fun c call id key hc ht => (hs.backed c call id key hc ht).mono hrows, hs.unshared⟩

/-- Tickets are sound in every run. -/
theorem tickets {ok : ProcessorLabel ι → Phases ι env → Prop} {s : Phases ι env}
    (h : Reach (Phases.step env) ok Phases.init s) : Tickets s := by
  refine h.invariant (P := Tickets) ⟨?_, ?_⟩ fun s l s' _ hs _ hstep =>
    hs.step (Phases.step_cases hstep)
  · intro c call id key hc
    cases hc
  · intro c c' call call' id key key' hc
    cases hc

/-- The calls that returned SETTLED for a key. -/
def SettledCalls (s : Processors ι) (key : String) : Set Nat :=
  {c | ∃ call o, s.calls c = some call ∧ call.status = .returned o ∧ o.settled = true ∧
    o.idempotencyKey = some key}

/-- **At most once.** In every reachable state of any number of processors:
one row for each key, one row for each packet id, rows that no later step
changes or removes, and at most one SETTLED outcome for each key. -/
theorem at_most_once {s : Processors ι}
    (h : Reach (Processors.step env) free Processors.init s) :
    (s.store.settlements.rows.map fun row => row.idempotencyKey).Nodup ∧
    (s.store.settlements.rows.map fun row => row.packetId).Nodup ∧
    (∀ l s', Processors.step env l s = some s' →
      s.store.settlements.rows <+: s'.store.settlements.rows) ∧
    ∀ key, (SettledCalls s key).Subsingleton := by
  obtain ⟨t, rfl, ht⟩ := Processors.reach_phases h
  refine ⟨t.store.settlements.uqIdempotencyKey, t.store.settlements.uqPacketId, ?_, ?_⟩
  · intro l s' hs
    obtain ⟨t', rfl, ht'⟩ := Processors.step_phases hs
    exact (Phases.step_cases ht').rows_grow
  · rintro key c ⟨call, o, hc, hstatus, hsettled, hkey⟩ c' ⟨call', o', hc', hstatus',
      hsettled', hkey'⟩
    obtain ⟨hcall, hverdict⟩ := Processors.returned_phases ht hc hstatus
    obtain ⟨hcall', hverdict'⟩ := Processors.returned_phases ht hc' hstatus'
    obtain ⟨id, hid⟩ := Verdict.ticket hverdict hsettled hkey
    obtain ⟨id', hid'⟩ := Verdict.ticket hverdict' hsettled' hkey'
    -- two rows of one key are one row, so the two tickets are one ticket
    obtain ⟨row, hrow, rfl, hrowkey⟩ := (tickets ht).backed c _ id key hcall hid
    obtain ⟨row', hrow', rfl, hrowkey'⟩ := (tickets ht).backed c' _ id' key hcall' hid'
    have hsame : row = row' := List.inj_on_of_nodup_map t.store.settlements.uqIdempotencyKey
      hrow hrow' (hrowkey.trans hrowkey'.symm)
    subst hsame
    exact (tickets ht).unshared c c' _ _ row.id key key hcall hcall' hid hid'

/-- Call 0 crashes with the claim, Redis is flushed, call 1 settles the packet,
and call 2 is a second copy. -/
theorem settled_after_crash {o : Opened env} {clock : Int} (hclaim : AcceptsEx env.claimTtl clock)
    (hsettled : AcceptsEx env.settledTtl clock) (hfits : o.row.fits = true) :
    ∃ s : Phases Unit env, Reach (Phases.step env) free Phases.init s ∧
      (∃ call, s.calls 0 = some call ∧ call.status = .crashed) ∧
      (∃ call, s.calls 1 = some call ∧ call.status = .returned (settledOutcome env o.packet 0)) ∧
      ∃ call, s.calls 2 = some call ∧ call.status = .returned (alreadySettled env o.packet) := by
  let d : Delivery Unit := ⟨(), o.body, o.now⟩
  have ho : o.toAdmitted.For d := ⟨rfl, rfl⟩
  obtain ⟨s₀, hs₀, hcall₀, hothers₀, hstore₀⟩ := Phases.run_claimed free (s := Phases.init) (c := 0)
    (o := o) clock trivial (fun _ _ => trivial) ho rfl hclaim rfl
  -- the processor crashes, and Redis loses the claim
  let wiped : Phases Unit env := ⟨s₀.store.disturb .flush,
    fun c => (s₀.calls c).map (Call.crashOn platform ())⟩
  have hwiped : Reach (Phases.step env) free Phases.init wiped :=
    .next (.next hs₀ trivial (l := .crash ()) rfl) trivial (l := .disturb .flush) rfl
  have hcrashed : ∃ call, wiped.calls 0 = some call ∧ call.status = .crashed :=
    ⟨_, congrArg (Option.map (Call.crashOn platform ())) hcall₀, rfl⟩
  have hnew : ∀ c, c ≠ 0 → wiped.calls c = none := fun c hc =>
    congrArg (Option.map (Call.crashOn platform ())) (hothers₀ c hc)
  have hempty : wiped.store.settlements = SettlementTable.empty :=
    congrArg World.settlements hstore₀
  -- the payment is settled by call 1, and refused by call 2
  obtain ⟨s₁, hs₁, hcall₁, hothers₁, hstore₁⟩ := Phases.run_process free (s := wiped) (c := 1)
    (d := d) (fun _ => .served) (fun _ => clock) trivial (fun _ _ _ => trivial) (hnew 1 (by decide))
  obtain ⟨hresult₁, hmarker₁, -⟩ := processAlone_settles ho (fun _ => clock) hclaim
    hsettled (w := wiped.store) rfl hfits (o.accepted (congrArg SettlementTable.rows hempty))
  obtain ⟨s₂, hs₂, hcall₂, hothers₂, -⟩ := Phases.run_process free (s := s₁) (c := 2)
    (d := d) (fun _ => .served) (fun _ => clock) trivial (fun _ _ _ => trivial)
    ((hothers₁ 2 (by decide)).trans (hnew 2 (by decide)))
  obtain ⟨hresult₂, -⟩ := processAlone_lost ho (fun _ => clock) hclaim
    (w := s₁.store) (by rw [hstore₁]; exact hmarker₁)
  rw [hresult₁, hempty] at hcall₁
  rw [hresult₂] at hcall₂
  refine ⟨s₂, (hwiped.trans hs₁).trans hs₂, ?_,
    ⟨_, (hothers₂ 1 (by decide)).trans hcall₁, rfl⟩, ⟨_, hcall₂, rfl⟩⟩
  rw [hothers₂ 0 (by decide), hothers₁ 0 (by decide)]
  exact hcrashed

/-- Across a crash, a flush and a second copy, one call reports the reference
payment. -/
theorem at_most_once_settled : ∃ s : Processors Unit,
    (∃ call, s.calls 0 = some call ∧ call.status = .crashed) ∧
    (∃ call, s.calls 2 = some call ∧
      call.status = .returned (alreadySettled Reference.onePayment Reference.payment)) ∧
    1 ∈ SettledCalls s Reference.key ∧ (SettledCalls s Reference.key).Subsingleton ∧
    (s.store.settlements.rows.map fun row => row.idempotencyKey).Nodup := by
  obtain ⟨s, hs, hcrashed, hsettled, hduplicate⟩ := settled_after_crash (o := Reference.opened)
    Reference.acceptsEx_claim Reference.acceptsEx_settled Reference.fits_row
  obtain ⟨call, hcall, hstatus⟩ := Phases.status_prog hsettled
  obtain ⟨hkeys, -, -, honce⟩ := at_most_once (Phases.reach_processors hs)
  exact ⟨s.map Phase.prog, Phases.status_prog hcrashed, Phases.status_prog hduplicate,
    ⟨call, _, hcall, hstatus, rfl, rfl⟩, honce _, hkeys⟩

end MeshSettle.Theorems.AtMostOnce
