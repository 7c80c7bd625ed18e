import MeshSettle.Settlement.Processors

/-!
# What backs the settled marker

For one key: a `settled` marker in Redis, a call about to write one, and every
outcome that reports the packet as settled are backed by a row (`Backed`).

The invariant needs one condition on the run. The handler of an
`IntegrityError` takes any refused row for a row of the same packet, so an
insert must not be refused by the packet id of a row with another key
(`CleanInsert`).
-/

namespace MeshSettle

open Lib.Await Lib.Interleave Lib.Transition

/-- The table has a row of this key. -/
def HasKey {ι : Type} (w : World ι) (key : String) : Prop :=
  ∃ row ∈ w.settlements.rows, row.idempotencyKey = key

/-- The table has a row of this packet id. -/
def HasPacket {ι : Type} (w : World ι) (packetId : UUID) : Prop :=
  ∃ row ∈ w.settlements.rows, row.packetId = packetId

/-- The outcome says that the packet of this key is settled: by this call, or
already. -/
def SettlementOutcome.Reports (o : SettlementOutcome) (key : String) : Prop :=
  o.idempotencyKey = some key ∧
    (o.settled = true ∨
      o.code = some .duplicatePacket ∧ o.detail = "packet was already settled")

section Backing

variable {ι : Type} {env : Env}

theorem HasKey.mono {w w' : World ι} {key : String}
    (hrows : w.settlements.rows <+: w'.settlements.rows) (h : HasKey w key) : HasKey w' key := by
  obtain ⟨row, hmem, hkey⟩ := h
  exact ⟨row, hrows.subset hmem, hkey⟩

theorem hasKey_commit (w : World ι) (row : Settlement) (clock : Int) (h) :
    HasKey (w.commit row clock h) row.idempotencyKey :=
  ⟨_, List.mem_append_right _ (List.mem_singleton_self _), rfl⟩

/-- A refused row has its key or its packet id taken. -/
theorem refused_taken {w : World ι} {o : Opened env} (h : ¬ w.settlements.Accepts o.row) :
    HasKey w o.key ∨ HasPacket w o.packet.packetId := by
  by_contra hne
  obtain ⟨hkey, hid⟩ := not_or.mp hne
  refine h ⟨o.instruction.amountMinor.2.1, fun row hrow => ⟨?_, ?_⟩⟩
  · exact fun heq => hkey ⟨row, hrow, heq⟩
  · exact fun heq => hid ⟨row, hrow, heq⟩

/-- What a call with this key must find in the table. -/
def CallBacked (key : String) (w : World ι) :
    Status Exc SettlementOutcome (Phase env) → Prop
  | .running (.marking o _) => o.key = key → HasKey w key
  | .returned o => o.Reports key → HasKey w key
  | _ => True

theorem CallBacked.mono {key : String} {w w' : World ι}
    {status : Status Exc SettlementOutcome (Phase env)}
    (hrows : w.settlements.rows <+: w'.settlements.rows) (h : CallBacked key w status) :
    CallBacked key w' status := by
  unfold CallBacked at h ⊢
  split <;> simp_all [HasKey.mono hrows]

/-- A rejection with another code reports nothing. -/
theorem not_reports {o : SettlementOutcome} {key : String} (hstatus : o.status = .rejected)
    (hcode : o.code ≠ some .duplicatePacket) : ¬ o.Reports key := by
  rintro ⟨-, hsettled | ⟨hdup, -⟩⟩
  · simp [SettlementOutcome.settled, hstatus] at hsettled
  · exact hcode hdup

/-- A refusal before the claim is no duplicate. -/
theorem Refusal.not_duplicate (r : Refusal) : r.outcome.code ≠ some .duplicatePacket := by
  rw [r.coded]
  have hearly := r.early
  revert hearly
  cases r.code <;> decide

/-- Neither is a rejection under the claim. -/
theorem Flawed.not_duplicate (f : Flawed env) : f.outcome.code ≠ some .duplicatePacket := by
  intro hdup
  have hcode : f.code = .duplicatePacket := Option.some.inj hdup
  rcases f.code_cases with h | h
  · cases h.symm.trans hcode
  · cases h.symm.trans hcode

theorem Refusal.not_reports (r : Refusal) (key : String) : ¬ r.outcome.Reports key :=
  MeshSettle.not_reports r.rejected r.not_duplicate

theorem Flawed.not_reports (f : Flawed env) (key : String) : ¬ f.outcome.Reports key :=
  MeshSettle.not_reports rfl f.not_duplicate

theorem internalError_not_reports (a : Admitted env) (key : String) :
    ¬ (internalError env a.packet).Reports key :=
  MeshSettle.not_reports rfl (by simp [internalError, rejected])

/-- A lost claim reports what the marker says. -/
theorem lostOutcome_reports {a : Admitted env} {marker : Option Marker} {key : String}
    (h : (Phase.lostOutcome a marker).Reports key) : marker = some .settled ∧ a.key = key := by
  unfold Phase.lostOutcome at h
  split at h
  · next hm => exact ⟨hm, Option.some.inj h.1⟩
  · obtain ⟨-, hsettled | ⟨-, hdetail⟩⟩ := h
    · cases hsettled
    · have htext : "packet is already being settled by another consumer" =
          "packet was already settled" := hdetail
      exact absurd htext (by decide)

theorem Opened.outcome_reports {o : Opened env} {id : Option Nat} {key : String}
    (h : (o.outcome id).Reports key) : o.key = key := by
  cases id <;> exact Option.some.inj h.1

/-- A marker in Redis is settled only if it was, or if a call wrote it. -/
theorem Advance.marker {mode : Mode} {clock : Int} {w w' : World ι} {ph ph' : Phase env}
    {ev : IoEvent} (h : Advance env mode clock w ph w' ph' ev) {key : String}
    (hmarker : w'.redis.marker key = some .settled) :
    w.redis.marker key = some .settled ∨ ∃ o id, ph = .marking o id ∧ o.key = key := by
  -- claiming and releasing leave no settled marker that was not there before
  have hclaim : ∀ k ttl, (w.mark k .claimed ttl clock).redis.marker key = some .settled →
      w.redis.marker key = some .settled := by
    intro k ttl hm
    by_cases hk : key = k
    · simp [Redis.marker, hk] at hm
    · simpa [Redis.marker, hk] using hm
  have hrelease : ∀ k, (w.release k).redis.marker key = some .settled →
      w.redis.marker key = some .settled := by
    intro k hm
    by_cases hk : key = k
    · simp [Redis.marker, hk] at hm
    · simpa [Redis.marker, hk] using hm
  have hmark : ∀ (o : Opened env) ttl,
      (w.mark o.key .settled ttl clock).redis.marker key = some .settled → o.key ≠ key →
      w.redis.marker key = some .settled := by
    intro o ttl hm hk
    simpa [Redis.marker, Ne.symm hk] using hm
  cases h with
  | refused hw => obtain ⟨rows, rfl⟩ := hw; exact .inl hmarker
  | noted hw => obtain ⟨rows, rfl⟩ := hw; exact .inl hmarker
  | claimWon => exact .inl (hclaim _ _ hmarker)
  | claimFailed _ hw =>
      rcases hw with rfl | ⟨-, rfl⟩
      · exact .inl hmarker
      · exact .inl (hclaim _ _ hmarker)
  | released => exact .inl (hrelease _ hmarker)
  | releaseFailed _ hw =>
      rcases hw with rfl | rfl
      · exact .inl hmarker
      · exact .inl (hrelease _ hmarker)
  | insertFailed _ _ hw => rcases hw with ⟨rfl | rfl, -⟩ | ⟨-, -, _, rfl⟩ <;> exact .inl hmarker
  | @marked o id =>
      by_cases hk : o.key = key
      · exact .inr ⟨o, id, rfl, hk⟩
      · exact .inl (hmark o _ hmarker hk)
  | @markFailed o id w' _ hw =>
      by_cases hk : o.key = key
      · exact .inr ⟨o, id, rfl, hk⟩
      · rcases hw with rfl | rfl
        · exact .inl hmarker
        · exact .inl (hmark o _ hmarker hk)
  | recovered => exact .inl (hrelease _ hmarker)
  | recoverFailed _ hw =>
      rcases hw with rfl | rfl
      · exact .inl hmarker
      · exact .inl (hrelease _ hmarker)
  | _ => exact .inl hmarker

/-- One operation of a call keeps what it must find in the table. -/
theorem Advance.callBacked {mode : Mode} {clock : Int} {w w' : World ι} {ph ph' : Phase env}
    {ev : IoEvent} (h : Advance env mode clock w ph w' ph' ev) {key : String}
    (hmarker : w.redis.marker key = some .settled → HasKey w key)
    (hcall : CallBacked key w (.running ph))
    (hclean : ∀ o, ph = .inserting o → mode = .served → o.row.fits = true → o.key = key →
      HasPacket w o.packet.packetId → HasKey w key) : CallBacked key w' ph'.status := by
  cases h with
  | @refused r => exact fun hr => absurd hr (r.not_reports key)
  | @claimWon a =>
      unfold Phase.claimed
      split
      · trivial
      · split <;> trivial
  | found =>
      intro hr
      obtain ⟨hm, rfl⟩ := lostOutcome_reports hr
      exact hmarker hm
  | @released f => exact fun hr => absurd hr (f.not_reports key)
  | @inserted o hacc =>
      intro hk
      subst hk
      exact hasKey_commit w o.row clock hacc
  | @duplicate o hmode hfits hrefused =>
      -- the row was refused by its own key, or by its packet id alone
      intro hk
      rcases refused_taken hrefused with htaken | htaken
      · exact hk ▸ htaken
      · exact hclean o rfl hmode hfits hk htaken
  | marked => exact fun hr => hcall (Opened.outcome_reports hr)
  | @recovered a => exact fun hr => absurd hr (internalError_not_reports a key)
  | _ => trivial

variable [DecidableEq ι]

/-- One key is backed: its marker, and every call. -/
structure Backed (key : String) (s : Phases ι env) : Prop where
  marker : s.store.redis.marker key = some .settled → HasKey s.store key
  calls : ∀ c call, s.calls c = some call → CallBacked key s.store call.status

/-- An insert with this key that reaches the constraints meets its packet id in
the table only together with the key. -/
def CleanInsert (env : Env) (key : String) (l : ProcessorLabel ι) (s : Processors ι) : Prop :=
  ∀ c clock call row, l = .io c .served clock → s.calls c = some call →
    call.pending (processCode env) = some (.insertSettlement row) → row.fits = true →
    row.idempotencyKey = key → HasPacket s.store row.packetId → HasKey s.store key

/-- **The invariant is kept** by every step whose insert, if it is one, is
clean. -/
theorem Backed.step {key : String} {l : ProcessorLabel ι} {s s' : Phases ι env}
    (hs : Backed key s) (hstep : PhaseStep s l s')
    (hclean : CleanInsert env key l (s.map Phase.prog)) : Backed key s' := by
  have hrows := hstep.rows_grow
  have hold : ∀ c call, s.calls c = some call → CallBacked key s'.store call.status :=
    fun c call hc => (hs.calls c call hc).mono hrows
  cases hstep with
  | @start c d _ =>
      refine ⟨by simpa [Phases.enter, HasKey] using hs.marker,
        (Phases.forall_enter ..).mpr ⟨?_, fun b call _ hb => hold b call hb⟩⟩
      rcases Phase.start_cases env d with ⟨r, h⟩ | ⟨a, -, h⟩ | ⟨e, -, h⟩ <;> rw [h] <;> trivial
  | @io c mode clock d ph ph' log w' ev hc hadv =>
      have hinsert : ∀ o, ph = .inserting o → mode = .served → o.row.fits = true → o.key = key →
          HasPacket s.store o.packet.packetId → HasKey s.store key := by
        rintro o rfl rfl hfits hk
        have hcall := congrArg (Option.map (Call.map Phase.prog)) hc
        refine hclean c clock _ o.row rfl hcall ?_ hfits hk
        rw [Call.pending_map (processCode_same env)]
        rfl
      refine ⟨?_, (Phases.forall_enter ..).mpr ⟨?_, fun b call _ hb => hold b call hb⟩⟩
      · intro hmarker
        simp only [Phases.enter, World.after_redis] at hmarker
        refine HasKey.mono hrows ?_
        rcases Advance.marker hadv hmarker with hm | ⟨o, id, rfl, hk⟩
        · exact hs.marker hm
        · exact hs.calls c _ hc hk
      · have hnew := Advance.callBacked hadv hs.marker (hs.calls c _ hc) hinsert
        exact hnew.mono (by simp [Phases.enter])
  | crash => exact ⟨hs.marker, Phases.forall_crash s _ hold fun _ _ _ _ _ => trivial⟩
  | @disturb e =>
      refine ⟨fun hmarker => HasKey.mono hrows (hs.marker ?_), hold⟩
      cases e with
      | flush => simp [World.disturb, Redis.marker] at hmarker
      | expire k =>
          simp only [World.disturb, Redis.delete, Redis.marker, Function.update_apply] at hmarker
          split at hmarker
          · simp at hmarker
          · exact hmarker

/-- **A key stays backed** in every run whose inserts are clean for it. -/
theorem Phases.backed {key : String} {ok : ProcessorLabel ι → Phases ι env → Prop}
    (hok : ∀ l s, ok l s → CleanInsert env key l (s.map Phase.prog))
    {s : Phases ι env} (h : Reach (Phases.step env) ok Phases.init s) : Backed key s := by
  refine h.invariant ⟨?_, ?_⟩ fun s l s' _ hs hl hstep =>
    hs.step (Phases.step_cases hstep) (hok l s hl)
  · intro hmarker
    cases hmarker
  · intro c call hc
    cases hc

end Backing

end MeshSettle
