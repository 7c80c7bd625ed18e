import MeshSettle.Settlement.Processors

/-!
# Rejections and their texts

Which rejection a delivery gets (`Refused`, `Flawed`), and which rows a call has
tried to add to `rejected_packets` by the time it has ended (`attempted`).
-/

namespace MeshSettle

open Lib.Await Lib.Interleave Lib.Transition
open Lib.Schema (ErrorDetails)

theorem toList_truncate (s : String) : (truncate s).toList = s.toList.take 256 :=
  String.toList_ofList

theorem truncate_truncate (s : String) : truncate (truncate s) = truncate s := by
  rw [truncate, toList_truncate, List.take_take]
  rfl

/-! ## The refusals before the claim -/

section Refusals

variable {ι : Type} {env : Env}

/-- What a refused delivery is refused for. -/
inductive Refused (env : Env) (d : Delivery ι) : Refusal → Prop
  | body {errors : List ErrorDetails} :
      PaymentPacket.modelValidateJson env.pydantic d.body = .error (.invalid errors) →
      Refused env d (refuseBody errors)
  | signature {p : PaymentPacket} {e : Exc} :
      PaymentPacket.modelValidateJson env.pydantic d.body = .ok p →
      p.verify env.prim env.senderPublicKey = .error e →
      Refused env d (refusePacket env p .invalidSignature "packet signature did not verify"
        (by decide))
  | stale {p : PaymentPacket} {code : ErrorCode} {detail : String} :
      PaymentPacket.modelValidateJson env.pydantic d.body = .ok p →
      p.verify env.prim env.senderPublicKey = .ok () →
      (hs : staleness env p d.now = some (code, detail)) →
      Refused env d (refusePacket env p code detail (staleness_early hs))
  | unbound {p : PaymentPacket} :
      PaymentPacket.modelValidateJson env.pydantic d.body = .ok p →
      p.verify env.prim env.senderPublicKey = .ok () → staleness env p d.now = none →
      p.envelope.aad ≠ p.expectedAad →
      Refused env d (refusePacket env p .malformedPayload
        "envelope AAD does not match the packet header" (by decide))

/-- **Inversion of a refusal.** -/
theorem refused_of_start {d : Delivery ι} {r : Refusal}
    (h : Phase.start env d.body d.now = .refusing r) : Refused env d r := by
  unfold Phase.start at h
  split at h
  · cases h
  · next hp =>
      cases h
      exact .body hp
  · next p hp =>
      split at h
      · next hv =>
          cases h
          exact .signature hp hv
      · cases h
      · next hv =>
          split at h
          · next hs =>
              cases h
              exact .stale hp hv hs
          · next hs =>
              split at h
              · cases h
              · next hb =>
                  cases h
                  exact .unbound hp hv hs hb

end Refusals

/-! ## The rejections under the claim -/

/-- A flawed packet is rejected when its claim is won. -/
theorem Flawed.claimed {env : Env} (f : Flawed env) :
    Phase.claimed f.toAdmitted = .rejecting f := by
  obtain ⟨a, code, detail, cause, opened, flaw⟩ := f
  rcases Phase.claimed_cases a with ⟨o, rfl, -⟩ | ⟨g, rfl, h⟩ | ⟨e, he, hnone, -⟩
  · exact absurd (o.opened.symm.trans opened) (by simp)
  · obtain ⟨b, code', detail', cause', opened', flaw'⟩ := g
    rw [h]
    obtain rfl : cause' = cause := Except.error.inj (opened'.symm.trans opened)
    cases flaw'.symm.trans flaw
    rfl
  · obtain rfl : e = cause := Except.error.inj (he.symm.trans opened)
    cases hnone.symm.trans flaw

/-- A flawed packet on a free key, delivered to a first call in which nothing
fails, is rejected. -/
theorem Flawed.run {env : Env} (f : Flawed env) {clock : Int}
    (hclaim : AcceptsEx env.claimTtl clock) :
    ∃ (s : Phases Unit env) (log : List IoEvent), Reach (Phases.step env) free Phases.init s ∧
      s.calls 0 = some ⟨⟨(), f.body, f.now⟩, .returned f.outcome, log⟩ := by
  have hcall : ∀ (s : Phases Unit env) d ph w log,
      (Phases.enter s 0 d ph w log).calls 0 = some ⟨d, ph.status, log⟩ :=
    fun s d ph w log => (Phases.enter_calls ..).trans (if_pos rfl)
  have hfor : f.toAdmitted.For (⟨(), f.body, f.now⟩ : Delivery Unit) := ⟨rfl, rfl⟩
  have hstart : Phases.step env (.start 0 ⟨(), f.body, f.now⟩) Phases.init =
      some (Phases.init.enter 0 ⟨(), f.body, f.now⟩ (.claiming f.toAdmitted) World.empty []) := by
    rw [Phases.step_start _ rfl, hfor.start]
    rfl
  have hclaimed := Phases.step_answer (hcall Phases.init ⟨(), f.body, f.now⟩
    (.claiming f.toAdmitted) World.empty []) rfl (perform_setNx_free .claimed clock hclaim rfl)
  simp only [if_true, f.claimed] at hclaimed
  have hrun : Reach (Phases.step env) free Phases.init _ :=
    .next (.next .start trivial hstart) trivial hclaimed
  have hnoted := hrun.next trivial (Phases.step_io .served clock (hcall _ _ (.rejecting f) _ _) rfl)
  have hreleased := hnoted.next trivial
    (Phases.step_io .served clock (hcall _ _ (.releasing f) _ _) rfl)
  exact ⟨_, _, hreleased, hcall ..⟩

/-! ## The rows that a call has tried to add -/

section Attempts

variable {ι : Type} {env : Env}

/-- The row that an event tried to add. -/
def attempt : IoEvent → Option RejectedPacket
  | ⟨.insertRejection row, _⟩ => some row
  | _ => none

/-- The rows that a call has tried to add. -/
def attempts (log : List IoEvent) : List RejectedPacket := log.filterMap attempt

/-- What a call that has reached a status has tried to record. -/
def Attempted (d : Delivery ι) (log : List IoEvent) :
    Status Exc SettlementOutcome (Phase env) → Prop
  | .running (.recovering _) => True
  | .running (.releasing f) =>
      f.toAdmitted.For d ∧ attempts log = [rejectedRow env f.packet f.code f.detail]
  | .running ph => ph.For d ∧ attempts log = []
  | .returned outcome =>
      (∃ r, Phase.start env d.body d.now = .refusing r ∧ outcome = r.outcome ∧
        attempts log = [r.row]) ∨
      (∃ f : Flawed env, f.toAdmitted.For d ∧ outcome = f.outcome ∧
        attempts log = [rejectedRow env f.packet f.code f.detail]) ∨
      ((outcome.code = none ∨ outcome.code = some .duplicatePacket) ∧ attempts log = []) ∨
      outcome.code = some .internalError
  | _ => True

theorem attempted_claimed {d : Delivery ι} {a : Admitted env} {log : List IoEvent} (ha : a.For d)
    (hlog : attempts log = []) : Attempted d log (Phase.claimed a).status := by
  rcases Phase.claimed_cases a with ⟨o, rfl, h⟩ | ⟨f, rfl, h⟩ | ⟨e, -, -, h⟩
  · rw [h]
    exact ⟨ha, hlog⟩
  · rw [h]
    exact ⟨ha, hlog⟩
  · rw [h]
    trivial

theorem lostOutcome_code (a : Admitted env) (marker : Option Marker) :
    (Phase.lostOutcome a marker).code = some .duplicatePacket := by
  unfold Phase.lostOutcome
  split <;> rfl

theorem written_code (o : Opened env) (id : Option Nat) :
    (o.outcome id).code = none ∨ (o.outcome id).code = some .duplicatePacket := by
  cases id with
  | none => exact .inr rfl
  | some id => exact .inl rfl

theorem attempted_advance {d : Delivery ι} {ph ph' : Phase env} {log : List IoEvent} {mode : Mode}
    {clock : Int} {w w' : World ι} {ev : IoEvent} (h : Attempted d log (.running ph))
    (hadv : Advance env mode clock w ph w' ph' ev) : Attempted d (ev :: log) ph'.status := by
  cases hadv with
  | refused =>
      obtain ⟨hfor, hlog⟩ := h
      exact .inl ⟨_, hfor, rfl, congrArg (List.cons _) hlog⟩
  | claimWon => exact attempted_claimed h.1 h.2
  | claimLost => exact h
  | claimFailed => trivial
  | found => exact .inr (.inr (.inl ⟨.inr (lostOutcome_code _ _), h.2⟩))
  | lookFailed => trivial
  | noted =>
      obtain ⟨hfor, hlog⟩ := h
      exact ⟨hfor, congrArg (List.cons _) hlog⟩
  | released => exact .inr (.inl ⟨_, h.1, rfl, h.2⟩)
  | releaseFailed => trivial
  | inserted => exact h
  | duplicate => exact h
  | insertFailed => trivial
  | marked => exact .inr (.inr (.inl ⟨written_code _ _, h.2⟩))
  | markFailed => trivial
  | recovered => exact .inr (.inr (.inr rfl))
  | recoverFailed => trivial

end Attempts

/-- **What every call has tried to record**, in every run. -/
theorem attempted {ι : Type} [DecidableEq ι] {env : Env}
    {ok : ProcessorLabel ι → Phases ι env → Prop} {s : Phases ι env}
    (h : Reach (Phases.step env) ok Phases.init s) {c : Nat} {call : PhaseCall ι env}
    (hc : s.calls c = some call) : Attempted call.tag call.log call.status := by
  refine Phases.calls_invariant (fun d status log => Attempted d log status) ?_ ?_ ?_ h c call hc
  · intro d
    rcases Phase.start_cases env d with ⟨r, hr⟩ | ⟨a, ha, hr⟩ | ⟨e, -, hr⟩
    · rw [hr]
      exact ⟨hr, rfl⟩
    · rw [hr]
      exact ⟨ha, rfl⟩
    · rw [hr]
      trivial
  · intro d ph log mode clock w w' ph' ev hP hadv
    exact attempted_advance hP hadv
  · intro d ph log _
    trivial

end MeshSettle
