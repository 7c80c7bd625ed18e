import MeshSettle.Settlement.Phase

/-!
# What one step can do

`Advance` lists, phase by phase, what the pending operation of a call does to
the services and where it takes the call; `PhaseStep` lists the steps of the
whole system. Both are inversions of the executable `step`
(`advance_of_answer`, `step_cases`): invariants are proved by cases on them
and never unfold the pipeline.
-/

namespace MeshSettle

open Lib.Await Lib.Interleave Lib.Transition

/-! ## Changes of the services -/

namespace World

variable {ι : Type}

/-- A key is set. -/
def mark (w : World ι) (key : String) (value : Marker) (ex clock : Int) : World ι :=
  { w with redis := Function.update w.redis key (some ⟨value, clock + ex * 1000000⟩) }

/-- A key is deleted. -/
def release (w : World ι) (key : String) : World ι := { w with redis := w.redis.delete key }

/-- A row is committed. -/
def commit (w : World ι) (row : Settlement) (clock : Int) (h : w.settlements.Accepts row) :
    World ι :=
  { w with settlements := w.settlements.commit row clock h }

/-- A row is refused by a constraint. -/
def skipId (w : World ι) : World ι := { w with settlements := w.settlements.skipId }

/-- A rejection is recorded, or not. -/
def Noted (w w' : World ι) : Prop :=
  ∃ rows, w' = { w with rejected := w.rejected ++ rows }

section Fields

variable (w : World ι) (key : String) (value : Marker) (ex clock : Int) (row : Settlement)

@[simp] theorem mark_redis : (w.mark key value ex clock).redis =
    Function.update w.redis key (some ⟨value, clock + ex * 1000000⟩) := rfl
@[simp] theorem mark_settlements :
    (w.mark key value ex clock).settlements = w.settlements := rfl
@[simp] theorem mark_metrics : (w.mark key value ex clock).metrics = w.metrics := rfl
@[simp] theorem release_redis : (w.release key).redis = Function.update w.redis key none := rfl
@[simp] theorem release_settlements : (w.release key).settlements = w.settlements := rfl
@[simp] theorem release_metrics : (w.release key).metrics = w.metrics := rfl
@[simp] theorem commit_redis (h) : (w.commit row clock h).redis = w.redis := rfl
@[simp] theorem commit_metrics (h) : (w.commit row clock h).metrics = w.metrics := rfl
@[simp] theorem commit_rows (h) : (w.commit row clock h).settlements.rows =
    w.settlements.rows ++
      [{ row with id := w.settlements.nextId, settledAt := clock }] := rfl
@[simp] theorem commit_nextId (h) :
    (w.commit row clock h).settlements.nextId = w.settlements.nextId + 1 := rfl
@[simp] theorem skipId_redis : w.skipId.redis = w.redis := rfl
@[simp] theorem skipId_rows : w.skipId.settlements.rows = w.settlements.rows := rfl
@[simp] theorem skipId_nextId : w.skipId.settlements.nextId = w.settlements.nextId + 1 := rfl
@[simp] theorem skipId_metrics : w.skipId.metrics = w.metrics := rfl

end Fields

theorem Noted.refl (w : World ι) : Noted w w := ⟨[], by simp⟩

@[simp] theorem recordOutcome_redis [DecidableEq ι] (d : Delivery ι) (o : SettlementOutcome)
    (w : World ι) : (w.recordOutcome d o).redis = w.redis := rfl

@[simp] theorem recordOutcome_settlements [DecidableEq ι] (d : Delivery ι)
    (o : SettlementOutcome) (w : World ι) :
    (w.recordOutcome d o).settlements = w.settlements := rfl

end World

/-! ## One operation of a call -/

/-- An operation with the answer its caller saw. -/
abbrev IoEvent := Event Op Resp Exc

/-- A call to Redis or Postgres that failed and ended the normal course. A
rejection row that could not be stored is not missed, and a refusal by a
constraint is an answer. -/
def CutShort : IoEvent → Prop
  | ⟨.insertRejection _, _⟩ => False
  | ⟨_, .error .integrityError⟩ => False
  | ⟨_, .error _⟩ => True
  | ⟨_, .ok _⟩ => False

/-- What a failed insert leaves: nothing, a consumed id, or, when only the reply
was lost, the row. -/
def InsertLeft {ι : Type} (mode : Mode) (clock : Int) (w : World ι) (row : Settlement)
    (w' : World ι) : Prop :=
  ((w' = w ∨ w' = w.skipId) ∧
      (mode = .lost → ¬ (row.fits = true ∧ w.settlements.Accepts row))) ∨
    mode = .lost ∧ row.fits = true ∧ ∃ h, w' = w.commit row clock h

/-- What the pending operation of a call can do. A failed operation changes
nothing, or, when only its reply was lost, what it would have changed. -/
inductive Advance {ι : Type} (env : Env) (mode : Mode) (clock : Int) (w : World ι) :
    Phase env → World ι → Phase env → IoEvent → Prop
  | refused {r : Refusal} {w'} {ans} : w.Noted w' →
      Advance env mode clock w (.refusing r) w' (.ended r.outcome) ⟨.insertRejection r.row, ans⟩
  | claimWon {a : Admitted env} : mode = .served → AcceptsEx env.claimTtl clock →
      w.redis a.key = none →
      Advance env mode clock w (.claiming a) (w.mark a.key .claimed env.claimTtl clock)
        (.claimed a) ⟨.setNx a.key .claimed env.claimTtl, .ok true⟩
  | claimLost {a : Admitted env} : mode = .served → AcceptsEx env.claimTtl clock →
      w.redis a.key ≠ none →
      Advance env mode clock w (.claiming a) w (.looking a)
        ⟨.setNx a.key .claimed env.claimTtl, .ok false⟩
  | claimFailed {a : Admitted env} {w'} : (mode = .served → ¬ AcceptsEx env.claimTtl clock) →
      (w' = w ∨ w.redis a.key = none ∧ w' = w.mark a.key .claimed env.claimTtl clock) →
      Advance env mode clock w (.claiming a) w' (.failed .infrastructure)
        ⟨.setNx a.key .claimed env.claimTtl, .error .infrastructure⟩
  | found {a : Admitted env} : mode = .served →
      Advance env mode clock w (.looking a) w (.ended (Phase.lostOutcome a (w.redis.marker a.key)))
        ⟨.get a.key, .ok (w.redis.marker a.key)⟩
  | lookFailed {a : Admitted env} : mode ≠ .served →
      Advance env mode clock w (.looking a) w (.failed .infrastructure)
        ⟨.get a.key, .error .infrastructure⟩
  | noted {f : Flawed env} {w'} {ans} : w.Noted w' →
      Advance env mode clock w (.rejecting f) w' (.releasing f)
        ⟨.insertRejection (rejectedRow env f.packet f.code f.detail), ans⟩
  | released {f : Flawed env} : mode = .served →
      Advance env mode clock w (.releasing f) (w.release f.key) (.ended f.outcome)
        ⟨.delete f.key, .ok ()⟩
  | releaseFailed {f : Flawed env} {w'} : mode ≠ .served → (w' = w ∨ w' = w.release f.key) →
      Advance env mode clock w (.releasing f) w' (.recovering f.toAdmitted)
        ⟨.delete f.key, .error .infrastructure⟩
  | inserted {o : Opened env} (h : w.settlements.Accepts o.row) : mode = .served →
      o.row.fits = true →
      Advance env mode clock w (.inserting o) (w.commit o.row clock h)
        (.marking o (some w.settlements.nextId))
        ⟨.insertSettlement o.row, .ok w.settlements.nextId⟩
  | duplicate {o : Opened env} : mode = .served → o.row.fits = true →
      ¬ w.settlements.Accepts o.row →
      Advance env mode clock w (.inserting o) w.skipId (.marking o none)
        ⟨.insertSettlement o.row, .error .integrityError⟩
  | insertFailed {o : Opened env} {w'} {e} : e ≠ .integrityError →
      (mode = .served → o.row.fits = false) → InsertLeft mode clock w o.row w' →
      Advance env mode clock w (.inserting o) w' (.recovering o.toAdmitted)
        ⟨.insertSettlement o.row, .error e⟩
  | marked {o : Opened env} {id} : mode = .served → AcceptsEx env.settledTtl clock →
      Advance env mode clock w (.marking o id) (w.mark o.key .settled env.settledTtl clock)
        (.ended (o.outcome id)) ⟨.set o.key .settled env.settledTtl, .ok ()⟩
  | markFailed {o : Opened env} {id} {w'} : (mode = .served → ¬ AcceptsEx env.settledTtl clock) →
      (w' = w ∨ w' = w.mark o.key .settled env.settledTtl clock) →
      Advance env mode clock w (.marking o id) w' (.recovering o.toAdmitted)
        ⟨.set o.key .settled env.settledTtl, .error .infrastructure⟩
  | recovered {a : Admitted env} : mode = .served →
      Advance env mode clock w (.recovering a) (w.release a.key)
        (.ended (internalError env a.packet)) ⟨.delete a.key, .ok ()⟩
  | recoverFailed {a : Admitted env} {w'} : mode ≠ .served → (w' = w ∨ w' = w.release a.key) →
      Advance env mode clock w (.recovering a) w' (.failed .infrastructure)
        ⟨.delete a.key, .error .infrastructure⟩

section Answers

variable {ι : Type} [DecidableEq ι] (mode : Mode) (clock : Int) (w : World ι)

theorem answer_insertRejection (row : RejectedPacket) :
    w.Noted (platform.answer mode (.insertRejection row) clock w).1 := by
  have hperform : w.Noted (perform (.insertRejection row) clock w).1 := by
    unfold perform
    dsimp only
    split
    · exact ⟨[⟨row, clock⟩], rfl⟩
    · exact World.Noted.refl w
  cases mode with
  | served => exact hperform
  | refused => exact World.Noted.refl w
  | lost => exact hperform

theorem answer_setNx (key : String) (value : Marker) (ex : Int) :
    let r := platform.answer mode (.setNx key value ex) clock w
    (r = (w.mark key value ex clock, .ok true) ∧ mode = .served ∧ AcceptsEx ex clock ∧
      w.redis key = none) ∨
    (r = (w, .ok false) ∧ mode = .served ∧ AcceptsEx ex clock ∧ w.redis key ≠ none) ∨
    (r.2 = .error .infrastructure ∧ (mode = .served → ¬ AcceptsEx ex clock) ∧
      (r.1 = w ∨ w.redis key = none ∧ r.1 = w.mark key value ex clock)) := by
  have hperform : ∀ r, perform (.setNx key value ex) clock w = r →
      (AcceptsEx ex clock ∧ w.redis key = none ∧ r = (w.mark key value ex clock, .ok true)) ∨
      (AcceptsEx ex clock ∧ w.redis key ≠ none ∧ r = (w, .ok false)) ∨
      (¬ AcceptsEx ex clock ∧ r = (w, .error .infrastructure)) := by
    rintro r rfl
    unfold perform Redis.setNx
    dsimp only
    split
    · next hex =>
        cases hk : w.redis key with
        | none => exact .inl ⟨hex, rfl, rfl⟩
        | some e => exact .inr (.inl ⟨hex, by simp, rfl⟩)
    · next hex => exact .inr (.inr ⟨hex, rfl⟩)
  intro r
  cases mode with
  | served =>
      rcases hperform r rfl with ⟨hex, hk, hr⟩ | ⟨hex, hk, hr⟩ | ⟨hex, hr⟩
      · exact .inl ⟨hr, rfl, hex, hk⟩
      · exact .inr (.inl ⟨hr, rfl, hex, hk⟩)
      · exact .inr (.inr ⟨by rw [hr], fun _ => hex, .inl (by rw [hr])⟩)
  | refused => exact .inr (.inr ⟨rfl, by simp, .inl rfl⟩)
  | lost =>
      refine .inr (.inr ⟨rfl, by simp, ?_⟩)
      rcases hperform _ rfl with ⟨-, hk, hr⟩ | ⟨-, -, hr⟩ | ⟨-, hr⟩
      · exact .inr ⟨hk, congrArg Prod.fst hr⟩
      · exact .inl (congrArg Prod.fst hr)
      · exact .inl (congrArg Prod.fst hr)

theorem answer_set (key : String) (value : Marker) (ex : Int) :
    let r := platform.answer mode (.set key value ex) clock w
    (r = (w.mark key value ex clock, .ok ()) ∧ mode = .served ∧ AcceptsEx ex clock) ∨
    (r.2 = .error .infrastructure ∧ (mode = .served → ¬ AcceptsEx ex clock) ∧
      (r.1 = w ∨ r.1 = w.mark key value ex clock)) := by
  have hperform :
      (AcceptsEx ex clock ∧
        perform (.set key value ex) clock w = (w.mark key value ex clock, .ok ())) ∨
      (¬ AcceptsEx ex clock ∧
        perform (.set key value ex) clock w = (w, .error .infrastructure)) := by
    unfold perform Redis.set
    dsimp only
    split
    · next hex => exact .inl ⟨hex, rfl⟩
    · next hex => exact .inr ⟨hex, rfl⟩
  intro r
  cases mode with
  | served =>
      rcases hperform with ⟨hex, hr⟩ | ⟨hex, hr⟩
      · exact .inl ⟨hr, rfl, hex⟩
      · exact .inr ⟨congrArg Prod.snd hr, fun _ => hex, .inl (congrArg Prod.fst hr)⟩
  | refused => exact .inr ⟨rfl, by simp, .inl rfl⟩
  | lost =>
      rcases hperform with ⟨-, hr⟩ | ⟨-, hr⟩
      · exact .inr ⟨rfl, by simp, .inr (congrArg Prod.fst hr)⟩
      · exact .inr ⟨rfl, by simp, .inl (congrArg Prod.fst hr)⟩

theorem answer_get (key : String) :
    let r := platform.answer mode (.get key) clock w
    (r = (w, .ok (w.redis.marker key)) ∧ mode = .served) ∨
    (r = (w, .error .infrastructure) ∧ mode ≠ .served) := by
  cases mode with
  | served => exact .inl ⟨rfl, rfl⟩
  | refused => exact .inr ⟨rfl, by simp⟩
  | lost => exact .inr ⟨rfl, by simp⟩

theorem answer_delete (key : String) :
    let r := platform.answer mode (.delete key) clock w
    (r = (w.release key, .ok ()) ∧ mode = .served) ∨
    (r.2 = .error .infrastructure ∧ mode ≠ .served ∧ (r.1 = w ∨ r.1 = w.release key)) := by
  cases mode with
  | served => exact .inl ⟨rfl, rfl⟩
  | refused => exact .inr ⟨rfl, by simp, .inl rfl⟩
  | lost => exact .inr ⟨rfl, by simp, .inr rfl⟩

theorem answer_insertSettlement (row : Settlement) :
    let r := platform.answer mode (.insertSettlement row) clock w
    (mode = .served ∧ row.fits = true ∧
      ∃ h, r = (w.commit row clock h, .ok w.settlements.nextId)) ∨
    (mode = .served ∧ row.fits = true ∧ ¬ w.settlements.Accepts row ∧
      r = (w.skipId, .error .integrityError)) ∨
    ((∃ e, r.2 = .error e ∧ e ≠ .integrityError) ∧ (mode = .served → row.fits = false) ∧
      InsertLeft mode clock w row r.1) := by
  have hperform : ∀ r, perform (.insertSettlement row) clock w = r →
      (row.fits = true ∧ ∃ h, r = (w.commit row clock h, .ok w.settlements.nextId)) ∨
      (row.fits = true ∧ ¬ w.settlements.Accepts row ∧ r = (w.skipId, .error .integrityError)) ∨
      (row.fits = false ∧ r = (w, .error .dataError)) := by
    rintro r rfl
    unfold perform SettlementTable.insert
    dsimp only
    by_cases hf : row.fits = true
    · by_cases ha : w.settlements.Accepts row
      · exact .inl ⟨hf, ha, by simp [hf, ha, World.commit]⟩
      · exact .inr (.inl ⟨hf, ha, by simp [hf, ha, World.skipId]⟩)
    · exact .inr (.inr ⟨by simpa using hf, by simp [hf]⟩)
  intro r
  cases mode with
  | served =>
      rcases hperform r rfl with ⟨hf, h, hr⟩ | ⟨hf, ha, hr⟩ | ⟨hf, hr⟩
      · exact .inl ⟨rfl, hf, h, hr⟩
      · exact .inr (.inl ⟨rfl, hf, ha, hr⟩)
      · exact .inr (.inr ⟨⟨_, congrArg Prod.snd hr, by simp⟩, fun _ => hf,
          .inl ⟨.inl (congrArg Prod.fst hr), by simp⟩⟩)
  | refused =>
      exact .inr (.inr ⟨⟨_, rfl, by simp [platform]⟩, by simp, .inl ⟨.inl rfl, by simp⟩⟩)
  | lost =>
      refine .inr (.inr ⟨⟨_, rfl, by simp [platform]⟩, by simp, ?_⟩)
      rcases hperform _ rfl with ⟨hf, h, hr⟩ | ⟨hf, ha, hr⟩ | ⟨hf, hr⟩
      · exact .inr ⟨rfl, hf, h, congrArg Prod.fst hr⟩
      · exact .inl ⟨.inr (congrArg Prod.fst hr), fun _ h => ha h.2⟩
      · exact .inl ⟨.inl (congrArg Prod.fst hr), fun _ h => by simp [hf] at h⟩

end Answers

/-- **Inversion of an operation.** Whatever the pending operation of a phase
is answered, the call advances as listed. -/
theorem advance_of_answer {ι : Type} [DecidableEq ι] {env : Env} {ph : Phase env} {op : Op}
    {k : Except Exc (Resp op) → Phase env} (hview : ph.view = .await op k) (mode : Mode)
    (clock : Int) (w : World ι) :
    Advance env mode clock w ph (platform.answer mode op clock w).1
      (k (platform.answer mode op clock w).2) ⟨op, (platform.answer mode op clock w).2⟩ := by
  cases ph with
  | refusing r =>
      cases hview
      exact .refused (answer_insertRejection mode clock w r.row)
  | claiming a =>
      cases hview
      rcases answer_setNx mode clock w a.key .claimed env.claimTtl with
        ⟨hr, hm, hex, hk⟩ | ⟨hr, hm, hex, hk⟩ | ⟨hr, hm, hw⟩
      · rw [hr]; exact .claimWon hm hex hk
      · rw [hr]; exact .claimLost hm hex hk
      · rw [hr]; exact .claimFailed hm hw
  | looking a =>
      cases hview
      rcases answer_get mode clock w a.key with ⟨hr, hm⟩ | ⟨hr, hm⟩
      · rw [hr]; exact .found hm
      · rw [hr]; exact .lookFailed hm
  | rejecting f =>
      cases hview
      exact .noted (answer_insertRejection mode clock w _)
  | releasing f =>
      cases hview
      rcases answer_delete mode clock w f.key with ⟨hr, hm⟩ | ⟨hr, hm, hw⟩
      · rw [hr]; exact .released hm
      · rw [hr]; exact .releaseFailed hm hw
  | inserting o =>
      cases hview
      rcases answer_insertSettlement mode clock w o.row with
        ⟨hm, hf, h, hr⟩ | ⟨hm, hf, ha, hr⟩ | ⟨⟨e, hr, he⟩, hm, hw⟩
      · rw [hr]; exact .inserted h hm hf
      · rw [hr]; exact .duplicate hm hf ha
      · rw [hr]
        cases e with
        | integrityError => exact absurd rfl he
        | _ => exact .insertFailed he hm hw
  | marking o id =>
      cases hview
      rcases answer_set mode clock w o.key .settled env.settledTtl with
        ⟨hr, hm, hex⟩ | ⟨hr, hm, hw⟩
      · rw [hr]; exact .marked hm hex
      · rw [hr]; exact .markFailed hm hw
  | recovering a =>
      cases hview
      rcases answer_delete mode clock w a.key with ⟨hr, hm⟩ | ⟨hr, hm, hw⟩
      · rw [hr]; exact .recovered hm
      · rw [hr]; exact .recoverFailed hm hw
  | ended outcome => cases hview
  | failed e => cases hview

/-- An operation leads where the delivery can lead. -/
theorem Advance.for {ι : Type} {env : Env} {mode : Mode} {clock : Int} {w w' : World ι}
    {ph ph' : Phase env} {ev : IoEvent} {d : Delivery ι}
    (h : Advance env mode clock w ph w' ph' ev) (hfor : ph.For d) : ph'.For d := by
  cases h with
  | refused => exact .refused hfor
  | claimWon => exact Phase.claimed_for hfor
  | claimLost => exact hfor
  | found => exact .lost _ hfor
  | noted => exact hfor
  | released => exact .flawed hfor
  | releaseFailed => exact hfor
  | inserted => exact hfor
  | duplicate => exact hfor
  | insertFailed => exact hfor
  | marked => exact .written _ hfor
  | markFailed => exact hfor
  | recovered => exact .internal hfor
  | claimFailed => trivial
  | lookFailed => trivial
  | recoverFailed => trivial

/-- An operation leaves the rows alone, or commits the row of an opened packet. -/
theorem Advance.rows {ι : Type} {env : Env} {mode : Mode} {clock : Int} {w w' : World ι}
    {ph ph' : Phase env} {ev : IoEvent} (h : Advance env mode clock w ph w' ph' ev) :
    w'.settlements.rows = w.settlements.rows ∨
      ∃ o : Opened env, ∃ hacc, ph = .inserting o ∧ w' = w.commit o.row clock hacc := by
  cases h with
  | inserted hacc => exact .inr ⟨_, hacc, rfl, rfl⟩
  | insertFailed _ _ hw =>
      rcases hw with ⟨rfl | rfl, -⟩ | ⟨-, -, hacc, rfl⟩
      · exact .inl rfl
      · exact .inl rfl
      · exact .inr ⟨_, hacc, rfl, rfl⟩
  | refused hw => obtain ⟨rows, rfl⟩ := hw; exact .inl rfl
  | noted hw => obtain ⟨rows, rfl⟩ := hw; exact .inl rfl
  | claimFailed _ hw => rcases hw with rfl | ⟨-, rfl⟩ <;> exact .inl rfl
  | releaseFailed _ hw => rcases hw with rfl | rfl <;> exact .inl rfl
  | markFailed _ hw => rcases hw with rfl | rfl <;> exact .inl rfl
  | recoverFailed _ hw => rcases hw with rfl | rfl <;> exact .inl rfl
  | _ => exact .inl rfl

/-- An operation touches the key of its own packet only. -/
theorem Advance.redis_frame {ι : Type} {env : Env} {mode : Mode} {clock : Int} {w w' : World ι}
    {ph ph' : Phase env} {ev : IoEvent} (h : Advance env mode clock w ph w' ph' ev)
    {d : Delivery ι} (hfor : ph.For d) {key : String}
    (hother : ∀ a : Admitted env, a.For d → a.key ≠ key) : w'.redis key = w.redis key := by
  have hmark : ∀ (a : Admitted env) value ttl, a.For d →
      (w.mark a.key value ttl clock).redis key = w.redis key :=
    fun a _ _ ha => Function.update_of_ne (hother a ha).symm _ _
  have hrelease : ∀ a : Admitted env, a.For d → (w.release a.key).redis key = w.redis key :=
    fun a ha => Function.update_of_ne (hother a ha).symm _ _
  cases h with
  | refused hw => obtain ⟨rows, rfl⟩ := hw; rfl
  | noted hw => obtain ⟨rows, rfl⟩ := hw; rfl
  | claimWon => exact hmark _ _ _ hfor
  | claimFailed _ hw =>
      rcases hw with rfl | ⟨-, rfl⟩
      · rfl
      · exact hmark _ _ _ hfor
  | released => exact hrelease _ hfor
  | releaseFailed _ hw =>
      rcases hw with rfl | rfl
      · rfl
      · exact hrelease _ hfor
  | insertFailed _ _ hw => rcases hw with ⟨rfl | rfl, -⟩ | ⟨-, -, _, rfl⟩ <;> rfl
  | marked => exact hmark _ _ _ hfor
  | markFailed _ hw =>
      rcases hw with rfl | rfl
      · rfl
      · exact hmark _ _ _ hfor
  | recovered => exact hrelease _ hfor
  | recoverFailed _ hw =>
      rcases hw with rfl | rfl
      · rfl
      · exact hrelease _ hfor
  | _ => rfl

/-- An operation does not touch the counters. -/
theorem Advance.metrics {ι : Type} {env : Env} {mode : Mode} {clock : Int} {w w' : World ι}
    {ph ph' : Phase env} {ev : IoEvent} (h : Advance env mode clock w ph w' ph' ev) :
    w'.metrics = w.metrics := by
  cases h with
  | insertFailed _ _ hw => rcases hw with ⟨rfl | rfl, -⟩ | ⟨-, -, _, rfl⟩ <;> rfl
  | refused hw => obtain ⟨rows, rfl⟩ := hw; rfl
  | noted hw => obtain ⟨rows, rfl⟩ := hw; rfl
  | claimFailed _ hw => rcases hw with rfl | ⟨-, rfl⟩ <;> rfl
  | releaseFailed _ hw => rcases hw with rfl | rfl <;> rfl
  | markFailed _ hw => rcases hw with rfl | rfl <;> rfl
  | recoverFailed _ hw => rcases hw with rfl | rfl <;> rfl
  | _ => rfl

/-! ## Operations that are served -/

section Served

variable {ι : Type} [DecidableEq ι]

theorem perform_setNx_free {w : World ι} {key : String} (value : Marker) {ex : Int} (clock : Int)
    (hex : AcceptsEx ex clock) (hfree : w.redis key = none) :
    platform.answer .served (.setNx key value ex) clock w =
      (w.mark key value ex clock, .ok true) := by
  show perform (.setNx key value ex) clock w = _
  simp only [perform, Redis.setNx, if_pos hex, hfree]
  rfl

theorem perform_setNx_taken {w : World ι} {key : String} (value : Marker) {ex : Int} (clock : Int)
    (hex : AcceptsEx ex clock) (htaken : w.redis key ≠ none) :
    platform.answer .served (.setNx key value ex) clock w = (w, .ok false) := by
  show perform (.setNx key value ex) clock w = _
  obtain ⟨entry, hentry⟩ := Option.ne_none_iff_exists'.mp htaken
  simp only [perform, Redis.setNx, if_pos hex, hentry]

theorem perform_set (w : World ι) (key : String) (value : Marker) {ex : Int} (clock : Int)
    (hex : AcceptsEx ex clock) : platform.answer .served (.set key value ex) clock w =
      (w.mark key value ex clock, .ok ()) := by
  show perform (.set key value ex) clock w = _
  simp only [perform, Redis.set, if_pos hex]
  rfl

/-- A SET that Redis takes is done, also when its reply is lost. -/
theorem answer_set_done {mode : Mode} (hmode : mode ≠ .refused) (w : World ι) (key : String)
    (value : Marker) {ex : Int} (clock : Int) (hex : AcceptsEx ex clock) :
    ∃ r, platform.answer mode (.set key value ex) clock w = (w.mark key value ex clock, r) := by
  have hperform : perform (.set key value ex) clock w = (w.mark key value ex clock, .ok ()) :=
    perform_set w key value clock hex
  cases mode with
  | refused => exact absurd rfl hmode
  | served => exact ⟨_, hperform⟩
  | lost => exact ⟨_, congrArg (fun r => (r.1, Except.error platform.fault)) hperform⟩

theorem perform_insert {w : World ι} {row : Settlement} (clock : Int) (hfits : row.fits = true)
    (hacc : w.settlements.Accepts row) :
    platform.answer .served (.insertSettlement row) clock w =
      (w.commit row clock hacc, .ok w.settlements.nextId) := by
  show perform (.insertSettlement row) clock w = _
  simp only [perform, SettlementTable.insert, hfits, if_true, dif_pos hacc]
  rfl

theorem perform_insert_refused {w : World ι} {row : Settlement} (clock : Int)
    (hfits : row.fits = true) (hacc : ¬ w.settlements.Accepts row) :
    platform.answer .served (.insertSettlement row) clock w =
      (w.skipId, .error .integrityError) := by
  show perform (.insertSettlement row) clock w = _
  simp only [perform, SettlementTable.insert, hfits, if_true, dif_neg hacc]
  rfl

end Served

end MeshSettle
