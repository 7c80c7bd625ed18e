import MeshSettle.Settlement.Columns
import MeshSettle.Settlement.Reference
import MeshSettle.Settlement.Rejections

/-!
# Rejections leave durable evidence

A rejected call records one row, best effort: a failure to store it is
swallowed. With Postgres at work the row is missing exactly when Postgres
refuses its text, and the only text that is not the service's own quotes the
body: the first validation error, or the exception about the instruction.

`log` holds what a call has performed, so `added` lists the rows it has added
to the table; `rejections_recorded` also says that the table has no others.
-/

namespace MeshSettle.Theorems.Evidence

open Lib.Await Lib.Interleave Lib.Transition
open Lib.Schema

/-! ## Rows and the calls that add them -/

/-- The row that an event added. -/
def addedRow : IoEvent → Option RejectedPacket
  | ⟨.insertRejection row, .ok _⟩ => some row
  | _ => none

/-- The rows that a call has added. -/
def added (log : List IoEvent) : List RejectedPacket := log.filterMap addedRow

/-- The codes of the rejections that are recorded. -/
def recordedCodes : List ErrorCode :=
  [.malformedPayload, .invalidSignature, .packetExpired, .packetNotYetValid, .decryptionFailed]

/-- A call to Postgres. -/
def ToPostgres : Op → Prop
  | .insertSettlement _ => True
  | .insertRejection _ => True
  | _ => False

section Statement

variable {ι : Type} [DecidableEq ι]

/-- Postgres is reachable: it serves what the step asks of it. -/
def PostgresUp (env : Env) (l : ProcessorLabel ι) (s : Processors ι) : Prop :=
  ∀ c mode clock ev, l = .io c mode clock → Processors.performed env l s = some ev →
    ToPostgres ev.1 → mode = .served

/-- The call has added exactly one row, with this code, and with the key and the
id of the packet if the body has one. -/
def Recorded (env : Env) (d : Delivery ι) (code : ErrorCode) (log : List IoEvent) : Prop :=
  ∃ row, added log = [row] ∧ row.reason = code.value ∧
    ∀ p, PaymentPacket.modelValidateJson env.pydantic d.body = .ok p →
      row.idempotencyKey = some (p.idempotencyKey env.prim) ∧ row.packetId = some p.packetId

/-- The texts about a body that its rejection quotes: the place and the message
of the first validation error, or what the exception says about the
instruction. -/
inductive Quoted (env : Env) (d : Delivery ι) : String → Prop
  | body {first : ErrorDetails} {rest : List ErrorDetails} :
      PaymentPacket.modelValidateJson env.pydantic d.body = .error (.invalid (first :: rest)) →
      Quoted env d ((if ".".intercalate (first.loc.map Loc.text) = "" then "packet"
        else ".".intercalate (first.loc.map Loc.text)) ++ ": " ++ first.msg)
  | instructionText {a : Admitted env} {msg : String} : a.For d →
      a.packet.opened env = .error (.valueError msg) → Quoted env d msg
  | instructionErrors {a : Admitted env} {title : String} {errors : List ErrorDetails} : a.For d →
      a.packet.opened env = .error (.validationError title errors) →
      Quoted env d (env.pydantic.errorText title errors)

/-- The text has no U+0000 among the characters that are kept of it. -/
def Storable (text : String) : Prop := '\x00' ∉ text.toList.take 256

end Statement

/-! ## Which rows fit -/

theorem storable_truncate (s : String) : storable 256 (truncate s) = true ↔ Storable s := by
  have hlength : (truncate s).length ≤ 256 := by
    rw [← String.length_toList, toList_truncate, List.length_take]
    omega
  simp only [storable, hlength, decide_true, Bool.true_and, List.all_eq_true, toList_truncate,
    decide_eq_true_eq, Storable]
  exact ⟨fun h hnul => h _ hnul rfl, fun h c hc hnul => h (hnul ▸ hc)⟩

/-- A rejection row fits exactly when its text does. -/
theorem rejection_fits (code : ErrorCode) (detail : String) {key : Option String}
    (hkey : key.all (storable 80) = true) (packetId : Option UUID) :
    (rejection code detail key packetId).fits = true ↔ Storable detail := by
  have hreason : storable 32 code.value = true := by cases code <;> decide
  simp only [RejectedPacket.fits, rejection, hkey, hreason, Bool.true_and, storable_truncate]

theorem rejectedRow_fits (env : Env) (p : PaymentPacket) (code : ErrorCode) (detail : String) :
    (rejectedRow env p code detail).fits = true ↔ Storable detail := by
  have hkey : (some (p.idempotencyKey env.prim)).all (storable 80) = true :=
    storable_key env.prim p.signingBytes
  exact rejection_fits code detail hkey _

/-- Texts without U+0000 are storable, however long. -/
theorem storable_of_clean {text : String} (h : '\x00' ∉ text.toList) : Storable text :=
  fun hnul => h (List.mem_of_mem_take hnul)

theorem intText_clean (n : Int) : '\x00' ∉ (toString n).toList := by
  have hdigits : ∀ m, '\x00' ∉ Nat.toDigits 10 m := by
    intro m hm
    have hdigit := Nat.isDigit_of_mem_toDigits (by decide) (by decide) hm
    revert hdigit
    decide
  show '\x00' ∉ Lib.Document.intText n
  rw [Lib.Document.intText_eq]
  split
  · exact hdigits _
  · intro h
    rcases List.mem_cons.mp h with heq | hm
    · revert heq
      decide
    · exact hdigits _ hm

/-- What is said of a packet outside its window can be stored. -/
theorem staleness_clean {env : Env} {p : PaymentPacket} {now : Int} {code : ErrorCode}
    {detail : String} (h : staleness env p now = some (code, detail)) : Storable detail := by
  have happend : ∀ {s t : String}, '\x00' ∉ s.toList → '\x00' ∉ t.toList →
      '\x00' ∉ (s ++ t).toList := by
    intro s t hs ht hnul
    rw [String.toList_append] at hnul
    exact (List.mem_append.mp hnul).elim hs ht
  unfold staleness at h
  dsimp only at h
  split at h
  · cases h
    exact storable_of_clean (happend (happend (happend (happend (by decide) (intText_clean _))
      (by decide)) (intText_clean _)) (by decide))
  · split at h
    · cases h
      exact storable_of_clean (happend (happend (happend (happend (by decide) (intText_clean _))
        (by decide)) (intText_clean _)) (by decide))
    · cases h

/-! ## What a refusal quotes -/

section Refusals

variable {ι : Type} {env : Env}

/-- The refusal of a body quotes its first error, if there is one. -/
theorem refuseBody_fits {d : Delivery ι} {errors : List ErrorDetails}
    (h : PaymentPacket.modelValidateJson env.pydantic d.body = .error (.invalid errors)) :
    (refuseBody errors).row.fits = true ↔ ∀ text, Quoted env d text → Storable text := by
  have hquoted : ∀ text, Quoted env d text → ∃ first rest, errors = first :: rest ∧
      text = (if ".".intercalate (first.loc.map Loc.text) = "" then "packet"
        else ".".intercalate (first.loc.map Loc.text)) ++ ": " ++ first.msg := by
    rintro text (⟨hbody⟩ | ⟨ha, -⟩ | ⟨ha, -⟩)
    · cases h.symm.trans hbody
      exact ⟨_, _, rfl, rfl⟩
    · exact absurd (ha.1 ▸ Admitted.parsed _) (by rw [h]; simp)
    · exact absurd (ha.1 ▸ Admitted.parsed _) (by rw [h]; simp)
  rw [refuseBody]
  cases errors with
  | nil =>
      rw [rejection_fits _ _ rfl]
      refine iff_of_true (storable_of_clean (by decide)) fun text htext => ?_
      obtain ⟨_, _, hnil, -⟩ := hquoted text htext
      cases hnil
  | cons first rest =>
      rw [rejection_fits _ _ rfl, ← storable_truncate]
      dsimp only [summarizeValidationError]
      rw [truncate_truncate, storable_truncate]
      constructor
      · intro hstorable text htext
        obtain ⟨_, _, hcons, rfl⟩ := hquoted text htext
        cases hcons
        exact hstorable
      · intro hall
        exact hall _ (.body h)

/-- The refusal of a flawed packet quotes what the exception says. -/
theorem flawed_fits {d : Delivery ι} {f : Flawed env} (hf : f.toAdmitted.For d) :
    (rejectedRow env f.packet f.code f.detail).fits = true ↔
      ∀ text, Quoted env d text → Storable text := by
  have hbody : ∀ errors, PaymentPacket.modelValidateJson env.pydantic d.body ≠
      .error (.invalid errors) := by
    intro errors herr
    rw [← hf.1, f.parsed] at herr
    cases herr
  have hcause : ∀ text, Quoted env d text → f.cause = .valueError text ∨
      ∃ title errors, f.cause = .validationError title errors ∧
        text = env.pydantic.errorText title errors := by
    rintro text (⟨herr⟩ | ⟨ha, hopen⟩ | ⟨ha, hopen⟩)
    · exact absurd herr (hbody _)
    · rw [ha.unique hf] at hopen
      exact .inl (Except.error.inj (f.opened.symm.trans hopen))
    · rw [ha.unique hf] at hopen
      exact .inr ⟨_, _, Except.error.inj (f.opened.symm.trans hopen), rfl⟩
  have hopened := f.opened
  have hflaw := f.flaw
  rw [rejectedRow_fits]
  generalize f.code = code at hflaw
  generalize f.detail = detail at hflaw
  generalize f.cause = cause at hflaw hopened hcause
  cases cause with
  | decryptionError msg =>
      cases hflaw
      refine iff_of_true (storable_of_clean (by decide)) fun text htext => ?_
      rcases hcause text htext with heq | ⟨_, _, heq, -⟩ <;> cases heq
  | valueError msg =>
      cases hflaw
      rw [← storable_truncate, truncate_truncate, storable_truncate]
      refine ⟨fun hmsg text htext => ?_, fun hall => hall _ (.instructionText hf hopened)⟩
      rcases hcause text htext with heq | ⟨_, _, heq, -⟩
      · cases heq
        exact hmsg
      · cases heq
  | validationError title errors =>
      cases hflaw
      rw [← storable_truncate, truncate_truncate, storable_truncate]
      refine ⟨fun hmsg text htext => ?_, fun hall => hall _ (.instructionErrors hf hopened)⟩
      rcases hcause text htext with heq | ⟨_, _, heq, rfl⟩
      · cases heq
      · cases heq
        exact hmsg
  | _ => cases hflaw

end Refusals

/-! ## The rows that a call has tried to add -/

section Attempts

variable {ι : Type} {env : Env}

/-- One row that was tried is the record exactly when it fits. -/
theorem recorded_of_attempt {d : Delivery ι} {code : ErrorCode} {log : List IoEvent}
    {row : RejectedPacket} (hadded : added log = (attempts log).filter RejectedPacket.fits)
    (hattempts : attempts log = [row]) (hreason : row.reason = code.value)
    (hpacket : ∀ p, PaymentPacket.modelValidateJson env.pydantic d.body = .ok p →
      row.idempotencyKey = some (p.idempotencyKey env.prim) ∧ row.packetId = some p.packetId) :
    Recorded env d code log ↔ row.fits = true := by
  rw [hattempts] at hadded
  constructor
  · rintro ⟨row', hrow, -⟩
    rw [hrow] at hadded
    have hmem : row' ∈ [row].filter RejectedPacket.fits := hadded ▸ List.mem_singleton_self row'
    obtain ⟨heq, hfits⟩ := List.mem_filter.mp hmem
    exact List.mem_singleton.mp heq ▸ hfits
  · intro hfits
    exact ⟨row, by rw [hadded, List.filter_singleton, hfits]; rfl, hreason, hpacket⟩

/-- A packet refused by a check on its header quotes nothing. -/
theorem recorded_header {d : Delivery ι} {p : PaymentPacket} {r : Refusal} {code : ErrorCode}
    {detail : String} {log : List IoEvent}
    (hp : PaymentPacket.modelValidateJson env.pydantic d.body = .ok p)
    (hstart : Phase.start env d.body d.now = .refusing r)
    (hadded : added log = (attempts log).filter RejectedPacket.fits)
    (hattempts : attempts log = [rejectedRow env p code detail]) (hstorable : Storable detail) :
    Recorded env d code log ↔ ∀ text, Quoted env d text → Storable text := by
  refine (recorded_of_attempt hadded hattempts rfl fun q hq => ?_).trans ?_
  · cases hp.symm.trans hq
    exact ⟨rfl, rfl⟩
  · refine iff_of_true ((rejectedRow_fits env p code detail).mpr hstorable) fun text htext => ?_
    rcases htext with ⟨herr⟩ | ⟨ha, -⟩ | ⟨ha, -⟩
    · cases hp.symm.trans herr
    · cases ha.start.symm.trans hstart
    · cases ha.start.symm.trans hstart

/-- A recorded rejection, by what the call has tried to add. -/
theorem recorded_iff {d : Delivery ι} {outcome : SettlementOutcome} {log : List IoEvent}
    {code : ErrorCode} (h : @Attempted ι env d log (.returned outcome))
    (hadded : added log = (attempts log).filter RejectedPacket.fits)
    (hcode : code ∈ recordedCodes) (houtcome : outcome.code = some code) :
    Recorded env d code log ↔ ∀ text, Quoted env d text → Storable text := by
  rcases h with ⟨r, hstart, rfl, hattempts⟩ | ⟨f, hf, rfl, hattempts⟩ | ⟨hother, -⟩ | hother
  · cases refused_of_start hstart with
    | body hbody =>
        cases houtcome
        rw [← refuseBody_fits hbody]
        refine recorded_of_attempt hadded hattempts rfl fun p hp => ?_
        cases hbody.symm.trans hp
    | signature hp _ =>
        cases houtcome
        exact recorded_header hp hstart hadded hattempts (storable_of_clean (by decide))
    | stale hp _ hs =>
        cases houtcome
        exact recorded_header hp hstart hadded hattempts (staleness_clean hs)
    | unbound hp _ _ _ =>
        cases houtcome
        exact recorded_header hp hstart hadded hattempts (storable_of_clean (by decide))
  · cases houtcome
    rw [← flawed_fits hf]
    refine recorded_of_attempt hadded hattempts rfl fun p hp => ?_
    rw [← hf.1, f.parsed] at hp
    cases hp
    exact ⟨rfl, rfl⟩
  · rw [houtcome] at hother
    rcases hother with hnone | hduplicate
    · cases hnone
    · cases hduplicate
      exact absurd hcode (by decide)
  · rw [houtcome] at hother
    cases hother
    exact absurd hcode (by decide)

/-- A duplicate has nothing to record. -/
theorem added_duplicate {d : Delivery ι} {outcome : SettlementOutcome} {log : List IoEvent}
    (h : @Attempted ι env d log (.returned outcome))
    (hadded : added log = (attempts log).filter RejectedPacket.fits)
    (houtcome : outcome.code = some .duplicatePacket) : added log = [] := by
  rcases h with ⟨r, -, rfl, -⟩ | ⟨f, -, rfl, -⟩ | ⟨-, hattempts⟩ | hother
  · have hearly := r.early
    rw [Option.some.inj (r.coded.symm.trans houtcome)] at hearly
    exact absurd hearly (by decide)
  · have hflawed := f.code_cases
    rw [Option.some.inj houtcome] at hflawed
    exact absurd hflawed (by decide)
  · rw [hadded, hattempts]
    rfl
  · rw [houtcome] at hother
    cases hother

end Attempts

/-! ## A packet with one member more -/

section Tagged

variable {env : Env}

/-- A packet's document with a member that no packet has. -/
def tagged (p : PaymentPacket) (name : String) : Json :=
  .obj [("packet_id", .str p.packetId.str), ("sender_id", .str p.senderId.1),
    ("created_at", .str (canonicalTimestamp p.createdAt)), ("envelope", p.envelope.toJson),
    ("signature", .str (b64uEncode p.signature)), ("hops", .arr (p.hops.map HopRecord.toJson)),
    (name, .null)]

/-- What is said of the member. -/
def forbidden (name : String) : ErrorDetails :=
  ⟨[.field name], "extra_forbidden", "Extra inputs are not permitted", .null⟩

theorem validate_tagged {py : Pydantic} (h : py.ReadsBack) (p : PaymentPacket) {name : String}
    (hname : name ∉ ["packet_id", "sender_id", "created_at", "envelope", "signature", "hops"]) :
    PaymentPacket.modelValidateJson py (document (tagged p name)) =
      .error (.invalid [forbidden name]) := by
  have hhops : readHops py (.arr (p.hops.map HopRecord.toJson)) = .ok p.hops :=
    items_map p.hops (fun hop _ => hop.validate_toJson h) 0
  have hnodup : (["packet_id", "sender_id", "created_at", "envelope", "signature", "hops"] ++
      [name]).Nodup :=
    List.nodup_append'.mpr ⟨by decide, List.nodup_singleton name,
      List.disjoint_singleton.mpr hname⟩
  have hsimple : Lib.Document.Simple 8 (tagged p name) := by
    have hmembers := p.toJson_simple
    simp only [PaymentPacket.toJson, Lib.Document.Simple, Lib.Document.SimpleMembers] at hmembers
    rw [tagged, Lib.Document.Simple]
    refine ⟨by decide, hnodup, ?_⟩
    simp [Lib.Document.Simple, Lib.Document.SimpleMembers, hmembers]
  simp only [List.mem_cons, List.not_mem_nil, or_false, not_or] at hname
  obtain ⟨h1, h2, h3, h4, h5, h6⟩ := hname
  have hextra : (forbidExtra ["packet_id", "sender_id", "created_at", "envelope", "signature",
      "hops"] [("packet_id", .str p.packetId.str), ("sender_id", .str p.senderId.1),
      ("created_at", .str (canonicalTimestamp p.createdAt)), ("envelope", p.envelope.toJson),
      ("signature", .str (b64uEncode p.signature)), ("hops", .arr (p.hops.map HopRecord.toJson)),
      (name, .null)] : Checked Exc Unit) = .error (.invalid [forbidden name]) := by
    rw [forbidExtra, dict_of_nodup (by exact hnodup)]
    simp [List.filter, forbidden, h1, h2, h3, h4, h5, h6]
  rw [PaymentPacket.modelValidateJson, h.json _ hsimple]
  unfold tagged PaymentPacket.validate object
  dsimp only
  rw [both_error (field_ok (by simp [lookup, h1]) (readUuid_str h p.packetId))
    (both_error (field_ok (by simp [lookup, h2]) (readIdentifier_str p.senderId))
      (both_error (field_ok (by simp [lookup, h3]) (readUtc_canonical h p.createdAt))
        (both_error (field_ok (by simp [lookup, h4]) p.envelope.validate_toJson)
          (both_error (field_ok (by simp [lookup, h5])
              (readBytes_b64u (show signatureIsEd25519Sized p.signature =
                .ok ⟨_, p.signature_length⟩ from dif_pos p.signature_length)))
            (both_error (fieldOr_ok (by simp [lookup, h6]) hhops) hextra)))))]
  rfl

/-- A refused delivery runs to its end. -/
theorem refused_run {d : Delivery Unit} {r : Refusal}
    (h : Phase.start env d.body d.now = .refusing r) :
    ∃ (s : Phases Unit env) (log : List IoEvent), Reach (Phases.step env)
      (fun l s => PostgresUp env l (s.map Phase.prog)) Phases.init s ∧
      s.calls 0 = some ⟨d, .returned r.outcome, log⟩ := by
  let entered : Phases Unit env := Phases.init.enter 0 d (.refusing r) World.empty []
  have hstart : Phases.step env (.start 0 d) Phases.init = some entered := by
    rw [Phases.step_start d rfl, h]
    rfl
  have hcall : entered.calls 0 = some ⟨d, .running (.refusing r), []⟩ :=
    (Phases.enter_calls ..).trans (if_pos rfl)
  have hio := Phases.step_io .served 0 hcall rfl
  refine ⟨_, _, .next (.next .start ?_ hstart) ?_ hio, (Phases.enter_calls ..).trans (if_pos rfl)⟩
  · rintro c mode clock ev hl
    cases hl
  · rintro c mode clock ev hl - -
    cases hl
    rfl

/-- A body that is no packet is refused. -/
theorem start_invalid {rawBody : Bytes} {errors : List ErrorDetails} (now : Int)
    (h : PaymentPacket.modelValidateJson env.pydantic rawBody = .error (.invalid errors)) :
    Phase.start env rawBody now = .refusing (refuseBody errors) := by
  unfold Phase.start
  split
  · next hp => cases h.symm.trans hp
  · next hp =>
      cases h.symm.trans hp
      rfl
  · next hp => cases h.symm.trans hp

end Tagged

/-! ## The rows of a run -/

section Runs

variable {ι : Type} [DecidableEq ι] {env : Env}

/-- With Postgres up, an attempt succeeds exactly when its row fits. -/
theorem addedRow_performed {s : Phases ι env} {l : ProcessorLabel ι} {ev : IoEvent}
    (hup : PostgresUp env l (s.map Phase.prog)) (h : Phases.performed env l s = some ev) :
    addedRow ev = (attempt ev).filter RejectedPacket.fits := by
  cases l with
  | io c mode clock =>
      have hserved := hup c mode clock ev rfl ((Processors.performed_phases _ _).trans h)
      simp only [Phases.performed, Lib.Interleave.performed, Option.map_eq_some_iff] at h
      obtain ⟨op, -, rfl⟩ := h
      cases op with
      | insertRejection row =>
          obtain rfl := hserved trivial
          show addedRow ⟨_, (perform (.insertRejection row) clock s.store).2⟩ = _
          cases hfits : row.fits with
          | true => simp [perform, hfits, addedRow, attempt, Option.filter]
          | false => simp [perform, hfits, addedRow, attempt, Option.filter]
      | _ => rfl
  | _ => cases h

theorem added_eq {s : Phases ι env} (h : Reach (Phases.step env)
    (fun l s => PostgresUp env l (s.map Phase.prog)) Phases.init s) {c : Nat}
    {call : PhaseCall ι env} (hc : s.calls c = some call) :
    added call.log = (attempts call.log).filter RejectedPacket.fits := by
  have hall : ∀ ev ∈ call.log, addedRow ev = (attempt ev).filter RejectedPacket.fits := by
    refine h.invariant (P := fun s : Phases ι env => ∀ c call, s.calls c = some call →
      ∀ ev ∈ call.log, addedRow ev = (attempt ev).filter RejectedPacket.fits) ?_ ?_ c call hc
    · intro c call hc
      cases hc
    · intro s l s' _ ih hup hs c call' hc ev hev
      rcases Phases.step_log hs hc hev with ⟨call, hold, hmem⟩ | hperformed
      · exact ih c call hold ev hmem
      · exact addedRow_performed hup hperformed
  unfold added attempts
  generalize call.log = log at hall
  induction log with
  | nil => rfl
  | cons ev log ih =>
      have hrest := ih fun ev' hev' => hall ev' (List.mem_cons_of_mem _ hev')
      rw [List.filterMap_cons, List.filterMap_cons, hall ev List.mem_cons_self]
      cases attempt ev with
      | none => exact hrest
      | some row =>
          cases hfits : row.fits with
          | true => simp [Option.filter, hfits, hrest]
          | false => simp [Option.filter, hfits, hrest]

/-- The table grows by what a step adds. -/
theorem rejected_step {s s' : Phases ι env} {l : ProcessorLabel ι}
    (hup : PostgresUp env l (s.map Phase.prog)) (h : Phases.step env l s = some s') :
    s'.store.rejected.map RejectedRow.toRejectedPacket =
      s.store.rejected.map RejectedRow.toRejectedPacket ++
        ((Phases.performed env l s).bind addedRow).toList := by
  have hafter : ∀ d (ph : Phase env) (w : World ι), (w.after d ph).rejected = w.rejected := by
    intro d ph w
    cases ph <;> rfl
  cases l with
  | start c d =>
      cases Phases.step_cases h with
      | start hc => simp [Phases.enter, hafter, Phases.performed, Lib.Interleave.performed]
  | crash i =>
      cases h
      simp [Phases.performed, Lib.Interleave.performed]
  | disturb e =>
      cases h
      cases e <;> simp [Phases.performed, Lib.Interleave.performed, platform, World.disturb]
  | io c mode clock =>
      obtain ⟨d, ph, log, op, k, hc, hview⟩ := Phases.step_io_inv h
      have hev : Phases.performed env (.io c mode clock) s =
          some ⟨op, (platform.answer mode op clock s.store).2⟩ :=
        Phases.performed_answer hc hview rfl
      rw [Phases.step_io mode clock hc hview] at h
      cases h
      rw [hev]
      have hserved := hup c mode clock _ rfl ((Processors.performed_phases _ _).trans hev)
      rw [Phases.enter, hafter]
      cases op with
      | insertRejection row =>
          obtain rfl := hserved trivial
          show (perform (.insertRejection row) clock s.store).1.rejected.map _ = _ ++
            (addedRow ⟨_, (perform (.insertRejection row) clock s.store).2⟩).toList
          cases hfits : row.fits with
          | true => simp [perform, hfits, addedRow]
          | false => simp [perform, hfits, addedRow]
      | _ => cases mode <;> simp [platform, Platform.answer, perform, addedRow]

/-- **Rejections leave durable evidence.** With Postgres up, a returned call with
a recorded code has added exactly one row, with that code, and the key and the
packet id of a body that parsed, precisely when no text that its rejection
quotes has U+0000 among its first 256 characters. A duplicate has added none,
and the table grows by the added rows only. -/
theorem rejections_recorded {s : Processors ι}
    (h : Reach (Processors.step env) (PostgresUp env) Processors.init s) :
    (∀ c call outcome, s.calls c = some call → call.status = .returned outcome →
      (∀ code ∈ recordedCodes, outcome.code = some code →
        (Recorded env call.tag code call.log ↔
          ∀ text, Quoted env call.tag text → Storable text)) ∧
      (outcome.code = some .duplicatePacket → added call.log = [])) ∧
    ∀ l s', PostgresUp env l s → Processors.step env l s = some s' →
      s'.store.rejected.map RejectedRow.toRejectedPacket =
        s.store.rejected.map RejectedRow.toRejectedPacket ++
          ((Processors.performed env l s).bind addedRow).toList := by
  obtain ⟨s, rfl, hphases⟩ := Processors.reach_phases h
  constructor
  · intro c call outcome hc hstatus
    obtain ⟨hphase, -⟩ := Processors.returned_phases hphases hc hstatus
    have hattempted := attempted hphases hphase
    have hadded := added_eq hphases hphase
    exact ⟨fun code hcode houtcome => recorded_iff hattempted hadded hcode houtcome,
      fun houtcome => added_duplicate hattempted hadded houtcome⟩
  · intro l s' hup hs
    obtain ⟨s', rfl, hstep⟩ := Processors.step_phases hs
    rw [State.map_store, State.map_store, Processors.performed_phases]
    exact rejected_step hup hstep

end Runs

/-- The payment with a member more, delivered to the one processor. -/
noncomputable def taggedDelivery (name : String) : Delivery Unit :=
  ⟨(), document (tagged Reference.payment name), Reference.instant.micros⟩

theorem taggedDelivery_invalid {name : String}
    (hname : name ∉ ["packet_id", "sender_id", "created_at", "envelope", "signature", "hops"]) :
    PaymentPacket.modelValidateJson Reference.onePayment.pydantic (taggedDelivery name).body =
      .error (.invalid [forbidden name]) := by
  have hreads : Reference.onePayment.pydantic.ReadsBack := Reference.pydantic_readsBack
  unfold taggedDelivery
  dsimp only
  generalize Reference.onePayment.pydantic = py at hreads
  generalize Reference.payment = p
  exact validate_tagged hreads p hname

/-- A member named `note` is refused, and the refusal recorded. -/
theorem rejections_recorded_note : ∃ s : Processors Unit, ∃ call,
    Reach (Processors.step Reference.onePayment) (PostgresUp Reference.onePayment)
      Processors.init s ∧
    s.calls 0 = some call ∧ Recorded Reference.onePayment call.tag .malformedPayload call.log := by
  have hinvalid := taggedDelivery_invalid (show "note" ∉ _ by decide)
  obtain ⟨s, log, hreach, hcall⟩ := refused_run (start_invalid Reference.instant.micros hinvalid)
  have hs := Phases.reach_processors hreach
  have hcall' : (s.map Phase.prog).calls 0 = some ⟨taggedDelivery "note",
      .returned (refuseBody [forbidden "note"]).outcome, log⟩ := by
    rw [State.map_calls, hcall]
    rfl
  refine ⟨s.map Phase.prog, _, hs, hcall', ?_⟩
  refine (((rejections_recorded hs).1 0 _ _ hcall' rfl).1 _ (by decide) rfl).mpr ?_
  intro text htext
  refine (refuseBody_fits hinvalid).mp ?_ text htext
  decide

/-- A member named U+0000 is refused, and the refusal is not recorded. -/
theorem nul_member_unrecorded : ¬ ∀ s : Processors Unit,
    Reach (Processors.step Reference.onePayment) (PostgresUp Reference.onePayment)
      Processors.init s →
    ∀ c call outcome, s.calls c = some call → call.status = .returned outcome →
      ∀ code ∈ recordedCodes, outcome.code = some code →
        Recorded Reference.onePayment call.tag code call.log := by
  intro hall
  have hinvalid := taggedDelivery_invalid (show "\x00" ∉ _ by decide)
  obtain ⟨s, log, hreach, hcall⟩ := refused_run (start_invalid Reference.instant.micros hinvalid)
  have hcall' : (s.map Phase.prog).calls 0 = some ⟨taggedDelivery "\x00",
      .returned (refuseBody [forbidden "\x00"]).outcome, log⟩ := by
    rw [State.map_calls, hcall]
    rfl
  have hrecorded := hall _ (Phases.reach_processors hreach) 0 _ _ hcall' rfl .malformedPayload
    (by decide) rfl
  have hfits := (refuseBody_fits hinvalid).mpr
    ((recorded_iff (attempted hreach hcall) (added_eq hreach hcall) (by decide) rfl).mp hrecorded)
  revert hfits
  decide

end MeshSettle.Theorems.Evidence
