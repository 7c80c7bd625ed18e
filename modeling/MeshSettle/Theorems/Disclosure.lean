import MeshSettle.Settlement.Clock
import MeshSettle.Settlement.Reference
import MeshSettle.Settlement.Rejections

/-!
# What rejections disclose of a sealed payment

Two packets with one header, whose sealed plaintexts break the same rules at the
same fields, are rejected as malformed. `details_agree_iff` says when the two
rejections read alike: the exception's text is quoted up to its 256th
character, so the message of each error and what is shown of the offending
value must agree as far as they are quoted.
-/

namespace MeshSettle.Theorems.Disclosure

open Lib.Await Lib.Interleave Lib.Transition
open Lib.Schema Lib.Text

/-! ## The three details -/

/-- The `detail` of the warning that a rejected call logs. A rejection under the
claim is logged once the claim is won. -/
def loggedDetail (env : Env) (rawBody : Bytes) (now : Int) : Option String :=
  match PaymentPacket.modelValidateJson env.pydantic rawBody with
  | .error (.raised _) => none
  | .error (.invalid errors) => some (summarizeValidationError errors)
  | .ok packet =>
      match packet.verify env.prim env.senderPublicKey with
      -- this warning carries a fingerprint of the signature instead
      | .error _ => none
      | .ok () =>
          match staleness env packet now with
          | some (_, detail) => some detail
          | none =>
              if packet.envelope.aad ≠ packet.expectedAad then
                some "envelope AAD does not match the packet header"
              else
                match packet.opened env with
                | .ok _ => none
                | .error e => (openRejection env e).map Prod.snd

/-- The detail of a packet that is rejected as malformed for these errors of its
instruction. -/
def malformedDetail (env : Env) (p : PaymentPacket) (errors : List ErrorDetails) : String :=
  if p.envelope.aad = p.expectedAad then
    truncate (env.pydantic.errorText "PaymentInstruction" errors)
  else "envelope AAD does not match the packet header"

/-! ## The packets -/

/-- The same signed header: everything that is signed beside the sealed payload. -/
structure SameHeader (p q : PaymentPacket) : Prop where
  packetId : p.packetId = q.packetId
  senderId : p.senderId = q.senderId
  createdAt : p.createdAt = q.createdAt
  aad : p.envelope.aad = q.envelope.aad

/-- A validly signed packet whose sealed plaintext is a JSON object that fails
validation with these errors. -/
structure InvalidInside (env : Env) (p : PaymentPacket) (errors : List ErrorDetails) : Prop where
  verified : p.verify env.prim env.senderPublicKey = .ok ()
  invalid : ∃ plaintext payload,
    decryptPayload env.prim p.envelope.encryptedKey p.envelope.nonce p.envelope.ciphertext
      p.envelope.aad env.settlementPrivateKey = .ok plaintext ∧
    env.jsonLoads plaintext = .ok payload ∧ payload.members.isSome = true ∧
    object (PaymentInstruction.validate env.pydantic) payload = .error (.invalid errors)

/-- The field and the type of each error. -/
def kinds (errors : List ErrorDetails) : List (List Loc × String) :=
  errors.map fun e => (e.loc, e.type)

/-- The layout of the text of a `ValidationError`. -/
structure Layout where
  head : String → Nat → String
  place : List Loc → String
  label : String → String
  shown : Json → String
  close : String → String

/-- The entry of an error: its place, its message, its type, and what is shown of
the offending value. -/
def Layout.entry (l : Layout) (e : ErrorDetails) : String :=
  l.place e.loc ++ (e.msg ++ (l.label e.type ++ (l.shown e.input ++ l.close e.type)))

/-- `str()` of a `ValidationError`: a head, then an entry for each error. -/
def Layout.Of (l : Layout) (py : Pydantic) : Prop :=
  ∀ title errors, py.errorText title errors =
    l.head title errors.length ++ String.join (errors.map l.entry)

/-- With this much room left, the messages of the errors, and what is shown of the
offending values, agree as far as there is room for them. -/
def Layout.QuotesAlike (l : Layout) : Nat → List ErrorDetails → List ErrorDetails → Prop
  | room, e :: es, f :: fs =>
      let roomForMsg := room - (l.place e.loc).length
      let roomForInput := roomForMsg - e.msg.length - (l.label e.type).length
      e.msg.toList.take roomForMsg = f.msg.toList.take roomForMsg ∧
        (l.shown e.input).toList.take roomForInput = (l.shown f.input).toList.take roomForInput ∧
        QuotesAlike l (roomForInput - (l.shown e.input).length - (l.close e.type).length) es fs
  | _, _, _ => True

/-- The details quote the same messages and the same offending values, unless the
packet is refused for its AAD and nothing is quoted. -/
def PrintsAlike (l : Layout) (p : PaymentPacket) (errors errors' : List ErrorDetails) : Prop :=
  p.envelope.aad = p.expectedAad →
    l.QuotesAlike (256 - (l.head "PaymentInstruction" errors.length).length) errors errors'

/-- Messages and values that can be told apart by their beginnings: none is a
proper beginning of its counterpart. -/
def ToldApart (l : Layout) : List ErrorDetails → List ErrorDetails → Prop :=
  List.Forall₂ fun e f => Apart e.msg.toList f.msg.toList ∧
    Apart (l.shown e.input).toList (l.shown f.input).toList

/-- Two rejections with the same details: in the outcomes, in the warnings that
are logged, and in the rows for `rejected_packets`. -/
structure SameDetails {ι : Type} (env : Env) (call call' : ProcessCall ι)
    (o o' : SettlementOutcome) : Prop where
  outcome : o.detail = o'.detail
  logged :
    loggedDetail env call.tag.body call.tag.now = loggedDetail env call'.tag.body call'.tag.now
  row : (attempts call.log).map RejectedPacket.detail =
    (attempts call'.log).map RejectedPacket.detail

theorem InvalidInside.opened {env : Env} {p : PaymentPacket} {errors : List ErrorDetails}
    (h : InvalidInside env p errors) :
    p.opened env = .error (.validationError "PaymentInstruction" errors) := by
  obtain ⟨plaintext, payload, hdecrypt, hloads, hobject, hvalidate⟩ := h.invalid
  have hsome : payload.members.isNone = false := by
    rw [← Option.not_isSome, hobject]
    rfl
  unfold PaymentPacket.opened PaymentPacket.openInstruction PaymentInstruction.fromCanonicalBytes
  simp only [hdecrypt, hloads, hsome, hvalidate, Bool.false_eq_true, if_false]

/-! ## What is quoted -/

section Quoted

variable {l : Layout}

/-- The parts of the entries, one after another. -/
def parts (l : Layout) (errors : List ErrorDetails) : List (List Char) :=
  errors.flatMap fun e => [(l.place e.loc).toList, e.msg.toList, (l.label e.type).toList,
    (l.shown e.input).toList, (l.close e.type).toList]

theorem toList_join_entry (errors : List ErrorDetails) :
    (String.join (errors.map l.entry)).toList = (parts l errors).flatten := by
  induction errors with
  | nil => rfl
  | cons e es ih =>
      rw [String.toList_join] at ih ⊢
      rw [List.map_cons, List.flatMap_cons, ih]
      simp [parts, Layout.entry]

/-- Errors of the same kinds have the same number of parts. -/
theorem parts_length {errors errors' : List ErrorDetails} (h : errors.length = errors'.length) :
    (parts l errors).length = (parts l errors').length := by
  simp [parts, h]

/-- What is quoted of errors of the same kinds agrees part by part when the
messages and the values do. -/
theorem quotesAlike_iff {errors errors' : List ErrorDetails} (h : kinds errors = kinds errors')
    (room : Nat) :
    l.QuotesAlike room errors errors' ↔ AgreeWithin room (parts l errors) (parts l errors') := by
  induction errors generalizing errors' room with
  | nil =>
      cases errors' with
      | nil => exact Iff.rfl
      | cons f fs => cases h
  | cons e es ih =>
      cases errors' with
      | nil => cases h
      | cons f fs =>
          obtain ⟨hkind, hkinds⟩ := List.cons.inj h
          obtain ⟨hloc, htype⟩ := Prod.mk.inj hkind
          simp only [parts, List.flatMap_cons, List.cons_append, List.nil_append, AgreeWithin,
            Layout.QuotesAlike, ← hloc, ← htype, true_and, String.length_toList]
          rw [ih hkinds]
          rfl

theorem apart_self {α : Type} (x : List α) : Apart x x := ⟨fun _ => rfl, fun _ => rfl⟩

/-- Parts can be told apart when messages and values can. -/
theorem parts_apart {errors errors' : List ErrorDetails} (h : kinds errors = kinds errors')
    (happart : ToldApart l errors errors') :
    List.Forall₂ Apart (parts l errors) (parts l errors') := by
  induction happart with
  | nil => exact .nil
  | @cons e f es fs hef _ ih =>
      obtain ⟨hkind, hkinds⟩ := List.cons.inj h
      obtain ⟨hloc, htype⟩ := Prod.mk.inj hkind
      simp only [parts, List.flatMap_cons, List.cons_append, List.nil_append, ← hloc, ← htype]
      exact .cons (apart_self _) (.cons hef.1 (.cons (apart_self _) (.cons hef.2
        (.cons (apart_self _) (ih hkinds)))))

end Quoted

/-! ## What a call discloses -/

section Calls

variable {ι : Type} {env : Env}

theorem rejectedRow_detail (p : PaymentPacket) (errors : List ErrorDetails) (code : ErrorCode) :
    (rejectedRow env p code (malformedDetail env p errors)).detail =
      malformedDetail env p errors := by
  show truncate _ = _
  unfold malformedDetail
  split
  · exact truncate_truncate _
  · rfl

theorem loggedDetail_eq {d : Delivery ι} {p : PaymentPacket} {errors : List ErrorDetails}
    (hp : PaymentPacket.modelValidateJson env.pydantic d.body = .ok p)
    (h : InvalidInside env p errors) (hfresh : staleness env p d.now = none) :
    loggedDetail env d.body d.now = some (malformedDetail env p errors) := by
  unfold loggedDetail malformedDetail
  simp only [hp, h.verified, hfresh, h.opened, openRejection, Option.map_some, ne_eq]
  split
  · rfl
  · next heq => rw [if_pos (not_not.mp heq)]

/-- **The three details of a malformed packet** are the same text. -/
theorem malformed_details {d : Delivery ι} {o : SettlementOutcome} {log : List IoEvent}
    {p : PaymentPacket} {errors : List ErrorDetails}
    (hattempted : @Attempted ι env d log (.returned o))
    (hcode : o.code = some .malformedPayload)
    (hp : PaymentPacket.modelValidateJson env.pydantic d.body = .ok p)
    (h : InvalidInside env p errors) :
    o.detail = malformedDetail env p errors ∧
      loggedDetail env d.body d.now = some (malformedDetail env p errors) ∧
      (attempts log).map RejectedPacket.detail = [malformedDetail env p errors] := by
  rcases hattempted with
    ⟨r, hstart, rfl, hattempts⟩ | ⟨f, hf, rfl, hattempts⟩ | ⟨hother, -⟩ | hother
  · cases refused_of_start hstart with
    | body hbody => cases hbody.symm.trans hp
    | signature hq hv =>
        cases hq.symm.trans hp
        cases h.verified.symm.trans hv
    | stale hq hv hs =>
        obtain rfl := Option.some.inj hcode
        have hstale := staleness_some hs
        unfold staleCode at hstale
        split at hstale <;> cases hstale
    | unbound hq _ hs hne =>
        cases hq.symm.trans hp
        have hdetail : malformedDetail env p errors =
            "envelope AAD does not match the packet header" := if_neg hne
        refine ⟨hdetail.symm, loggedDetail_eq hp h hs, ?_⟩
        rw [hattempts, ← rejectedRow_detail p errors .malformedPayload, hdetail]
        rfl
  · -- the flaw found after the claim is the one the payload was built with
    obtain rfl : f.packet = p := by
      rw [← hf.1, f.parsed] at hp
      exact Except.ok.inj hp
    have hdetail : f.detail = malformedDetail env f.packet errors := by
      have hflaw := f.flaw
      rw [Except.error.inj (f.opened.symm.trans h.opened)] at hflaw
      rw [malformedDetail, if_pos f.bound]
      exact (Prod.mk.inj (Option.some.inj hflaw)).2.symm
    refine ⟨hdetail, loggedDetail_eq hp h ?_, ?_⟩
    · rw [← hf.2]
      exact f.fresh
    · rw [hattempts, hdetail]
      exact congrArg (fun detail => [detail]) (rejectedRow_detail _ _ _)
  · rw [hcode] at hother
    rcases hother with hnone | hduplicate
    · cases hnone
    · cases hduplicate
  · rw [hcode] at hother
    cases hother

/-- Two malformed details agree when nothing is quoted, or when what is quoted
agrees. -/
theorem malformedDetail_eq_iff {l : Layout} (hlayout : l.Of env.pydantic) {p q : PaymentPacket}
    {errors errors' : List ErrorDetails} (hheader : SameHeader p q)
    (hlength : errors.length = errors'.length) :
    malformedDetail env p errors = malformedDetail env q errors' ↔
      (p.envelope.aad = p.expectedAad →
        (parts l errors).flatten.take (256 - (l.head "PaymentInstruction" errors.length).length) =
          (parts l errors').flatten.take
            (256 - (l.head "PaymentInstruction" errors.length).length)) := by
  have htext : ∀ es : List ErrorDetails, es.length = errors.length →
      (truncate (env.pydantic.errorText "PaymentInstruction" es)).toList =
        (l.head "PaymentInstruction" errors.length).toList.take 256 ++ (parts l es).flatten.take
          (256 - (l.head "PaymentInstruction" errors.length).length) := by
    intro es hes
    rw [toList_truncate, hlayout, hes, String.toList_append, toList_join_entry, List.take_append,
      String.length_toList]
  have hexpected : q.expectedAad = p.expectedAad := by
    rw [PaymentPacket.expectedAad, PaymentPacket.expectedAad, hheader.packetId, hheader.senderId]
  unfold malformedDetail
  rw [← hheader.aad, hexpected]
  split
  · next hbound =>
      rw [← String.toList_inj, htext errors rfl, htext errors' hlength.symm]
      exact ⟨fun h _ => List.append_cancel_left h, fun h => congrArg _ (h hbound)⟩
  · next hne => exact iff_of_true rfl fun hbound => absurd hbound hne

end Calls

/-- **Two malformed payments under one header** are rejected with the same three
details when, error by error, the message and what is shown of the offending
value agree as far as the detail quotes them, and, where these can be told apart,
only then. -/
theorem details_agree_iff {ι : Type} [DecidableEq ι] {env : Env} {l : Layout}
    (hlayout : l.Of env.pydantic) {s s' : Processors ι}
    (hs : Reach (Processors.step env) free Processors.init s)
    (hs' : Reach (Processors.step env) free Processors.init s') {c c' : Nat}
    {call call' : ProcessCall ι} {o o' : SettlementOutcome} (hc : s.calls c = some call)
    (hc' : s'.calls c' = some call') (ho : call.status = .returned o)
    (ho' : call'.status = .returned o') (hcode : o.code = some .malformedPayload)
    (hcode' : o'.code = some .malformedPayload) {p q : PaymentPacket}
    (hp : PaymentPacket.modelValidateJson env.pydantic call.tag.body = .ok p)
    (hq : PaymentPacket.modelValidateJson env.pydantic call'.tag.body = .ok q)
    {errors errors' : List ErrorDetails} (hinvalid : InvalidInside env p errors)
    (hinvalid' : InvalidInside env q errors') (hheader : SameHeader p q)
    (hkinds : kinds errors = kinds errors') :
    (PrintsAlike l p errors errors' → SameDetails env call call' o o') ∧
      (ToldApart l errors errors' →
        (SameDetails env call call' o o' ↔ PrintsAlike l p errors errors')) := by
  obtain ⟨s, rfl, hphases⟩ := Processors.reach_phases hs
  obtain ⟨s', rfl, hphases'⟩ := Processors.reach_phases hs'
  obtain ⟨hphase, -⟩ := Processors.returned_phases hphases hc ho
  obtain ⟨hphase', -⟩ := Processors.returned_phases hphases' hc' ho'
  obtain ⟨hd, hlogged, hrows⟩ := malformed_details (attempted hphases hphase) hcode hp hinvalid
  obtain ⟨hd', hlogged', hrows'⟩ :=
    malformed_details (attempted hphases' hphase') hcode' hq hinvalid'
  have hlength : errors.length = errors'.length := by
    simpa [kinds] using congrArg List.length hkinds
  -- the three equations are one
  have hsame : SameDetails env call call' o o' ↔
      malformedDetail env p errors = malformedDetail env q errors' := by
    constructor
    · intro h
      rw [← hd, ← hd', h.outcome]
    · intro h
      exact ⟨by rw [hd, hd', h], by rw [hlogged, hlogged', h], by rw [hrows, hrows', h]⟩
  rw [hsame, malformedDetail_eq_iff hlayout hheader hlength]
  have hagree : PrintsAlike l p errors errors' → p.envelope.aad = p.expectedAad → _ :=
    fun h hbound => take_flatten_of_agree (parts_length hlength)
      ((quotesAlike_iff hkinds _).mp (h hbound))
  refine ⟨hagree, fun hapart => ⟨fun h hbound => ?_, hagree⟩⟩
  exact (quotesAlike_iff hkinds _).mpr
    (agree_of_take_flatten (parts_apart hkinds hapart) (h hbound))

/-! ## Payments of nothing -/

/-- A fresh and bound packet with an invalid instruction is rejected as malformed. -/
theorem exists_malformed {env : Env} {body : Bytes} {now : Int} {p : PaymentPacket}
    {errors : List ErrorDetails}
    (hp : PaymentPacket.modelValidateJson env.pydantic body = .ok p)
    (hinvalid : InvalidInside env p errors) (hfresh : staleness env p now = none)
    (hbound : p.envelope.aad = p.expectedAad) {clock : Int}
    (hclaim : AcceptsEx env.claimTtl clock) :
    ∃ (s : Processors Unit) (call : ProcessCall Unit) (o : SettlementOutcome),
      Reach (Processors.step env) free Processors.init s ∧ s.calls 0 = some call ∧
      call.status = .returned o ∧ o.code = some .malformedPayload ∧
      PaymentPacket.modelValidateJson env.pydantic call.tag.body = .ok p ∧
      loggedDetail env call.tag.body call.tag.now = some (malformedDetail env p errors) := by
  let f : Flawed env :=
    { body := body, now := now, packet := p, parsed := hp, verified := hinvalid.verified,
      fresh := hfresh, bound := hbound, code := .malformedPayload,
      detail := truncate (env.pydantic.errorText "PaymentInstruction" errors),
      cause := .validationError "PaymentInstruction" errors, opened := hinvalid.opened,
      flaw := rfl }
  obtain ⟨s, log, hs, hcall⟩ := f.run hclaim
  have hcall' : (s.map Phase.prog).calls 0 =
      some (⟨⟨(), body, now⟩, .returned f.outcome, log⟩ : ProcessCall Unit) := by
    rw [State.map_calls, hcall]
    rfl
  exact ⟨_, _, _, Phases.reach_processors hs, hcall', rfl, rfl, hp,
    loggedDetail_eq (d := (⟨(), body, now⟩ : Delivery Unit)) hp hinvalid hfresh⟩

/-- How an offending value is printed. -/
def shown : Json → String
  | .null => "None, input_type=NoneType"
  | .bool b => (if b then "True" else "False") ++ ", input_type=bool"
  | .int n => toString n ++ ", input_type=int"
  | .float text => text ++ ", input_type=float"
  | .str s => "'" ++ s ++ "', input_type=str"
  | .unpaired _ => "'...', input_type=str"
  | .arr _ => "[...], input_type=list"
  | .obj _ => "{...}, input_type=dict"
  | .ragged _ _ => "{...}, input_type=dict"

/-- A line for the title, and two for each error. -/
def twoLines : Layout where
  head title n :=
    toString n ++ (if n = 1 then " validation error for " else " validation errors for ") ++ title
  place loc := "\n" ++ ".".intercalate (loc.map Loc.text) ++ "\n  "
  label type := " [type=" ++ type ++ ", input_value="
  shown := shown
  close _ := "]"

noncomputable section

/-- The reference readers, with such a text. -/
def listing : Pydantic :=
  { Reference.pydantic with
    errorText := fun title errors =>
      twoLines.head title errors.length ++ String.join (errors.map twoLines.entry) }

theorem listing_layout : twoLines.Of listing := fun _ _ => rfl

theorem listing_readsBack : listing.ReadsBack where
  json := Reference.pydantic_readsBack.json
  uuid := Reference.pydantic_readsBack.uuid
  datetime := Reference.pydantic_readsBack.datetime
  int := Reference.pydantic_readsBack.int

/-- The configuration with these readers, in which everything is signed. -/
def listingEnv : Env :=
  { Reference.env (fun _ => true) fun _ => Vector.replicate 32 0 with pydantic := listing }

/-- The members of a payment of this amount by this payer. -/
def members (payer : Identifier) (amount : Int) : List (String × Json) :=
  [("amount_minor", .int amount), ("created_at", .str (canonicalTimestamp Reference.instant)),
    ("currency", .str PaymentInstruction.inr.1),
    ("packet_id", .str Reference.instruction.packetId.str), ("payee_id", .str Reference.payee.1),
    ("payer_id", .str payer.1)]

/-- What is said of an amount that is not positive. -/
def notPositive (amount : Int) : ErrorDetails :=
  ⟨[.field "amount_minor"], "greater_than", "Input should be greater than 0", .int amount⟩

theorem validate_members {py : Pydantic} (h : py.ReadsBack) {payer : Identifier}
    (hpayer : payer ≠ Reference.payee) {amount : Int} (hlow : -2 ^ 63 ≤ amount)
    (hamount : amount ≤ 0) : PaymentInstruction.validate py (members payer amount) =
      .error (.invalid [notPositive amount]) := by
  have hfield : field (members payer amount) "payer_id" readIdentifier = .ok payer :=
    field_ok (by simp [members, lookup]) (readIdentifier_str payer)
  have hpayee : field (members payer amount) "payee_id" (fun j =>
      after Exc.valueErrorText j (readIdentifier j) (PaymentInstruction.payeeDiffersFromPayer
        (field (members payer amount) "payer_id" readIdentifier))) =
      .ok ⟨Reference.payee, fun p hp => by
        rw [hfield] at hp
        cases hp
        exact hpayer⟩ := by
    refine field_ok (j := .str Reference.payee.1) (by simp [members, lookup])
      (after_ok (readIdentifier_str Reference.payee) ?_)
    exact PaymentInstruction.payeeDiffersFromPayer_ok hfield hpayer
  have hread : readAmount py (.int amount) = reject "greater_than" "Input should be greater than 0"
      (.int amount) := by
    rw [readAmount, read, h.int amount hlow (by omega)]
    exact dif_neg (by omega)
  have hbad : field (members payer amount) "amount_minor" (readAmount py) =
      .error (.invalid [notPositive amount]) := by
    have hlookup : lookup "amount_minor" (members payer amount) = some (.int amount) := by
      simp [members, lookup]
    simp only [field, hlookup, hread]
    rfl
  unfold PaymentInstruction.validate
  dsimp only
  rw [both_error
    (field_ok (by simp [members, lookup]) (readUuid_str h Reference.instruction.packetId))
    (both_error (combine_ok hfield hpayee)
      (both_invalid hbad
        (both_ok (fieldOr_ok (by simp [members, lookup]) (readCurrency_str PaymentInstruction.inr))
          (both_ok (field_ok (by simp [members, lookup]) (readUtc_canonical h Reference.instant))
            (forbidExtra_ok (by simp [members]))))))]
  rfl

/-- The packet that seals them. -/
def sealedPacket (payer : Identifier) (amount : Int) : PaymentPacket where
  packetId := Reference.instruction.packetId
  senderId := Reference.sender
  createdAt := Reference.instant
  envelope := Reference.envelope (buildAad Reference.instruction.packetId.str Reference.sender.1)
    (document (.obj (members payer amount))) (canonicalJson_ne _)
  signature := Reference.stamp
  hops := []
  signature_length := Reference.stamp_length

theorem sealedPacket_invalid {payer : Identifier} (hpayer : payer ≠ Reference.payee) {amount : Int}
    (hlow : -2 ^ 63 ≤ amount) (hamount : amount ≤ 0) :
    InvalidInside listingEnv (sealedPacket payer amount) [notPositive amount] where
  verified := by
    have hstamp : (sealedPacket payer amount).signature = Reference.stamp := rfl
    unfold PaymentPacket.verify verifySignature
    simp only [listingEnv, Reference.env, Reference.primitives, hstamp, and_self, if_true]
  invalid := by
    have hsimple : Lib.Document.Simple 8 (.obj (members payer amount)) := by
      have hhigh : amount < 2 ^ 63 := by omega
      simp only [members, Lib.Document.Simple, Lib.Document.SimpleMembers, hlow, hhigh]
      simp
    have hloads : LoadsBack listingEnv.jsonLoads := Reference.loads_loadsBack
    have hreads : listingEnv.pydantic.ReadsBack := listing_readsBack
    exact ⟨_, .obj (members payer amount), Reference.decrypt_envelope _ _ _ _ _, hloads _ hsimple,
      rfl, validate_members hreads hpayer hlow hamount⟩

theorem sealedPacket_fresh (payer : Identifier) (amount : Int) :
    staleness listingEnv (sealedPacket payer amount) Reference.instant.micros = none := by
  have hage : ageMicros (sealedPacket payer amount) Reference.instant.micros = 0 := by
    simp [ageMicros, sealedPacket]
  unfold staleness
  simp only [hage]
  rfl

theorem sealedPacket_header (payer payer' : Identifier) (amount amount' : Int) :
    SameHeader (sealedPacket payer amount) (sealedPacket payer' amount') := ⟨rfl, rfl, rfl, rfl⟩

theorem sealedPacket_bound (payer : Identifier) (amount : Int) :
    (sealedPacket payer amount).envelope.aad = (sealedPacket payer amount).expectedAad := by
  simp only [PaymentPacket.expectedAad, sealedPacket, Reference.envelope]

/-- It is rejected as malformed. -/
theorem sealedPacket_rejected {payer : Identifier} (hpayer : payer ≠ Reference.payee) {amount : Int}
    (hlow : -2 ^ 63 ≤ amount) (hamount : amount ≤ 0) :
    ∃ (s : Processors Unit) (call : ProcessCall Unit) (o : SettlementOutcome),
      Reach (Processors.step listingEnv) free Processors.init s ∧ s.calls 0 = some call ∧
      call.status = .returned o ∧ o.code = some .malformedPayload ∧
      PaymentPacket.modelValidateJson listingEnv.pydantic call.tag.body =
        .ok (sealedPacket payer amount) ∧
      loggedDetail listingEnv call.tag.body call.tag.now =
        some (malformedDetail listingEnv (sealedPacket payer amount) [notPositive amount]) := by
  have hreads : listingEnv.pydantic.ReadsBack := listing_readsBack
  exact exists_malformed ((sealedPacket payer amount).modelValidateJson_modelDumpJson hreads)
    (sealedPacket_invalid hpayer hlow hamount) (sealedPacket_fresh payer amount)
    (sealedPacket_bound payer amount) (Reference.acceptsEx_claim : AcceptsEx listingEnv.claimTtl _)

/-- Two payments of nothing by different payers read alike. -/
theorem details_agree_iff_payers : ∃ (s s' : Processors Unit) (call call' : ProcessCall Unit)
    (o o' : SettlementOutcome),
    Reach (Processors.step listingEnv) free Processors.init s ∧
    Reach (Processors.step listingEnv) free Processors.init s' ∧
    s.calls 0 = some call ∧ s'.calls 0 = some call' ∧ SameDetails listingEnv call call' o o' := by
  obtain ⟨s, call, o, hs, hc, ho, hcode, hp, -⟩ :=
    sealedPacket_rejected (show Reference.payer ≠ Reference.payee by decide) (by decide) (le_refl 0)
  obtain ⟨s', call', o', hs', hc', ho', hcode', hq, -⟩ :=
    sealedPacket_rejected (show Reference.sender ≠ Reference.payee by decide) (by decide)
      (le_refl 0)
  have hlayout : twoLines.Of listingEnv.pydantic := listing_layout
  refine ⟨s, s', call, call', o, o', hs, hs', hc, hc',
    (details_agree_iff hlayout hs hs' hc hc' ho ho' hcode hcode' hp hq
      (sealedPacket_invalid (by decide) (by decide) (le_refl 0))
      (sealedPacket_invalid (by decide) (by decide) (le_refl 0)) (sealedPacket_header _ _ _ _)
      rfl).1 ?_⟩
  exact fun _ => (quotesAlike_iff rfl _).mpr (agreeWithin_refl _ _)

/-- Payments of nothing and of less than nothing are told apart. -/
theorem amount_disclosed : ¬ ∀ (s s' : Processors Unit) (c c' : Nat)
    (call call' : ProcessCall Unit) (o o' : SettlementOutcome) (p q : PaymentPacket)
    (errors errors' : List ErrorDetails),
    Reach (Processors.step listingEnv) free Processors.init s →
    Reach (Processors.step listingEnv) free Processors.init s' →
    s.calls c = some call → s'.calls c' = some call' →
    call.status = .returned o → call'.status = .returned o' →
    o.code = some .malformedPayload → o'.code = some .malformedPayload →
    PaymentPacket.modelValidateJson listingEnv.pydantic call.tag.body = .ok p →
    PaymentPacket.modelValidateJson listingEnv.pydantic call'.tag.body = .ok q →
    InvalidInside listingEnv p errors → InvalidInside listingEnv q errors' → SameHeader p q →
    kinds errors = kinds errors' → SameDetails listingEnv call call' o o' := by
  intro hall
  have hpayer : Reference.payer ≠ Reference.payee := by decide
  have hlow : (-2 : Int) ^ 63 ≤ -1 := by decide
  have hnegative : (-1 : Int) ≤ 0 := by decide
  obtain ⟨s, call, o, hs, hc, ho, hcode, hp, hlogged⟩ :=
    sealedPacket_rejected hpayer (by decide) (le_refl 0)
  obtain ⟨s', call', o', hs', hc', ho', hcode', hq, hlogged'⟩ :=
    sealedPacket_rejected hpayer hlow hnegative
  have hheader := sealedPacket_header Reference.payer Reference.payer 0 (-1)
  have hsame := (hall _ _ _ _ _ _ _ _ _ _ _ _ hs hs' hc hc' ho ho' hcode hcode' hp hq
    (sealedPacket_invalid hpayer (by decide) (le_refl 0))
    (sealedPacket_invalid hpayer hlow hnegative) hheader rfl).logged
  rw [hlogged, hlogged', Option.some.injEq] at hsame
  have hlayout : twoLines.Of listingEnv.pydantic := listing_layout
  have hlength : [notPositive 0].length = [notPositive (-1)].length := rfl
  rw [malformedDetail_eq_iff hlayout hheader hlength] at hsame
  have htexts := hsame (sealedPacket_bound Reference.payer 0)
  revert htexts
  decide

end

end MeshSettle.Theorems.Disclosure
