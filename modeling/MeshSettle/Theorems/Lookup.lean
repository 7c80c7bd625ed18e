import MeshSettle.Mesh.Sender
import MeshSettle.Theorems.Allowlist
import MeshSettle.Theorems.Reads
import MeshSettle.Ui.Lookup

/-!
# The page reads what was settled

A dedupe key survives the four readings between the page's `fetchSettlement` and
the query: encoded by the page it is no dot segment and has no slash, so the
UI's route gets it back, and it is plain, so the proxy may paste it
(`asksFor_of_plain`). So the page gets the answer of the settlement service for
that very key, and for a payment that a call reported SETTLED this is its
settlement, from then on.
-/

namespace MeshSettle.Theorems.Lookup

open Lib.Unicode (encode encode_append)
open Lib.Interleave Lib.Transition Lib.Url Ui
open MeshSettle.Theorems.Allowlist (Plain AsksFor asksFor_of_plain
  readSettlement_sends)

/-! ## The page's request -/

section Request

variable (r : LookupRoute) {key : PathParameter}

/-- An encoded component has no slash. -/
theorem slash_not_mem (s : List Char) : '/' ∉ encodeURIComponent s := by
  intro h
  rcases mem_encodeURIComponent h with hslash | hslash
  · exact absurd hslash (by decide)
  · exact absurd hslash (by decide)

theorem encode_inj {s t : List Char} (h : encode s = encode t) : s = t := by
  have hutf8 : utf8 (String.ofList s) = utf8 (String.ofList t) := by
    rw [utf8_eq_encode, utf8_eq_encode, String.toList_ofList, String.toList_ofList, h]
  have htext := congrArg String.toList (utf8_inj hutf8)
  rwa [String.toList_ofList, String.toList_ofList] at htext

/-- The browser leaves the path of a lookup alone. -/
theorem resolve_lookup (hdot : ¬ IsDot key.text.toList) :
    r.browser.resolve ("/api/settlements/".toList ++ encodeURIComponent key.text.toList) =
      "/api/settlements/".toList ++ encodeURIComponent key.text.toList := by
  have hbase : ∀ c ∈ "api/settlements/".toList, c = '/' ∨ c = '%' ∨ isUnescaped c = true := by
    have hall : ("api/settlements/".toList.all fun c => c = '/' || isUnescaped c) = true := rfl
    intro c hc
    have hone := List.all_eq_true.mp hall c hc
    simp only [Bool.or_eq_true, decide_eq_true_eq] at hone
    exact hone.imp_right .inr
  have hsegments : segments ("api/settlements/".toList ++ encodeURIComponent key.text.toList) =
      ["api".toList, "settlements".toList, encodeURIComponent key.text.toList] := by
    show ("api".toList ++ '/' :: ("settlements".toList ++ '/' :: encodeURIComponent
      key.text.toList)).splitOn '/' = _
    rw [List.splitOn_append_cons_self_of_not_mem (by decide),
      List.splitOn_append_cons_self_of_not_mem (by decide),
      List.splitOn_eq_singleton (slash_not_mem _)]
  refine r.browser.keeps _ ?_ ?_
  · intro c hc
    rcases List.mem_append.mp hc with hc | hc
    · exact hbase c hc
    · exact .inr (mem_encodeURIComponent hc).symm
  · intro s hs
    have hs' := hsegments ▸ hs
    have hplain : ¬ DecodesToDot "api".toList ∧ ¬ DecodesToDot "settlements".toList := by
      unfold DecodesToDot
      decide
    rcases List.mem_cons.mp hs' with rfl | hs'
    · exact hplain.1
    · rcases List.mem_cons.mp hs' with rfl | hs'
      · exact hplain.2
      · rw [List.mem_singleton.mp hs']
        unfold DecodesToDot
        rw [percentDecode_encodeURIComponent]
        intro h
        exact hdot (h.imp encode_inj encode_inj)

/-- The UI's route gets the key back. -/
theorem uiReply_lookup {ι : Type} (w : World ι) (connected reachable : Bool) :
    r.uiReply w connected reachable
        ("/api/settlements/".toList ++ encodeURIComponent key.text.toList) =
      some (readSettlement r.httpx r.settings (r.send w connected reachable) key).2 := by
  have hdecoded : percentDecode
      ("/api/settlements/".toList ++ encodeURIComponent key.text.toList) =
        encode ("/api/settlements/".toList ++ key.text.toList) := by
    rw [percentDecode_append (by decide), percentDecode_encodeURIComponent, encode_append]
  unfold LookupRoute.uiReply
  rw [r.uvicorn.decodes _ _ hdecoded, pathParameter_append]
  rfl

end Request

/-! ## The proxied request -/

section Proxied

variable (r : LookupRoute) {key : PathParameter} {ι : Type} (w : World ι)
  (connected reachable : Bool)

/-- **A request for a plain key** is answered for this key. -/
theorem send_lookup {request : UpstreamRequest}
    (hasks : AsksFor r.settings.settlementUrl key request.url) :
    r.send w connected reachable request =
      if connected = false then none
      else some (r.rendering.render (Api.readSettlement w reachable key.text)) := by
  obtain ⟨segment, -, hpath, hdecode⟩ := hasks.path
  have hdecoded : percentDecode request.url.path =
      encode ("/settlements/".toList ++ key.text.toList) := by
    rw [hpath, percentDecode_append (by decide), hdecode, utf8_eq_encode, encode_append]
  unfold LookupRoute.send
  rw [if_pos ⟨hasks.scheme, hasks.authority⟩, r.uvicorn.decodes _ _ hdecoded,
    pathParameter_append]

/-- What the page parses of the proxy's answer. -/
theorem okBody_passthrough (reply : Api.ApiReply) :
    okBody (passthrough (r.rendering.render reply)) =
      if 200 ≤ reply.statusCode ∧ reply.statusCode < 300 then
        some (r.rendering.render reply).content
      else none := by
  show (if 200 ≤ (r.rendering.render reply).statusCode ∧
    (r.rendering.render reply).statusCode < 300 then _ else _) = _
  rw [r.rendering.status]

/-- The page takes a settlement from a lookup, and nothing from its errors. -/
theorem okBody_readSettlement (idempotencyKey : String) :
    okBody (passthrough (r.rendering.render (Api.readSettlement w reachable idempotencyKey))) =
      r.body (Api.readSettlement w reachable idempotencyKey) := by
  rw [okBody_passthrough]
  unfold Api.readSettlement
  split
  · rfl
  · rfl
  · rfl

/-- A proxied call passes on what its request is answered. -/
theorem forward_reply {httpx : Httpx} {send : UpstreamRequest → Option UpstreamResponse}
    {method : Method} {url detail : String} {body : Option Bytes}
    (h : httpx.invalidUrl url = false) :
    ∃ request, forward httpx send method url body detail =
      (some request, ((send request).map passthrough).getD (badGateway detail)) := by
  refine ⟨⟨method, { split url.toList with path := httpx.dots.run (split url.toList).path }, body⟩,
    ?_⟩
  unfold forward Httpx.parse
  rw [if_neg (by simp [h])]
  dsimp only
  split
  · next upstream hsend =>
      rw [hsend]
      rfl
  · next hsend =>
      rw [hsend]
      rfl

/-- **A plain key comes through.** -/
theorem fetch_plain {text : String} (htext : key.text = text) (hplain : Plain text.toList)
    (hvalid : r.httpx.invalidUrl (settlementUrl r.settings key) = false) :
    r.fetchSettlement w connected reachable text =
      if connected = false then none else r.body (Api.readSettlement w reachable text) := by
  subst htext
  obtain ⟨request, hforward⟩ : ∃ request,
      readSettlement r.httpx r.settings (r.send w connected reachable) key =
        (some request, ((r.send w connected reachable request).map passthrough).getD
          (badGateway "the settlement service is unreachable")) :=
    forward_reply hvalid
  have hasks : AsksFor r.settings.settlementUrl key request.url :=
    asksFor_of_plain hplain (congrArg Prod.fst hforward)
  unfold LookupRoute.fetchSettlement
  dsimp only
  rw [resolve_lookup r hplain.notDot, uiReply_lookup, hforward, Option.bind_some,
    send_lookup r w connected reachable hasks]
  cases connected with
  | false => rfl
  | true => exact okBody_readSettlement r w reachable key.text

end Proxied

/-! ## The keys of packets -/

section Keys

variable (prim : Primitives) (signingBytes : Bytes)

theorem key_identifier {c : Char} (h : c ∈ (deriveIdempotencyKey prim signingBytes).toList) :
    identifierChar c = true := by
  have hprefix : ∀ c ∈ idempotencyKeyPrefix.toList, identifierChar c = true :=
    List.all_eq_true.mp (show idempotencyKeyPrefix.toList.all identifierChar = true from rfl)
  rw [deriveIdempotencyKey, String.toList_append] at h
  rcases List.mem_append.mp h with hbegins | hdigest
  · exact hprefix c hbegins
  · exact hexdigest_identifier _ hdigest

/-- No character of a key means anything in a URL. -/
theorem key_char {c : Char} (h : c ∈ (deriveIdempotencyKey prim signingBytes).toList) :
    c ≠ '/' ∧ c ≠ '%' ∧ inPath c = true := by
  have hall := key_identifier prim signingBytes h
  refine ⟨?_, ?_, ?_⟩
  · rintro rfl
    cases hall
  · rintro rfl
    cases hall
  · unfold inPath
    rw [Bool.and_eq_true, decide_eq_true_eq, decide_eq_true_eq]
    constructor <;> (rintro rfl; cases hall)

theorem key_length : (deriveIdempotencyKey prim signingBytes).toList.length = 71 := by
  rw [String.length_toList]
  exact deriveIdempotencyKey_length prim signingBytes

/-- The dedupe key of a packet as a path parameter. -/
def keyParameter : PathParameter where
  text := deriveIdempotencyKey prim signingBytes
  nonempty := by
    intro hnil
    have hlength := key_length prim signingBytes
    rw [hnil] at hlength
    cases hlength
  noSlash := fun h => (key_char prim signingBytes h).1 rfl

theorem keyParameter_text :
    (keyParameter prim signingBytes).text = deriveIdempotencyKey prim signingBytes := rfl

theorem key_plain : Plain (deriveIdempotencyKey prim signingBytes).toList where
  notDot := by
    have hlength := key_length prim signingBytes
    rintro (h | h)
    · rw [h] at hlength
      cases hlength
    · rw [h] at hlength
      cases hlength
  inPath := fun c h => (key_char prim signingBytes h).2.2
  noEscape := by
    have hpercent : '%' ∉ (deriveIdempotencyKey prim signingBytes).toList := fun h =>
      (key_char prim signingBytes h).2.1 rfl
    have hdecode : percentDecode ((deriveIdempotencyKey prim signingBytes).toList ++ []) =
        encode (deriveIdempotencyKey prim signingBytes).toList ++ [] :=
      percentDecode_append hpercent
    rw [List.append_nil] at hdecode
    exact (percentDecode_eq_encode _).mp (hdecode.trans (List.append_nil _))

/-- **The way there and back changes nothing.** For the key of every packet, in
every state, and whether or not the services can be reached, the page gets what
the settlement service answers for this key, and nothing from an error. -/
theorem lookup_transparent {ι : Type} (r : LookupRoute) (w : World ι) (connected reachable : Bool)
    (hvalid : r.httpx.invalidUrl (settlementUrl r.settings (keyParameter prim signingBytes)) =
      false) :
    r.fetchSettlement w connected reachable (deriveIdempotencyKey prim signingBytes) =
      if connected = false then none
      else r.body (Api.readSettlement w reachable (deriveIdempotencyKey prim signingBytes)) :=
  fetch_plain r w connected reachable (keyParameter_text prim signingBytes)
    (key_plain prim signingBytes) hvalid

end Keys

/-! ## The page after a settled call -/

section Settled

variable {ι : Type} [DecidableEq ι] {env : Env}

/-- **The page finds what was settled.** Once a call has returned SETTLED, the
page's lookup of the key in the outcome gets the settlement with the id in the
outcome and the payment that was sealed in the delivered packet, in that state
and in every later one in which the services can be reached. -/
theorem settled_fetched {ok : ProcessorLabel ι → Processors ι → Prop} {s : Processors ι}
    (h : Reach (Processors.step env) ok Processors.init s) {c : Nat} {call : ProcessCall ι}
    (hc : s.calls c = some call) {outcome : SettlementOutcome}
    (hstatus : call.status = .returned outcome) (hsettled : outcome.status = .settled)
    (r : LookupRoute)
    (hvalid : ∀ signingBytes, r.httpx.invalidUrl
      (settlementUrl r.settings (keyParameter env.prim signingBytes)) = false) :
    ∃ (o : Opened env) (view : Api.SettlementView), o.toAdmitted.For call.tag ∧
      view = .modelValidate { o.row with id := view.id, settledAt := view.settledAt } ∧
      outcome.idempotencyKey = some view.idempotencyKey ∧
      outcome.settlementId = some view.id ∧
      ∀ (ok' : ProcessorLabel ι → Processors ι → Prop) s',
        Reach (Processors.step env) ok' s s' →
          r.fetchSettlement s'.store true true view.idempotencyKey =
            some (r.rendering.render (.settlement view)).content := by
  obtain ⟨t, rfl, ht⟩ := Processors.reach_phases h
  obtain ⟨hphase, -⟩ := Processors.returned_phases ht hc hstatus
  obtain ⟨o, id, hfor, rfl, row, hrow, rfl, hcols⟩ :=
    Reads.deposited ht c _ hphase hsettled
  have hrowIs : row = { o.row with id := row.id, settledAt := row.settledAt } := by
    rw [← hcols]
  have hkey : row.idempotencyKey = deriveIdempotencyKey env.prim o.packet.signingBytes :=
    congrArg Settlement.idempotencyKey hcols
  refine ⟨o, .modelValidate row, hfor, congrArg Api.SettlementView.modelValidate hrowIs,
    congrArg some hkey.symm, rfl, ?_⟩
  intro ok' s' hlater
  obtain ⟨t', rfl, ht'⟩ := Reach.lift t (State.map Phase.prog)
    (fun l s => step_map (processCode_same env) l s) (fun _ _ h => h) hlater
  have hread : Api.readSettlement t'.store true row.idempotencyKey =
      .settlement (.modelValidate row) :=
    Api.readSettlement_mono (Reads.rows_stay ht') (Api.readSettlement_row ht hrow)
  have hplain : Plain row.idempotencyKey.toList := hkey ▸ key_plain env.prim _
  have hfetch := fetch_plain r t'.store true true
    ((keyParameter_text env.prim o.packet.signingBytes).trans hkey.symm) hplain (hvalid _)
  rw [if_neg (by decide), hread] at hfetch
  exact hfetch

end Settled

/-! ## The reference payment -/

section Payment

open Reference
open MeshSettle.Theorems.Allowlist (rfcClient defaultUrls)

/-- A browser that has no dot segment to remove. -/
def plainBrowser : Browser := ⟨id, fun _ _ _ => rfl⟩

/-- `bytes.decode("utf-8")`. -/
def decodeUtf8 (raw : Bytes) : Option String := String.fromUTF8? ⟨raw.toArray⟩

theorem decodeUtf8_utf8 (s : String) : decodeUtf8 (utf8 s) = some s := by
  have hbytes : (⟨(utf8 s).toArray⟩ : ByteArray) = s.toUTF8 := by
    unfold utf8
    rw [Array.toArray_toList]
  unfold decodeUtf8
  rw [hbytes]
  exact dif_pos s.isValidUTF8

/-- UTF-8 decoding of the octets. -/
def utf8Server : Uvicorn where
  path raw := ((decodeUtf8 (percentDecode raw)).getD "").toList
  decodes := by
    intro raw text h
    have hbytes : encode text = utf8 (String.ofList text) := by
      rw [utf8_eq_encode, String.toList_ofList]
    rw [h, hbytes, decodeUtf8_utf8]
    exact String.toList_ofList

/-- A rendering that shows the packet id. -/
def idRendering : Rendering where
  render reply :=
    { statusCode := reply.statusCode
      content := match reply with
        | .settlement view => utf8 view.packetId.str
        | _ => []
      contentType := none }
  status _ := rfl

/-- The demo's default route. -/
def defaultRoute : LookupRoute :=
  ⟨plainBrowser, utf8Server, rfcClient, defaultUrls, idRendering, fun _ => none⟩

/-- The page asks for the payment before it is settled. -/
theorem lookup_transparent_unsettled :
    defaultRoute.fetchSettlement (World.empty : World Unit) true true
        (deriveIdempotencyKey onePayment.prim payment.signingBytes) =
      defaultRoute.body (Api.readSettlement (World.empty : World Unit) true
        (deriveIdempotencyKey onePayment.prim payment.signingBytes)) := by
  rw [lookup_transparent onePayment.prim payment.signingBytes defaultRoute World.empty true true
    rfl]
  exact if_neg (by decide)

/-- The page finds the settled payment. -/
theorem settled_fetched_payment : ∃ view : Api.SettlementView,
    some key = some view.idempotencyKey ∧
      defaultRoute.fetchSettlement (settled.core.map Phase.prog).store true true
        view.idempotencyKey = some (defaultRoute.rendering.render (.settlement view)).content := by
  have hcall := congrArg (Option.map (Call.map Phase.prog)) settled_call
  obtain ⟨o, view, -, -, hkey, -, hfetch⟩ :=
    settled_fetched reach_processors_settled (c := 0) hcall rfl rfl defaultRoute fun _ => rfl
  exact ⟨view, hkey, hfetch free _ .start⟩

end Payment

end MeshSettle.Theorems.Lookup
