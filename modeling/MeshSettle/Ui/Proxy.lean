import MeshSettle.Lib.Url
import MeshSettle.Mesh.Relay

/-!
# The proxy of the demo UI (`services/ui/app.py`)

Four calls, each to one upstream. A call builds a URL from a configured base,
lets httpx parse it, and passes the answer through. The base URLs are of the
form `scheme://authority`, with slashes behind it or none. What a URL may not
hold is quoted by httpx in the path; percent-decoding undoes it, and it is left
out here.
-/

namespace MeshSettle.Ui

open Lib.Url

/-! ## Configuration and client -/

/-- The base URL of an upstream. -/
structure BaseUrl where
  scheme : List Char
  authority : List Char
  slashes : Nat
  scheme_ne : scheme ≠ []
  authority_ne : authority ≠ []
  scheme_chars : ∀ c ∈ scheme, inScheme c = true
  authority_chars : ∀ c ∈ authority, inAuthority c = true

/-- The URL without the slashes behind it. -/
def BaseUrl.stem (base : BaseUrl) : List Char := base.scheme ++ ':' :: '/' :: '/' :: base.authority

/-- The URL as it is configured. -/
def BaseUrl.text (base : BaseUrl) : String :=
  String.ofList (base.stem ++ List.replicate base.slashes '/')

/-- The upstreams of the proxy. -/
structure UiSettings where
  senderUrl : BaseUrl
  meshRelayUrl : BaseUrl
  settlementUrl : BaseUrl

/-- httpx and Starlette: the URLs that raise `InvalidURL`, the removal of dot
segments, and what `json=` sends of a body that `request.json()` reads. -/
structure Httpx where
  invalidUrl : String → Bool
  dots : DotRemoval
  reencode : Bytes → Option Bytes

/-- `httpx.URL(url)`. -/
def Httpx.parse (httpx : Httpx) (url : String) : Option Components :=
  if httpx.invalidUrl url then none
  else
    let parts := split url.toList
    some { parts with path := httpx.dots.run parts.path }

/-! ## The four calls -/

/-- The methods that the proxy uses. -/
inductive Method where
  | get
  | post

/-- A request to an upstream. -/
structure UpstreamRequest where
  method : Method
  url : Components
  body : Option Bytes

/-- The answer of an upstream. -/
structure UpstreamResponse where
  statusCode : Nat
  content : Bytes
  contentType : Option String

/-- What the page gets. `plain` is the 500 of an unhandled exception. -/
inductive UiReply where
  | response (content : Bytes) (statusCode : Nat) (mediaType : String)
  | error (httpStatus : Nat) (r : ErrorResponse)
  | plain (httpStatus : Nat)

/-- `_bad_gateway`. -/
def badGateway (detail : String) : UiReply := .error 502 ⟨.internalError, detail⟩

/-- `_passthrough`. -/
def passthrough (upstream : UpstreamResponse) : UiReply :=
  .response upstream.content upstream.statusCode
    (upstream.contentType.getD "application/json")

/-- A proxied call: the request that is sent, if one is, and the reply. `send`
answers a request or raises an `httpx.HTTPError`. -/
def forward (httpx : Httpx) (send : UpstreamRequest → Option UpstreamResponse) (method : Method)
    (url : String) (body : Option Bytes) (detail : String) : Option UpstreamRequest × UiReply :=
  match httpx.parse url with
  | none => (none, .plain 500) -- `InvalidURL` is not an `HTTPError`
  | some parts =>
      let request : UpstreamRequest := ⟨method, parts, body⟩
      match send request with
      | some upstream => (some request, passthrough upstream)
      | none => (some request, badGateway detail)

section Calls

variable (httpx : Httpx) (settings : UiSettings)
  (send : UpstreamRequest → Option UpstreamResponse)

/-- `POST /api/packets`. -/
def createPacket (raw : Bytes) : Option UpstreamRequest × UiReply :=
  match httpx.reencode raw with
  | none => (none, .plain 500)
  | some body =>
      forward httpx send .post (rstripSlash settings.senderUrl.text ++ "/packets") (some body)
        "the sender service is unreachable"

/-- `POST /api/relay`. -/
def relayPacket (raw : Bytes) : Option UpstreamRequest × UiReply :=
  forward httpx send .post (rstripSlash settings.meshRelayUrl.text ++ "/relay") (some raw)
    "the mesh relay is unreachable"

/-- A path parameter as the router hands it over, percent-decoded. -/
structure PathParameter where
  text : String
  nonempty : text ≠ ""
  noSlash : '/' ∉ text.toList

/-- The URL of one settlement. -/
def settlementUrl (idempotencyKey : PathParameter) : String :=
  rstripSlash settings.settlementUrl.text ++ "/settlements/" ++ idempotencyKey.text

/-- `GET /api/settlements/{idempotency_key}`. -/
def readSettlement (idempotencyKey : PathParameter) : Option UpstreamRequest × UiReply :=
  forward httpx send .get (settlementUrl settings idempotencyKey) none
    "the settlement service is unreachable"

/-- `GET /api/metrics`. -/
def readMetrics : Option UpstreamRequest × UiReply :=
  forward httpx send .get (rstripSlash settings.settlementUrl.text ++ "/metrics") none
    "the settlement service is unreachable"

end Calls

/-! ## What is sent -/

section Sent

variable {httpx : Httpx} {send : UpstreamRequest → Option UpstreamResponse} {method : Method}
  {body : Option Bytes} {detail : String} {request : UpstreamRequest}

/-- Stripping the slashes of a base URL leaves its stem. -/
theorem BaseUrl.rstripSlash_text (base : BaseUrl) :
    rstripSlash base.text = String.ofList base.stem := by
  unfold rstripSlash BaseUrl.text
  rw [String.toList_ofList]
  refine congrArg String.ofList ?_
  induction base.slashes with
  | zero =>
      obtain ⟨init, last, hauthority⟩ :=
        (List.eq_nil_or_concat base.authority).resolve_left base.authority_ne
      have hlast : inAuthority last = true :=
        base.authority_chars last (by rw [hauthority]; simp)
      have hslash : last ≠ '/' := by
        rintro rfl
        cases hlast
      have hstem : base.stem = (base.scheme ++ ':' :: '/' :: '/' :: init) ++ [last] := by
        unfold BaseUrl.stem
        rw [hauthority]
        simp
      rw [List.replicate_zero, List.append_nil, hstem]
      exact List.rdropWhile_concat_neg _ _ _ (by simpa using hslash)
  | succ n ih =>
      rw [List.replicate_succ', ← List.append_assoc, List.rdropWhile_concat_pos _ _ _ (by simp)]
      exact ih

/-- A request goes where its URL leads after the dot segments are removed. -/
theorem forward_request {url : String}
    (h : (forward httpx send method url body detail).1 = some request) :
    httpx.invalidUrl url = false ∧ request.method = method ∧ request.body = body ∧
      request.url = { split url.toList with
        path := httpx.dots.run (split url.toList).path } := by
  unfold forward Httpx.parse at h
  split at h
  · cases h
  · next parts hparts =>
      split at hparts
      · cases hparts
      · next hvalid =>
          cases hparts
          dsimp only at h
          split at h <;> cases h <;> exact ⟨by simpa using hvalid, rfl, rfl, rfl⟩

/-- A URL that httpx takes is requested. -/
theorem forward_sends {url : String} (h : httpx.invalidUrl url = false) :
    ∃ request, (forward httpx send method url body detail).1 = some request := by
  unfold forward Httpx.parse
  rw [if_neg (by simp [h])]
  dsimp only
  split <;> exact ⟨_, rfl⟩

/-- **Whatever is pasted behind a base URL and a slash, the request goes to the
configured upstream.** -/
theorem forward_host {base : BaseUrl} {rest : List Char}
    (h : (forward httpx send method (rstripSlash base.text ++ String.ofList ('/' :: rest)) body
      detail).1 = some request) :
    request.url =
      { scheme := some base.scheme
        authority := some base.authority
        path := httpx.dots.run ('/' :: rest.takeWhile inPath)
        query := (cutQuery (rest.dropWhile inPath)).1
        fragment := cutFragment (cutQuery (rest.dropWhile inPath)).2 } := by
  have hurl : (rstripSlash base.text ++ String.ofList ('/' :: rest)).toList =
      base.scheme ++ ':' :: '/' :: '/' :: (base.authority ++ '/' :: rest) := by
    rw [base.rstripSlash_text]
    simp [BaseUrl.stem]
  obtain ⟨-, -, -, hrequest⟩ := forward_request h
  rw [hrequest, hurl, split_pasted base.scheme_ne base.scheme_chars base.authority_chars]

end Sent

end MeshSettle.Ui
