import MeshSettle.Settlement.Api
import MeshSettle.Ui.Proxy

/-!
# A lookup on its way from the page to the table

`fetchSettlement` of the page, its route in the UI, the proxied call and its
route in the settlement service. The key is written into a path twice and read
from one twice: encoded by the page and decoded by the UI's server, then pasted
by the proxy and decoded by the settlement service's server.

A key that one reading leaves whole comes through both: `fetch_plain`.
-/

namespace MeshSettle.Ui

open Lib.Unicode (encode encode_cons encode_append)
open Lib.Url

/-! ## Paths and their readers -/

/-- A segment that a browser takes for a dot segment: one that decodes to it. -/
def DecodesToDot (segment : List Char) : Prop :=
  percentDecode segment = encode ['.'] ∨ percentDecode segment = encode ['.', '.']

/-- How a browser resolves an absolute path. -/
structure Browser where
  resolve : List Char → List Char
  keeps : ∀ rest, (∀ c ∈ rest, c = '/' ∨ c = '%' ∨ isUnescaped c = true) →
    (∀ s ∈ segments rest, ¬ DecodesToDot s) → resolve ('/' :: rest) = '/' :: rest

/-- How uvicorn decodes the path of a request. -/
structure Uvicorn where
  path : List Char → List Char
  decodes : ∀ raw text, percentDecode raw = encode text → path raw = text

/-- A text that `[^/]+` matches. -/
def parameter (text : List Char) : Option PathParameter :=
  if h : text ≠ [] ∧ '/' ∉ text then
    some
      { text := String.ofList text
        nonempty := fun hnil => h.1 (String.ofList_inj.mp hnil)
        noSlash := by rw [String.toList_ofList]; exact h.2 }
  else none

/-- The parameter of a route `base{name}`, as Starlette matches it. -/
def pathParameter (base path : List Char) : Option PathParameter :=
  if base <+: path then parameter (path.drop base.length) else none

theorem pathParameter_append (base : List Char) (key : PathParameter) :
    pathParameter base (base ++ key.text.toList) = some key := by
  have htext : key.text.toList ≠ [] := by
    intro hnil
    exact key.nonempty (String.toList_inj.mp hnil)
  unfold pathParameter parameter
  rw [if_pos (List.prefix_append _ _), List.drop_left, dif_pos ⟨htext, key.noSlash⟩]
  cases key
  simp

/-- Behind a prefix without escapes, decoding goes on as from the start. -/
theorem percentDecode_append {base rest : List Char} (h : '%' ∉ base) :
    percentDecode (base ++ rest) = encode base ++ percentDecode rest := by
  induction base with
  | nil => rfl
  | cons c base ih =>
      rw [List.mem_cons, not_or] at h
      rw [List.cons_append, percentDecode_cons (Ne.symm h.1), ih h.2, encode_cons,
        List.append_assoc]

/-! ## The route of a lookup -/

/-- FastAPI's response to an answer. -/
structure Rendering where
  render : Api.ApiReply → UpstreamResponse
  status : ∀ reply, (render reply).statusCode = reply.statusCode

/-- What a lookup passes through, and who answers the proxy's other requests. -/
structure LookupRoute where
  browser : Browser
  uvicorn : Uvicorn
  httpx : Httpx
  settings : UiSettings
  rendering : Rendering
  elsewhere : UpstreamRequest → Option UpstreamResponse

/-- `response.ok`, and then the body that the page parses. The errors of the
proxy itself are a 500 and a 502. -/
def okBody : UiReply → Option Bytes
  | .response content statusCode _ =>
      if 200 ≤ statusCode ∧ statusCode < 300 then some content else none
  | .error _ _ | .plain _ => none

namespace LookupRoute

variable {ι : Type} (r : LookupRoute) (w : World ι) (connected reachable : Bool)

/-- What is sent to the settlement service is answered, if it is connected. -/
def send (request : UpstreamRequest) : Option UpstreamResponse :=
  if request.url.scheme = some r.settings.settlementUrl.scheme ∧
      request.url.authority = some r.settings.settlementUrl.authority then
    if connected = false then none
    else
      match pathParameter "/settlements/".toList (r.uvicorn.path request.url.path) with
      | some key => some (r.rendering.render (Api.readSettlement w reachable key.text))
      | none => r.elsewhere request
  else r.elsewhere request

/-- `GET path` at the UI, where the path is one of a lookup. -/
def uiReply (path : List Char) : Option UiReply :=
  (pathParameter "/api/settlements/".toList (r.uvicorn.path path)).map fun key =>
    (readSettlement r.httpx r.settings (r.send w connected reachable) key).2

/-- `fetchSettlement` of the page. A path without a route is a 404. -/
def fetchSettlement (key : String) : Option Bytes :=
  let path := r.browser.resolve ("/api/settlements/".toList ++ encodeURIComponent key.toList)
  (r.uiReply w connected reachable path).bind okBody

/-- The body that the page parses of a direct answer. -/
def body : Api.ApiReply → Option Bytes
  | .settlement view => some (r.rendering.render (.settlement view)).content
  | _ => none

end LookupRoute

end MeshSettle.Ui
