import MeshSettle.Ui.Proxy

/-!
# Where a settlement lookup goes

The router decodes the path parameter of `GET /api/settlements/{key}` and the
proxy pastes it into a URL, which httpx reads once more. The request stays with
the configured upstream (`forward_host`), but it asks for the parameter only if
the second reading leaves the parameter alone: no dot segment, no question
mark, no hash and no percent escape.
-/

namespace MeshSettle.Theorems.Allowlist

open Lib.Unicode (encode encode_eq_nil)
open Lib.Url Ui

variable {httpx : Httpx} {settings : UiSettings}
  {send : UpstreamRequest → Option UpstreamResponse} {key : PathParameter}

/-- A URL on the upstream `base` whose path is `/settlements/` and one segment
that decodes to `key`, without query and fragment. -/
structure AsksFor (base : BaseUrl) (key : PathParameter) (url : Components) : Prop where
  scheme : url.scheme = some base.scheme
  authority : url.authority = some base.authority
  path : ∃ segment, '/' ∉ segment ∧ url.path = "/settlements/".toList ++ segment ∧
    percentDecode segment = utf8 key.text
  query : url.query.getD [] = []
  fragment : url.fragment.getD [] = []

/-- The lookup sends no request for anything else. -/
def StaysOnAllowlist (httpx : Httpx) (settings : UiSettings)
    (send : UpstreamRequest → Option UpstreamResponse) (key : PathParameter) : Prop :=
  ∀ request, (readSettlement httpx settings send key).1 = some request →
    AsksFor settings.settlementUrl key request.url

/-- Text that a URL parser leaves alone as a segment. -/
structure Plain (text : List Char) : Prop where
  notDot : ¬ IsDot text
  inPath : ∀ c ∈ text, inPath c = true
  noEscape : HasEscape text = false

/-- What the lookup requests, whatever the key. -/
theorem readSettlement_url {request : UpstreamRequest}
    (h : (readSettlement httpx settings send key).1 = some request) :
    request.url =
      { scheme := some settings.settlementUrl.scheme
        authority := some settings.settlementUrl.authority
        path := httpx.dots.run
          ('/' :: ("settlements/".toList ++ key.text.toList.takeWhile inPath))
        query := (cutQuery (key.text.toList.dropWhile inPath)).1
        fragment := cutFragment (cutQuery (key.text.toList.dropWhile inPath)).2 } := by
  have htext : settlementUrl settings key = rstripSlash settings.settlementUrl.text ++
      String.ofList ('/' :: ("settlements/".toList ++ key.text.toList)) := by
    refine String.toList_inj.mp ?_
    simp [settlementUrl]
  have hsettlements : ∀ c ∈ "settlements/".toList, inPath c = true :=
    List.all_eq_true.mp (by decide)
  unfold readSettlement at h
  rw [htext] at h
  rw [forward_host h, List.takeWhile_append_of_pos hsettlements,
    List.dropWhile_append_of_pos hsettlements]

theorem readSettlement_sends (h : httpx.invalidUrl (settlementUrl settings key) = false) :
    ∃ request, (readSettlement httpx settings send key).1 = some request :=
  forward_sends h

/-- The segments behind the root of a lookup. -/
theorem segments_lookup {segment : List Char} (h : '/' ∉ segment) :
    segments ("settlements/".toList ++ segment) = ["settlements".toList, segment] := by
  show ("settlements".toList ++ '/' :: segment).splitOn '/' = _
  rw [List.splitOn_append_cons_self_of_not_mem (by decide), List.splitOn_eq_singleton h]

/-- A plain key is asked for. -/
theorem asksFor_of_plain {request : UpstreamRequest} (hplain : Plain key.text.toList)
    (h : (readSettlement httpx settings send key).1 = some request) :
    AsksFor settings.settlementUrl key request.url := by
  obtain ⟨htake, hquery⟩ := cutQuery_of_inPath hplain.inPath
  have hdots : ∀ s ∈ segments ("settlements/".toList ++ key.text.toList), ¬ IsDot s := by
    rw [segments_lookup key.noSlash]
    intro s hs
    rcases List.mem_cons.mp hs with rfl | hs
    · decide
    · rw [List.mem_singleton.mp hs]
      exact hplain.notDot
  rw [readSettlement_url h, htake, hquery, httpx.dots.keeps _ hdots]
  exact
    { scheme := rfl
      authority := rfl
      path := ⟨key.text.toList, key.noSlash, rfl, by
        rw [utf8_eq_encode]
        exact (percentDecode_eq_encode _).mpr hplain.noEscape⟩
      query := rfl
      fragment := rfl }

/-- A key that is asked for is plain. -/
theorem plain_of_asksFor {request : UpstreamRequest}
    (h : (readSettlement httpx settings send key).1 = some request)
    (hasks : AsksFor settings.settlementUrl key request.url) : Plain key.text.toList := by
  obtain ⟨segment, hslash, hpath, hdecode⟩ := hasks.path
  have hbegins : key.text.toList.takeWhile inPath <+: key.text.toList :=
    List.takeWhile_prefix _
  have hnoslash : '/' ∉ key.text.toList.takeWhile inPath := fun hmem =>
    key.noSlash (hbegins.subset hmem)
  rw [utf8_eq_encode] at hdecode
  rw [readSettlement_url h] at hpath
  dsimp only at hpath
  by_cases hdot : IsDot (key.text.toList.takeWhile inPath)
  · -- the dot segment is gone, and no segment that is left decodes to the key
    have hne : segment ≠ [] := by
      rintro rfl
      have hnil : key.text.toList = [] := encode_eq_nil hdecode.symm
      exact key.nonempty (String.toList_inj.mp hnil)
    have hmem : segment ∈ segments (httpx.dots.run
        ('/' :: ("settlements/".toList ++ key.text.toList.takeWhile inPath))) := by
      rw [hpath]
      show segment ∈ segments ('/' :: ("settlements/".toList ++ segment))
      rw [segments_slash, segments_lookup hslash]
      simp
    obtain ⟨hold, hnotDot⟩ := httpx.dots.drops _ segment hmem hne
    rw [segments_lookup hnoslash] at hold
    rcases List.mem_cons.mp hold with rfl | hold
    · have hplain : percentDecode "settlements".toList = encode "settlements".toList :=
        (percentDecode_eq_encode _).mpr (by decide)
      have hkey : key.text = "settlements" := by
        apply utf8_inj
        rw [utf8_eq_encode, utf8_eq_encode, ← hdecode, hplain]
      rw [hkey] at hdot
      exact absurd hdot (by decide)
    · rw [List.mem_singleton.mp hold] at hnotDot
      exact absurd hdot hnotDot
  · -- nothing is removed, so the last segment is what the key has in front of a mark
    have hdots : ∀ s ∈ segments ("settlements/".toList ++ key.text.toList.takeWhile inPath),
        ¬ IsDot s := by
      rw [segments_lookup hnoslash]
      intro s hs
      rcases List.mem_cons.mp hs with rfl | hs
      · decide
      · rw [List.mem_singleton.mp hs]
        exact hdot
    rw [httpx.dots.keeps _ hdots] at hpath
    have hsegment : key.text.toList.takeWhile inPath = segment :=
      List.append_cancel_left (List.cons.inj hpath).2
    rw [← hsegment] at hdecode
    obtain ⟨hwhole, hescape⟩ := eq_of_percentDecode_prefix hbegins hdecode
    exact
      { notDot := hwhole ▸ hdot
        inPath := List.takeWhile_eq_self_iff.mp hwhole
        noEscape := hescape }

/-- **A lookup stays on the allowlist exactly for the plain keys**, those that
httpx refuses apart. -/
theorem stays_iff_plain (httpx : Httpx) (settings : UiSettings)
    (send : UpstreamRequest → Option UpstreamResponse) (key : PathParameter) :
    StaysOnAllowlist httpx settings send key ↔
      httpx.invalidUrl (settlementUrl settings key) = true ∨ Plain key.text.toList := by
  constructor
  · intro hstays
    cases hvalid : httpx.invalidUrl (settlementUrl settings key) with
    | true => exact .inl rfl
    | false =>
        obtain ⟨request, hrequest⟩ : ∃ request,
            (readSettlement httpx settings send key).1 = some request :=
          readSettlement_sends hvalid
        exact .inr (plain_of_asksFor hrequest (hstays request hrequest))
  · rintro (hinvalid | hplain) request hrequest
    · rw [(forward_request hrequest).1] at hinvalid
      cases hinvalid
    · exact asksFor_of_plain hplain hrequest

/-- httpx with the removal of dot segments of the RFC, on URLs that it takes. -/
def rfcClient : Httpx where
  invalidUrl := fun _ => false
  dots := rfc3986
  reencode := some

/-- `http://localhost:PORT`. -/
def localhost (port : List Char) (h : port.all inAuthority = true) : BaseUrl where
  scheme := "http".toList
  authority := "localhost:".toList ++ port
  slashes := 0
  scheme_ne := by decide
  authority_ne := by simp
  scheme_chars := List.all_eq_true.mp (by decide)
  authority_chars := by
    have hname : ∀ c ∈ "localhost:".toList, inAuthority c = true :=
      List.all_eq_true.mp (by decide)
    intro c hc
    exact (List.mem_append.mp hc).elim (hname c) (List.all_eq_true.mp h c)

/-- The upstreams that the settings default to. -/
def defaultUrls : UiSettings where
  senderUrl := localhost "8001".toList (by decide)
  meshRelayUrl := localhost "8002".toList (by decide)
  settlementUrl := localhost "8004".toList (by decide)

/-- `settle:abc?x`, sent to the page's API as `settle:abc%3Fx`. -/
def markedKey : PathParameter := ⟨"settle:abc?x", by decide, by decide⟩

/-- **A key with a question mark asks for another settlement.** -/
theorem question_mark_strays :
    ¬ StaysOnAllowlist rfcClient defaultUrls (fun _ => none) markedKey := by
  intro hstays
  obtain ⟨request, hrequest⟩ : ∃ request,
      (readSettlement rfcClient defaultUrls (fun _ => none) markedKey).1 = some request :=
    readSettlement_sends rfl
  have hmark := (plain_of_asksFor hrequest (hstays request hrequest)).inPath '?' (by decide)
  cases hmark

end MeshSettle.Theorems.Allowlist
