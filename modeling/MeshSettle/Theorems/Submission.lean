import MeshSettle.Mesh.Reference

/-!
# A neighbour's answer and a submission

Once the mesh node has answered 2xx the packet is on its way, and the payer
should be told its identity. The sender reads the body of that answer without
a handler around it: a body that is no JSON object, or has other values under
`status` or `hop_count`, turns the submission into a 500.
-/

namespace MeshSettle.Theorems.Submission

open Lib.Schema

/-- The node has taken the packet over. -/
def Accepts : Reaction → Prop
  | .transportError => False
  | .answered httpStatus _ => isSuccess httpStatus = true

/-- What a submission is to answer. -/
def Answers (prim : Primitives) (packet : PaymentPacket) (reaction : Reaction)
    (reply : SenderReply) : Prop :=
  (Accepts reaction → reply.httpStatus = 202 ∧ ∃ r, reply = .submitted r ∧
    r.packetId = packet.packetId ∧ r.idempotencyKey = packet.idempotencyKey prim) ∧
  (¬ Accepts reaction → ∃ r, reply = .failed (.error 502 r))

/-- The report of a node is an object; a status in it is one of the five, and
`int()` takes a hop count in it. -/
def WellFormed (report : Json) : Prop :=
  ∃ members, report.members = some members ∧
    (∀ j, lookup "status" members = some j → ∃ status : PacketStatus, j = .str status.value) ∧
    (∀ j, lookup "hop_count" members = some j → ∃ n, Lib.Numeral.toInt j = some n)

/-- The answer is not a 2xx, or has no body, or one that is a well-formed
report. -/
def Understood (jsonLoads : Bytes → Except LoadsFailure Json) : Reaction → Prop
  | .transportError => True
  | .answered httpStatus content =>
      isSuccess httpStatus = true → content = [] ∨
        ∃ report, jsonLoads content = .ok report ∧ WellFormed report

/-! ## Reading a report -/

theorem ofJson_value (status : PacketStatus) :
    PacketStatus.ofJson (.str status.value) = some status := by
  cases status <;> decide

theorem ofJson_some {j : Json} {status : PacketStatus} (h : PacketStatus.ofJson j = some status) :
    j = .str status.value := by
  cases j with
  | str s =>
      have hfound := List.find?_some h
      rw [of_decide_eq_true hfound]
  | _ => cases h

/-- The five statuses are what `PacketStatus(value)` takes. -/
theorem ofJson_isSome (j : Json) : (∃ status, PacketStatus.ofJson j = some status) ↔
    ∃ status : PacketStatus, j = .str status.value := by
  constructor
  · rintro ⟨status, h⟩
    exact ⟨status, ofJson_some h⟩
  · rintro ⟨status, rfl⟩
    exact ⟨status, ofJson_value status⟩

/-- A value with a default is taken when it is taken where it is present. -/
theorem exists_getD {α : Type} {f : Json → Option α} {default : Json} {a : α}
    (hdefault : f default = some a) (o : Option Json) :
    (∃ b, f (o.getD default) = some b) ↔ ∀ j, o = some j → ∃ b, f j = some b := by
  cases o with
  | none => exact iff_of_true ⟨a, hdefault⟩ (fun j hj => nomatch hj)
  | some j =>
      constructor
      · rintro h j' hj'
        cases hj'
        exact h
      · exact fun h => h j rfl

/-- **A report is read** exactly when it is well-formed. -/
theorem readReport_isSome (report : Json) :
    (∃ r, readReport report = some r) ↔ WellFormed report := by
  cases hreport : report.members with
  | some members =>
      have hstatus := exists_getD (ofJson_value .relayed) (lookup "status" members)
      have hhops := exists_getD (show Lib.Numeral.toInt (.int 0) = some 0 from rfl)
        (lookup "hop_count" members)
      simp only [ofJson_isSome] at hstatus
      constructor
      · rintro ⟨r, h⟩
        simp only [readReport, hreport] at h
        split at h
        · next status hopCount hs hh =>
            exact ⟨members, hreport, hstatus.mp ⟨status, ofJson_some hs⟩, hhops.mp ⟨hopCount, hh⟩⟩
        · cases h
      · rintro ⟨members', hmembers, hs, hh⟩
        cases hreport.symm.trans hmembers
        obtain ⟨status, hs⟩ := (ofJson_isSome _).mpr (hstatus.mpr hs)
        obtain ⟨hopCount, hh⟩ := hhops.mpr hh
        refine ⟨(status, hopCount), ?_⟩
        simp only [readReport, hreport, hs, hh]
  | none =>
      refine iff_of_false ?_ ?_
      · rintro ⟨r, h⟩
        simp only [readReport, hreport] at h
        cases h
      · rintro ⟨members, hmembers, -⟩
        cases hreport.symm.trans hmembers

/-- A 2xx answer is read through to its report. -/
theorem report_isSome (jsonLoads : Bytes → Except LoadsFailure Json) (content : Bytes) :
    (∃ r, (reported jsonLoads content).bind readReport = some r) ↔ content = [] ∨
      ∃ report, jsonLoads content = .ok report ∧ WellFormed report := by
  unfold reported
  split
  · next hempty =>
      exact iff_of_true ⟨(.relayed, 0), rfl⟩ (.inl hempty)
  · next hne =>
      cases hloads : jsonLoads content with
      | ok report =>
          simp [hne, ← readReport_isSome]
      | error e => simp [hne]

/-- **A submission answers as it should** exactly when the node's answer is
understood. -/
theorem submission_iff (prim : Primitives) (sealer : SealPrimitives) (web : FastApi)
    (jsonLoads : Bytes → Except LoadsFailure Json) (node : SenderNode) (draws : Draws)
    (mesh : Bytes → Reaction) (rawBody : Bytes) (request : TransactionRequest)
    (hrequest : readBody web TransactionRequest.validate rawBody = .ok request) :
    ∃ packet, buildPacket prim sealer node draws request = .ok packet ∧
      (Answers prim packet (mesh packet.modelDumpJson)
          (submitPacket prim sealer web jsonLoads node draws mesh rawBody) ↔
        Understood jsonLoads (mesh packet.modelDumpJson)) := by
  refine ⟨_, buildPacket_ok prim sealer node draws request, ?_⟩
  rw [submitPacket_ok hrequest]
  generalize builtPacket prim sealer node draws request = packet
  unfold handOver
  cases hmesh : mesh packet.modelDumpJson with
  | transportError => exact iff_of_true ⟨False.elim, fun _ => ⟨_, rfl⟩⟩ trivial
  | answered httpStatus content =>
      dsimp only
      by_cases hok : isSuccess httpStatus = true
      · rw [if_pos hok, Understood, ← report_isSome]
        cases hreport : (reported jsonLoads content).bind readReport with
        | none =>
            refine iff_of_false (fun h => ?_) (fun h => ?_)
            · obtain ⟨-, r, hr, -⟩ := h.1 hok
              cases hr
            · obtain ⟨r, hr⟩ := h hok
              cases hr
        | some report =>
            exact iff_of_true ⟨fun _ => ⟨rfl, _, rfl, rfl, rfl⟩, fun h => absurd hok h⟩
              fun _ => ⟨report, rfl⟩
      · rw [if_neg hok]
        exact iff_of_true ⟨fun h => absurd h hok, fun _ => ⟨_, rfl⟩⟩ fun h => absurd h hok

/-- The report of a packet that is on the queue after two hops. -/
def bridgedReport : Json :=
  .obj [("status", .str PacketStatus.bridged.value), ("hop_count", .int 2)]

theorem understood_bridged :
    Understood Reference.loads (.answered 202 (document bridgedReport)) := by
  intro _
  refine .inr ⟨bridgedReport, Reference.loads_loadsBack _ ?_, _, rfl, ?_, ?_⟩
  · simp [bridgedReport, Lib.Document.Simple, Lib.Document.SimpleMembers]
  · intro j hj
    exact ⟨.bridged, (Option.some.inj hj).symm⟩
  · intro j hj
    exact ⟨2, by rw [← Option.some.inj hj]; rfl⟩

/-- The payment of the reference request, with a node that reports a status and a
hop count. -/
theorem submission_iff_request :
    ∃ packet, buildPacket Reference.onePayment.prim Reference.sealer Reference.device
        Reference.draws Reference.request = .ok packet ∧
      Answers Reference.onePayment.prim packet (.answered 202 (document bridgedReport))
        (submitPacket Reference.onePayment.prim Reference.sealer Reference.web Reference.loads
          Reference.device Reference.draws (fun _ => .answered 202 (document bridgedReport))
          (document Reference.request.toJson)) := by
  obtain ⟨packet, hpacket, hiff⟩ := submission_iff Reference.onePayment.prim Reference.sealer
    Reference.web Reference.loads Reference.device Reference.draws
    (fun _ => .answered 202 (document bridgedReport)) (document Reference.request.toJson)
    Reference.request (readBody_request Reference.web_readsBack Reference.request)
  exact ⟨packet, hpacket, hiff.mpr understood_bridged⟩

/-- A node that answers 202 with the body `[]`. -/
theorem listed_report_breaks : ¬ ∀ (prim : Primitives) (sealer : SealPrimitives) (web : FastApi)
    (jsonLoads : Bytes → Except LoadsFailure Json) (node : SenderNode) (draws : Draws)
    (mesh : Bytes → Reaction) (rawBody : Bytes) (request : TransactionRequest),
    readBody web TransactionRequest.validate rawBody = .ok request →
    ∃ packet, buildPacket prim sealer node draws request = .ok packet ∧
      Answers prim packet (mesh packet.modelDumpJson)
        (submitPacket prim sealer web jsonLoads node draws mesh rawBody) := by
  intro h
  have hbody := readBody_request Reference.web_readsBack Reference.request
  obtain ⟨packet, -, hanswers⟩ := h Reference.onePayment.prim Reference.sealer Reference.web
    Reference.loads Reference.device Reference.draws (fun _ => .answered 202 (document (.arr [])))
    (document Reference.request.toJson) Reference.request hbody
  obtain ⟨-, r, hr, -⟩ := hanswers.1 (show isSuccess 202 = true from rfl)
  have hloads : Reference.loads (document (.arr [])) = .ok (.arr []) :=
    Reference.loads_loadsBack _ (by simp [Lib.Document.Simple, Lib.Document.SimpleItems])
  have hne : document (.arr []) ≠ [] := by decide
  rw [submitPacket_ok hbody, handOver] at hr
  simp only [reported, if_neg hne, hloads, Option.bind_some, readReport, Json.members] at hr
  cases hr

end MeshSettle.Theorems.Submission
