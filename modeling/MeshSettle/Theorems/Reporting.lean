import MeshSettle.Ui.Page

/-!
# What the demo page reports of a replay

The page tells a refused duplicate from a changed settlement by the amount that
it has seen last. That is right for an attempt which goes to poll after an
earlier one has seen the settlement, and which nothing overtakes. An attempt
after earlier ones were refused or timed out has nothing to compare with, and
is reported as an unexpected change.
-/

namespace MeshSettle.Theorems.Reporting

open Lib.Transition Ui

variable {Packet Key : Type}

/-! ## Histories -/

/-- A settlement that an attempt has read: the action, its packet, the key it
asked for, the amount, the page's own key at that moment, and the outcome that
the page shows. -/
structure Sighting (Packet Key : Type) where
  flow : Nat
  packet : Packet
  key : Option Key
  amount : Int
  current : Option Key
  outcome : Outcome

/-- The sighting of a step. -/
def sighting : PageLabel Packet Key → Page Packet Key → Option (Sighting Packet Key)
  | .fetched f (some settlement), s =>
      match s.flows f with
      | some (.waiting _ packet attempt key before) =>
          some ⟨f, packet, key, settlement.amountMinor, s.idempotencyKey,
            Page.seen attempt before settlement⟩
      | _ => none
  | _, _ => none

/-- The page, with the sightings so far, latest first. -/
abbrev Watched (Packet Key : Type) := List (Sighting Packet Key) × Page Packet Key

/-- The page under observation. -/
def watched : PageLabel Packet Key → Watched Packet Key → Option (Watched Packet Key) :=
  observed sighting Page.step

/-- The outcome of a sighting is what it says: two reads for the page's key
differ, or an earlier attempt with the packet has seen its settlement. -/
structure Justified (earlier : List (Sighting Packet Key)) (x : Sighting Packet Key) : Prop where
  change : x.outcome = .unexpectedChange → ∃ a ∈ x :: earlier, ∃ b ∈ x :: earlier,
    a.key = x.current ∧ b.key = x.current ∧ a.amount ≠ b.amount
  duplicate : x.outcome = .duplicateRefused → ∃ a ∈ earlier,
    a.flow < x.flow ∧ a.packet = x.packet ∧ a.key = x.key

/-- Every sighting is justified by the earlier ones. -/
def Truthful : List (Sighting Packet Key) → Prop
  | [] => True
  | x :: earlier => Justified earlier x ∧ Truthful earlier

/-- An attempt after the first sees the settlement only if it is the latest
action and an amount had been seen when it went to poll. -/
def Orderly : PageLabel Packet Key → Watched Packet Key → Prop
  | .fetched f (some _), x =>
      match x.2.flows f with
      | some (.waiting _ _ attempt _ before) =>
          attempt = 1 ∨ (x.2.started = f + 1 ∧ before ≠ none)
      | _ => True
  | _, _ => True

/-! ## The invariant -/

/-- The action of a flow. -/
def originOf : InFlight Packet Key → Origin
  | .minting => .sendNewPayment
  | .relaying origin _ _ => origin
  | .waiting origin _ _ _ _ => origin

/-- The number of a flow's attempt, 0 before the first. -/
def attemptOf : InFlight Packet Key → Nat
  | .minting => 0
  | .relaying _ _ attempt => attempt
  | .waiting _ _ attempt _ _ => attempt

/-- The amount was read for the key by an attempt with the packet. -/
def SeenBefore (past : List (Sighting Packet Key)) (packet : Packet) (key : Option Key)
    (amount : Int) : Prop :=
  ∃ a ∈ past, a.packet = packet ∧ a.key = key ∧ a.amount = amount

/-- A flow of the current payment agrees with the page's packet, key and last
amount. -/
def Agrees (past : List (Sighting Packet Key)) (packet : Option Packet) (key : Option Key)
    (settledAmount : Option Int) : InFlight Packet Key → Prop
  | .minting => packet = none ∧ settledAmount = none
  | .relaying _ p _ => packet = some p
  | .waiting _ p _ k before => packet = some p ∧ k = key ∧
      ∀ amount, before = some amount → SeenBefore past p k amount

/-- What holds of a page whose current payment began with action `since`. -/
structure Sound (since : Nat) (past : List (Sighting Packet Key)) (s : Page Packet Key) :
    Prop where
  began : since < s.started ∨ (s.started = 0 ∧ s.packet = none)
  idle : ∀ f, s.started ≤ f → s.flows f = none
  send : ∀ f flow, s.flows f = some flow → originOf flow = .sendNewPayment →
    f = since ∧ s.sendDisabled = true
  replay : ∀ f flow, s.flows f = some flow → originOf flow = .replayPacket → attemptOf flow ≠ 1
  counted : s.packet ≠ none → 0 < s.attempts
  agrees : ∀ f flow, since ≤ f → s.flows f = some flow →
    Agrees past s.packet s.idempotencyKey s.settledAmount flow
  settled : ∀ amount, s.settledAmount = some amount →
    ∃ p, s.packet = some p ∧ SeenBefore past p s.idempotencyKey amount
  ended : ∀ a ∈ past, a.flow < s.started ∧ s.flows a.flow = none

section Steps

variable {since : Nat} {past : List (Sighting Packet Key)} {s : Page Packet Key}

theorem Sound.started (h : Sound since past s) {f : Nat} {flow : InFlight Packet Key}
    (hf : s.flows f = some flow) : f < s.started := by
  by_contra hle
  rw [h.idle f (by omega)] at hf
  cases hf

theorem SeenBefore.cons {x : Sighting Packet Key} {packet : Packet} {key : Option Key}
    {amount : Int} (h : SeenBefore past packet key amount) :
    SeenBefore (x :: past) packet key amount := by
  obtain ⟨a, ha, hrest⟩ := h
  exact ⟨a, List.mem_cons_of_mem _ ha, hrest⟩

/-- An action that has seen a settlement is over. -/
theorem Sound.unseen (h : Sound since past s) {f : Nat} (hf : s.started ≤ f ∨ s.flows f ≠ none) :
    ∀ a ∈ past, a.flow ≠ f := by
  rintro a ha rfl
  obtain ⟨hlt, hover⟩ := h.ended a ha
  rcases hf with hle | hne
  · omega
  · exact hne hover

/-- An action goes on. -/
theorem Sound.put (h : Sound since past s) {f : Nat} {flow : InFlight Packet Key}
    (hlt : f < s.started) (hunseen : ∀ a ∈ past, a.flow ≠ f)
    (hsend : originOf flow = .sendNewPayment → f = since ∧ s.sendDisabled = true)
    (hreplay : originOf flow = .replayPacket → attemptOf flow ≠ 1)
    (hagrees : since ≤ f → Agrees past s.packet s.idempotencyKey s.settledAmount flow) :
    Sound since past { s with flows := Function.update s.flows f (some flow) } := by
  have hcases : ∀ {g : Nat} {flow' : InFlight Packet Key},
      Function.update s.flows f (some flow) g = some flow' →
        (g = f ∧ flow' = flow) ∨ s.flows g = some flow' := by
    intro g flow' hg
    rw [Function.update_apply] at hg
    split at hg
    · next hgf => exact .inl ⟨hgf, (Option.some.inj hg).symm⟩
    · exact .inr hg
  exact
    { h with
      idle := fun g hg =>
        (Function.update_of_ne (Nat.ne_of_gt (Nat.lt_of_lt_of_le hlt hg)) _ _).trans (h.idle g hg)
      send := by
        intro g flow' hg
        rcases hcases hg with ⟨rfl, rfl⟩ | hold
        · exact hsend
        · exact h.send g flow' hold
      replay := by
        intro g flow' hg
        rcases hcases hg with ⟨rfl, rfl⟩ | hold
        · exact hreplay
        · exact h.replay g flow' hold
      agrees := by
        intro g flow' hle hg
        rcases hcases hg with ⟨rfl, rfl⟩ | hold
        · exact hagrees hle
        · exact h.agrees g flow' hle hold
      ended := fun a ha => ⟨(h.ended a ha).1,
        (Function.update_of_ne (hunseen a ha) _ _).trans (h.ended a ha).2⟩ }

/-- An action is over. -/
theorem Sound.close (h : Sound since past s) (f : Nat) :
    Sound since past { s with flows := Function.update s.flows f none } := by
  have hnone : ∀ {g : Nat}, s.flows g = none → Function.update s.flows f none g = none := by
    intro g hg
    rw [Function.update_apply]
    split
    · rfl
    · exact hg
  have hold : ∀ {g : Nat} {flow : InFlight Packet Key},
      Function.update s.flows f none g = some flow → s.flows g = some flow := by
    intro g flow hg
    rw [Function.update_apply] at hg
    split at hg
    · cases hg
    · exact hg
  exact
    { h with
      idle := fun g hg => hnone (h.idle g hg)
      send := fun g flow hg => h.send g flow (hold hg)
      replay := fun g flow hg => h.replay g flow (hold hg)
      agrees := fun g flow hle hg => h.agrees g flow hle (hold hg)
      ended := fun a ha => ⟨(h.ended a ha).1, hnone (h.ended a ha).2⟩ }

/-- **An action ends.** With it the send button is enabled again if it was the
one action that had disabled it. -/
theorem Sound.finish (h : Sound since past s) {f : Nat} {flow : InFlight Packet Key}
    (hf : s.flows f = some flow) : Sound since past (s.finish f (originOf flow)) := by
  have hclosed := h.close f
  cases horigin : originOf flow with
  | replayPacket => exact { hclosed with }
  | sendNewPayment =>
      refine { hclosed with send := fun g flow' hg hsend => ?_ }
      -- the other actions are replays
      have hg' : Function.update s.flows f none g = some flow' := hg
      have hgs : g = since := (hclosed.send g flow' hg hsend).1
      have hfs : f = since := (h.send f flow hf horigin).1
      rw [hgs, ← hfs, Function.update_self] at hg'
      cases hg'

/-- A new payment begins. -/
theorem Sound.sendNewPayment (h : Sound since past s) (henabled : s.sendDisabled = false) :
    Sound s.started past { s with
      packet := none
      idempotencyKey := none
      attempts := 0
      settledAmount := none
      attemptsBody := []
      replayDisabled := true
      sendDisabled := true
      started := s.started + 1
      flows := Function.update s.flows s.started (some .minting) } := by
  have hreset : Sound s.started past { s with
      packet := none
      idempotencyKey := none
      attempts := 0
      settledAmount := none
      attemptsBody := []
      replayDisabled := true
      sendDisabled := true
      started := s.started + 1 } :=
    { began := .inl (Nat.lt_succ_self _)
      idle := fun f hf => h.idle f (Nat.le_of_succ_le hf)
      send := by
        intro f flow hf horigin
        rw [(h.send f flow hf horigin).2] at henabled
        cases henabled
      replay := h.replay
      counted := fun hp => absurd rfl hp
      agrees := fun f flow hle hf => absurd (h.started hf) (Nat.not_lt.mpr hle)
      settled := fun _ hamount => by cases hamount
      ended := fun a ha => ⟨Nat.lt_succ_of_lt (h.ended a ha).1, (h.ended a ha).2⟩ }
  exact hreset.put (Nat.lt_succ_self _) (h.unseen (.inl (Nat.le_refl _))) (fun _ => ⟨rfl, rfl⟩)
    (fun horigin => by cases horigin) (fun _ => ⟨rfl, rfl⟩)

/-- An attempt with the page's packet begins. -/
theorem Sound.replayPacket (h : Sound since past s) {p : Packet} (hp : s.packet = some p) :
    Sound since past (Page.submit { s with replayDisabled := true, started := s.started + 1 }
      s.started .replayPacket p) := by
  have hpos : 0 < s.attempts := h.counted (by rw [hp]; simp)
  have hcounted : Sound since past { s with
      replayDisabled := true
      started := s.started + 1
      attempts := s.attempts + 1 } :=
    { h with
      began := by
        rcases h.began with hlt | ⟨-, hnone⟩
        · exact .inl (Nat.lt_succ_of_lt hlt)
        · cases hnone.symm.trans hp
      idle := fun f hf => h.idle f (Nat.le_of_succ_le hf)
      counted := fun _ => Nat.succ_pos _
      ended := fun a ha => ⟨Nat.lt_succ_of_lt (h.ended a ha).1, (h.ended a ha).2⟩ }
  refine hcounted.put (Nat.lt_succ_self _) (h.unseen (.inl (Nat.le_refl _)))
    (fun horigin => by cases horigin) (fun _ => ?_) (fun _ => hp)
  show s.attempts + 1 ≠ 1
  omega

/-- The packet of a new payment is there, and its first attempt begins. -/
theorem Sound.minted (h : Sound since past s) {f : Nat} (hf : s.flows f = some .minting)
    (p : Packet) (key : Option Key) :
    Sound since past (Page.submit { s with packet := some p, idempotencyKey := key } f
      .sendNewPayment p) := by
  obtain ⟨rfl, hdisabled⟩ := h.send f _ hf rfl
  obtain ⟨hnone, hunsettled⟩ := h.agrees f _ (Nat.le_refl _) hf
  have hclosed := h.close f
  have hcreated : Sound f past { s with
      packet := some p
      idempotencyKey := key
      attempts := s.attempts + 1
      flows := Function.update s.flows f none } :=
    { hclosed with
      began := .inl (h.started hf)
      counted := fun _ => Nat.succ_pos _
      agrees := by
        -- no other action of the payment could begin without the packet
        intro g flow hle hg
        have hagrees := hclosed.agrees g flow hle hg
        cases flow with
        | minting =>
            have hg' : Function.update s.flows f none g = some .minting := hg
            rw [(hclosed.send g _ hg rfl).1, Function.update_self] at hg'
            cases hg'
        | relaying => cases hnone.symm.trans hagrees
        | waiting => cases hnone.symm.trans hagrees.1
      settled := fun amount hamount => by cases hunsettled.symm.trans hamount }
  have hput : Sound f past { s with
      packet := some p
      idempotencyKey := key
      attempts := s.attempts + 1
      flows := Function.update (Function.update s.flows f none) f
        (some (.relaying .sendNewPayment p (s.attempts + 1))) } :=
    hcreated.put (h.started hf) (h.unseen (.inr (by rw [hf]; simp))) (fun _ => ⟨rfl, hdisabled⟩)
      (fun horigin => by cases horigin) (fun _ => rfl)
  rw [Function.update_idem] at hput
  exact hput

/-- A creation without a packet ends the action. -/
theorem Sound.malformed (h : Sound since past s) {f : Nat} (hf : s.flows f = some .minting)
    (key : Option Key) :
    Sound since past { s with packet := none, idempotencyKey := key } := by
  obtain ⟨rfl, hdisabled⟩ := h.send f _ hf rfl
  obtain ⟨hnone, hunsettled⟩ := h.agrees f _ (Nat.le_refl _) hf
  refine { h with
    began := h.began.imp_right (fun hb => ⟨hb.1, rfl⟩), counted := ?_, agrees := ?_, settled := ?_ }
  · intro hp
    exact absurd rfl hp
  · intro g flow hle hg
    have hagrees := h.agrees g flow hle hg
    cases flow with
    | minting => exact ⟨rfl, hunsettled⟩
    | relaying => cases hnone.symm.trans hagrees
    | waiting => cases hnone.symm.trans hagrees.1
  · intro amount hamount
    cases hunsettled.symm.trans hamount

/-- The mesh has accepted the packet, and the attempt goes to poll. -/
theorem Sound.accepted (h : Sound since past s) {f : Nat} {origin : Origin} {p : Packet}
    {attempt : Nat} (hf : s.flows f = some (.relaying origin p attempt)) :
    Sound since past { s with
      flows := Function.update s.flows f
        (some (.waiting origin p attempt s.idempotencyKey s.settledAmount)) } := by
  have hsend : origin = .sendNewPayment → f = since ∧ s.sendDisabled = true := h.send f _ hf
  have hreplay : origin = .replayPacket → attempt ≠ 1 := h.replay f _ hf
  refine h.put (h.started hf) (h.unseen (.inr (by rw [hf]; simp))) hsend hreplay fun hle => ?_
  have hp : s.packet = some p := h.agrees f _ hle hf
  refine ⟨hp, rfl, fun amount hamount => ?_⟩
  obtain ⟨p', hp', hseen⟩ := h.settled amount hamount
  cases hp.symm.trans hp'
  exact hseen

/-- An action that is over has seen the settlement of the page's payment. -/
theorem Sound.seen (h : Sound since past s) {x : Sighting Packet Key} (hlt : x.flow < s.started)
    (hover : s.flows x.flow = none) (hp : s.packet = some x.packet)
    (hkey : x.key = s.idempotencyKey) :
    Sound since (x :: past) { s with settledAmount := some x.amount } := by
  refine { h with agrees := ?_, settled := ?_, ended := ?_ }
  · intro g flow hg hgf
    have hagrees := h.agrees g flow hg hgf
    cases flow with
    | minting => cases hagrees.1.symm.trans hp
    | relaying => exact hagrees
    | waiting => exact ⟨hagrees.1, hagrees.2.1, fun amount ha => (hagrees.2.2 amount ha).cons⟩
  · intro amount hamount
    cases hamount
    exact ⟨x.packet, hp, x, List.mem_cons_self, rfl, hkey, rfl⟩
  · intro a ha
    rcases List.mem_cons.mp ha with rfl | ha
    · exact ⟨hlt, hover⟩
    · exact h.ended a ha

/-- An attempt that sees the settlement belongs to the page's payment: it is the
first, or the latest. -/
theorem Sound.current (h : Sound since past s) {f : Nat} {origin : Origin} {p : Packet}
    {attempt : Nat} {key : Option Key} {before : Option Int}
    (hf : s.flows f = some (.waiting origin p attempt key before))
    (horderly : attempt = 1 ∨ (s.started = f + 1 ∧ before ≠ none)) : since ≤ f := by
  rcases horderly with hfirst | ⟨hlatest, -⟩
  · cases horigin : origin with
    | sendNewPayment => exact Nat.le_of_eq (h.send f _ hf horigin).1.symm
    | replayPacket => exact absurd hfirst (h.replay f _ hf horigin)
  · rcases h.began with hlt | ⟨hzero, -⟩ <;> omega

/-- What a waiting attempt of a sound page reports is justified. -/
theorem Sound.justified (h : Sound since past s) {f : Nat} {origin : Origin} {p : Packet}
    {attempt : Nat} {key : Option Key} {before : Option Int}
    (hf : s.flows f = some (.waiting origin p attempt key before))
    (horderly : attempt = 1 ∨ (s.started = f + 1 ∧ before ≠ none)) (settlement : SettlementView) :
    Justified past ⟨f, p, key, settlement.amountMinor, s.idempotencyKey,
      Page.seen attempt before settlement⟩ := by
  by_cases hfirst : attempt = 1
  · have hsettled : Page.seen attempt before settlement = .settled := if_pos hfirst
    rw [hsettled]
    exact ⟨fun hc => (by cases hc), fun hc => (by cases hc)⟩
  · obtain ⟨hlatest, hbefore⟩ := horderly.resolve_left hfirst
    obtain ⟨amount, rfl⟩ := Option.ne_none_iff_exists'.mp hbefore
    have hle : since ≤ f := h.current hf horderly
    -- the amount was read for the same key by an earlier attempt
    obtain ⟨-, hkey, hseen⟩ := h.agrees f _ hle hf
    obtain ⟨a, ha, hpacket, hakey, hamount⟩ := hseen amount rfl
    have hne : a.flow ≠ f := h.unseen (.inr (by rw [hf]; simp)) a ha
    have hlt : a.flow < f := by
      have := (h.ended a ha).1
      omega
    have hseen' : Page.seen attempt (some amount) settlement =
        if some amount = some settlement.amountMinor then .duplicateRefused
        else .unexpectedChange := if_neg hfirst
    rw [hseen']
    split
    · exact ⟨fun hc => (by cases hc), fun _ => ⟨a, ha, hlt, hpacket, hakey⟩⟩
    · next hdiffer =>
        refine ⟨fun _ => ⟨a, List.mem_cons_of_mem _ ha, _, List.mem_cons_self,
          hakey.trans hkey, hkey, ?_⟩, fun hc => by cases hc⟩
        rw [hamount]
        exact fun hsame => hdiffer (congrArg some hsame)

end Steps

/-- A step of a sound page that meets the condition leaves it sound, and what it
reports is justified. -/
theorem Sound.step {since : Nat} {l : PageLabel Packet Key} {x x' : Watched Packet Key}
    (h : Sound since x.1 x.2) (htruthful : Truthful x.1) (hok : Orderly l x)
    (hstep : watched l x = some x') :
    (∃ since', Sound since' x'.1 x'.2) ∧ Truthful x'.1 := by
  obtain ⟨past, s⟩ := x
  obtain ⟨past', s'⟩ := x'
  obtain ⟨rfl, hstep⟩ := observed_cases hstep
  dsimp only at h htruthful hstep ⊢
  cases l with
  | sendNewPayment payer payee =>
      refine ⟨?_, htruthful⟩
      simp only [Page.step] at hstep
      split at hstep
      · cases hstep
      · next henabled =>
          split at hstep <;> cases hstep
          · exact ⟨since, h⟩
          · exact ⟨_, h.sendNewPayment (by simpa using henabled)⟩
  | replayPacket =>
      refine ⟨?_, htruthful⟩
      simp only [Page.step] at hstep
      split at hstep
      · cases hstep
      · split at hstep <;> cases hstep
        · exact ⟨since, h⟩
        · next hp => exact ⟨since, h.replayPacket hp⟩
  | minted f packet key =>
      refine ⟨⟨since, ?_⟩, htruthful⟩
      simp only [Page.step] at hstep
      split at hstep
      · next hf =>
          cases packet with
          | none =>
              cases hstep
              exact (h.malformed hf key).finish hf
          | some p =>
              cases hstep
              exact h.minted hf p key
      · cases hstep
  | accepted f =>
      refine ⟨⟨since, ?_⟩, htruthful⟩
      simp only [Page.step] at hstep
      split at hstep <;> cases hstep
      next hf => exact h.accepted hf
  | refused f r =>
      refine ⟨⟨since, ?_⟩, htruthful⟩
      simp only [Page.step] at hstep
      split at hstep <;> cases hstep
      next hf =>
        have hrow : Sound since past { s.addAttemptRow .refusedByMesh r.text with
          replayDisabled := s.packet.isNone } := { h with }
        exact hrow.finish hf
  | fetched f settlement =>
      cases settlement with
      | none =>
          refine ⟨⟨since, ?_⟩, htruthful⟩
          simp only [Page.step] at hstep
          split at hstep
          · cases hstep
            exact h
          · next hsome =>
              cases hsome
          · cases hstep
      | some settlement =>
          simp only [Page.step] at hstep
          split at hstep
          · next hnone => cases hnone
          · next origin p attempt key before settlement' hf hsame =>
              cases hsame
              cases hstep
              -- the one step that compares amounts
              have horderly : attempt = 1 ∨ (s.started = f + 1 ∧ before ≠ none) := by
                simpa only [Orderly, hf] using hok
              have hle := h.current hf horderly
              obtain ⟨hp, hkey, -⟩ := h.agrees f _ hle hf
              have hobs : sighting (.fetched f (some settlement)) s = some ⟨f, p, key,
                  settlement.amountMinor, s.idempotencyKey,
                  Page.seen attempt before settlement⟩ := by
                simp only [sighting, hf]
              rw [hobs]
              refine ⟨⟨since, ?_⟩, h.justified hf horderly settlement, htruthful⟩
              have hfinish : Sound since past (s.finish f origin) := h.finish hf
              have hseen : Sound since (⟨f, p, key, settlement.amountMinor, s.idempotencyKey,
                    Page.seen attempt before settlement⟩ :: past)
                  { s.finish f origin with settledAmount := some settlement.amountMinor } :=
                hfinish.seen (by simpa using h.started hf) (by simp) (by simpa using hp)
                  (by simpa using hkey)
              cases origin <;> exact { hseen with }
          · cases hstep
  | timedOut f =>
      refine ⟨⟨since, ?_⟩, htruthful⟩
      simp only [Page.step] at hstep
      split at hstep <;> cases hstep
      next hf =>
        -- a row of the table is no sighting
        have hrow : Sound since past { s.addAttemptRow .noSettlementSeen "timed out waiting" with
          replayDisabled := false } := { h with }
        exact hrow.finish hf
  | lost f =>
      refine ⟨⟨since, ?_⟩, htruthful⟩
      simp only [Page.step] at hstep
      split at hstep <;> cases hstep <;> exact h.finish ‹_›

/-- **The page reports duplicates truthfully** as long as no settlement is seen
by a replay that has nothing to compare with, or that a later action has
overtaken. -/
theorem labels_truthful {x : Watched Packet Key}
    (h : Reach watched Orderly ([], Page.initial) x) : Truthful x.1 := by
  have hinit : Sound 0 [] (Page.initial : Page Packet Key) :=
    { began := .inr ⟨rfl, rfl⟩
      idle := fun _ _ => rfl
      send := fun _ _ hf => by cases hf
      replay := fun _ _ hf => by cases hf
      counted := fun hp => absurd rfl hp
      agrees := fun _ _ _ hf => by cases hf
      settled := fun _ hamount => by cases hamount
      ended := fun _ ha => by cases ha }
  have hboth : (∃ since, Sound since x.1 x.2) ∧ Truthful x.1 := by
    refine h.invariant (P := fun x => (∃ since, Sound since x.1 x.2) ∧ Truthful x.1) ?_ ?_
    · exact ⟨⟨0, hinit⟩, trivial⟩
    · rintro x l x' - ⟨⟨since, hsound⟩, htruthful⟩ hok hstep
      exact hsound.step htruthful hok hstep
  exact hboth.2

/-- A replay with nothing to compare with is misreported if it is the first to
read a settlement for the page's key. -/
theorem unseen_misreported {past : List (Sighting Packet Key)} {f attempt : Nat} {packet : Packet}
    {key current : Option Key} (settlement : SettlementView) (hattempt : attempt ≠ 1)
    (hunread : ∀ a ∈ past, a.key ≠ current) :
    ¬ Justified past ⟨f, packet, key, settlement.amountMinor, current,
      Page.seen attempt none settlement⟩ := by
  intro hjustified
  have hchange : Page.seen attempt none settlement = .unexpectedChange :=
    (if_neg hattempt).trans (if_neg (by simp))
  obtain ⟨a, ha, b, hb, hakey, hbkey, hdiffer⟩ := hjustified.change hchange
  -- both reads are the one that is reported
  have hone : ∀ c ∈ (⟨f, packet, key, settlement.amountMinor, current,
      Page.seen attempt none settlement⟩ : Sighting Packet Key) :: past, c.key = current →
      c.amount = settlement.amountMinor := by
    intro c hc hckey
    rcases List.mem_cons.mp hc with rfl | hc
    · rfl
    · exact absurd hckey (hunread c hc)
  exact hdiffer ((hone a ha hakey).trans (hone b hb hbkey).symm)

/-- A payment that is settled and replayed: the replay is a refused duplicate. -/
theorem labels_truthful_replay : ∃ x : Watched Unit Unit,
    Reach watched Orderly ([], Page.initial) x ∧
      x.1.map Sighting.outcome = [.duplicateRefused, .settled] ∧ Truthful x.1 := by
  have hpaid : Reach watched Orderly (([], Page.initial) : Watched Unit Unit) _ :=
    .next (.next (.next .start
      (l := .sendNewPayment "alice" "bob") trivial rfl)
      (l := .minted 0 (some ()) (some ())) trivial rfl)
      (l := .accepted 0) trivial rfl
  have hsettled : Reach watched Orderly (([], Page.initial) : Watched Unit Unit) _ :=
    .next hpaid (l := .fetched 0 (some ⟨1, 500⟩)) (Or.inl rfl) rfl
  have hreplayed : Reach watched Orderly (([], Page.initial) : Watched Unit Unit) _ :=
    .next (.next hsettled (l := .replayPacket) trivial rfl) (l := .accepted 1) trivial rfl
  have hseen : Reach watched Orderly (([], Page.initial) : Watched Unit Unit) _ :=
    .next hreplayed (l := .fetched 1 (some ⟨1, 500⟩)) (Or.inr ⟨rfl, Option.some_ne_none _⟩) rfl
  exact ⟨_, hseen, rfl, labels_truthful hseen⟩

/-- **A replay after a timeout is reported as a change** that nobody has seen. -/
theorem timeout_unexpected_change :
    ¬ ∀ x : Watched Unit Unit, Reach watched free ([], Page.initial) x → Truthful x.1 := by
  intro htruthful
  have hrun : run watched [.sendNewPayment "alice" "bob", .minted 0 (some ()) (some ()),
      .accepted 0, .timedOut 0, .replayPacket, .accepted 1, .fetched 1 (some ⟨1, 500⟩)]
      (([], Page.initial) : Watched Unit Unit) = some _ := rfl
  have hreach := Reach.of_run (fun _ _ _ => trivial) hrun
  obtain ⟨a, ha, b, hb, -, -, hdiffer⟩ := (htruthful _ hreach).1.change rfl
  rw [List.mem_singleton.mp ha, List.mem_singleton.mp hb] at hdiffer
  exact hdiffer rfl

end MeshSettle.Theorems.Reporting
