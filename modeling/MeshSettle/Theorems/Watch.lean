import MeshSettle.Theorems.Reads
import MeshSettle.Theorems.Reporting
import MeshSettle.Ui.Demo

/-!
# In front of settlement the page never reports a change

The page reports an unexpected change when two reads of its key differ, and
settlement never answers a key in two ways. So the two together never show it,
in no interleaving of the page with the consumers, as long as a replay has an
amount to compare with and nothing overtakes it.
-/

namespace MeshSettle.Theorems.Watch

open Lib.Await Lib.Interleave Lib.Transition Ui Api Reporting

section History

variable {Packet Key : Type}

/-- A page that is used in order keeps its invariant. -/
theorem page_sound {x : Watched Packet Key} (h : Reach watched Orderly ([], Page.initial) x) :
    (∃ since, Sound since x.1 x.2) ∧ Truthful x.1 := by
  refine h.invariant (P := fun x => (∃ since, Sound since x.1 x.2) ∧ Truthful x.1) ?_ ?_
  · exact ⟨⟨0,
      { began := .inr ⟨rfl, rfl⟩
        idle := fun _ _ => rfl
        send := fun _ _ hf => by cases hf
        replay := fun _ _ hf => by cases hf
        counted := fun hp => absurd rfl hp
        agrees := fun _ _ _ hf => by cases hf
        settled := fun _ hamount => by cases hamount
        ended := fun _ ha => by cases ha }⟩, trivial⟩
  · rintro x l x' - ⟨⟨since, hsound⟩, htruthful⟩ hok hstep
    exact hsound.step htruthful hok hstep

/-- A change that is reported truthfully has been seen. -/
theorem truthful_change {past : List (Sighting Packet Key)} (h : Truthful past)
    {x : Sighting Packet Key} (hx : x ∈ past) (hchange : x.outcome = .unexpectedChange) :
    ∃ a ∈ past, ∃ b ∈ past, a.key = b.key ∧ a.amount ≠ b.amount := by
  induction past with
  | nil => cases hx
  | cons y past ih =>
      obtain ⟨hjustified, hrest⟩ := h
      rcases List.mem_cons.mp hx with rfl | hx
      · obtain ⟨a, ha, b, hb, hakey, hbkey, hdiffer⟩ := hjustified.change hchange
        exact ⟨a, ha, b, hb, hakey.trans hbkey.symm, hdiffer⟩
      · obtain ⟨a, ha, b, hb, hkey, hdiffer⟩ := ih hrest hx
        exact ⟨a, List.mem_cons_of_mem _ ha, b, List.mem_cons_of_mem _ hb, hkey, hdiffer⟩

/-- Whether a step is in order does not depend on the history. -/
theorem orderly_past {past past' : List (Sighting Packet Key)} {s : Page Packet Key}
    {l : PageLabel Packet Key} (h : Orderly l (past, s)) : Orderly l (past', s) := by
  cases l with
  | fetched f settlement => cases settlement <;> exact h
  | _ => trivial

/-- The page shows a change only if a sighting has that outcome. -/
def Shown (past : List (Sighting Packet Key)) (s : Page Packet Key) : Prop :=
  ∀ row ∈ s.attemptsBody, row.outcome = .unexpectedChange →
    ∃ x ∈ past, x.outcome = .unexpectedChange

theorem finish_attemptsBody (s : Page Packet Key) (f : Nat) (origin : Origin) :
    (s.finish f origin).attemptsBody = s.attemptsBody := by
  cases origin <;> rfl

theorem Shown.rows {past : List (Sighting Packet Key)} {s s' : Page Packet Key}
    (h : Shown past s) (hsame : s'.attemptsBody = s.attemptsBody) : Shown past s' := by
  intro row hrow
  rw [hsame] at hrow
  exact h row hrow

/-- A row that is added shows what has been seen. -/
theorem Shown.add {past past' : List (Sighting Packet Key)} {s s' : Page Packet Key}
    (h : Shown past s) (hpast : ∀ x ∈ past, x ∈ past') {outcome : Outcome} {detail : String}
    (hrows : s'.attemptsBody = (s.addAttemptRow outcome detail).attemptsBody)
    (hseen : outcome = .unexpectedChange → ∃ x ∈ past', x.outcome = .unexpectedChange) :
    Shown past' s' := by
  intro row hrow hchange
  rw [hrows] at hrow
  rcases List.mem_append.mp hrow with hold | hnew
  · obtain ⟨x, hx, hout⟩ := h row hold hchange
    exact ⟨x, hpast x hx, hout⟩
  · rw [List.mem_singleton.mp hnew] at hchange
    exact hseen hchange

/-- Every step of the page keeps this up. -/
theorem Shown.step {past past' : List (Sighting Packet Key)} {s s' : Page Packet Key}
    {l : PageLabel Packet Key} (hstep : watched l (past, s) = some (past', s'))
    (h : Shown past s) : Shown past' s' := by
  obtain ⟨rfl, hpage⟩ := observed_cases hstep
  clear hstep
  dsimp only at hpage ⊢
  cases l with
  | sendNewPayment payer payee =>
      simp only [Page.step] at hpage
      split at hpage
      · cases hpage
      · split at hpage <;> cases hpage
        · exact h
        · -- a new payment starts with an empty table
          intro row hrow
          cases hrow
  | replayPacket =>
      simp only [Page.step] at hpage
      split at hpage
      · cases hpage
      · split at hpage <;> cases hpage
        · exact h
        · exact h.rows rfl
  | minted f packet key =>
      simp only [Page.step] at hpage
      split at hpage
      · cases packet with
        | none =>
            cases hpage
            exact h.rows (finish_attemptsBody ..)
        | some p =>
            cases hpage
            exact h.rows rfl
      · cases hpage
  | accepted f =>
      simp only [Page.step] at hpage
      split at hpage <;> cases hpage
      exact h.rows rfl
  | refused f r =>
      simp only [Page.step] at hpage
      split at hpage <;> cases hpage
      exact h.add (fun x hx => hx) (finish_attemptsBody ..) fun hchange => by cases hchange
  | fetched f settlement =>
      simp only [Page.step] at hpage
      split at hpage
      · cases hpage
        exact h
      · next origin packet attempt key before settlement' hf =>
          cases hpage
          have hobs : sighting (.fetched f (some settlement')) s = some ⟨f, packet, key,
              settlement'.amountMinor, s.idempotencyKey,
              Page.seen attempt before settlement'⟩ := by
            simp only [sighting, hf]
          rw [hobs]
          -- the new row tells of the new sighting
          refine h.add (fun x hx => List.mem_cons_of_mem _ hx) (finish_attemptsBody ..) ?_
          exact fun hchange => ⟨_, List.mem_cons_self .., hchange⟩
      · cases hpage
  | timedOut f =>
      simp only [Page.step] at hpage
      split at hpage <;> cases hpage
      exact h.add (fun x hx => hx) (finish_attemptsBody ..) fun hchange => by cases hchange
  | lost f =>
      simp only [Page.step] at hpage
      split at hpage <;> cases hpage <;> exact h.rows (finish_attemptsBody ..)

end History

/-! ## The page and settlement -/

section Together

variable {ι Packet : Type} [DecidableEq ι] {env : Env} {asked : Option String → String}

/-- The page is used in order. -/
def InOrder : DemoLabel ι Packet → Demo ι Packet → Prop
  | .page l, s => Orderly l ([], s.page)
  | _, _ => True

/-- What is known of the two after a run: the page has sighted rows of the
table. -/
structure Tracked (env : Env) (asked : Option String → String)
    (past : List (Sighting Packet String)) (s : Demo ι Packet) : Prop where
  page : Reach watched Orderly ([], Page.initial) (past, s.page)
  settlement : Reach (Processors.step env) free Processors.init s.settlement
  backed : ∀ x ∈ past, ∃ row ∈ s.settlement.store.settlements.rows,
    row.idempotencyKey = asked x.key ∧ row.amountMinor = x.amount
  shown : Shown past s.page

/-- A step of the processors keeps the rows. -/
theorem processors_grow {s s' : Processors ι} {l : ProcessorLabel ι}
    (h : Reach (Processors.step env) free Processors.init s)
    (hstep : Processors.step env l s = some s') :
    s.store.settlements.rows <+: s'.store.settlements.rows := by
  obtain ⟨t, rfl, -⟩ := Processors.reach_phases h
  obtain ⟨t', rfl, ht'⟩ := Processors.step_phases hstep
  exact (Phases.step_cases ht').rows_grow

omit [DecidableEq ι] in
/-- What the page sights is a row of the table. -/
theorem sighting_row {s : Demo ι Packet} {l : PageLabel Packet String}
    {x : Sighting Packet String} (hanswered : Demo.Answered asked (.page l) s)
    (hx : sighting l s.page = some x) : ∃ row ∈ s.settlement.store.settlements.rows,
      row.idempotencyKey = asked x.key ∧ row.amountMinor = x.amount := by
  unfold sighting at hx
  split at hx
  · next f settlement =>
      split at hx
      · next origin packet attempt key before hf =>
          cases hx
          obtain ⟨view, hread, rfl⟩ := hanswered origin packet attempt key before hf
          obtain ⟨-, -, row, hrow, hkey, rfl⟩ := readSettlement_iff.mp hread
          exact ⟨row, hrow, hkey, rfl⟩
      · cases hx
  · cases hx

/-- **A step of the two** keeps the page's history true of the table. -/
theorem Tracked.step {past : List (Sighting Packet String)} {s s' : Demo ι Packet}
    {l : DemoLabel ι Packet} (h : Tracked env asked past s)
    (hok : Demo.Answered asked l s ∧ InOrder l s) (hstep : Demo.step env l s = some s') :
    ∃ past', Tracked env asked past' s' := by
  cases l with
  | page l =>
      obtain ⟨page, hpage, rfl⟩ := Option.map_eq_some_iff.mp hstep
      have hwatched : watched l (past, s.page) =
          some ((sighting l s.page).toList ++ past, page) := by
        show (Page.step l s.page).map _ = _
        rw [hpage]
        rfl
      have horderly : Orderly l (past, s.page) := orderly_past hok.2
      refine ⟨(sighting l s.page).toList ++ past, .next h.page horderly hwatched, h.settlement,
        ?_, h.shown.step hwatched⟩
      intro x hx
      rcases List.mem_append.mp hx with hnew | hold
      · have hx : sighting l s.page = some x := Option.mem_toList.mp hnew
        exact sighting_row (s := s) hok.1 hx
      · exact h.backed x hold
  | settlement l =>
      obtain ⟨settlement, hs, rfl⟩ := Option.map_eq_some_iff.mp hstep
      have hgrow := processors_grow h.settlement hs
      refine ⟨past, h.page, .next h.settlement trivial hs, ?_, h.shown⟩
      intro x hx
      obtain ⟨row, hrow, hrow'⟩ := h.backed x hx
      exact ⟨row, hgrow.subset hrow, hrow'⟩

theorem tracked {s : Demo ι Packet}
    (h : Reach (Demo.step env) (fun l s => Demo.Answered asked l s ∧ InOrder l s)
      Demo.initial s) : ∃ past, Tracked env asked past s := by
  refine h.invariant (P := fun s => ∃ past, Tracked env asked past s) ?_ ?_
  · exact ⟨[], .start, .start, (fun x hx => nomatch hx), fun row hrow => nomatch hrow⟩
  · rintro s l s' - ⟨past, htracked⟩ hok hstep
    exact htracked.step hok hstep

end Together

/-! ## A payment and its replay -/

section Payment

open Reference

/-- The lookup of a key asks for it. -/
def lookedUp (key : Option String) : String := key.getD "undefined"

/-- The consumers run on while the page waits. -/
theorem reach_settlement {ι Packet : Type} [DecidableEq ι] {env : Env}
    {asked : Option String → String} {page : Page Packet String} {s t : Processors ι}
    (h : Reach (Processors.step env) free s t) :
    Reach (Demo.step env) (fun l s => Demo.Answered asked l s ∧ InOrder l s)
      (⟨page, s⟩ : Demo ι Packet) ⟨page, t⟩ := by
  induction h with
  | start => exact .start
  | @next t t' l _ _ hstep ih =>
      refine .next (l := .settlement l) ih ⟨trivial, trivial⟩ ?_
      show (Processors.step env l t).map _ = _
      rw [hstep]
      rfl

/-- The processors with the payment settled. -/
noncomputable def paid : Processors Unit := settled.core.map Phase.prog

/-- The lookup of the settled payment. -/
theorem read_paid : ∃ view, readSettlement paid.store true key = .settlement view ∧
    shown view = ⟨0, 1⟩ := by
  have hrow : ({ opened.row with id := 0, settledAt := instant.micros } : SettlementRow) ∈
      settled.core.store.settlements.rows := by
    rw [settled_rows]
    exact List.mem_singleton_self _
  have hread := readSettlement_row (ConsumerPhases.reach_core reach_settled) hrow
  exact ⟨_, hread, rfl⟩

end Payment

end MeshSettle.Theorems.Watch
