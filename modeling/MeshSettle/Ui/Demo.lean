import MeshSettle.Settlement.Api
import MeshSettle.Ui.Page

/-!
# The demo page in front of settlement

The page polls the settlement that the consumers write. Between two of its
reads the consumers may do anything, crash and recover included, and a poll may
go unanswered. `Answered` says where the settlements come from that the page
sees: each is what the lookup of the key answers at that moment.
-/

namespace MeshSettle.Ui

open Lib.Transition

/-- What the page reads of a settlement. -/
def shown (view : Api.SettlementView) : SettlementView := ⟨view.id, view.amountMinor⟩

/-- The page and the processors. -/
structure Demo (ι Packet : Type) where
  page : Page Packet String
  settlement : Processors ι

/-- A step of the page, or of the processors. -/
inductive DemoLabel (ι Packet : Type) where
  | page (l : PageLabel Packet String)
  | settlement (l : ProcessorLabel ι)

namespace Demo

variable {ι Packet : Type} [DecidableEq ι]

/-- The page is loaded before the first delivery. -/
def initial : Demo ι Packet := ⟨Page.initial, Processors.init⟩

/-- The page and the processors take turns. -/
def step (env : Env) : DemoLabel ι Packet → Demo ι Packet → Option (Demo ι Packet)
  | .page l, s => (Page.step l s.page).map fun page => { s with page := page }
  | .settlement l, s =>
      (Processors.step env l s.settlement).map fun settlement => { s with settlement := settlement }

/-- A settlement that the page sees is the one that the lookup of the key answers
with. `asked` is the text that is looked up for a key, if the page has one. -/
def Answered (asked : Option String → String) : DemoLabel ι Packet → Demo ι Packet → Prop
  | .page (.fetched f (some settlement)), s =>
      ∀ origin packet attempt key before,
        s.page.flows f = some (.waiting origin packet attempt key before) →
        ∃ view, Api.readSettlement s.settlement.store true (asked key) = .settlement view ∧
          settlement = shown view
  | _, _ => True

end Demo

end MeshSettle.Ui
