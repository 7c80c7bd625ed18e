import Mathlib.Data.List.Basic

/-!
# Chains of nested calls

A node that gets a request answers it, or passes a request on to one other
node and answers from what comes back. The forwarding may fail: before the
other node has served the request, or after, when its reply is lost. A node
does not learn which.

`call` follows a chain to its end and collects the effects of the nodes.
`call_rule` is the induction over the chain, `call_total` its termination: a
measure that every forwarding decreases.
-/

namespace Lib.Chain

/-- What comes back of a forwarding: a refusal of something in front of the
node, nothing, or the node's reply. -/
inductive Answer (Refusal Reply : Type) where
  | refused (r : Refusal)
  | lost
  | reply (r : Reply)

/-- What a node does with a request. -/
inductive Action (Node Req Refusal Reply Effect : Type) where
  | answer (reply : Reply) (effects : List Effect)
  | pass (next : Node) (req : Req) (finish : Answer Refusal Reply → Reply)

/-- How a forwarding goes. -/
inductive Fate (Refusal : Type) where
  | refused (r : Refusal)
  | delivered
  | replyLost

/-- The reply of a node, the effects of the chain behind it, and the nodes of
the chain in their order, each with the request it got. -/
structure Outcome (Node Req Reply Effect : Type) where
  reply : Reply
  effects : List Effect
  visited : List (Node × Req)

section Calls

variable {Node Req Refusal Reply Effect : Type}

/-- Follow the chain. The nodes are numbered along it; the fuel bounds its
length. -/
def call (handle : Nat → Node → Req → Action Node Req Refusal Reply Effect)
    (fate : Nat → Fate Refusal) :
    (fuel i : Nat) → Node → Req → Option (Outcome Node Req Reply Effect)
  | 0, _, _, _ => none
  | fuel + 1, i, node, req =>
      match handle i node req with
      | .answer reply effects => some ⟨reply, effects, [(node, req)]⟩
      | .pass next req' finish =>
          match fate i with
          | .refused r => some ⟨finish (.refused r), [], [(node, req)]⟩
          | .delivered => (call handle fate fuel (i + 1) next req').map fun o =>
              ⟨finish (.reply o.reply), o.effects, (node, req) :: o.visited⟩
          | .replyLost => (call handle fate fuel (i + 1) next req').map fun o =>
              ⟨finish .lost, o.effects, (node, req) :: o.visited⟩

/-- What a call has come from. -/
inductive CallCase (handle : Nat → Node → Req → Action Node Req Refusal Reply Effect)
    (fate : Nat → Fate Refusal) (fuel i : Nat) (node : Node) (req : Req) :
    Outcome Node Req Reply Effect → Prop
  | answered {reply effects} : handle i node req = .answer reply effects →
      CallCase handle fate fuel i node req ⟨reply, effects, [(node, req)]⟩
  | refused {next req' finish r} : handle i node req = .pass next req' finish →
      fate i = .refused r →
      CallCase handle fate fuel i node req ⟨finish (.refused r), [], [(node, req)]⟩
  | delivered {next req' finish o} : handle i node req = .pass next req' finish →
      fate i = .delivered → call handle fate fuel (i + 1) next req' = some o →
      CallCase handle fate fuel i node req
        ⟨finish (.reply o.reply), o.effects, (node, req) :: o.visited⟩
  | replyLost {next req' finish o} : handle i node req = .pass next req' finish →
      fate i = .replyLost → call handle fate fuel (i + 1) next req' = some o →
      CallCase handle fate fuel i node req ⟨finish .lost, o.effects, (node, req) :: o.visited⟩

variable {handle : Nat → Node → Req → Action Node Req Refusal Reply Effect}
  {fate : Nat → Fate Refusal} {fuel i : Nat} {node next : Node} {req req' : Req}
  {reply : Reply} {effects : List Effect} {finish : Answer Refusal Reply → Reply}
  {o : Outcome Node Req Reply Effect}

theorem call_answer (h : handle i node req = .answer reply effects) :
    call handle fate (fuel + 1) i node req = some ⟨reply, effects, [(node, req)]⟩ := by
  rw [call, h]

theorem call_delivered (h : handle i node req = .pass next req' finish)
    (hfate : fate i = .delivered) (hnext : call handle fate fuel (i + 1) next req' = some o) :
    call handle fate (fuel + 1) i node req =
      some ⟨finish (.reply o.reply), o.effects, (node, req) :: o.visited⟩ := by
  rw [call, h]
  dsimp only
  rw [hfate]
  dsimp only
  rw [hnext]
  rfl

/-- **Inversion of a call.** -/
theorem call_cases (h : call handle fate (fuel + 1) i node req = some o) :
    CallCase handle fate fuel i node req o := by
  rw [call] at h
  cases hhandle : handle i node req with
  | answer reply effects =>
      rw [hhandle] at h
      cases h
      exact .answered hhandle
  | pass next req' finish =>
      rw [hhandle] at h
      cases hfate : fate i with
      | refused r =>
          rw [hfate] at h
          cases h
          exact .refused hhandle hfate
      | delivered =>
          rw [hfate] at h
          obtain ⟨o', hnext, rfl⟩ := Option.map_eq_some_iff.mp h
          exact .delivered hhandle hfate hnext
      | replyLost =>
          rw [hfate] at h
          obtain ⟨o', hnext, rfl⟩ := Option.map_eq_some_iff.mp h
          exact .replyLost hhandle hfate hnext

/-- **The induction over a chain.** What holds of a node that answers, and of
one that passes on, given that it holds of the rest of the chain, holds of
every call. -/
theorem call_rule {P : Nat → Node → Req → Outcome Node Req Reply Effect → Prop}
    (hanswered : ∀ i node req reply effects, handle i node req = .answer reply effects →
      P i node req ⟨reply, effects, [(node, req)]⟩)
    (hrefused : ∀ i node req next req' finish r, handle i node req = .pass next req' finish →
      fate i = .refused r → P i node req ⟨finish (.refused r), [], [(node, req)]⟩)
    (hdelivered : ∀ i node req next req' finish o, handle i node req = .pass next req' finish →
      fate i = .delivered → P (i + 1) next req' o →
      P i node req ⟨finish (.reply o.reply), o.effects, (node, req) :: o.visited⟩)
    (hlost : ∀ i node req next req' finish o, handle i node req = .pass next req' finish →
      fate i = .replyLost → P (i + 1) next req' o →
      P i node req ⟨finish .lost, o.effects, (node, req) :: o.visited⟩)
    (h : call handle fate fuel i node req = some o) : P i node req o := by
  induction fuel generalizing i node req o with
  | zero => cases h
  | succ fuel ih =>
      cases call_cases h with
      | answered hhandle => exact hanswered _ _ _ _ _ hhandle
      | refused hhandle hfate => exact hrefused _ _ _ _ _ _ _ hhandle hfate
      | delivered hhandle hfate hnext =>
          exact hdelivered _ _ _ _ _ _ _ hhandle hfate (ih hnext)
      | replyLost hhandle hfate hnext => exact hlost _ _ _ _ _ _ _ hhandle hfate (ih hnext)

/-- More fuel changes nothing. -/
theorem call_stable (h : call handle fate fuel i node req = some o) {fuel' : Nat}
    (hfuel : fuel ≤ fuel') : call handle fate fuel' i node req = some o := by
  induction fuel generalizing i node req o fuel' with
  | zero => cases h
  | succ fuel ih =>
      obtain ⟨fuel', rfl⟩ : ∃ k, fuel' = k + 1 := ⟨fuel' - 1, by omega⟩
      have hle : fuel ≤ fuel' := by omega
      cases call_cases h with
      | answered hhandle => rw [call, hhandle]
      | refused hhandle hfate => simp only [call, hhandle, hfate]
      | delivered hhandle hfate hnext =>
          simp only [call, hhandle, hfate, ih hnext hle, Option.map_some]
      | replyLost hhandle hfate hnext =>
          simp only [call, hhandle, hfate, ih hnext hle, Option.map_some]

/-- **A chain ends** when every forwarding decreases a measure of the request. -/
theorem call_total (measure : Node → Req → Nat)
    (hless : ∀ i node req next req' finish, handle i node req = .pass next req' finish →
      measure next req' < measure node req) (h : measure node req < fuel) :
    ∃ o, call handle fate fuel i node req = some o := by
  induction fuel generalizing i node req with
  | zero => omega
  | succ fuel ih =>
      rw [call]
      cases hhandle : handle i node req with
      | answer reply effects => exact ⟨_, rfl⟩
      | pass next req' finish =>
          have hnext := hless i node req next req' finish hhandle
          obtain ⟨o, ho⟩ : ∃ o, call handle fate fuel (i + 1) next req' = some o := ih (by omega)
          cases fate i with
          | refused r => exact ⟨_, rfl⟩
          | delivered => exact ⟨_, by dsimp only; rw [ho]; rfl⟩
          | replyLost => exact ⟨_, by dsimp only; rw [ho]; rfl⟩

end Calls

end Lib.Chain
