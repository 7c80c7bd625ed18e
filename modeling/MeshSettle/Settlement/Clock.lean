import MeshSettle.Settlement.Genuine

/-!
# The freshness window and the clock

The window of a packet is an interval around its signed timestamp. A timed run
is a run whose readings of the clock do not go back: in it a call reads no
later than the present (`Phases.timed_past`), and a call that starts after a
moment reads no earlier than that moment (`Phases.timed_later`).
-/

namespace MeshSettle

open Lib.Await Lib.Interleave Lib.Transition

variable {ι : Type} {env : Env} {p : PaymentPacket}

/-! ## The window -/

/-- `created_at - tolerance <= now <= created_at + window`. -/
def InWindow (env : Env) (p : PaymentPacket) (now : Int) : Prop :=
  p.createdAt.micros - env.clockSkewToleranceSeconds * 1000000 ≤ now ∧
    now ≤ p.createdAt.micros + env.freshnessWindowSeconds * 1000000

/-- The window has passed. -/
def Expired (env : Env) (p : PaymentPacket) (now : Int) : Prop :=
  p.createdAt.micros + env.freshnessWindowSeconds * 1000000 < now

instance (env : Env) (p : PaymentPacket) (now : Int) : Decidable (Expired env p now) :=
  inferInstanceAs (Decidable (_ < _))

/-- The code of a packet outside its window. -/
def staleCode (env : Env) (p : PaymentPacket) (now : Int) : ErrorCode :=
  if Expired env p now then .packetExpired else .packetNotYetValid

/-- The check lets a packet through exactly in its window. -/
theorem staleness_none {now : Int} : staleness env p now = none ↔ InWindow env p now := by
  unfold staleness InWindow ageMicros
  dsimp only
  split
  · next h => simp; omega
  · split
    · next h => simp; omega
    · next h h' => simp; omega

/-- Outside of it the code tells the side, the past one first. -/
theorem staleness_some {now : Int} {code : ErrorCode} {detail : String}
    (h : staleness env p now = some (code, detail)) :
    code = staleCode env p now := by
  have hage : Expired env p now ↔ ageMicros p now > env.freshnessWindowSeconds * 1000000 := by
    unfold Expired ageMicros
    omega
  unfold staleness at h
  dsimp only at h
  rw [staleCode]
  split at h
  · next hold =>
      cases h
      rw [if_pos (hage.mpr hold)]
  · next hold =>
      rw [if_neg fun hexpired => hold (hage.mp hexpired)]
      split at h
      · cases h
        rfl
      · cases h

/-- The window is an interval. -/
theorem staleness_between {t₁ t₂ t₃ : Int} (h₁ : staleness env p t₁ = none)
    (h₃ : staleness env p t₃ = none) (h₁₂ : t₁ ≤ t₂) (h₂₃ : t₂ ≤ t₃) :
    staleness env p t₂ = none := by
  rw [staleness_none] at *
  unfold InWindow at *
  omega

/-- What has expired is not fresh again. -/
theorem Expired.not_fresh {now later : Int} (h : Expired env p now) (hle : now ≤ later) :
    staleness env p later ≠ none := by
  rw [Ne, staleness_none]
  unfold InWindow
  unfold Expired at h
  omega

/-! ## Where a signed packet starts -/

/-- A signed packet outside its window is refused with the code of the side. -/
theorem SignedBody.refused {body : Bytes} (h : SignedBody env body p) {now : Int}
    (hout : ¬ InWindow env p now) : ∃ r : Refusal, Phase.start env body now = .refusing r ∧
      r.code = staleCode env p now := by
  obtain ⟨hparse, hverify⟩ := h
  unfold Phase.start
  split
  · next hp => cases hparse.symm.trans hp
  · next hp => cases hparse.symm.trans hp
  · next q hp =>
      obtain rfl : p = q := Except.ok.inj (hparse.symm.trans hp)
      split
      · next hv => cases hverify.symm.trans hv
      · next hv => cases hverify.symm.trans hv
      · split
        · next code detail hs => exact ⟨_, rfl, staleness_some hs⟩
        · next hs => exact absurd (staleness_none.mp hs) hout

/-- A refusal as expired means that the window has passed. -/
theorem SignedBody.expired {body : Bytes} (h : SignedBody env body p) {now : Int} {r : Refusal}
    (hstart : Phase.start env body now = .refusing r) (hcode : r.code = .packetExpired) :
    Expired env p now := by
  by_cases hin : InWindow env p now
  · -- in its window the packet is claimed, or refused for its AAD
    obtain ⟨hparse, hverify⟩ := h
    unfold Phase.start at hstart
    split at hstart
    · cases hstart
    · next hp => cases hparse.symm.trans hp
    · next q hp =>
        obtain rfl : p = q := Except.ok.inj (hparse.symm.trans hp)
        split at hstart
        · next hv => cases hverify.symm.trans hv
        · cases hstart
        · split at hstart
          · next hs => cases (staleness_none.mpr hin).symm.trans hs
          · split at hstart
            · cases hstart
            · cases hstart
              cases hcode
  · obtain ⟨r', hr', hcode'⟩ := h.refused hin
    cases hstart.symm.trans hr'
    by_contra hnot
    rw [staleCode, if_neg hnot, hcode] at hcode'
    cases hcode'

/-! ## Timed runs -/

/-- The reading a processor takes for a call. -/
def startReading : ProcessorLabel ι → Option Int
  | .start _ d => some d.now
  | _ => none

/-- The readings of one clock that drives the services as well. -/
def commonReading : ProcessorLabel ι → Option Int
  | .start _ d => some d.now
  | .io _ _ clock => some clock
  | _ => none

variable [DecidableEq ι] {reading : ProcessorLabel ι → Option Int}

/-- The processors under a clock. -/
def Processors.timedStep (reading : ProcessorLabel ι → Option Int) (env : Env) :
    Int × ProcessorLabel ι → Int × Processors ι → Option (Int × Processors ι) :=
  timed reading (Processors.step env)

/-- The same system on phases. -/
def Phases.timedStep (reading : ProcessorLabel ι → Option Int) (env : Env) :
    Int × ProcessorLabel ι → Int × Phases ι env → Option (Int × Phases ι env) :=
  timed reading (Phases.step env)

/-- The coroutines of a timed state. -/
abbrev coroutines (x : Int × Phases ι env) : Int × Processors ι :=
  x.map id (State.map Phase.prog)

/-- Timed runs of the coroutines are timed runs of the phases. -/
theorem Processors.timed_phases {ok : Int × ProcessorLabel ι → Int × Processors ι → Prop}
    {x : Int × Phases ι env} {y : Int × Processors ι}
    (h : Reach (Processors.timedStep reading env) ok (coroutines x) y) :
    ∃ y', y = coroutines y' ∧
      Reach (Phases.timedStep reading env) (fun l z => ok l (coroutines z)) x y' :=
  Reach.lift x (Prod.map id (State.map Phase.prog))
    (timed_map _ fun l s => step_map (processCode_same env) l s) (fun _ _ h => h) h

/-- A timed step of the coroutines is one of the phases. -/
theorem Processors.timed_step_phases {l : Int × ProcessorLabel ι} {x : Int × Phases ι env}
    {y : Int × Processors ι} (h : Processors.timedStep reading env l (coroutines x) = some y) :
    ∃ y', y = coroutines y' ∧ Phases.timedStep reading env l x = some y' := by
  have hsim : Processors.timedStep reading env l (coroutines x) =
      (Phases.timedStep reading env l x).map coroutines :=
    timed_map _ (fun l s => step_map (processCode_same env) l s) l x
  rw [hsim] at h
  obtain ⟨y', hy', rfl⟩ := Option.map_eq_some_iff.mp h
  exact ⟨y', rfl, hy'⟩

/-- And the other way round. -/
theorem Phases.timed_processors {ok : Int × ProcessorLabel ι → Int × Processors ι → Prop}
    {x y : Int × Phases ι env}
    (h : Reach (Phases.timedStep reading env) (fun l z => ok l (coroutines z)) x y) :
    Reach (Processors.timedStep reading env) ok (coroutines x) (coroutines y) :=
  Reach.image (Prod.map id (State.map Phase.prog))
    (timed_map _ fun l s => step_map (processCode_same env) l s) (fun _ _ h => h) h

theorem Phases.timed_step_processors {l : Int × ProcessorLabel ι} {x y : Int × Phases ι env}
    (h : Phases.timedStep reading env l x = some y) :
    Processors.timedStep reading env l (coroutines x) = some (coroutines y) :=
  (timed_map _ (fun l s => step_map (processCode_same env) l s) l x).trans
    (congrArg (Option.map coroutines) h)

/-- A call after a step was there before it, or is the one that started. -/
theorem Phases.call_before {l : ProcessorLabel ι} {s s' : Phases ι env}
    (h : Phases.step env l s = some s') {c : Nat} {call' : PhaseCall ι env}
    (hc : s'.calls c = some call') :
    (∃ call, s.calls c = some call ∧ call'.tag = call.tag) ∨
      s.calls c = none ∧ l = .start c call'.tag := by
  cases Phases.call_step h hc with
  | stayed hold => exact .inl ⟨_, hold, rfl⟩
  | started hnew hl => exact .inr ⟨hnew, hl⟩
  | crashed hold => exact .inl ⟨_, hold, rfl⟩
  | advanced _ hold => exact .inl ⟨_, hold, rfl⟩

/-- A call that starts reads the present. -/
theorem Phases.timed_started (hreads : ∀ c d, reading (.start c d) = some d.now)
    {l : Int × ProcessorLabel ι} {x x' : Int × Phases ι env}
    (h : Phases.timedStep reading env l x = some x') {c : Nat} {call' : PhaseCall ι env}
    (hc : x'.2.calls c = some call') :
    (∃ call, x.2.calls c = some call ∧ call'.tag = call.tag) ∨
      x.2.calls c = none ∧ call'.tag.now = x'.1 := by
  obtain ⟨-, hreading, htime, hstep⟩ := timed_cases h
  rcases Phases.call_before hstep hc with hold | ⟨hnone, hl⟩
  · exact .inl hold
  · refine .inr ⟨hnone, ?_⟩
    rw [htime]
    exact hreading _ (by rw [hl]; exact hreads _ _)

/-- Time does not go back. -/
theorem Phases.timed_mono {ok : Int × ProcessorLabel ι → Int × Phases ι env → Prop}
    {x y : Int × Phases ι env} (h : Reach (Phases.timedStep reading env) ok x y) : x.1 ≤ y.1 := by
  induction h with
  | start => exact Int.le_refl _
  | next _ _ hstep ih =>
      obtain ⟨hle, -, htime, -⟩ := timed_cases hstep
      omega

/-- **No call has read the future.** -/
theorem Phases.timed_past (hreads : ∀ c d, reading (.start c d) = some d.now)
    {ok : Int × ProcessorLabel ι → Int × Phases ι env → Prop} {t₀ : Int}
    {x : Int × Phases ι env}
    (h : Reach (Phases.timedStep reading env) ok (t₀, Phases.init) x) :
    ∀ c call, x.2.calls c = some call → call.tag.now ≤ x.1 := by
  induction h with
  | start =>
      intro c call hc
      cases hc
  | next _ _ hstep ih =>
      intro c call' hc
      have hle := (timed_cases hstep).1
      have htime := (timed_cases hstep).2.2.1
      rcases Phases.timed_started hreads hstep hc with ⟨call, hold, htag⟩ | ⟨-, hnow⟩
      · have := ih c call hold
        rw [htag]
        omega
      · omega

/-- **A call that starts later reads no earlier.** -/
theorem Phases.timed_later (hreads : ∀ c d, reading (.start c d) = some d.now)
    {ok : Int × ProcessorLabel ι → Int × Phases ι env → Prop} {x y : Int × Phases ι env}
    (h : Reach (Phases.timedStep reading env) ok x y) {c : Nat} (hnew : x.2.calls c = none) :
    ∀ call, y.2.calls c = some call → x.1 ≤ call.tag.now := by
  induction h with
  | start =>
      intro call hc
      rw [hnew] at hc
      cases hc
  | next hr _ hstep ih =>
      intro call' hc
      have hmono := Phases.timed_mono (Reach.next hr ‹_› hstep)
      rcases Phases.timed_started hreads hstep hc with ⟨call, hold, htag⟩ | ⟨-, hnow⟩
      · rw [htag]
        exact ih call hold
      · omega

end MeshSettle
