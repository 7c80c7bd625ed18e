import MeshSettle.Settlement.Consumer

/-!
# Messages and the calls that hold them

`Holding` ties the queue to the calls: a held message is held by one call made
for its body, a running call holds a message, and a message is acked by a call
that returned for good. It is kept by every step (`Holding.step`), so a message
that is not acked is ready or in the hands of a call that has not crashed.
-/

namespace MeshSettle

open Lib.Await Lib.Interleave Lib.Transition

section Holding

variable {ι : Type} {env : Env}

/-- Messages and the calls they are delivered to. -/
structure Holding (s : ConsumerPhases ι env) : Prop where
  /-- A held message is held by a call made for its body. -/
  held : ∀ m body c, s.messages m = some ⟨body, .held c⟩ →
    ∃ call, s.core.calls c = some call ∧ call.tag.body = body ∧ call.status ≠ .crashed
  /-- A call holds one message. -/
  exclusive : ∀ m m' body body' c, s.messages m = some ⟨body, .held c⟩ →
    s.messages m' = some ⟨body', .held c⟩ → m = m'
  /-- A running call holds its message. -/
  running : ∀ c call ph, s.core.calls c = some call → call.status = .running ph →
    ∃ m, s.messages m = some ⟨call.tag.body, .held c⟩
  /-- A message is acked by a call that returned for good. -/
  acked : ∀ m body, s.messages m = some ⟨body, .acked⟩ → ∃ c call o,
    s.core.calls c = some call ∧ call.tag.body = body ∧ call.status = .returned o ∧
      o.retryable = false
  /-- A call is made for the body of a message. -/
  delivered : ∀ c call, s.core.calls c = some call →
    ∃ m state, s.messages m = some ⟨call.tag.body, state⟩

/-- What an operation of one call, or a disturbance, does to the calls. -/
structure Evolves (s s' : Phases ι env) : Prop where
  forward : ∀ b call, s.calls b = some call → ∃ call', s'.calls b = some call' ∧
    call'.tag = call.tag ∧ (call.status ≠ .crashed → call'.status ≠ .crashed) ∧
      ((∀ ph, call.status ≠ .running ph) → call' = call)
  backward : ∀ b call', s'.calls b = some call' → ∃ call, s.calls b = some call ∧
    call'.tag = call.tag ∧ ∀ ph', call'.status = .running ph' → ∃ ph, call.status = .running ph

theorem Holding.evolve {s : ConsumerPhases ι env} (hs : Holding s) {core : Phases ι env}
    (h : Evolves s.core core) : Holding { s with core := core } where
  held := by
    intro m body c hm
    obtain ⟨call, hc, hbody, hlive⟩ := hs.held m body c hm
    obtain ⟨call', hc', htag, hcrash, -⟩ := h.forward c call hc
    exact ⟨call', hc', by rw [htag]; exact hbody, hcrash hlive⟩
  exclusive := hs.exclusive
  running := by
    intro c call ph hc hph
    obtain ⟨old, hold, htag, hrun⟩ := h.backward c call hc
    obtain ⟨ph0, hph0⟩ := hrun ph hph
    rw [htag]
    exact hs.running c old ph0 hold hph0
  acked := by
    intro m body hm
    obtain ⟨c, call, o, hc, hbody, ho, hfinal⟩ := hs.acked m body hm
    obtain ⟨call', hc', -, -, hsame⟩ := h.forward c call hc
    obtain rfl := hsame fun ph hph => by rw [ho] at hph; cases hph
    exact ⟨c, call', o, hc', hbody, ho, hfinal⟩
  delivered := by
    intro c call hc
    obtain ⟨old, hold, htag, -⟩ := h.backward c call hc
    rw [htag]
    exact hs.delivered c old hold

theorem Holding.publish {s : ConsumerPhases ι env} (hs : Holding s) {m : Nat} (body : Bytes)
    (hm : s.messages m = none) : Holding (s.put m body .ready) := by
  have hold : ∀ {m' body' state}, s.messages m' = some ⟨body', state⟩ →
      (s.put m body .ready).messages m' = some ⟨body', state⟩ := by
    intro m' body' state h
    have hne : m' ≠ m := by rintro rfl; rw [hm] at h; cases h
    simpa [hne] using h
  have hnew : ∀ {m' body' state}, (s.put m body .ready).messages m' = some ⟨body', state⟩ →
      state ≠ .ready → s.messages m' = some ⟨body', state⟩ := by
    intro m' body' state h hne
    rw [Broker.put_messages] at h
    split at h
    · cases h; exact absurd rfl hne
    · exact h
  constructor
  · exact fun m' body' c h => hs.held m' body' c (hnew h (by simp))
  · exact fun m' m'' body' body'' c h h' =>
      hs.exclusive m' m'' body' body'' c (hnew h (by simp)) (hnew h' (by simp))
  · intro c call ph hc hph
    obtain ⟨m', h⟩ := hs.running c call ph hc hph
    exact ⟨m', hold h⟩
  · exact fun m' body' h => hs.acked m' body' (hnew h (by simp))
  · intro c call hc
    obtain ⟨m', state, h⟩ := hs.delivered c call hc
    exact ⟨m', state, hold h⟩

/-- A message is acked when its call returned an outcome that is not to be
retried. -/
theorem acked_final {call : PhaseCall ι env} {result : Except Exc SettlementOutcome}
    (hresult : call.result = some result) (hacked : (handleMessage result).state = .acked) :
    ∃ o, call.status = .returned o ∧ o.retryable = false := by
  unfold Call.result at hresult
  split at hresult
  · next o ho =>
      cases hresult
      refine ⟨o, ho, ?_⟩
      cases hr : o.retryable with
      | false => rfl
      | true => simp [handleMessage, hr, Disposition.state] at hacked
  · cases hresult
    cases hacked
  · cases hresult

/-- A message whose call has ended is acked, or ready again. -/
theorem Holding.settle {s : ConsumerPhases ι env} (hs : Holding s) {m c : Nat} {body : Bytes}
    (hm : s.messages m = some ⟨body, .held c⟩) {call : PhaseCall ι env}
    (hc : s.core.calls c = some call) {result : Except Exc SettlementOutcome}
    (hresult : call.result = some result) :
    Holding (s.put m body (handleMessage result).state) := by
  have hnot : ∀ b, (handleMessage result).state ≠ .held b := by
    intro b
    cases handleMessage result <;> simp [Disposition.state]
  have hold : ∀ {m' body' b}, (s.put m body (handleMessage result).state).messages m' =
      some ⟨body', .held b⟩ → m' ≠ m ∧ s.messages m' = some ⟨body', .held b⟩ := by
    intro m' body' b h
    rw [Broker.put_messages] at h
    split at h
    · exact absurd (congrArg Message.state (Option.some.inj h)) (hnot b)
    · next hne => exact ⟨hne, h⟩
  constructor
  · exact fun m' body' b h => hs.held m' body' b (hold h).2
  · exact fun m' m'' body' body'' b h h' =>
      hs.exclusive m' m'' body' body'' b (hold h).2 (hold h').2
  · intro b bcall ph hb hph
    obtain ⟨m', h⟩ := hs.running b bcall ph hb hph
    have hne : m' ≠ m := by
      -- the call that holds `m` has ended
      rintro rfl
      rw [hm] at h
      cases h
      rw [Broker.put_core, hc] at hb
      cases hb
      rw [Call.result, hph] at hresult
      cases hresult
    exact ⟨m', by simpa [hne] using h⟩
  · intro m' body' h
    rw [Broker.put_messages] at h
    split at h
    · obtain ⟨rfl, hacked⟩ := Message.mk.inj (Option.some.inj h)
      obtain ⟨old, hold, hbody, -⟩ := hs.held m body c hm
      rw [hc] at hold
      cases hold
      obtain ⟨o, ho, hfinal⟩ := acked_final hresult hacked
      exact ⟨c, call, o, hc, hbody, ho, hfinal⟩
    · exact hs.acked m' body' h
  · intro b bcall hb
    obtain ⟨m', state, h⟩ := hs.delivered b bcall hb
    by_cases hmm : m' = m
    · subst hmm
      rw [hm] at h
      cases h
      exact ⟨m', (handleMessage result).state, by simp⟩
    · exact ⟨m', state, by simpa [hmm] using h⟩

/-- The messages of an empty queue are ready. -/
theorem empty_ready : ∀ m msg, (fun _ : Nat => (none : Option Message)) m = some msg →
    msg.state = .ready := by
  intro m msg h
  cases h

/-- A queue on which nothing has been delivered. -/
theorem Holding.loaded {messages : Nat → Option Message}
    (hready : ∀ m msg, messages m = some msg → msg.state = .ready) :
    Holding (Broker.loaded messages : ConsumerPhases ι env) := by
  have hnot : ∀ {m body state}, messages m = some ⟨body, state⟩ → state = .ready :=
    fun h => hready _ _ h
  constructor
  · intro m body c h
    cases hnot h
  · intro m m' body body' c h
    cases hnot h
  · intro c call ph h
    cases h
  · intro m body h
    cases hnot h
  · intro c call h
    cases h

variable [DecidableEq ι]

theorem PhaseStep.evolves_io {c : Nat} {mode : Mode} {clock : Int} {s s' : Phases ι env}
    (h : PhaseStep s (.io c mode clock) s') : Evolves s s' := by
  cases h with
  | @io c mode clock d ph ph' log w' ev hc _ =>
      have hnot : ph'.status ≠ .crashed := by cases ph' <;> simp [Phase.status]
      constructor
      · intro b call hb
        rw [Phases.enter_calls]
        split
        · next hbc =>
            subst hbc
            rw [hc] at hb
            cases hb
            exact ⟨_, rfl, rfl, fun _ => hnot, fun h => absurd rfl (h ph)⟩
        · exact ⟨call, hb, rfl, id, fun _ => rfl⟩
      · intro b call' hb
        rw [Phases.enter_calls] at hb
        split at hb
        · next hbc =>
            subst hbc
            cases hb
            exact ⟨_, hc, rfl, fun _ _ => ⟨ph, rfl⟩⟩
        · exact ⟨call', hb, rfl, fun ph' h => ⟨ph', h⟩⟩

theorem PhaseStep.evolves_disturb {e : Disturbance} {s s' : Phases ι env}
    (h : PhaseStep s (.disturb e) s') : Evolves s s' := by
  cases h with
  | disturb =>
      exact ⟨fun b call hb => ⟨call, hb, rfl, id, fun _ => rfl⟩,
        fun b call hb => ⟨call, hb, rfl, fun ph h => ⟨ph, h⟩⟩⟩

/-- A message that was ready and is now held by a new call. -/
theorem Holding.deliver {s : ConsumerPhases ι env} (hs : Holding s) {m c : Nat} {body : Bytes}
    (hm : s.messages m = some ⟨body, .ready⟩) {d : Delivery ι} (hbody : d.body = body)
    (hc : s.core.calls c = none) (ph : Phase env) (w : World ι) :
    Holding ({ s with core := Phases.enter s.core c d ph w [] }.put m body (.held c)) := by
  -- no message was held by the new call
  have hfree : ∀ m' body', s.messages m' ≠ some ⟨body', .held c⟩ := by
    intro m' body' h
    obtain ⟨call, hcall, -⟩ := hs.held m' body' c h
    rw [hc] at hcall
    cases hcall
  have hcalls : ∀ {b call}, s.core.calls b = some call →
      (Phases.enter s.core c d ph w []).calls b = some call := by
    intro b call hb
    have hne : b ≠ c := by rintro rfl; rw [hc] at hb; cases hb
    rw [Phases.enter_calls, if_neg hne]
    exact hb
  have hnot : ph.status ≠ .crashed := by cases ph <;> simp [Phase.status]
  constructor
  · intro m' body' b h
    simp only [Broker.put_messages, Broker.put_core] at h ⊢
    split at h
    · cases h
      exact ⟨⟨d, ph.status, []⟩, by simp [Phases.enter_calls], hbody, hnot⟩
    · obtain ⟨call, hb, hcall, hlive⟩ := hs.held m' body' b h
      exact ⟨call, hcalls hb, hcall, hlive⟩
  · intro m' m'' body' body'' b h h'
    simp only [Broker.put_messages] at h h'
    split at h
    · next hmm =>
        cases h
        split at h'
        · next hmm' => rw [hmm, hmm']
        · exact absurd h' (hfree m'' body'')
    · split at h'
      · cases h'
        exact absurd h (hfree m' body')
      · exact hs.exclusive m' m'' body' body'' b h h'
  · intro b call ph' hb hph
    simp only [Broker.put_core, Phases.enter_calls] at hb
    split at hb
    · next hbc =>
        cases hb
        exact ⟨m, by simp [hbody, hbc]⟩
    · obtain ⟨m', h⟩ := hs.running b call ph' hb hph
      have hne : m' ≠ m := by rintro rfl; rw [hm] at h; cases h
      exact ⟨m', by simpa [hne] using h⟩
  · intro m' body' h
    simp only [Broker.put_messages, Broker.put_core] at h ⊢
    split at h
    · cases h
    · obtain ⟨b, call, o, hb, hrest⟩ := hs.acked m' body' h
      exact ⟨b, call, o, hcalls hb, hrest⟩
  · intro b call hb
    simp only [Broker.put_core, Phases.enter_calls] at hb
    split at hb
    · cases hb
      exact ⟨m, .held c, by simp [hbody]⟩
    · obtain ⟨m', state, h⟩ := hs.delivered b call hb
      by_cases hmm : m' = m
      · subst hmm
        rw [hm] at h
        cases h
        exact ⟨m', .held c, by simp⟩
      · exact ⟨m', state, by simpa [hmm] using h⟩

/-- A message after a crash: held as before by a call of another processor, or
given back. -/
theorem returned_cases (core : Phases ι env) (i : ι) (msg : Message) :
    (Message.returned core i msg = msg ∧ ∀ c, msg.state = .held c → RunsOn core i c = false) ∨
      ∃ c, msg.state = .held c ∧ RunsOn core i c = true ∧
        Message.returned core i msg = ⟨msg.body, .ready⟩ := by
  obtain ⟨body, state⟩ := msg
  cases state with
  | ready => exact .inl ⟨rfl, fun c h => nomatch h⟩
  | acked => exact .inl ⟨rfl, fun c h => nomatch h⟩
  | held c =>
      cases hrun : RunsOn core i c with
      | true => exact .inr ⟨c, rfl, hrun, by simp [Message.returned, hrun]⟩
      | false =>
          refine .inl ⟨by simp [Message.returned, hrun], fun b hb => ?_⟩
          cases hb
          exact hrun

/-- A crash stops the calls of one processor and gives back their messages. -/
theorem Holding.crash {s : ConsumerPhases ι env} (hs : Holding s) (i : ι) :
    Holding (⟨{ s.core with calls := fun c => (s.core.calls c).map (Call.crashOn platform i) },
      fun m => (s.messages m).map (Message.returned s.core i)⟩ : ConsumerPhases ι env) := by
  have hother : ∀ c call, s.core.calls c = some call → RunsOn s.core i c = false →
      call.crashOn platform i = call := by
    intro c call hc hrun
    rcases Call.crashOn_cases platform i call with h | ⟨ph, -, hhost, -⟩
    · exact h
    · have hhost' : call.tag.processor = i := hhost
      simp [RunsOn, hc, hhost'] at hrun
  -- a message still held is held as before, by a call of another processor
  have hheld : ∀ {m body c}, (s.messages m).map (Message.returned s.core i) =
      some ⟨body, .held c⟩ → s.messages m = some ⟨body, .held c⟩ ∧ RunsOn s.core i c = false := by
    intro m body c h
    obtain ⟨msg, hm, hret⟩ := Option.map_eq_some_iff.mp h
    rcases returned_cases s.core i msg with ⟨heq, hrun⟩ | ⟨b, -, -, heq⟩
    · rw [heq] at hret
      subst hret
      exact ⟨hm, hrun c rfl⟩
    · rw [heq] at hret
      cases hret
  constructor
  · intro m body c h
    obtain ⟨hm, hrun⟩ := hheld h
    obtain ⟨call, hc, hbody, hlive⟩ := hs.held m body c hm
    refine ⟨call, ?_, hbody, hlive⟩
    simp only [hc, Option.map_some, hother c call hc hrun]
  · exact fun m m' body body' c h h' => hs.exclusive m m' body body' c (hheld h).1 (hheld h').1
  · intro c call ph h hph
    obtain ⟨old, hc, rfl⟩ := Option.map_eq_some_iff.mp h
    rcases Call.crashOn_cases platform i old with heq | ⟨-, -, -, heq⟩
    · rw [heq] at hph ⊢
      obtain ⟨m, hm⟩ := hs.running c old ph hc hph
      refine ⟨m, ?_⟩
      rcases returned_cases s.core i ⟨old.tag.body, .held c⟩ with ⟨hsame, -⟩ | ⟨b, hb, hrun, -⟩
      · simp only [hm, Option.map_some, hsame]
      · -- a call of the crashed processor is not running any more
        cases hb
        have hhost : old.tag.processor = i := by simpa [RunsOn, hc] using hrun
        have hhost' : platform.host old.tag = i := hhost
        rw [Call.crashOn, if_pos hhost', Call.crash, hph] at heq
        rw [← heq] at hph
        cases hph
    · rw [heq] at hph
      cases hph
  · intro m body h
    obtain ⟨msg, hm, hret⟩ := Option.map_eq_some_iff.mp h
    rcases returned_cases s.core i msg with ⟨heq, -⟩ | ⟨b, -, -, heq⟩
    · rw [heq] at hret
      subst hret
      obtain ⟨c, call, o, hc, hbody, ho, hfinal⟩ := hs.acked m body hm
      refine ⟨c, call, o, ?_, hbody, ho, hfinal⟩
      have hkeep : call.crashOn platform i = call := by
        rcases Call.crashOn_cases platform i call with heq | ⟨ph, hph, -⟩
        · exact heq
        · rw [ho] at hph; cases hph
      simp only [hc, Option.map_some, hkeep]
    · rw [heq] at hret
      cases hret
  · intro c call h
    obtain ⟨old, hc, rfl⟩ := Option.map_eq_some_iff.mp h
    have htag : (old.crashOn platform i).tag = old.tag := by
      rcases Call.crashOn_cases platform i old with heq | ⟨-, -, -, heq⟩ <;> rw [heq]
    rw [htag]
    obtain ⟨m, state, hm⟩ := hs.delivered c old hc
    rcases returned_cases s.core i ⟨old.tag.body, state⟩ with ⟨heq, -⟩ | ⟨b, -, -, heq⟩
    · exact ⟨m, state, by simp only [hm, Option.map_some, heq]⟩
    · exact ⟨m, .ready, by simp only [hm, Option.map_some, heq]⟩

/-- **Messages and calls stay tied together.** -/
theorem Holding.step {l : BrokerLabel ι} {s s' : ConsumerPhases ι env} (hs : Holding s)
    (h : BrokerStep s l s') : Holding s' := by
  cases h with
  | publish hm => exact hs.publish _ hm
  | deliver hm hcore =>
      cases Phases.step_cases hcore with
      | start hc => exact hs.deliver hm rfl hc _ _
  | io hcore => exact hs.evolve (Phases.step_cases hcore).evolves_io
  | settle hm hc hresult => exact hs.settle hm hc hresult
  | crash hcore =>
      cases Phases.step_cases hcore with
      | crash => exact hs.crash _
  | disturb hcore => exact hs.evolve (Phases.step_cases hcore).evolves_disturb

theorem ConsumerPhases.holding {ok : BrokerLabel ι → ConsumerPhases ι env → Prop}
    {messages : Nat → Option Message}
    (hready : ∀ m msg, messages m = some msg → msg.state = .ready) {s : ConsumerPhases ι env}
    (h : Reach (ConsumerPhases.step env) ok (Broker.loaded messages) s) : Holding s :=
  h.invariant (.loaded hready) fun _ _ _ _ hs _ hstep =>
    hs.step (ConsumerPhases.step_cases hstep)

end Holding

end MeshSettle
