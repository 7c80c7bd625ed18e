import MeshSettle.Lib.Await
import MeshSettle.Lib.Transition

/-!
# Interleaved calls over shared services

Any number of calls run one program each against shared services. A step
starts a call, performs the pending operation of one call, crashes a host
with every call it runs, or lets the environment change the services. An
operation may be `served`, `refused` (it fails and has no effect) or `lost`
(it takes effect, but the caller sees a failure).

The representation `P` of the programs is a parameter, observed through
`Code.view`. `step_map` says that two representations with the same
observations have the same runs, so a run of coroutines is a run of any state
machine that is observed in the same way.
-/

namespace Lib.Interleave

open Lib.Await Lib.Transition

/-- How the environment treats one operation. -/
inductive Mode where
  | served
  | refused
  | lost
  deriving DecidableEq, Repr

/-- The shared services: `perform` answers an operation at a clock reading,
`fault` is what a failed operation raises, `record` is the bookkeeping done by
the host when a call returns, `disturb` is a change made by the environment. -/
structure Platform (Op : Type) (Resp : Op → Type) (ε α Tag Host Env S : Type) where
  perform : (op : Op) → Int → S → S × Except ε (Resp op)
  fault : ε
  record : Tag → α → S → S
  disturb : Env → S → S
  host : Tag → Host

/-- A representation of the programs: how a call starts and how it is
observed. -/
structure Code (Op : Type) (Resp : Op → Type) (ε α Tag P : Type) where
  init : Tag → P
  view : P → View Op Resp ε α P

/-- Where a call stands. -/
inductive Status (ε α P : Type) where
  | running (p : P)
  | returned (a : α)
  | raised (e : ε)
  | crashed

/-- An operation together with the answer its caller saw. -/
abbrev Event (Op : Type) (Resp : Op → Type) (ε : Type) := (op : Op) × Except ε (Resp op)

/-- A call: what it was started for, where it stands, and the operations it
has performed, latest first. -/
structure Call (Op : Type) (Resp : Op → Type) (ε α Tag P : Type) where
  tag : Tag
  status : Status ε α P
  log : List (Event Op Resp ε)

/-- The services and every call started so far. -/
structure State (Op : Type) (Resp : Op → Type) (ε α Tag S P : Type) where
  store : S
  calls : Nat → Option (Call Op Resp ε α Tag P)

/-- One step of the system. -/
inductive Label (Tag Host Env : Type) where
  | start (c : Nat) (tag : Tag)
  | io (c : Nat) (mode : Mode) (clock : Int)
  | crash (host : Host)
  | disturb (e : Env)

section Semantics

variable {Op : Type} {Resp : Op → Type} {ε α Tag Host Env S P Q : Type}

namespace Platform

/-- What a caller sees of an operation, and what becomes of the services. -/
def answer (pf : Platform Op Resp ε α Tag Host Env S) (mode : Mode) (op : Op) (clock : Int)
    (s : S) : S × Except ε (Resp op) :=
  match mode with
  | .served => pf.perform op clock s
  | .refused => (s, .error pf.fault)
  | .lost => ((pf.perform op clock s).1, .error pf.fault)

/-- A program alone with the services: the `n`th operation is treated by
`mode n` at clock reading `clock n`. -/
def exec (pf : Platform Op Resp ε α Tag Host Env S) :
    Prog Op Resp ε α → (Nat → Mode) → (Nat → Int) → S → S × Except ε α
  | .ret a, _, _, s => (s, .ok a)
  | .raise e, _, _, s => (s, .error e)
  | .await op k, mode, clock, s =>
      let ans := pf.answer (mode 0) op (clock 0) s
      exec pf (k ans.2) (fun n => mode (n + 1)) (fun n => clock (n + 1)) ans.1

/-- The operations of a program alone with the services, and their answers, in
order. -/
def trace (pf : Platform Op Resp ε α Tag Host Env S) :
    Prog Op Resp ε α → (Nat → Mode) → (Nat → Int) → S → List (Event Op Resp ε)
  | .ret _, _, _, _ => []
  | .raise _, _, _, _ => []
  | .await op k, mode, clock, s =>
      let ans := pf.answer (mode 0) op (clock 0) s
      ⟨op, ans.2⟩ :: trace pf (k ans.2) (fun n => mode (n + 1)) (fun n => clock (n + 1)) ans.1

/-- A call runs to its next await, or ends. -/
def settle (pf : Platform Op Resp ε α Tag Host Env S) (code : Code Op Resp ε α Tag P)
    (tag : Tag) (p : P) (log : List (Event Op Resp ε)) (s : S) :
    S × Call Op Resp ε α Tag P :=
  match code.view p with
  | .ret a => (pf.record tag a s, ⟨tag, .returned a, log⟩)
  | .raise e => (s, ⟨tag, .raised e, log⟩)
  | .await _ _ => (s, ⟨tag, .running p, log⟩)

end Platform

/-- **Programs in step** have the same result, and leave the services related,
when related operations are answered alike by related services. -/
theorem Platform.exec_inStep (pf : Platform Op Resp ε α Tag Host Env S)
    {R : (op op' : Op) → (Resp op → Resp op') → Prop} {Q : S → S → Prop}
    (hperform : ∀ op op' f, R op op' f → ∀ clock s s', Q s s' →
      Q (pf.perform op clock s).1 (pf.perform op' clock s').1 ∧
        (pf.perform op' clock s').2 = (pf.perform op clock s).2.map f)
    {p p' : Prog Op Resp ε α} (h : Prog.InStep R p p') (mode : Nat → Mode) (clock : Nat → Int)
    {s s' : S} (hQ : Q s s') :
    Q (pf.exec p mode clock s).1 (pf.exec p' mode clock s').1 ∧
      (pf.exec p' mode clock s').2 = (pf.exec p mode clock s).2 := by
  have hanswer : ∀ op op' f, R op op' f → ∀ mode clock s s', Q s s' →
      Q (pf.answer mode op clock s).1 (pf.answer mode op' clock s').1 ∧
        (pf.answer mode op' clock s').2 = (pf.answer mode op clock s).2.map f := by
    intro op op' f hop mode clock s s' hQ
    cases mode with
    | served => exact hperform op op' f hop clock s s' hQ
    | refused => exact ⟨hQ, rfl⟩
    | lost => exact ⟨(hperform op op' f hop clock s s' hQ).1, rfl⟩
  induction h generalizing mode clock s s' with
  | ret a => exact ⟨hQ, rfl⟩
  | raise e => exact ⟨hQ, rfl⟩
  | @await op op' f k k' hop _ ih =>
      obtain ⟨hQ', hans⟩ := hanswer op op' f hop (mode 0) (clock 0) s s' hQ
      have hrest := ih (pf.answer (mode 0) op (clock 0) s).2 (fun n => mode (n + 1))
        (fun n => clock (n + 1)) hQ'
      rw [← hans] at hrest
      exact hrest

/-- The operation a running call is suspended at. -/
def Call.pending (code : Code Op Resp ε α Tag P) (call : Call Op Resp ε α Tag P) : Option Op :=
  match call.status with
  | .running p =>
      match code.view p with
      | .await op _ => some op
      | _ => none
  | _ => none

/-- The operation that a step performs, and how it is answered. -/
def performed (pf : Platform Op Resp ε α Tag Host Env S) (code : Code Op Resp ε α Tag P) :
    Label Tag Host Env → State Op Resp ε α Tag S P → Option (Event Op Resp ε)
  | .io c mode clock, s =>
      ((s.calls c).bind (Call.pending code)).map fun op =>
        ⟨op, (pf.answer mode op clock s.store).2⟩
  | _, _ => none

/-- What an ended call has to show: its result or its exception. -/
def Call.result (call : Call Op Resp ε α Tag P) : Option (Except ε α) :=
  match call.status with
  | .returned a => some (.ok a)
  | .raised e => some (.error e)
  | _ => none

/-- A crash stops a running call for good. -/
def Call.crash (call : Call Op Resp ε α Tag P) : Call Op Resp ε α Tag P :=
  match call.status with
  | .running _ => { call with status := .crashed }
  | _ => call

/-- A crash of host `h` stops the calls running there. -/
def Call.crashOn [DecidableEq Host] (pf : Platform Op Resp ε α Tag Host Env S) (h : Host)
    (call : Call Op Resp ε α Tag P) : Call Op Resp ε α Tag P :=
  if pf.host call.tag = h then call.crash else call

/-- A crash leaves a call alone, or stops it while it is running. -/
theorem Call.crashOn_cases [DecidableEq Host] (pf : Platform Op Resp ε α Tag Host Env S)
    (h : Host) (call : Call Op Resp ε α Tag P) :
    call.crashOn pf h = call ∨
      ∃ p, call.status = .running p ∧ pf.host call.tag = h ∧
        call.crashOn pf h = { call with status := .crashed } := by
  obtain ⟨tag, status, log⟩ := call
  unfold Call.crashOn Call.crash
  split
  · next hh =>
      cases status with
      | running p => exact .inr ⟨p, rfl, hh, rfl⟩
      | returned a => exact .inl rfl
      | raised e => exact .inl rfl
      | crashed => exact .inl rfl
  · exact .inl rfl

/-- The state in which call `c` is replaced. -/
def State.put (c : Nat) (r : S × Call Op Resp ε α Tag P)
    (s : State Op Resp ε α Tag S P) : State Op Resp ε α Tag S P :=
  { store := r.1, calls := Function.update s.calls c (some r.2) }

/-- The interleaved system. -/
def step [DecidableEq Host] (pf : Platform Op Resp ε α Tag Host Env S)
    (code : Code Op Resp ε α Tag P) :
    Label Tag Host Env → State Op Resp ε α Tag S P → Option (State Op Resp ε α Tag S P)
  | .start c tag, s =>
      match s.calls c with
      | some _ => none
      | none => some (s.put c (pf.settle code tag (code.init tag) [] s.store))
  | .io c mode clock, s =>
      match s.calls c with
      | some ⟨tag, .running p, log⟩ =>
          match code.view p with
          | .await op k =>
              let ans := pf.answer mode op clock s.store
              some (s.put c (pf.settle code tag (k ans.2) (⟨op, ans.2⟩ :: log) ans.1))
          | _ => none
      | _ => none
  | .crash h, s =>
      some { s with calls := fun c => (s.calls c).map (Call.crashOn pf h) }
  | .disturb e, s => some { s with store := pf.disturb e s.store }

/-! ## Two representations of the same programs -/

/-- Translate the program of a status. -/
def Status.map (f : P → Q) : Status ε α P → Status ε α Q
  | .running p => .running (f p)
  | .returned a => .returned a
  | .raised e => .raised e
  | .crashed => .crashed

/-- Translate the program of a call. -/
def Call.map (f : P → Q) (call : Call Op Resp ε α Tag P) : Call Op Resp ε α Tag Q :=
  ⟨call.tag, call.status.map f, call.log⟩

/-- Translate every program of a state. -/
def State.map (f : P → Q) (s : State Op Resp ε α Tag S P) : State Op Resp ε α Tag S Q :=
  ⟨s.store, fun c => (s.calls c).map (Call.map f)⟩

@[simp] theorem State.map_store (f : P → Q) (s : State Op Resp ε α Tag S P) :
    (s.map f).store = s.store := rfl

@[simp] theorem State.map_calls (f : P → Q) (s : State Op Resp ε α Tag S P) (c : Nat) :
    (s.map f).calls c = (s.calls c).map (Call.map f) := rfl

/-- A call of the translated state is a translated call. -/
theorem State.of_map_calls {f : P → Q} {s : State Op Resp ε α Tag S P} {c : Nat}
    {call : Call Op Resp ε α Tag Q} (h : (s.map f).calls c = some call) :
    ∃ call', s.calls c = some call' ∧ call = call'.map f := by
  obtain ⟨call', hc, rfl⟩ := Option.map_eq_some_iff.mp h
  exact ⟨call', hc, rfl⟩

theorem Status.map_eq_returned {f : P → Q} {status : Status ε α P} {a : α}
    (h : status.map f = .returned a) : status = .returned a := by
  cases status with
  | returned b => cases h; rfl
  | _ => cases h

theorem Status.map_eq_running {f : P → Q} {status : Status ε α P} {q : Q}
    (h : status.map f = .running q) : ∃ p, status = .running p ∧ q = f p := by
  cases status with
  | running p => exact ⟨p, rfl, (Status.running.inj h).symm⟩
  | _ => cases h

/-- Two codes are the same program, state `p` of one standing for state `f p`
of the other. -/
structure Same (code : Code Op Resp ε α Tag P) (code' : Code Op Resp ε α Tag Q)
    (f : P → Q) : Prop where
  init : ∀ tag, code'.init tag = f (code.init tag)
  view : ∀ p, code'.view (f p) = (code.view p).map f

theorem Call.pending_map {code : Code Op Resp ε α Tag P} {code' : Code Op Resp ε α Tag Q}
    {f : P → Q} (same : Same code code' f) (call : Call Op Resp ε α Tag P) :
    (call.map f).pending code' = call.pending code := by
  obtain ⟨tag, status, log⟩ := call
  cases status with
  | running p =>
      simp only [Call.pending, Call.map, Status.map, same.view]
      cases code.view p <;> rfl
  | _ => rfl

/-- The same programs perform the same operations. -/
theorem performed_map {pf : Platform Op Resp ε α Tag Host Env S} {code : Code Op Resp ε α Tag P}
    {code' : Code Op Resp ε α Tag Q} {f : P → Q} (same : Same code code' f)
    (l : Label Tag Host Env) (s : State Op Resp ε α Tag S P) :
    performed pf code' l (s.map f) = performed pf code l s := by
  cases l with
  | io c mode clock =>
      simp only [performed, State.map_calls, State.map_store]
      cases s.calls c with
      | none => rfl
      | some call => simp only [Option.map_some, Option.bind_some, Call.pending_map same]
  | _ => rfl

theorem Call.result_map (f : P → Q) (call : Call Op Resp ε α Tag P) :
    (call.map f).result = call.result := by
  obtain ⟨tag, status, log⟩ := call
  cases status <;> rfl

theorem Call.map_crash (f : P → Q) (call : Call Op Resp ε α Tag P) :
    (call.map f).crash = call.crash.map f := by
  obtain ⟨tag, status, log⟩ := call
  cases status <;> rfl

theorem settle_map {pf : Platform Op Resp ε α Tag Host Env S} {code : Code Op Resp ε α Tag P}
    {code' : Code Op Resp ε α Tag Q} {f : P → Q} (same : Same code code' f) (tag : Tag)
    (p : P) (log : List (Event Op Resp ε)) (s : S) :
    pf.settle code' tag (f p) log s =
      ((pf.settle code tag p log s).1, (pf.settle code tag p log s).2.map f) := by
  unfold Platform.settle
  rw [same.view]
  cases code.view p <;> rfl

theorem State.map_put (f : P → Q) (c : Nat) (r : S × Call Op Resp ε α Tag P)
    (s : State Op Resp ε α Tag S P) :
    (s.put c r).map f = (s.map f).put c (r.1, r.2.map f) := by
  refine congrArg (State.mk r.1) (funext fun d => ?_)
  by_cases hd : d = c
  · subst hd; simp [State.put]
  · simp [State.put, hd]

theorem Call.map_crashOn [DecidableEq Host] (f : P → Q)
    (pf : Platform Op Resp ε α Tag Host Env S) (h : Host) (call : Call Op Resp ε α Tag P) :
    (call.map f).crashOn pf h = (call.crashOn pf h).map f := by
  show (if pf.host call.tag = h then (call.map f).crash else call.map f) = _
  unfold Call.crashOn
  split
  · exact Call.map_crash f call
  · rfl

/-- The same programs have the same runs. -/
theorem step_map [DecidableEq Host] {pf : Platform Op Resp ε α Tag Host Env S}
    {code : Code Op Resp ε α Tag P} {code' : Code Op Resp ε α Tag Q} {f : P → Q}
    (same : Same code code' f)
    (l : Label Tag Host Env) (s : State Op Resp ε α Tag S P) :
    step pf code' l (s.map f) = (step pf code l s).map (State.map f) := by
  cases l with
  | start c tag =>
      simp only [step, State.map_calls, State.map_store]
      cases s.calls c with
      | some call => rfl
      | none =>
          simp only [Option.map_none, Option.map_some, State.map_put]
          rw [same.init, settle_map same]
  | io c mode clock =>
      simp only [step, State.map_calls, State.map_store]
      cases s.calls c with
      | none => rfl
      | some call =>
          obtain ⟨tag, status, log⟩ := call
          cases status with
          | running p =>
              simp only [Option.map_some, Call.map, Status.map, same.view]
              cases code.view p with
              | await op k =>
                  simp only [View.map, Option.map_some, State.map_put]
                  rw [settle_map same]
              | ret a => rfl
              | raise e => rfl
          | returned a => rfl
          | raised e => rfl
          | crashed => rfl
  | crash h =>
      simp only [step, Option.map_some, Option.some.injEq]
      refine congrArg (State.mk s.store) (funext fun d => ?_)
      cases hd : s.calls d with
      | none => simp [hd]
      | some call => simp [hd, Call.map_crashOn]
  | disturb e => rfl

end Semantics

end Lib.Interleave
