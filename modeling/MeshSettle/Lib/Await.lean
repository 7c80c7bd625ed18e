import Mathlib.Logic.Function.Basic

/-!
# Programs that await

`Prog Op Resp ε α` is a program that performs operations `op : Op`, is
resumed with an answer of type `Resp op` or with an exception of type `ε`,
and ends by returning an `α` or by raising. Everything between two awaits is
pure, so a `Prog` is exactly the coroutine of a single-threaded event loop:
the points at which other coroutines may run are its `await` nodes.

`InStep` relates two programs that do the same up to a relation of their
operations.

`View` is one observation of such a program. A second representation of the
same program (a hand-written state machine) is compared with it through its
own `View`.
-/

namespace Lib.Await

/-- A program over the operations `Op`, answered in `Resp`, raising `ε`. -/
inductive Prog (Op : Type) (Resp : Op → Type) (ε α : Type) where
  | ret (a : α)
  | raise (e : ε)
  | await (op : Op) (k : Except ε (Resp op) → Prog Op Resp ε α)

namespace Prog

variable {Op : Type} {Resp : Op → Type} {ε α β γ : Type}

/-- Sequencing: an exception of the first program skips the second. -/
def bind (p : Prog Op Resp ε α) (f : α → Prog Op Resp ε β) : Prog Op Resp ε β :=
  match p with
  | .ret a => f a
  | .raise e => .raise e
  | .await op k => .await op (fun r => (k r).bind f)

/-- `try p except e => h e`. -/
def tryCatch (p : Prog Op Resp ε α) (h : ε → Prog Op Resp ε α) : Prog Op Resp ε α :=
  match p with
  | .ret a => .ret a
  | .raise e => h e
  | .await op k => .await op (fun r => (k r).tryCatch h)

/-- A single operation, whose failure is raised. -/
def perform (op : Op) : Prog Op Resp ε (Resp op) :=
  .await op (fun
    | .ok a => .ret a
    | .error e => .raise e)

instance : Monad (Prog Op Resp ε) where
  pure := .ret
  bind := Prog.bind

@[simp] theorem ret_bind (a : α) (f : α → Prog Op Resp ε β) :
    ((Prog.ret a : Prog Op Resp ε α) >>= f) = f a := rfl

@[simp] theorem raise_bind (e : ε) (f : α → Prog Op Resp ε β) :
    ((Prog.raise e : Prog Op Resp ε α) >>= f) = .raise e := rfl

@[simp] theorem await_bind (op : Op) (k : Except ε (Resp op) → Prog Op Resp ε α)
    (f : α → Prog Op Resp ε β) :
    (Prog.await op k >>= f) = .await op (fun r => k r >>= f) := rfl

@[simp] theorem pure_eq_ret (a : α) : (pure a : Prog Op Resp ε α) = .ret a := rfl

@[simp] theorem tryCatch_ret (a : α) (h : ε → Prog Op Resp ε α) :
    tryCatch (.ret a) h = .ret a := rfl

@[simp] theorem tryCatch_raise (e : ε) (h : ε → Prog Op Resp ε α) :
    tryCatch (.raise e) h = h e := rfl

@[simp] theorem tryCatch_await (op : Op) (k : Except ε (Resp op) → Prog Op Resp ε α)
    (h : ε → Prog Op Resp ε α) :
    tryCatch (.await op k) h = .await op (fun r => tryCatch (k r) h) := rfl

/-! ## Programs in step -/

section InStep

variable {R : (op op' : Op) → (Resp op → Resp op') → Prop}

/-- Two programs in step: they end alike, or await related operations and go on
in step, whatever the answer. `R op op' f` relates two operations whose answers
correspond by `f`. -/
inductive InStep (R : (op op' : Op) → (Resp op → Resp op') → Prop) :
    Prog Op Resp ε α → Prog Op Resp ε α → Prop
  | ret (a : α) : InStep R (.ret a) (.ret a)
  | raise (e : ε) : InStep R (.raise e) (.raise e)
  | await {op op' : Op} {f : Resp op → Resp op'} {k : Except ε (Resp op) → Prog Op Resp ε α}
      {k' : Except ε (Resp op') → Prog Op Resp ε α} : R op op' f →
      (∀ r, InStep R (k r) (k' (r.map f))) → InStep R (.await op k) (.await op' k')

/-- A program is in step with itself. -/
theorem InStep.refl (hrefl : ∀ op, R op op id) (p : Prog Op Resp ε α) : InStep R p p := by
  induction p with
  | ret a => exact .ret a
  | raise e => exact .raise e
  | await op k ih =>
      refine .await (hrefl op) fun r => ?_
      have hid : r.map id = r := by cases r <;> rfl
      rw [hid]
      exact ih r

/-- Sequencing keeps programs in step. -/
theorem InStep.bind {p p' : Prog Op Resp ε α} {g g' : α → Prog Op Resp ε β}
    (h : InStep R p p') (hg : ∀ a, InStep R (g a) (g' a)) : InStep R (p >>= g) (p' >>= g') := by
  induction h with
  | ret a => exact hg a
  | raise e => exact .raise e
  | await hop _ ih => exact .await hop ih

/-- So does handling their exceptions. -/
theorem InStep.tryCatch {p p' : Prog Op Resp ε α} {g g' : ε → Prog Op Resp ε α}
    (h : InStep R p p') (hg : ∀ e, InStep R (g e) (g' e)) :
    InStep R (Prog.tryCatch p g) (Prog.tryCatch p' g') := by
  induction h with
  | ret a => exact .ret a
  | raise e => exact hg e
  | await hop _ ih => exact .await hop ih

end InStep

end Prog

/-- One observation of a program whose later states are of type `P`. -/
inductive View (Op : Type) (Resp : Op → Type) (ε α P : Type) where
  | ret (a : α)
  | raise (e : ε)
  | await (op : Op) (k : Except ε (Resp op) → P)

namespace View

variable {Op : Type} {Resp : Op → Type} {ε α P Q : Type}

/-- Translate the states a view continues in. -/
def map (f : P → Q) : View Op Resp ε α P → View Op Resp ε α Q
  | .ret a => .ret a
  | .raise e => .raise e
  | .await op k => .await op (fun r => f (k r))

end View

/-- The observation of a `Prog` is its top constructor. -/
def Prog.view {Op : Type} {Resp : Op → Type} {ε α : Type} :
    Prog Op Resp ε α → View Op Resp ε α (Prog Op Resp ε α)
  | .ret a => .ret a
  | .raise e => .raise e
  | .await op k => .await op k

end Lib.Await
