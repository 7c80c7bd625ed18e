import Mathlib.Data.List.Basic

/-!
# Schema validation with accumulated errors

A validator reads a JSON value and either yields a typed value, or a list of
located errors, or stops because a user-written check raised an exception
that is not a validation failure. Fields are validated in their declared
order: errors accumulate, and the first raised exception wins over every
error collected before it.

`Raises` is the predicate the resilience proofs use: it distributes over the
combinators (`raises_combine`, `raises_field`, `raises_after`).
-/

namespace Lib.Schema

/-- A decoded JSON document. A number that is not an integer keeps its text;
a string with an unpaired surrogate keeps its code points; a `ragged` object has
a name with an unpaired surrogate, and keeps the members whose names have none,
and the first name that has one. -/
inductive Json where
  | null
  | bool (b : Bool)
  | int (n : Int)
  | float (text : String)
  | str (s : String)
  | unpaired (codes : List Nat)
  | arr (items : List Json)
  | obj (members : List (String × Json))
  | ragged (members : List (String × Json)) (name : List Nat)

/-- The members that a name can be looked up in. -/
def Json.members : Json → Option (List (String × Json))
  | .obj members => some members
  | .ragged members _ => some members
  | _ => none

/-- A step of an error location. -/
inductive Loc where
  | field (name : String)
  | index (i : Nat)
  deriving DecidableEq, Repr

/-- `str(part)` of a location step. -/
def Loc.text : Loc → String
  | .field name => name
  | .index i => toString i

/-- One validation error: where, what, and the offending input. -/
structure ErrorDetails where
  loc : List Loc
  type : String
  msg : String
  input : Json

/-- Why validation did not yield a value. -/
inductive Failure (ε : Type) where
  | invalid (errors : List ErrorDetails)
  | raised (e : ε)

/-- The result of validating one value. -/
abbrev Checked (ε α : Type) := Except (Failure ε) α

section Combinators

variable {ε α β γ : Type}

/-- A single error at the current location. -/
def reject (type msg : String) (input : Json) : Checked ε α :=
  .error (.invalid [⟨[], type, msg, input⟩])

/-- Move the errors below a location step. -/
def within (l : Loc) : Checked ε α → Checked ε α
  | .error (.invalid es) => .error (.invalid (es.map fun e => { e with loc := l :: e.loc }))
  | x => x

/-- Validate two parts in order and combine them. The combination may use that
the first part is valid. -/
def combine (x : Checked ε α) (y : Checked ε β) (f : (a : α) → x = .ok a → β → γ) :
    Checked ε γ :=
  match x, f with
  | .error (.raised e), _ => .error (.raised e)
  | .error (.invalid es), _ =>
      match y with
      | .ok _ => .error (.invalid es)
      | .error (.invalid fs) => .error (.invalid (es ++ fs))
      | .error (.raised e) => .error (.raised e)
  | .ok a, f => y.map (f a rfl)

/-- Validate two parts in order. -/
def both (x : Checked ε α) (y : Checked ε β) : Checked ε (α × β) :=
  combine x y fun a _ b => (a, b)

/-- A check that runs on a value already validated. A `ValueError` becomes a
validation error carrying its message, any other exception propagates. -/
def after (valueError : ε → Option String) (input : Json) (x : Checked ε α)
    (check : α → Except ε β) : Checked ε β :=
  match x with
  | .error f => .error f
  | .ok a =>
      match check a with
      | .ok b => .ok b
      | .error e =>
          match valueError e with
          | some msg => reject "value_error" ("Value error, " ++ msg) input
          | none => .error (.raised e)

/-- The member of an object; the last one wins when a key is repeated. -/
def lookup (name : String) (members : List (String × Json)) : Option Json :=
  (members.reverse.find? fun m => m.1 = name).map Prod.snd

/-- A required field. -/
def field (members : List (String × Json)) (name : String) (v : Json → Checked ε α) :
    Checked ε α :=
  match lookup name members with
  | none => within (.field name) (reject "missing" "Field required" (.obj members))
  | some j => within (.field name) (v j)

/-- A field with a default. -/
def fieldOr (members : List (String × Json)) (name : String) (default : α)
    (v : Json → Checked ε α) : Checked ε α :=
  match lookup name members with
  | none => .ok default
  | some j => within (.field name) (v j)

/-- The `dict` of some members: a repeated name stays where it first stood, with
its last value. -/
def dict : List (String × Json) → List (String × Json)
  | [] => []
  | (name, j) :: ms => (name, (lookup name ms).getD j) :: (dict ms).filter fun m => m.1 ≠ name

/-- No members besides the known ones. A repeated name is reported once. -/
def forbidExtra (known : List String) (members : List (String × Json)) : Checked ε Unit :=
  match (dict members).filter fun m => !known.contains m.1 with
  | [] => .ok ()
  | extra => .error (.invalid (extra.map fun m =>
      ⟨[.field m.1], "extra_forbidden", "Extra inputs are not permitted", m.2⟩))

/-- The error about a name that is no Unicode text. -/
def nameError (name : List Nat) : ErrorDetails :=
  ⟨[], "string_unicode",
    "Input should be a valid string, unable to parse raw data as a unicode string",
    .unpaired name⟩

/-- The members of an object. The look at the names, after the fields, ends at
one that is no Unicode text, and its error then stands alone. -/
def object (v : List (String × Json) → Checked ε α) (j : Json) : Checked ε α :=
  match j with
  | .obj members => v members
  | .ragged members name =>
      match v members with
      | .error (.raised e) => .error (.raised e)
      | _ => .error (.invalid [nameError name])
  | _ => reject "model_type" "Input should be an object" j

/-- Every item of an array, in order. -/
def items (v : Json → Checked ε α) : Nat → List Json → Checked ε (List α)
  | _, [] => .ok []
  | i, j :: js => combine (within (.index i) (v j)) (items v (i + 1) js) fun a _ as => a :: as

/-! ## When validation succeeds -/

theorem combine_ok {x : Checked ε α} {y : Checked ε β} {f : (a : α) → x = .ok a → β → γ} {a : α}
    {b : β} (hx : x = .ok a) (hy : y = .ok b) : combine x y f = .ok (f a hx b) := by
  subst hx hy
  rfl

theorem both_ok {x : Checked ε α} {y : Checked ε β} {a : α} {b : β} (hx : x = .ok a)
    (hy : y = .ok b) : both x y = .ok (a, b) :=
  combine_ok hx hy

/-- Errors of the first part remain beside a valid second one. -/
theorem both_invalid {x : Checked ε α} {y : Checked ε β} {es : List ErrorDetails} {b : β}
    (hx : x = .error (.invalid es)) (hy : y = .ok b) : both x y = .error (.invalid es) := by
  subst hx hy
  rfl

/-- Beside a valid first part the second one decides. -/
theorem both_error {x : Checked ε α} {y : Checked ε β} {a : α} {f : Failure ε}
    (hx : x = .ok a) (hy : y = .error f) : both x y = .error f := by
  subst hx hy
  rfl

theorem after_ok {valueError : ε → Option String} {input : Json} {x : Checked ε α}
    {check : α → Except ε β} {a : α} {b : β} (hx : x = .ok a) (hcheck : check a = .ok b) :
    after valueError input x check = .ok b := by
  subst hx
  simp only [after, hcheck]

theorem field_ok {members : List (String × Json)} {name : String} {v : Json → Checked ε α}
    {j : Json} {a : α} (hj : lookup name members = some j) (hv : v j = .ok a) :
    field members name v = .ok a := by
  simp only [field, hj, hv, within]

theorem fieldOr_ok {members : List (String × Json)} {name : String} {default : α}
    {v : Json → Checked ε α} {j : Json} {a : α} (hj : lookup name members = some j)
    (hv : v j = .ok a) : fieldOr members name default v = .ok a := by
  simp only [fieldOr, hj, hv, within]

/-- A name that is no member's is not looked up. -/
theorem lookup_eq_none {name : String} {members : List (String × Json)}
    (h : name ∉ members.map Prod.fst) : lookup name members = none := by
  rw [lookup, Option.map_eq_none_iff, List.find?_eq_none]
  intro m hm
  have hne : m.1 ≠ name := by
    rintro rfl
    exact h (List.mem_map_of_mem (List.mem_reverse.mp hm))
  simp [hne]

/-- A dict has the names of its members. -/
theorem name_of_mem_dict {members : List (String × Json)} {m : String × Json}
    (h : m ∈ dict members) : m.1 ∈ members.map Prod.fst := by
  induction members with
  | nil => cases h
  | cons n ms ih =>
      rw [dict] at h
      rcases List.mem_cons.mp h with rfl | h
      · exact List.mem_cons_self
      · exact List.mem_cons_of_mem _ (ih (List.mem_of_mem_filter h))

/-- Members with names of their own are a dict. -/
theorem dict_of_nodup {members : List (String × Json)} (h : (members.map Prod.fst).Nodup) :
    dict members = members := by
  induction members with
  | nil => rfl
  | cons m ms ih =>
      obtain ⟨hnot, hnodup⟩ := List.nodup_cons.mp h
      have hothers : ∀ n ∈ ms, decide (n.1 ≠ m.1) = true := by
        intro n hn
        have hne : n.1 ≠ m.1 := fun heq => hnot (heq ▸ List.mem_map_of_mem hn)
        simpa using hne
      rw [dict, ih hnodup, lookup_eq_none hnot, List.filter_eq_self.mpr hothers]
      rfl

theorem forbidExtra_ok {known : List String} {members : List (String × Json)}
    (h : ∀ m ∈ members, known.contains m.1 = true) :
    (forbidExtra known members : Checked ε Unit) = .ok () := by
  have hnone : ((dict members).filter fun m => !known.contains m.1) = [] := by
    rw [List.filter_eq_nil_iff]
    intro m hm
    obtain ⟨n, hn, hname⟩ := List.mem_map.mp (name_of_mem_dict hm)
    rw [← hname]
    simp [List.contains_iff_mem.mp (h n hn)]
  rw [forbidExtra, hnone]

/-- Items that are valid one by one. -/
theorem items_map {v : Json → Checked ε α} {render : α → Json} (as : List α)
    (h : ∀ a ∈ as, v (render a) = .ok a) (i : Nat) : items v i (as.map render) = .ok as := by
  induction as generalizing i with
  | nil => rfl
  | cons a as ih =>
      rw [List.map_cons, items]
      refine combine_ok (a := a) (b := as) ?_ (ih (fun b hb => h b (List.mem_cons_of_mem _ hb)) _)
      rw [h a List.mem_cons_self]
      rfl

/-! ## When validation raises -/

/-- Validation ends in an exception that is not a validation failure. -/
def Raises (x : Checked ε α) : Prop := ∃ e, x = .error (.raised e)

@[simp] theorem raises_ok (a : α) : ¬ Raises (.ok a : Checked ε α) := by
  rintro ⟨e, h⟩; cases h

@[simp] theorem raises_invalid (es : List ErrorDetails) :
    ¬ Raises (.error (.invalid es) : Checked ε α) := by
  rintro ⟨e, h⟩; cases h

@[simp] theorem raises_raised (e : ε) : Raises (.error (.raised e) : Checked ε α) := ⟨e, rfl⟩

@[simp] theorem raises_reject (type msg : String) (input : Json) :
    ¬ Raises (reject type msg input : Checked ε α) := raises_invalid _

@[simp] theorem raises_within (l : Loc) (x : Checked ε α) :
    Raises (within l x) ↔ Raises x := by
  match x with
  | .ok a => rfl
  | .error (.raised e) => rfl
  | .error (.invalid es) => simp [within]

/-- A combination raises when one of its parts does. -/
@[simp] theorem raises_combine (x : Checked ε α) (y : Checked ε β)
    (f : (a : α) → x = .ok a → β → γ) : Raises (combine x y f) ↔ Raises x ∨ Raises y := by
  match x, y, f with
  | .error (.raised e), y, f => simp [combine]
  | .error (.invalid es), .ok b, f => simp [combine]
  | .error (.invalid es), .error (.invalid fs), f => simp [combine]
  | .error (.invalid es), .error (.raised e), f => simp [combine]
  | .ok a, .ok b, f => simp [combine, Except.map]
  | .ok a, .error (.invalid fs), f => simp [combine, Except.map]
  | .ok a, .error (.raised e), f => simp [combine, Except.map]

@[simp] theorem raises_both (x : Checked ε α) (y : Checked ε β) :
    Raises (both x y) ↔ Raises x ∨ Raises y := raises_combine x y _

/-- A check raises through when it raises something that is no `ValueError`. -/
theorem raises_after (valueError : ε → Option String) (input : Json) (x : Checked ε α)
    (check : α → Except ε β) :
    Raises (after valueError input x check) ↔
      Raises x ∨ ∃ a e, x = .ok a ∧ check a = .error e ∧ valueError e = none := by
  match x with
  | .error f => simp [after, Raises]
  | .ok a =>
      cases hc : check a with
      | ok b => simp [after, hc]
      | error e =>
          cases hv : valueError e with
          | some msg => simp [after, hc, hv]
          | none => simp [after, hc, hv]

@[simp] theorem raises_field (members : List (String × Json)) (name : String)
    (v : Json → Checked ε α) :
    Raises (field members name v) ↔ ∃ j, lookup name members = some j ∧ Raises (v j) := by
  unfold field
  cases lookup name members <;> simp

@[simp] theorem raises_fieldOr (members : List (String × Json)) (name : String) (default : α)
    (v : Json → Checked ε α) :
    Raises (fieldOr members name default v) ↔
      ∃ j, lookup name members = some j ∧ Raises (v j) := by
  unfold fieldOr
  cases lookup name members <;> simp

@[simp] theorem raises_forbidExtra (known : List String) (members : List (String × Json)) :
    ¬ Raises (forbidExtra known members : Checked ε Unit) := by
  unfold forbidExtra
  split <;> simp

/-- An object raises when its fields do. -/
theorem raises_object (v : List (String × Json) → Checked ε α) (j : Json) :
    Raises (object v j) ↔ ∃ members, j.members = some members ∧ Raises (v members) := by
  unfold object
  split
  · simp [Json.members]
  · next members name =>
      simp only [Json.members, Option.some.injEq, exists_eq_left']
      split
      · next e he => simp [he]
      · next hne =>
          refine iff_of_false (raises_invalid _) ?_
          rintro ⟨e, he⟩
          exact hne e he
  · next hobj hragged =>
      refine iff_of_false (raises_reject _ _ _) ?_
      rintro ⟨members, hmembers, -⟩
      cases j <;> cases hmembers
      · exact hobj _ rfl
      · exact hragged _ _ rfl

@[simp] theorem raises_items (v : Json → Checked ε α) (i : Nat) (js : List Json) :
    Raises (items v i js) ↔ ∃ j ∈ js, Raises (v j) := by
  induction js generalizing i with
  | nil => simp [items]
  | cons j js ih => simp [items, ih]

/-! ## What validation raises -/

/-- A raised exception comes from one of the parts. -/
theorem raised_of_combine {x : Checked ε α} {y : Checked ε β} {f : (a : α) → x = .ok a → β → γ}
    {e : ε} (h : combine x y f = .error (.raised e)) :
    x = .error (.raised e) ∨ y = .error (.raised e) := by
  match x, y, f, h with
  | .error (.raised e'), _, _, h => exact .inl (by simpa [combine] using h)
  | .error (.invalid es), .ok b, _, h => simp [combine] at h
  | .error (.invalid es), .error (.invalid fs), _, h => simp [combine] at h
  | .error (.invalid es), .error (.raised e'), _, h => exact .inr (by simpa [combine] using h)
  | .ok a, .ok b, _, h => simp [combine, Except.map] at h
  | .ok a, .error g, _, h => exact .inr (by simpa [combine, Except.map] using h)

theorem raised_of_both {x : Checked ε α} {y : Checked ε β} {e : ε}
    (h : both x y = .error (.raised e)) : x = .error (.raised e) ∨ y = .error (.raised e) :=
  raised_of_combine h

theorem raised_of_map {f : α → β} {x : Checked ε α} {e : ε}
    (h : x.map f = .error (.raised e)) : x = .error (.raised e) := by
  match x, h with
  | .error g, h => simpa [Except.map] using h
  | .ok a, h => simp [Except.map] at h

theorem raised_of_within {l : Loc} {x : Checked ε α} {e : ε}
    (h : within l x = .error (.raised e)) : x = .error (.raised e) := by
  match x, h with
  | .ok a, h => exact h
  | .error (.raised e'), h => exact h
  | .error (.invalid es), h => simp [within] at h

theorem raised_of_object {v : List (String × Json) → Checked ε α} {j : Json} {e : ε}
    (h : object v j = .error (.raised e)) : ∃ members, v members = .error (.raised e) := by
  unfold object at h
  split at h
  · exact ⟨_, h⟩
  · split at h
    · next hv => cases h; exact ⟨_, hv⟩
    · cases h
  · exact absurd ⟨e, h⟩ (raises_reject _ _ _)

theorem raised_of_field {members : List (String × Json)} {name : String} {v : Json → Checked ε α}
    {e : ε} (h : field members name v = .error (.raised e)) :
    ∃ j, lookup name members = some j ∧ v j = .error (.raised e) := by
  unfold field at h
  split at h
  · exact absurd ⟨e, raised_of_within h⟩ (raises_reject _ _ _)
  · next j hj => exact ⟨j, hj, raised_of_within h⟩

theorem raised_of_after {valueError : ε → Option String} {input : Json} {x : Checked ε α}
    {check : α → Except ε β} {e : ε} (h : after valueError input x check = .error (.raised e)) :
    x = .error (.raised e) ∨ ∃ a, x = .ok a ∧ check a = .error e ∧ valueError e = none := by
  unfold after at h
  split at h
  · next f => exact .inl (congrArg Except.error (Except.error.inj h))
  · next a =>
      split at h
      · cases h
      · next e' hcheck =>
          split at h
          · exact absurd ⟨e, h⟩ (raises_reject _ _ _)
          · next hnone => cases h; exact .inr ⟨a, rfl, hcheck, hnone⟩

end Combinators

end Lib.Schema
