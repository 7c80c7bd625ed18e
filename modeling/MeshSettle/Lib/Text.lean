import Mathlib.Data.List.Basic
import Mathlib.Data.List.Infix
import Mathlib.Tactic.IntervalCases

/-!
# Text encodings that can be read back

Fixed-width digits and JSON string literals, as lists of characters. Each
encoder comes with the fact a later proof needs: the text determines the
value, and for a literal also where it ends (`quote_append_inj`), so that
literals may be concatenated without separators of their own.
-/

namespace Lib.Text

/-! ## Fixed-width digits -/

/-- The `width` least significant digits of `n`, most significant first. -/
def digits (base : Nat) : Nat → Nat → List Nat
  | 0, _ => []
  | width + 1, n => digits base width (n / base) ++ [n % base]

@[simp] theorem digits_length (base width n : Nat) : (digits base width n).length = width := by
  induction width generalizing n with
  | zero => rfl
  | succ width ih => simp [digits, ih]

theorem digits_lt {base : Nat} (hb : 0 < base) (width n : Nat) :
    ∀ d ∈ digits base width n, d < base := by
  induction width generalizing n with
  | zero => intro d hd; cases hd
  | succ width ih =>
      intro d hd
      rcases List.mem_append.mp hd with h | h
      · exact ih _ d h
      · rw [List.mem_singleton.mp h]; exact Nat.mod_lt _ hb

/-- Digits determine the number up to the width. -/
theorem digits_inj {base width n m : Nat} (hn : n < base ^ width) (hm : m < base ^ width)
    (h : digits base width n = digits base width m) : n = m := by
  induction width generalizing n m with
  | zero => simp at hn hm; omega
  | succ width ih =>
      rw [Nat.pow_succ] at hn hm
      obtain ⟨hhigh, hlow⟩ := List.append_inj' h rfl
      have hq : n / base = m / base :=
        ih (Nat.div_lt_of_lt_mul (by rwa [Nat.mul_comm] at hn))
          (Nat.div_lt_of_lt_mul (by rwa [Nat.mul_comm] at hm)) hhigh
      have hr : n % base = m % base := (List.cons.inj hlow).1
      rw [← Nat.div_add_mod n base, ← Nat.div_add_mod m base, hq, hr]

/-- Digits of a higher part, and of what is left. -/
theorem digits_append (base v w n : Nat) :
    digits base (v + w) n = digits base v (n / base ^ w) ++ digits base w n := by
  induction w generalizing n with
  | zero => simp [digits]
  | succ w ih =>
      rw [← Nat.add_assoc, digits, digits, ih, List.append_assoc, Nat.div_div_eq_div_mul,
        Nat.pow_succ, Nat.mul_comm]

/-- The digits below a width do not see what is above it. -/
theorem digits_mod (base w n : Nat) : digits base w (n % base ^ w) = digits base w n := by
  induction w generalizing n with
  | zero => rfl
  | succ w ih =>
      rw [digits, digits, Nat.pow_succ, Nat.mul_comm, Nat.mod_mul_right_div_self, ih,
        Nat.mod_mul_right_mod]

/-- The number that some digits stand for, most significant first. -/
def ofDigits (base : Nat) (ds : List Nat) : Nat := ds.foldl (fun n d => n * base + d) 0

/-- Digits are read back. -/
theorem ofDigits_digits {base w n : Nat} (h : n < base ^ w) :
    ofDigits base (digits base w n) = n := by
  induction w generalizing n with
  | zero =>
      rw [Nat.pow_zero] at h
      rw [Nat.lt_one_iff.mp h]
      rfl
  | succ w ih =>
      rw [Nat.pow_succ] at h
      have hhigh := ih (n := n / base) (Nat.div_lt_of_lt_mul (by rwa [Nat.mul_comm] at h))
      unfold ofDigits at hhigh ⊢
      rw [digits, List.foldl_append, hhigh, List.foldl_cons, List.foldl_nil, Nat.mul_comm]
      exact Nat.div_add_mod n base

theorem digitChar_inj : ∀ a < 16, ∀ b < 16, Nat.digitChar a = Nat.digitChar b → a = b := by
  decide

/-- `width` digits of `n` as text, in a base up to sixteen. -/
def pad (base width n : Nat) : List Char := (digits base width n).map Nat.digitChar

@[simp] theorem pad_length (base width n : Nat) : (pad base width n).length = width := by
  simp [pad]

theorem map_digitChar_inj {xs ys : List Nat} (hx : ∀ d ∈ xs, d < 16) (hy : ∀ d ∈ ys, d < 16)
    (h : xs.map Nat.digitChar = ys.map Nat.digitChar) : xs = ys := by
  induction xs generalizing ys with
  | nil => cases ys with
    | nil => rfl
    | cons y ys => cases h
  | cons x xs ih => cases ys with
    | nil => cases h
    | cons y ys =>
        simp only [List.map_cons, List.cons.injEq] at h
        have hxy : x = y := digitChar_inj x (hx x (by simp)) y (hy y (by simp)) h.1
        rw [hxy, ih (fun d hd => hx d (by simp [hd])) (fun d hd => hy d (by simp [hd])) h.2]

/-- Padded text determines the number up to the width. -/
theorem pad_inj {base width n m : Nat} (hb0 : 0 < base) (hb : base ≤ 16) (hn : n < base ^ width)
    (hm : m < base ^ width) (h : pad base width n = pad base width m) : n = m := by
  have hlt : ∀ k, ∀ d ∈ digits base width k, d < 16 := fun k d hd =>
    Nat.lt_of_lt_of_le (digits_lt hb0 width k d hd) hb
  exact digits_inj hn hm (map_digitChar_inj (hlt n) (hlt m) h)

/-! ## JSON string literals -/

/-- One character inside a JSON string literal: quotation mark, backslash and
the controls are escaped, everything else stands for itself. -/
def escapeChar (c : Char) : List Char :=
  if c = '"' then ['\\', '"']
  else if c = '\\' then ['\\', '\\']
  else if c = '\n' then ['\\', 'n']
  else if c = '\r' then ['\\', 'r']
  else if c = '\t' then ['\\', 't']
  else if c = '\x0c' then ['\\', 'f']
  else if c = '\x08' then ['\\', 'b']
  else if c.toNat < 32 then '\\' :: 'u' :: pad 16 4 c.toNat
  else [c]

theorem escapeChar_plain {c : Char} (hc : ¬ c.toNat < 32) (hq : c ≠ '"') (hb : c ≠ '\\') :
    escapeChar c = [c] := by
  have hne : ∀ d : Char, d.toNat < 32 → c ≠ d := fun d hd he => hc (he ▸ hd)
  simp [escapeChar, hq, hb, hc, hne '\n' (by decide), hne '\r' (by decide),
    hne '\t' (by decide), hne '\x0c' (by decide), hne '\x08' (by decide)]

theorem ne_nul_of_all {s : List Char} (h : (s.all fun d => d.toNat != 0) = true) :
    ∀ d ∈ s, d.toNat ≠ 0 :=
  fun d hd => bne_iff_ne.mp (List.all_eq_true.mp h d hd)

/-- What is written has no U+0000 in it. -/
theorem escapeChar_ne_nul (c : Char) : ∀ d ∈ escapeChar c, d.toNat ≠ 0 := by
  by_cases hc : c.toNat < 32
  · have hcontrol : ((List.range 32).all fun n =>
        (escapeChar (Char.ofNat n)).all fun d => d.toNat != 0) = true := by decide
    have hchar := List.all_eq_true.mp hcontrol c.toNat (List.mem_range.mpr hc)
    rw [Char.ofNat_toNat] at hchar
    exact ne_nul_of_all hchar
  · by_cases hq : c = '"'
    · subst hq; exact ne_nul_of_all (by decide)
    by_cases hb : c = '\\'
    · subst hb; exact ne_nul_of_all (by decide)
    rw [escapeChar_plain hc hq hb]
    intro d hd
    rw [List.mem_singleton.mp hd]
    omega

/-- A JSON string literal. -/
def quote (s : List Char) : List Char := '"' :: (s.flatMap escapeChar ++ ['"'])

/-- Read one character of a literal, with what follows it; `none` at the
quotation mark that ends the literal. -/
def unescapeChar : List Char → Option (Char × List Char)
  | '\\' :: '"' :: r => some ('"', r)
  | '\\' :: '\\' :: r => some ('\\', r)
  | '\\' :: 'n' :: r => some ('\n', r)
  | '\\' :: 'r' :: r => some ('\r', r)
  | '\\' :: 't' :: r => some ('\t', r)
  | '\\' :: 'f' :: r => some ('\x0c', r)
  | '\\' :: 'b' :: r => some ('\x08', r)
  | '\\' :: 'u' :: a :: b :: c :: d :: r =>
      ((List.range 32).find? fun n => pad 16 4 n = [a, b, c, d]).map fun n => (Char.ofNat n, r)
  | '"' :: _ => none
  | c :: r => some (c, r)
  | [] => none

theorem unescapeChar_escapeChar_control {n : Nat} (h : n < 32) (r : List Char) :
    unescapeChar (escapeChar (Char.ofNat n) ++ r) = some (Char.ofNat n, r) := by
  interval_cases n <;> rfl

theorem unescapeChar_escapeChar (c : Char) (r : List Char) :
    unescapeChar (escapeChar c ++ r) = some (c, r) := by
  by_cases hc : c.toNat < 32
  · simpa [Char.ofNat_toNat] using unescapeChar_escapeChar_control hc r
  · by_cases hq : c = '"'
    · subst hq; rfl
    by_cases hb : c = '\\'
    · subst hb; rfl
    rw [escapeChar_plain hc hq hb]
    simp [unescapeChar, hb]

theorem unescapeChar_quote (r : List Char) : unescapeChar ('"' :: r) = none := rfl

/-- Escaped characters are read back one at a time. -/
theorem escapeChar_append_inj {c c' : Char} {r r' : List Char}
    (h : escapeChar c ++ r = escapeChar c' ++ r') : c = c' ∧ r = r' := by
  have h' := congrArg unescapeChar h
  rw [unescapeChar_escapeChar, unescapeChar_escapeChar] at h'
  simpa using h'

/-- An escaped character does not start with the closing quotation mark. -/
theorem escapeChar_append_ne_quote (c : Char) (r r' : List Char) :
    escapeChar c ++ r ≠ '"' :: r' := by
  intro h
  have h' := congrArg unescapeChar h
  rw [unescapeChar_escapeChar, unescapeChar_quote] at h'
  cases h'

/-- An escaped character begins with something else. -/
theorem escapeChar_cons (c : Char) : ∃ d ds, escapeChar c = d :: ds ∧ d ≠ '"' := by
  cases h : escapeChar c with
  | nil =>
      unfold escapeChar at h
      repeat' split at h
      all_goals cases h
  | cons d ds =>
      refine ⟨d, ds, rfl, ?_⟩
      rintro rfl
      refine escapeChar_append_ne_quote c [] ds ?_
      rw [List.append_nil]
      exact h

theorem body_append_inj {s s' : List Char} {r r' : List Char}
    (h : s.flatMap escapeChar ++ '"' :: r = s'.flatMap escapeChar ++ '"' :: r') :
    s = s' ∧ r = r' := by
  induction s generalizing s' with
  | nil =>
      cases s' with
      | nil => simpa using h
      | cons c' t' =>
          simp only [List.flatMap_nil, List.nil_append, List.flatMap_cons, List.append_assoc] at h
          exact absurd h.symm (escapeChar_append_ne_quote c' _ _)
  | cons c t ih =>
      cases s' with
      | nil =>
          simp only [List.flatMap_nil, List.nil_append, List.flatMap_cons, List.append_assoc] at h
          exact absurd h (escapeChar_append_ne_quote c _ _)
      | cons c' t' =>
          simp only [List.flatMap_cons, List.append_assoc] at h
          obtain ⟨hc, hrest⟩ := escapeChar_append_inj h
          obtain ⟨ht, hr⟩ := ih hrest
          exact ⟨by rw [hc, ht], hr⟩

/-- A literal determines the text and where it ends. -/
theorem quote_append_inj {s s' : List Char} {r r' : List Char}
    (h : quote s ++ r = quote s' ++ r') : s = s' ∧ r = r' := by
  simp only [quote, List.cons_append, List.append_assoc, List.cons.injEq, true_and,
    List.nil_append] at h
  exact body_append_inj h

/-! ## Texts that are cut off -/

/-- Two lists of entries agree in what the first `room` characters show of them. -/
def AgreeWithin {α : Type} : Nat → List (List α) → List (List α) → Prop
  | room, x :: xs, y :: ys => x.take room = y.take room ∧ AgreeWithin (room - x.length) xs ys
  | _, _, _ => True

theorem agreeWithin_refl {α : Type} (room : Nat) (xs : List (List α)) : AgreeWithin room xs xs := by
  induction xs generalizing room with
  | nil => trivial
  | cons x xs ih => exact ⟨rfl, ih _⟩

/-- Two entries can be told apart: neither is a proper beginning of the other. -/
def Apart {α : Type} (x y : List α) : Prop := (x <+: y → x = y) ∧ (y <+: x → x = y)

/-- Entries that begin alike, and can be told apart, are cut off alike. -/
theorem take_eq_of_append {α : Type} {x y r r' : List α} {room : Nat} (hapart : Apart x y)
    (h : (x ++ r).take room = (y ++ r').take room) : x.take room = y.take room := by
  -- the shorter of two beginnings of one text is whole, or as long as the room
  have hcut : ∀ {x y r r' : List α}, (x <+: y → x = y) →
      (x ++ r).take room = (y ++ r').take room →
      (x.take room).length ≤ (y.take room).length → x.take room = y.take room := by
    intro x y r r' hwhole h hle
    have hx : x.take room <+: (x ++ r).take room := List.IsPrefix.take (List.prefix_append x r) room
    have hy : y.take room <+: (x ++ r).take room := by
      rw [h]
      exact List.IsPrefix.take (List.prefix_append y r') room
    have hbegins := List.prefix_of_prefix_length_le hx hy hle
    by_cases hroom : x.length < room
    · rw [List.take_of_length_le (Nat.le_of_lt hroom)] at hbegins
      rw [hwhole (hbegins.trans (List.take_prefix room y))]
    · refine hbegins.eq_of_length (Nat.le_antisymm hle ?_)
      rw [List.length_take, List.length_take]
      omega
  rcases Nat.le_total (x.take room).length (y.take room).length with hle | hle
  · exact hcut hapart.1 h hle
  · exact (hcut (fun hp => (hapart.2 hp).symm) h.symm hle).symm

/-- Entries cut off alike leave the same room for the next ones. -/
theorem room_of_take_eq {α : Type} {x y : List α} {room : Nat} (h : x.take room = y.take room) :
    room - x.length = room - y.length := by
  have hlength := congrArg List.length h
  rw [List.length_take, List.length_take] at hlength
  omega

/-- Texts that agree entry by entry, as far as they are shown, are cut off alike. -/
theorem take_flatten_of_agree {α : Type} {xs ys : List (List α)} (hlength : xs.length = ys.length)
    {room : Nat} (h : AgreeWithin room xs ys) : xs.flatten.take room = ys.flatten.take room := by
  induction xs generalizing ys room with
  | nil =>
      cases ys with
      | nil => rfl
      | cons y ys => cases hlength
  | cons x xs ih =>
      cases ys with
      | nil => cases hlength
      | cons y ys =>
          obtain ⟨heq, htail⟩ := h
          rw [List.flatten_cons, List.flatten_cons, List.take_append, List.take_append, heq,
            ih (Nat.succ.inj hlength) htail, room_of_take_eq heq]

/-- **Two texts cut off alike** agree entry by entry, as far as they are shown. -/
theorem agree_of_take_flatten {α : Type} {xs ys : List (List α)} (h : List.Forall₂ Apart xs ys)
    {room : Nat} (htake : xs.flatten.take room = ys.flatten.take room) :
    AgreeWithin room xs ys := by
  induction h generalizing room with
  | nil => trivial
  | cons hapart _ ih =>
      rw [List.flatten_cons, List.flatten_cons] at htake
      have heq := take_eq_of_append hapart htake
      refine ⟨heq, ih ?_⟩
      rw [List.take_append, List.take_append, heq] at htake
      rw [List.append_cancel_left htake, room_of_take_eq heq]

end Lib.Text
