import MeshSettle.Lib.Schema
import MeshSettle.Lib.Text

/-!
# JSON documents

The text of a JSON value without insignificant whitespace, and the values that
have one (`Simple`): integers, strings, constants, arrays, and objects whose
names differ. `render_cons` and `render_ne_nul` say what such a text is made of.
-/

namespace Lib.Document

open Lib.Schema Lib.Text

/-! ## Writing -/

/-- The text of an integer. -/
def intText (n : Int) : List Char := (toString n).toList

mutual

/-- The text of a value. -/
def render : Json → List Char
  | .null => ['n', 'u', 'l', 'l']
  | .bool true => ['t', 'r', 'u', 'e']
  | .bool false => ['f', 'a', 'l', 's', 'e']
  | .int n => intText n
  | .float text => text.toList
  | .str s => quote s.toList
  | .unpaired _ => []
  | .arr js => '[' :: (renderItems js ++ [']'])
  | .obj ms => '{' :: (renderMembers ms ++ ['}'])
  | .ragged _ _ => []

/-- Items, separated by commas. -/
def renderItems : List Json → List Char
  | [] => []
  | [j] => render j
  | j :: k :: js => render j ++ ',' :: renderItems (k :: js)

/-- Members, separated by commas. -/
def renderMembers : List (String × Json) → List Char
  | [] => []
  | [(name, j)] => quote name.toList ++ ':' :: render j
  | (name, j) :: m :: ms => quote name.toList ++ ':' :: (render j ++ ',' :: renderMembers (m :: ms))

end

mutual

/-- A value nested at most `depth` deep, whose objects have names of their own,
and whose integers fit 64 bits. -/
def Simple : Nat → Json → Prop
  | _, .float _ => False
  | _, .unpaired _ => False
  | _, .ragged _ _ => False
  | _, .int n => -2 ^ 63 ≤ n ∧ n < 2 ^ 63
  | depth, .arr js => 0 < depth ∧ SimpleItems (depth - 1) js
  | depth, .obj ms => 0 < depth ∧ (ms.map Prod.fst).Nodup ∧ SimpleMembers (depth - 1) ms
  | _, _ => True

/-- So are the items. -/
def SimpleItems : Nat → List Json → Prop
  | _, [] => True
  | depth, j :: js => Simple depth j ∧ SimpleItems depth js

/-- So are the values of the members. -/
def SimpleMembers : Nat → List (String × Json) → Prop
  | _, [] => True
  | depth, (_, j) :: ms => Simple depth j ∧ SimpleMembers depth ms

end

mutual

/-- More room is enough room. -/
theorem Simple.mono {depth depth' : Nat} (hdepth : depth ≤ depth') {j : Json}
    (h : Simple depth j) : Simple depth' j := by
  match j, h with
  | .null, _ => simp [Simple]
  | .bool _, _ => simp [Simple]
  | .int n, h => rw [Simple] at h ⊢; exact h
  | .str _, _ => simp [Simple]
  | .float _, h => rw [Simple] at h; exact h.elim
  | .unpaired _, h => rw [Simple] at h; exact h.elim
  | .ragged _ _, h => rw [Simple] at h; exact h.elim
  | .arr js, h =>
      rw [Simple] at h ⊢
      exact ⟨by omega, SimpleItems.mono (by omega) h.2⟩
  | .obj ms, h =>
      rw [Simple] at h ⊢
      exact ⟨by omega, h.2.1, SimpleMembers.mono (by omega) h.2.2⟩

theorem SimpleItems.mono {depth depth' : Nat} (hdepth : depth ≤ depth') {js : List Json}
    (h : SimpleItems depth js) : SimpleItems depth' js := by
  match js, h with
  | [], _ => rw [SimpleItems]; trivial
  | j :: js, h =>
      rw [SimpleItems] at h ⊢
      exact ⟨Simple.mono hdepth h.1, SimpleItems.mono hdepth h.2⟩

theorem SimpleMembers.mono {depth depth' : Nat} (hdepth : depth ≤ depth')
    {ms : List (String × Json)} (h : SimpleMembers depth ms) : SimpleMembers depth' ms := by
  match ms, h with
  | [], _ => rw [SimpleMembers]; trivial
  | (_, j) :: ms, h =>
      rw [SimpleMembers] at h ⊢
      exact ⟨Simple.mono hdepth h.1, SimpleMembers.mono hdepth h.2⟩

end

theorem simpleItems_of_forall {depth : Nat} {js : List Json} (h : ∀ j ∈ js, Simple depth j) :
    SimpleItems depth js := by
  induction js with
  | nil => simp [SimpleItems]
  | cons j js ih =>
      rw [SimpleItems]
      exact ⟨h j List.mem_cons_self, ih fun k hk => h k (List.mem_cons_of_mem _ hk)⟩

/-! ## What a text is made of -/

theorem intText_eq (i : Int) : intText i =
    if 0 ≤ i then Nat.toDigits 10 i.toNat else '-' :: Nat.toDigits 10 (-i).toNat := by
  show (Int.repr i).toList = _
  rw [Int.repr_eq_if]
  split <;> simp

theorem isDigit_of_mem_toDigits {n : Nat} {c : Char} (h : c ∈ Nat.toDigits 10 n) :
    c.isDigit = true :=
  Nat.isDigit_of_mem_toDigits (by decide) (by decide) h

/-- The digits of a number start with a digit. -/
theorem toDigits_cons (n : Nat) : ∃ c cs, Nat.toDigits 10 n = c :: cs ∧ c.isDigit = true := by
  cases h : Nat.toDigits 10 n with
  | nil => exact absurd (congrArg List.length h) (Nat.ne_of_gt Nat.length_toDigits_pos)
  | cons c cs => exact ⟨c, cs, rfl, isDigit_of_mem_toDigits (h ▸ List.mem_cons_self)⟩

/-- Digits start with a zero for zero only. -/
theorem toDigits_head {n : Nat} (hn : 0 < n) {cs : List Char} : Nat.toDigits 10 n ≠ '0' :: cs := by
  intro h
  induction n using Nat.strongRecOn generalizing cs with
  | ind n ih =>
      by_cases hlt : n < 10
      · rw [Nat.toDigits_of_lt_base hlt] at h
        have hne : ∀ m < 10, 0 < m → Nat.digitChar m ≠ '0' := by decide
        exact hne n hlt hn (List.cons.inj h).1
      · obtain ⟨c, ds, hds, -⟩ := toDigits_cons (n / 10)
        rw [Nat.toDigits_of_base_le (by decide) (by omega), hds, List.cons_append] at h
        rw [(List.cons.inj h).1] at hds
        exact ih (n / 10) (by omega) (by omega) hds

/-- The text of an integer starts with a digit or a minus sign. -/
theorem intText_cons (i : Int) : ∃ c cs, intText i = c :: cs ∧ (c.isDigit = true ∨ c = '-') := by
  rw [intText_eq]
  split
  · obtain ⟨c, cs, hcs, hc⟩ := toDigits_cons i.toNat
    exact ⟨c, cs, hcs, .inl hc⟩
  · exact ⟨'-', _, rfl, .inr rfl⟩

/-- The characters that a value may begin with. -/
def Opens (c : Char) : Prop := c ∈ ['n', 't', 'f', '"', '[', '{', '-'] ∨ c.isDigit = true

theorem Opens.ascii {c : Char} (h : Opens c) : c.toNat < 128 := by
  rcases h with h | h
  · simp only [List.mem_cons, List.not_mem_nil, or_false] at h
    rcases h with rfl | rfl | rfl | rfl | rfl | rfl | rfl <;> decide
  · have hdigit : c.toNat ≤ 57 := by
      simp only [Char.isDigit, Bool.and_eq_true, decide_eq_true_eq] at h
      exact h.2
    omega

/-- The text of a value is not empty. -/
theorem render_cons {depth : Nat} {j : Json} (h : Simple depth j) :
    ∃ c cs, render j = c :: cs ∧ Opens c := by
  cases j with
  | null => exact ⟨'n', _, by rw [render], .inl (by simp)⟩
  | bool b => cases b <;> exact ⟨_, _, by rw [render], .inl (by simp)⟩
  | int i =>
      obtain ⟨c, cs, hcs, hc⟩ := intText_cons i
      refine ⟨c, cs, by rw [render]; exact hcs, ?_⟩
      rcases hc with hc | rfl
      · exact .inr hc
      · exact .inl (by simp)
  | float text => rw [Simple] at h; exact h.elim
  | str s => exact ⟨'"', _, by rw [render]; rfl, .inl (by simp)⟩
  | unpaired codes => rw [Simple] at h; exact h.elim
  | arr js => exact ⟨'[', _, by rw [render], .inl (by simp)⟩
  | obj ms => exact ⟨'{', _, by rw [render], .inl (by simp)⟩
  | ragged ms name => rw [Simple] at h; exact h.elim

theorem renderItems_cons {depth : Nat} {j : Json} {js : List Json}
    (h : SimpleItems depth (j :: js)) : ∃ c cs, renderItems (j :: js) = c :: cs ∧ Opens c := by
  rw [SimpleItems] at h
  obtain ⟨c, cs, hcs, hc⟩ := render_cons h.1
  cases js with
  | nil => exact ⟨c, cs, by rw [renderItems]; exact hcs, hc⟩
  | cons k js => exact ⟨c, _, by rw [renderItems, hcs]; rfl, hc⟩

theorem renderMembers_cons (m : String × Json) (ms : List (String × Json)) :
    ∃ cs, renderMembers (m :: ms) = '"' :: cs := by
  cases ms with
  | nil => exact ⟨_, by rw [renderMembers]; rfl⟩
  | cons n ms => exact ⟨_, by rw [renderMembers]; rfl⟩

/-- There is no U+0000 in a text. -/
def NoNul (s : List Char) : Prop := ∀ c ∈ s, c.toNat ≠ 0

theorem noNul_append {s t : List Char} : NoNul (s ++ t) ↔ NoNul s ∧ NoNul t :=
  List.forall_mem_append

theorem noNul_cons {c : Char} {s : List Char} : NoNul (c :: s) ↔ c.toNat ≠ 0 ∧ NoNul s :=
  List.forall_mem_cons

theorem noNul_nil : NoNul [] := List.forall_mem_nil _

theorem noNul_quote (s : List Char) : NoNul (quote s) := by
  have hbody : NoNul (s.flatMap escapeChar) := by
    intro d hd
    obtain ⟨c, -, hdc⟩ := List.mem_flatMap.mp hd
    exact escapeChar_ne_nul c d hdc
  exact noNul_cons.mpr ⟨by decide, noNul_append.mpr ⟨hbody, noNul_cons.mpr ⟨by decide, noNul_nil⟩⟩⟩

theorem noNul_digits (n : Nat) : NoNul (Nat.toDigits 10 n) := by
  intro c hc hnul
  have hdigit := isDigit_of_mem_toDigits hc
  rw [← Char.ofNat_toNat c, hnul] at hdigit
  exact absurd hdigit (by decide)

theorem noNul_intText (i : Int) : NoNul (intText i) := by
  rw [intText_eq]
  split
  · exact noNul_digits _
  · exact noNul_cons.mpr ⟨by decide, noNul_digits _⟩

mutual

/-- **There is no U+0000** in the text of a value: a string that has one escapes
it. -/
theorem render_noNul {depth : Nat} (j : Json) (h : Simple depth j) : NoNul (render j) := by
  match j, h with
  | .null, _ => rw [render]; exact ne_nul_of_all (by decide)
  | .bool true, _ => rw [render]; exact ne_nul_of_all (by decide)
  | .bool false, _ => rw [render]; exact ne_nul_of_all (by decide)
  | .int i, _ => rw [render]; exact noNul_intText i
  | .str s, _ => rw [render]; exact noNul_quote _
  | .float text, h => rw [Simple] at h; exact h.elim
  | .unpaired codes, h => rw [Simple] at h; exact h.elim
  | .ragged ms name, h => rw [Simple] at h; exact h.elim
  | .arr js, h =>
      rw [Simple] at h
      rw [render]
      exact noNul_cons.mpr ⟨by decide, noNul_append.mpr
        ⟨renderItems_noNul js h.2, noNul_cons.mpr ⟨by decide, noNul_nil⟩⟩⟩
  | .obj ms, h =>
      rw [Simple] at h
      rw [render]
      exact noNul_cons.mpr ⟨by decide, noNul_append.mpr
        ⟨renderMembers_noNul ms h.2.2, noNul_cons.mpr ⟨by decide, noNul_nil⟩⟩⟩

theorem renderItems_noNul {depth : Nat} (js : List Json) (h : SimpleItems depth js) :
    NoNul (renderItems js) := by
  match js, h with
  | [], _ => rw [renderItems]; exact noNul_nil
  | [j], h =>
      rw [SimpleItems] at h
      rw [renderItems]
      exact render_noNul j h.1
  | j :: k :: js, h =>
      rw [SimpleItems] at h
      rw [renderItems]
      exact noNul_append.mpr ⟨render_noNul j h.1,
        noNul_cons.mpr ⟨by decide, renderItems_noNul (k :: js) h.2⟩⟩

theorem renderMembers_noNul {depth : Nat} (ms : List (String × Json))
    (h : SimpleMembers depth ms) : NoNul (renderMembers ms) := by
  match ms, h with
  | [], _ => rw [renderMembers]; exact noNul_nil
  | [(name, j)], h =>
      rw [SimpleMembers] at h
      rw [renderMembers]
      exact noNul_append.mpr ⟨noNul_quote _, noNul_cons.mpr ⟨by decide, render_noNul j h.1⟩⟩
  | (name, j) :: m :: ms, h =>
      rw [SimpleMembers] at h
      rw [renderMembers]
      exact noNul_append.mpr ⟨noNul_quote _, noNul_cons.mpr ⟨by decide, noNul_append.mpr
        ⟨render_noNul j h.1, noNul_cons.mpr ⟨by decide, renderMembers_noNul (m :: ms) h.2⟩⟩⟩⟩

end

end Lib.Document
