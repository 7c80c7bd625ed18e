import Mathlib.Data.List.DropRight
import Mathlib.Data.List.Basic

/-!
# Base64

The URL-safe encoder with padding, and the lenient decoder that skips
characters outside the alphabet and stops at a completed padding sequence
(the default, non-validating mode of the usual C implementation). Both
spellings of the two last digits are read.

`unpadded_inj` is what the encoder is used for: without its padding the text
still determines the bytes.
-/

namespace Lib.Base64

/-- The digit of a sextet. -/
def digit (n : Nat) : Char :=
  if n < 26 then Char.ofNat (65 + n)
  else if n < 52 then Char.ofNat (97 + (n - 26))
  else if n < 62 then Char.ofNat (48 + (n - 52))
  else if n = 62 then '-'
  else '_'

/-- The sextet of a digit, in either alphabet. -/
def value (c : Char) : Option Nat :=
  if 'A' ≤ c ∧ c ≤ 'Z' then some (c.toNat - 65)
  else if 'a' ≤ c ∧ c ≤ 'z' then some (c.toNat - 97 + 26)
  else if '0' ≤ c ∧ c ≤ '9' then some (c.toNat - 48 + 52)
  else if c = '+' ∨ c = '-' then some 62
  else if c = '/' ∨ c = '_' then some 63
  else none

/-- Encoding, with padding. -/
def encode : List UInt8 → List Char
  | [] => []
  | [a] => [digit (a.toNat / 4), digit (a.toNat % 4 * 16), '=', '=']
  | [a, b] => [digit (a.toNat / 4), digit (a.toNat % 4 * 16 + b.toNat / 16),
      digit (b.toNat % 16 * 4), '=']
  | a :: b :: c :: rest => digit (a.toNat / 4) :: digit (a.toNat % 4 * 16 + b.toNat / 16) ::
      digit (b.toNat % 16 * 4 + c.toNat / 64) :: digit (c.toNat % 64) :: encode rest

/-- The encoding without its padding. -/
def unpadded (bytes : List UInt8) : List Char := (encode bytes).rdropWhile (· = '=')

/-- The decoder's loop: the position in the current group of four, the bits
left over from the last digit, the padding characters seen since, and the
bytes written so far, latest first. -/
def scan : List Char → Nat → Nat → Nat → List UInt8 → Option (List UInt8)
  | [], quad, _, _, out => if quad = 0 then some out.reverse else none
  | c :: cs, quad, left, pads, out =>
      if c = '=' then
        if quad < 2 then scan cs quad left pads out
        else if 4 ≤ quad + (pads + 1) then some out.reverse
        else scan cs quad left (pads + 1) out
      else
        match value c with
        | none => scan cs quad left pads out
        | some v =>
            match quad with
            | 0 => scan cs 1 v 0 out
            | 1 => scan cs 2 (v % 16) 0 (UInt8.ofNat (left * 4 + v / 16) :: out)
            | 2 => scan cs 3 (v % 4) 0 (UInt8.ofNat (left * 16 + v / 4) :: out)
            | _ => scan cs 0 0 0 (UInt8.ofNat (left * 64 + v) :: out)

/-- Decoding; `none` where the decoder raises. -/
def decode (s : List Char) : Option (List UInt8) :=
  if s.all (fun c => c.toNat < 128) then scan s 0 0 0 [] else none

/-! ## The text determines the bytes -/

theorem digit_inj : ∀ a < 64, ∀ b < 64, digit a = digit b → a = b := by decide

theorem digit_ne_pad : ∀ a < 64, digit a ≠ '=' := by decide

/-- The groups of an encoding, without the padding of the last one. -/
def bare : List UInt8 → List Char
  | [] => []
  | [a] => [digit (a.toNat / 4), digit (a.toNat % 4 * 16)]
  | [a, b] => [digit (a.toNat / 4), digit (a.toNat % 4 * 16 + b.toNat / 16),
      digit (b.toNat % 16 * 4)]
  | a :: b :: c :: rest => digit (a.toNat / 4) :: digit (a.toNat % 4 * 16 + b.toNat / 16) ::
      digit (b.toNat % 16 * 4 + c.toNat / 64) :: digit (c.toNat % 64) :: bare rest

theorem bare_no_pad (bytes : List UInt8) : ∀ c ∈ bare bytes, c ≠ '=' := by
  induction bytes using bare.induct with
  | case1 => simp [bare]
  | case2 a =>
      have ha := a.toNat_lt
      simp only [bare, List.mem_cons, List.not_mem_nil, or_false]
      rintro c (rfl | rfl) <;> exact digit_ne_pad _ (by omega)
  | case3 a b =>
      have ha := a.toNat_lt
      have hb := b.toNat_lt
      simp only [bare, List.mem_cons, List.not_mem_nil, or_false]
      rintro c (rfl | rfl | rfl) <;> exact digit_ne_pad _ (by omega)
  | case4 a b c rest ih =>
      have ha := a.toNat_lt
      have hb := b.toNat_lt
      have hc := c.toNat_lt
      simp only [bare, List.mem_cons]
      rintro d (rfl | rfl | rfl | rfl | hd)
      · exact digit_ne_pad _ (by omega)
      · exact digit_ne_pad _ (by omega)
      · exact digit_ne_pad _ (by omega)
      · exact digit_ne_pad _ (by omega)
      · exact ih d hd

/-- An encoding is its bare digits and at most two padding characters. -/
theorem encode_eq_bare (bytes : List UInt8) :
    ∃ n, encode bytes = bare bytes ++ List.replicate n '=' := by
  induction bytes using bare.induct with
  | case1 => exact ⟨0, rfl⟩
  | case2 a => exact ⟨2, rfl⟩
  | case3 a b => exact ⟨1, rfl⟩
  | case4 a b c rest ih =>
      obtain ⟨n, hn⟩ := ih
      exact ⟨n, by simp [encode, bare, hn]⟩

theorem rdropWhile_replicate (l : List Char) (n : Nat) (h : ∀ c ∈ l, c ≠ '=') :
    (l ++ List.replicate n '=').rdropWhile (· = '=') = l := by
  induction n with
  | zero =>
      rw [List.replicate_zero, List.append_nil, List.rdropWhile_eq_self_iff]
      intro hl
      simpa using h _ (List.getLast_mem hl)
  | succ n ih =>
      rw [List.replicate_succ', ← List.append_assoc, List.rdropWhile_concat_pos _ _ _ (by simp)]
      exact ih

theorem unpadded_eq_bare (bytes : List UInt8) : unpadded bytes = bare bytes := by
  obtain ⟨n, hn⟩ := encode_eq_bare bytes
  rw [unpadded, hn, rdropWhile_replicate _ _ (bare_no_pad bytes)]

theorem bare_inj {xs ys : List UInt8} (h : bare xs = bare ys) : xs = ys := by
  -- groups of different sizes have different lengths; within one size the digits decide
  induction xs using bare.induct generalizing ys with
  | case1 =>
      match ys with
      | [] => rfl
      | [_] | [_, _] | _ :: _ :: _ :: _ => simp [bare] at h
  | case2 a =>
      match ys with
      | [a'] =>
          have ha := a.toNat_lt
          have ha' := a'.toNat_lt
          simp only [bare, List.cons.injEq, and_true] at h
          have h1 := digit_inj _ (by omega) _ (by omega) h.1
          have h2 := digit_inj _ (by omega) _ (by omega) h.2
          have : a.toNat = a'.toNat := by omega
          rw [UInt8.toNat_inj.mp this]
      | [] | [_, _] | _ :: _ :: _ :: _ => simp [bare] at h
  | case3 a b =>
      match ys with
      | [a', b'] =>
          have ha := a.toNat_lt
          have ha' := a'.toNat_lt
          have hb := b.toNat_lt
          have hb' := b'.toNat_lt
          simp only [bare, List.cons.injEq, and_true] at h
          have h1 := digit_inj _ (by omega) _ (by omega) h.1
          have h2 := digit_inj _ (by omega) _ (by omega) h.2.1
          have h3 := digit_inj _ (by omega) _ (by omega) h.2.2
          have ea : a.toNat = a'.toNat := by omega
          have eb : b.toNat = b'.toNat := by omega
          rw [UInt8.toNat_inj.mp ea, UInt8.toNat_inj.mp eb]
      | [] | [_] | _ :: _ :: _ :: _ => simp [bare] at h
  | case4 a b c rest ih =>
      match ys with
      | a' :: b' :: c' :: rest' =>
          have ha := a.toNat_lt
          have ha' := a'.toNat_lt
          have hb := b.toNat_lt
          have hb' := b'.toNat_lt
          have hc := c.toNat_lt
          have hc' := c'.toNat_lt
          simp only [bare, List.cons.injEq] at h
          have h1 := digit_inj _ (by omega) _ (by omega) h.1
          have h2 := digit_inj _ (by omega) _ (by omega) h.2.1
          have h3 := digit_inj _ (by omega) _ (by omega) h.2.2.1
          have h4 := digit_inj _ (by omega) _ (by omega) h.2.2.2.1
          have ea : a.toNat = a'.toNat := by omega
          have eb : b.toNat = b'.toNat := by omega
          have ec : c.toNat = c'.toNat := by omega
          rw [UInt8.toNat_inj.mp ea, UInt8.toNat_inj.mp eb, UInt8.toNat_inj.mp ec,
            ih h.2.2.2.2]
      | [] | [_] | [_, _] => simp [bare] at h

/-- Without its padding, an encoding still determines the bytes. -/
theorem unpadded_inj {xs ys : List UInt8} (h : unpadded xs = unpadded ys) : xs = ys := by
  rw [unpadded_eq_bare, unpadded_eq_bare] at h
  exact bare_inj h

/-! ## The bytes are read back -/

theorem value_digit : ∀ n < 64, value (digit n) = some n := by decide

/-- A digit in the decoder's loop. -/
theorem scan_digit {n : Nat} (hn : n < 64) (cs : List Char) (quad left pads : Nat)
    (out : List UInt8) : scan (digit n :: cs) quad left pads out =
      match quad with
      | 0 => scan cs 1 n 0 out
      | 1 => scan cs 2 (n % 16) 0 (UInt8.ofNat (left * 4 + n / 16) :: out)
      | 2 => scan cs 3 (n % 4) 0 (UInt8.ofNat (left * 16 + n / 4) :: out)
      | _ => scan cs 0 0 0 (UInt8.ofNat (left * 64 + n) :: out) := by
  rw [scan, if_neg (digit_ne_pad n hn), value_digit n hn]

theorem ofNat_toNat {a : UInt8} {n : Nat} (h : n = a.toNat) : UInt8.ofNat n = a := by
  rw [h, UInt8.ofNat_toNat]

/-- Padding after complete groups is skipped. -/
theorem scan_pads (n left pads : Nat) (out : List UInt8) :
    scan (List.replicate n '=') 0 left pads out = some out.reverse := by
  induction n with
  | zero => rfl
  | succ n ih =>
      rw [List.replicate_succ, scan, if_pos rfl, if_pos (by decide)]
      exact ih

/-- An encoding is read up to its end, whatever padding follows. -/
theorem scan_encode (bytes out : List UInt8) (n : Nat) :
    scan (encode bytes ++ List.replicate n '=') 0 0 0 out = some (out.reverse ++ bytes) := by
  induction bytes using bare.induct generalizing out with
  | case1 => rw [encode, List.nil_append, scan_pads, List.append_nil]
  | case2 a =>
      have ha := a.toNat_lt
      simp only [encode, List.cons_append, scan_digit (show a.toNat / 4 < 64 by omega),
        scan_digit (show a.toNat % 4 * 16 < 64 by omega)]
      have h1 : UInt8.ofNat (a.toNat / 4 * 4 + a.toNat % 4 * 16 / 16) = a := ofNat_toNat (by omega)
      rw [h1]
      simp [scan]
  | case3 a b =>
      have ha := a.toNat_lt
      have hb := b.toNat_lt
      simp only [encode, List.cons_append, scan_digit (show a.toNat / 4 < 64 by omega),
        scan_digit (show a.toNat % 4 * 16 + b.toNat / 16 < 64 by omega),
        scan_digit (show b.toNat % 16 * 4 < 64 by omega)]
      have h1 : UInt8.ofNat (a.toNat / 4 * 4 + (a.toNat % 4 * 16 + b.toNat / 16) / 16) = a :=
        ofNat_toNat (by omega)
      have h2 : UInt8.ofNat ((a.toNat % 4 * 16 + b.toNat / 16) % 16 * 16 +
          b.toNat % 16 * 4 / 4) = b := ofNat_toNat (by omega)
      rw [h1, h2]
      simp [scan]
  | case4 a b c rest ih =>
      have ha := a.toNat_lt
      have hb := b.toNat_lt
      have hc := c.toNat_lt
      simp only [encode, List.cons_append, scan_digit (show a.toNat / 4 < 64 by omega),
        scan_digit (show a.toNat % 4 * 16 + b.toNat / 16 < 64 by omega),
        scan_digit (show b.toNat % 16 * 4 + c.toNat / 64 < 64 by omega),
        scan_digit (show c.toNat % 64 < 64 by omega)]
      have h1 : UInt8.ofNat (a.toNat / 4 * 4 + (a.toNat % 4 * 16 + b.toNat / 16) / 16) = a :=
        ofNat_toNat (by omega)
      have h2 : UInt8.ofNat ((a.toNat % 4 * 16 + b.toNat / 16) % 16 * 16 +
          (b.toNat % 16 * 4 + c.toNat / 64) / 4) = b := ofNat_toNat (by omega)
      have h3 : UInt8.ofNat ((b.toNat % 16 * 4 + c.toNat / 64) % 4 * 64 + c.toNat % 64) = c :=
        ofNat_toNat (by omega)
      rw [h1, h2, h3, ih]
      simp

theorem digit_ascii : ∀ n < 64, (digit n).toNat < 128 := by decide

theorem encode_ascii (bytes : List UInt8) : ∀ c ∈ encode bytes, c.toNat < 128 := by
  induction bytes using bare.induct with
  | case1 => simp [encode]
  | case2 a =>
      have ha := a.toNat_lt
      simp only [encode, List.mem_cons, List.not_mem_nil, or_false]
      rintro c (rfl | rfl | rfl | rfl)
      · exact digit_ascii _ (by omega)
      · exact digit_ascii _ (by omega)
      · decide
      · decide
  | case3 a b =>
      have ha := a.toNat_lt
      have hb := b.toNat_lt
      simp only [encode, List.mem_cons, List.not_mem_nil, or_false]
      rintro c (rfl | rfl | rfl | rfl)
      · exact digit_ascii _ (by omega)
      · exact digit_ascii _ (by omega)
      · exact digit_ascii _ (by omega)
      · decide
  | case4 a b c rest ih =>
      have ha := a.toNat_lt
      have hb := b.toNat_lt
      have hc := c.toNat_lt
      simp only [encode, List.mem_cons]
      rintro d (rfl | rfl | rfl | rfl | hd)
      · exact digit_ascii _ (by omega)
      · exact digit_ascii _ (by omega)
      · exact digit_ascii _ (by omega)
      · exact digit_ascii _ (by omega)
      · exact ih d hd

/-- An encoding is decoded to its bytes, whatever padding follows. -/
theorem decode_encode_pads (bytes : List UInt8) (n : Nat) :
    decode (encode bytes ++ List.replicate n '=') = some bytes := by
  have hascii : (encode bytes ++ List.replicate n '=').all (fun c => c.toNat < 128) = true := by
    simp only [List.all_append, Bool.and_eq_true, List.all_eq_true, decide_eq_true_eq]
    refine ⟨encode_ascii bytes, fun c hc => ?_⟩
    rw [List.eq_of_mem_replicate hc]
    decide
  rw [decode, if_pos hascii, scan_encode]
  rfl

/-- An encoding is decoded to its bytes. -/
theorem decode_encode (bytes : List UInt8) : decode (encode bytes) = some bytes := by
  have h := decode_encode_pads bytes 0
  rwa [List.replicate_zero, List.append_nil] at h

/-- The padding that an encoding without it is short of. -/
theorem encode_eq_padded (bytes : List UInt8) : encode bytes =
    unpadded bytes ++ List.replicate ((4 - (unpadded bytes).length % 4) % 4) '=' := by
  rw [unpadded_eq_bare]
  induction bytes using bare.induct with
  | case1 => rfl
  | case2 a => rfl
  | case3 a b => rfl
  | case4 a b c rest ih =>
      have hlength : (4 - ((bare rest).length + 1 + 1 + 1 + 1) % 4) % 4 =
          (4 - (bare rest).length % 4) % 4 := by omega
      simp only [encode, bare, List.length_cons, hlength, List.cons_append]
      rw [ih]

/-- With its padding brought to a multiple of four characters, an encoding that
lost some of it, or has too much of it, is decoded. -/
theorem decode_repadded (bytes : List UInt8) (n : Nat) :
    decode (unpadded bytes ++ List.replicate n '=' ++
      List.replicate ((4 - (unpadded bytes ++ List.replicate n '=').length % 4) % 4) '=') =
        some bytes := by
  have hlength : (unpadded bytes).length % 4 ≠ 1 := by
    rw [unpadded_eq_bare]
    induction bytes using bare.induct with
    | case1 => simp [bare]
    | case2 a => simp [bare]
    | case3 a b => simp [bare]
    | case4 a b c rest ih =>
        simp only [bare, List.length_cons]
        omega
  obtain ⟨k, hk⟩ : ∃ k, n + (4 - (unpadded bytes ++ List.replicate n '=').length % 4) % 4 =
      (4 - (unpadded bytes).length % 4) % 4 + k := by
    refine Nat.exists_eq_add_of_le ?_
    rw [List.length_append, List.length_replicate]
    omega
  rw [List.append_assoc, ← List.replicate_add, hk, List.replicate_add, ← List.append_assoc,
    ← encode_eq_padded]
  exact decode_encode_pads bytes k

/-! ## What the decoder refuses -/

/-- The digits of a text, other characters aside, come in whole groups of four,
or in groups the last of which is padded to four. The text behind such a
padding does not matter. -/
def grouped : List Char → Nat → Nat → Bool
  | [], quad, _ => quad = 0
  | c :: cs, quad, pads =>
      if c = '=' then
        if quad < 2 then grouped cs quad pads
        else if 4 ≤ quad + (pads + 1) then true
        else grouped cs quad (pads + 1)
      else if (value c).isSome then grouped cs ((quad + 1) % 4) 0
      else grouped cs quad pads

theorem scan_isSome (s : List Char) {quad : Nat} (hquad : quad < 4) (left pads : Nat)
    (out : List UInt8) : (scan s quad left pads out).isSome = grouped s quad pads := by
  induction s generalizing quad left pads out with
  | nil =>
      rw [scan, grouped]
      split <;> simp_all
  | cons c cs ih =>
      rw [scan, grouped]
      split
      · split
        · exact ih hquad _ _ _
        · split
          · rfl
          · exact ih hquad _ _ _
      · cases hv : value c with
        | none => exact ih hquad _ _ _
        | some v =>
            simp only [Option.isSome_some, if_true]
            match quad, hquad with
            | 0, _ => exact ih (by decide) _ _ _
            | 1, _ => exact ih (by decide) _ _ _
            | 2, _ => exact ih (by decide) _ _ _
            | 3, _ => exact ih (by decide) _ _ _

/-- The decoder reads the ASCII texts whose digits come in groups, and raises
for all others. -/
theorem decode_isSome (s : List Char) :
    (decode s).isSome = (s.all (fun c => c.toNat < 128) && grouped s 0 0) := by
  rw [decode]
  split
  · next h => rw [h, Bool.true_and, scan_isSome s (by decide)]
  · next h => rw [Bool.not_eq_true _ |>.mp h]; rfl

end Lib.Base64
