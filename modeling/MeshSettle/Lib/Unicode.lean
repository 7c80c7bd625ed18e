import Mathlib.Data.List.Basic

/-!
# Decoding bytes to code points

The decoders that `json.loads` chooses from: UTF-8, UTF-16 and UTF-32 with the
error handler `surrogatepass`, so that a surrogate on its own is a code point of
the text. `decode_encode`: UTF-8 that begins with an ASCII character and has no
U+0000 in it is taken for what it is, and read back.
-/

namespace Lib.Unicode

/-- A code point: a character, or a surrogate on its own. -/
inductive Code where
  | char (c : Char)
  | surrogate (unit : Nat)
  deriving DecidableEq, Repr

/-- The number of a code point. -/
def Code.point : Code → Nat
  | .char c => c.toNat
  | .surrogate unit => unit

/-- The first half of a surrogate pair. -/
def isHigh (unit : Nat) : Bool := 0xD800 ≤ unit && unit < 0xDC00

/-- The second half of a surrogate pair. -/
def isLow (unit : Nat) : Bool := 0xDC00 ≤ unit && unit < 0xE000

/-- The code point of a surrogate pair. -/
def join (high low : Nat) : Nat := 0x10000 + (high - 0xD800) * 0x400 + (low - 0xDC00)

/-- The code point of a number. -/
def Code.of (n : Nat) : Code := if isHigh n || isLow n then .surrogate n else .char (Char.ofNat n)

theorem Code.of_toNat (c : Char) : Code.of c.toNat = .char c := by
  have hvalid : c.toNat < 0xD800 ∨ 0xDFFF < c.toNat ∧ c.toNat < 0x110000 := c.valid
  have hnot : (isHigh c.toNat || isLow c.toNat) = false := by
    simp only [isHigh, isLow, Bool.or_eq_false_iff, Bool.and_eq_false_iff, decide_eq_false_iff_not]
    omega
  rw [Code.of, hnot, Char.ofNat_toNat]
  rfl

/-! ## The decoders -/

/-- The six bits of a continuation byte. -/
def continuation (b : UInt8) : Option Nat :=
  if 0x80 ≤ b.toNat ∧ b.toNat < 0xC0 then some (b.toNat - 0x80) else none

/-- The first code point of UTF-8, and what follows it. Overlong forms are
refused, surrogates are not. -/
def utf8 : List UInt8 → Option (Nat × List UInt8)
  | [] => none
  | a :: s =>
      if a.toNat < 0x80 then some (a.toNat, s)
      else
        match s with
        | [] => none
        | b :: s =>
            (continuation b).bind fun b =>
              if 0xC2 ≤ a.toNat ∧ a.toNat < 0xE0 then some ((a.toNat - 0xC0) * 64 + b, s)
              else
                match s with
                | [] => none
                | c :: s =>
                    (continuation c).bind fun c =>
                      if 0xE0 ≤ a.toNat ∧ a.toNat < 0xF0 then
                        let n := ((a.toNat - 0xE0) * 64 + b) * 64 + c
                        if 0x800 ≤ n then some (n, s) else none
                      else
                        match s with
                        | [] => none
                        | d :: s =>
                            (continuation d).bind fun d =>
                              let n := (((a.toNat - 0xF0) * 64 + b) * 64 + c) * 64 + d
                              if 0xF0 ≤ a.toNat ∧ 0x10000 ≤ n ∧ n < 0x110000 then some (n, s)
                              else none

/-- Two bytes as a number. -/
def word (bigEndian : Bool) (a b : UInt8) : Nat :=
  if bigEndian then a.toNat * 256 + b.toNat else b.toNat * 256 + a.toNat

/-- The first code point of UTF-16. A surrogate without its other half stands
for itself. -/
def utf16 (bigEndian : Bool) : List UInt8 → Option (Nat × List UInt8)
  | a :: b :: c :: d :: s =>
      if isHigh (word bigEndian a b) && isLow (word bigEndian c d) then
        some (join (word bigEndian a b) (word bigEndian c d), s)
      else some (word bigEndian a b, c :: d :: s)
  | a :: b :: s => some (word bigEndian a b, s)
  | _ => none

/-- The first code point of UTF-32. -/
def utf32 (bigEndian : Bool) : List UInt8 → Option (Nat × List UInt8)
  | a :: b :: c :: d :: s =>
      let n := if bigEndian then word true a b * 65536 + word true c d
        else word false c d * 65536 + word false a b
      if n < 0x110000 then some (n, s) else none
  | _ => none

/-- All code points of a text; the fuel bounds its length. -/
def points (first : List UInt8 → Option (Nat × List UInt8)) : Nat → List UInt8 → Option (List Code)
  | _, [] => some []
  | 0, _ :: _ => none
  | fuel + 1, s => (first s).bind fun (n, r) => (points first fuel r).map fun cs => Code.of n :: cs

/-- `json.detect_encoding`: how a code point is read, and what stands behind the
byte order mark. -/
def detect (raw : List UInt8) : (List UInt8 → Option (Nat × List UInt8)) × List UInt8 :=
  if [0, 0, 0xFE, 0xFF].isPrefixOf raw then (utf32 true, raw.drop 4)
  else if [0xFF, 0xFE, 0, 0].isPrefixOf raw then (utf32 false, raw.drop 4)
  else if [0xFE, 0xFF].isPrefixOf raw then (utf16 true, raw.drop 2)
  else if [0xFF, 0xFE].isPrefixOf raw then (utf16 false, raw.drop 2)
  else if [0xEF, 0xBB, 0xBF].isPrefixOf raw then (utf8, raw.drop 3)
  else
    match raw with
    | a :: b :: c :: d :: _ =>
        if a = 0 then (if b = 0 then utf32 true else utf16 true, raw)
        else if b = 0 then (if c = 0 ∧ d = 0 then utf32 false else utf16 false, raw)
        else (utf8, raw)
    | [a, b] =>
        if a = 0 then (utf16 true, raw) else if b = 0 then (utf16 false, raw) else (utf8, raw)
    | _ => (utf8, raw)

/-- `raw.decode(json.detect_encoding(raw), "surrogatepass")`, if it does not
raise. -/
def decode (raw : List UInt8) : Option (List Code) :=
  points (detect raw).1 (detect raw).2.length (detect raw).2

/-! ## UTF-8 is read back -/

/-- The bytes of a text. -/
def encode (s : List Char) : List UInt8 := s.flatMap String.utf8EncodeChar

@[simp] theorem encode_nil : encode [] = [] := rfl

@[simp] theorem encode_cons (c : Char) (s : List Char) :
    encode (c :: s) = String.utf8EncodeChar c ++ encode s := rfl

@[simp] theorem encode_append (s t : List Char) : encode (s ++ t) = encode s ++ encode t :=
  List.flatMap_append

theorem utf8EncodeChar_pos (c : Char) : 0 < (String.utf8EncodeChar c).length := by
  rw [String.length_utf8EncodeChar]
  exact c.utf8Size_pos

theorem encode_eq_nil {s : List Char} (h : encode s = []) : s = [] := by
  cases s with
  | nil => rfl
  | cons c s =>
      have hpos := utf8EncodeChar_pos c
      rw [encode_cons, List.append_eq_nil_iff] at h
      rw [h.1] at hpos
      cases hpos

theorem continuation_ofNat {n : Nat} (h : n < 64) :
    continuation (UInt8.ofNat (n + 0x80)) = some n := by
  have hbyte : (UInt8.ofNat (n + 0x80)).toNat = n + 0x80 := by
    rw [UInt8.toNat_ofNat']
    omega
  rw [continuation, hbyte, if_pos (by omega)]
  simp

/-- **A character is read back**, whatever follows it. -/
theorem utf8_encodeChar (c : Char) (r : List UInt8) :
    utf8 (String.utf8EncodeChar c ++ r) = some (c.toNat, r) := by
  have hlt : c.toNat < 0x110000 := by
    have hvalid : c.toNat < 0xD800 ∨ 0xDFFF < c.toNat ∧ c.toNat < 0x110000 := c.valid
    omega
  have hbyte : ∀ n, n < 256 → (UInt8.ofNat n).toNat = n := by
    intro n hn
    rw [UInt8.toNat_ofNat']
    omega
  have hval : c.val.toNat = c.toNat := rfl
  unfold String.utf8EncodeChar
  simp only [hval]
  split
  · next h1 =>
      simp only [List.cons_append, List.nil_append, utf8]
      rw [hbyte _ (by omega), if_pos (by omega)]
  · split
    · next h1 h2 =>
        simp only [List.cons_append, List.nil_append]
        rw [utf8, hbyte _ (by omega), if_neg (by omega)]
        dsimp only
        rw [continuation_ofNat (by omega), Option.bind_some, if_pos (by omega)]
        congr 2
        omega
    · split
      · next h1 h2 h3 =>
          simp only [List.cons_append, List.nil_append]
          rw [utf8, hbyte _ (by omega), if_neg (by omega)]
          dsimp only
          rw [continuation_ofNat (by omega), Option.bind_some, if_neg (by omega),
            continuation_ofNat (by omega), Option.bind_some, if_pos (by omega), if_pos (by omega)]
          congr 2
          omega
      · next h1 h2 h3 =>
          simp only [List.cons_append, List.nil_append]
          rw [utf8, hbyte _ (by omega), if_neg (by omega)]
          dsimp only
          rw [continuation_ofNat (by omega), Option.bind_some, if_neg (by omega),
            continuation_ofNat (by omega), Option.bind_some, if_neg (by omega),
            continuation_ofNat (by omega), Option.bind_some, if_pos (by omega)]
          congr 2
          omega

theorem points_encode (s : List Char) : ∀ n, (encode s).length ≤ n →
    points utf8 n (encode s) = some (s.map .char) := by
  induction s with
  | nil =>
      intro n _
      cases n <;> rfl
  | cons c s ih =>
      intro n hn
      have hne := String.utf8EncodeChar_ne_nil (c := c)
      obtain ⟨b, bs, hbytes⟩ := List.exists_cons_of_ne_nil hne
      have hfirst := utf8_encodeChar c (encode s)
      rw [encode, List.flatMap_cons, List.length_append] at hn
      rw [encode, List.flatMap_cons]
      rw [hbytes] at hn hfirst ⊢
      obtain ⟨n, rfl⟩ : ∃ k, n = k + 1 := ⟨n - 1, by simp at hn; omega⟩
      simp only [List.cons_append, List.length_cons] at hn hfirst ⊢
      show (utf8 (b :: (bs ++ encode s))).bind _ = _
      rw [hfirst, Option.bind_some]
      dsimp only
      rw [ih n (by unfold encode; omega), Option.map_some, Code.of_toNat, List.map_cons]

/-- A character other than U+0000 has no zero byte. -/
theorem byte_ne_zero {c : Char} (hc : c.toNat ≠ 0) : ∀ b ∈ String.utf8EncodeChar c, b ≠ 0 := by
  have hval : c.val.toNat = c.toNat := rfl
  have hne : ∀ n, 0 < n → n < 256 → UInt8.ofNat n ≠ 0 := by
    intro n hpos hn hzero
    have htoNat := congrArg UInt8.toNat hzero
    rw [UInt8.toNat_ofNat'] at htoNat
    change n % 256 = 0 at htoNat
    omega
  unfold String.utf8EncodeChar
  simp only [hval]
  intro b hb
  split at hb
  · rw [List.mem_singleton.mp hb]
    exact hne _ (by omega) (by omega)
  · split at hb
    · rcases List.mem_cons.mp hb with rfl | hb
      · exact hne _ (by omega) (by omega)
      · rw [List.mem_singleton.mp hb]
        exact hne _ (by omega) (by omega)
    · split at hb
      · simp only [List.mem_cons, List.not_mem_nil, or_false] at hb
        rcases hb with rfl | rfl | rfl <;> exact hne _ (by omega) (by omega)
      · simp only [List.mem_cons, List.not_mem_nil, or_false] at hb
        rcases hb with rfl | rfl | rfl | rfl <;> exact hne _ (by omega) (by omega)

/-- Bytes without a zero among them, the first below 128, are taken for UTF-8. -/
theorem detect_utf8 {a : UInt8} {s : List UInt8} (ha : a.toNat < 0x80)
    (hzero : ∀ b ∈ a :: s, b ≠ 0) : detect (a :: s) = (utf8, a :: s) := by
  have hmark : ∀ b : UInt8, 0x80 ≤ b.toNat → (b == a) = false := by
    intro b hb
    rw [beq_eq_false_iff_ne]
    rintro rfl
    omega
  have ha0 : a ≠ 0 := hzero a List.mem_cons_self
  have hnull : ((0 : UInt8) == a) = false := beq_eq_false_iff_ne.mpr ha0.symm
  have hFF := hmark 0xFF (by decide)
  have hFE := hmark 0xFE (by decide)
  have hEF := hmark 0xEF (by decide)
  simp only [detect, List.isPrefixOf, hnull, hFF, hFE, hEF, Bool.false_and, Bool.false_eq_true,
    if_false]
  match s, hzero with
  | [], _ => rfl
  | [b], hzero =>
      have hb0 : b ≠ 0 := hzero b (by simp)
      simp [ha0, hb0]
  | [b, c], _ => rfl
  | b :: c :: d :: s, hzero =>
      have hb0 : b ≠ 0 := hzero b (by simp)
      simp [ha0, hb0]

/-- **A text is read back** from its UTF-8, if it begins with an ASCII character
and has no U+0000. -/
theorem decode_encode {c : Char} {s : List Char} (hc : c.toNat < 0x80)
    (hnul : ∀ d ∈ c :: s, d.toNat ≠ 0) : decode (encode (c :: s)) = some ((c :: s).map .char) := by
  have hzero : ∀ b ∈ encode (c :: s), b ≠ 0 := by
    intro b hb
    obtain ⟨d, hd, hbd⟩ := List.mem_flatMap.mp hb
    exact byte_ne_zero (hnul d hd) b hbd
  have hval : c.val.toNat = c.toNat := rfl
  have hascii : String.utf8EncodeChar c = [UInt8.ofNat c.toNat] := by
    unfold String.utf8EncodeChar
    simp only [hval]
    rw [if_pos (by omega)]
  have hhead : encode (c :: s) = UInt8.ofNat c.toNat :: encode s := by
    rw [encode, List.flatMap_cons, hascii]
    rfl
  have hbyte : (UInt8.ofNat c.toNat).toNat < 0x80 := by
    rw [UInt8.toNat_ofNat']
    omega
  have hdetect : detect (encode (c :: s)) = (utf8, encode (c :: s)) := by
    rw [hhead] at hzero ⊢
    exact detect_utf8 hbyte hzero
  rw [decode, hdetect]
  exact points_encode (c :: s) _ (Nat.le_refl _)

end Lib.Unicode
