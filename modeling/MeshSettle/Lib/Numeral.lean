import MeshSettle.Lib.Schema
import Mathlib.Algebra.Order.Round
import Mathlib.Data.Int.Log
import Mathlib.Data.List.DropRight
import Mathlib.Data.Rat.Floor

/-!
# `int()` of a decoded JSON value

Python reads a number with a fraction or an exponent as the nearest binary64,
and `int()` truncates it. A string is an integer when it has an optional sign
and decimal digits, of any script, with single underscores between them and
white space around.
-/

namespace Lib.Numeral

open Lib.Schema (Json)

/-! ## Decimal fractions -/

/-- The digits of a text, without its other characters. -/
def digitsOf (s : List Char) : List Nat :=
  (s.filter Char.isDigit).map fun c => c.toNat - '0'.toNat

/-- Digits as a number. -/
def ofDigits (ds : List Nat) : Nat := ds.foldl (fun n d => 10 * n + d) 0

/-- A run of digits with a sign. -/
def signed (s : List Char) : Int :=
  match s with
  | '-' :: r => -ofDigits (digitsOf r)
  | r => ofDigits (digitsOf r)

/-- The value of a JSON number: the digits of the mantissa, shifted by those
after the point and by the exponent. -/
def value (text : List Char) : Rat :=
  let mantissa := text.takeWhile fun c => c ≠ 'e' && c ≠ 'E'
  let exponent := (text.dropWhile fun c => c ≠ 'e' && c ≠ 'E').tail
  let places := (mantissa.dropWhile (· ≠ '.')).tail.length
  (signed mantissa : Rat) * (10 : Rat) ^ (signed exponent - places)

/-- Round to an integer, ties to even. -/
def roundHalfEven (q : Rat) : Int :=
  let below := ⌊q⌋
  if q - below < 1 / 2 then below
  else if 1 / 2 < q - below then below + 1
  else if below % 2 = 0 then below else below + 1

/-- The nearest binary64, if it is finite. -/
def binary64 (q : Rat) : Option Rat :=
  let ulp := (2 : Rat) ^ max (Int.log 2 |q| - 52) (-1074)
  let nearest := roundHalfEven (q / ulp) * ulp
  if |nearest| < 2 ^ 1024 then some nearest else none

/-- Round towards zero. -/
def truncated (q : Rat) : Int := if 0 ≤ q then ⌊q⌋ else ⌈q⌉

/-! ## Integers in strings -/

/-- The zeros of the decimal digits of Unicode. -/
def decimalZeros : List Nat :=
  [0x30, 0x660, 0x6F0, 0x7C0, 0x966, 0x9E6, 0xA66, 0xAE6, 0xB66, 0xBE6, 0xC66, 0xCE6, 0xD66,
    0xDE6, 0xE50, 0xED0, 0xF20, 0x1040, 0x1090, 0x17E0, 0x1810, 0x1946, 0x19D0, 0x1A80, 0x1A90,
    0x1B50, 0x1BB0, 0x1C40, 0x1C50, 0xA620, 0xA8D0, 0xA900, 0xA9D0, 0xA9F0, 0xAA50, 0xABF0,
    0xFF10, 0x104A0, 0x10D30, 0x11066, 0x110F0, 0x11136, 0x111D0, 0x112F0, 0x11450, 0x114D0,
    0x11650, 0x116C0, 0x11730, 0x118E0, 0x11950, 0x11C50, 0x11D50, 0x11DA0, 0x11F50, 0x16A60,
    0x16AC0, 0x16B50, 0x1D7CE, 0x1D7D8, 0x1D7E2, 0x1D7EC, 0x1D7F6, 0x1E140, 0x1E2F0, 0x1E4F0,
    0x1E950, 0x1FBF0]

/-- The value of a decimal digit. -/
def decimal (c : Char) : Option Nat :=
  (decimalZeros.find? fun d0 => d0 ≤ c.toNat && c.toNat < d0 + 10).map (c.toNat - ·)

/-- White space around an integer. -/
def isSpace (c : Char) : Bool :=
  (9 ≤ c.toNat && c.toNat ≤ 13) || (0x2000 ≤ c.toNat && c.toNat ≤ 0x200A) ||
    [0x20, 0x85, 0xA0, 0x1680, 0x2028, 0x2029, 0x202F, 0x205F, 0x3000].contains c.toNat

/-- Digits with single underscores between them; `first` is whether a digit has
to come next. -/
def readDigits : (first : Bool) → List Char → Option (List Nat)
  | first, [] => if first then none else some []
  | first, '_' :: r => if first then none else readDigits true r
  | _, c :: r =>
      match decimal c, readDigits false r with
      | some d, some ds => some (d :: ds)
      | _, _ => none

/-- `sys.get_int_max_str_digits()`. -/
def maxStrDigits : Nat := 4300

/-- `int(s)` of a string. -/
def intOfText (s : String) : Option Int :=
  let trimmed := (s.toList.dropWhile isSpace).rdropWhile isSpace
  let body := if trimmed.head? = some '-' || trimmed.head? = some '+' then trimmed.tail
    else trimmed
  match readDigits true body with
  | none => none
  | some ds =>
      if ds.length ≤ maxStrDigits then
        some (if trimmed.head? = some '-' then -ofDigits ds else ofDigits ds)
      else none

/-- `int(value)` of a decoded JSON value, if it does not raise. -/
def toInt : Json → Option Int
  | .int n => some n
  | .bool b => some (if b then 1 else 0)
  | .float text =>
      if text = "NaN" || text = "Infinity" || text = "-Infinity" then none
      else (binary64 (value text.toList)).map truncated
  | .str s => intOfText s
  | _ => none

end Lib.Numeral
