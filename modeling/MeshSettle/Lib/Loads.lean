import MeshSettle.Lib.Document
import MeshSettle.Lib.Unicode

/-!
# Reading a JSON document

`json.loads` of Python on a decoded text: the C scanner, its strict strings, the
numbers it recognises, the limit on the digits of an integer, the recursion
check on entering a container, and the `dict` that an object becomes.

The reader is fuelled. `loads_fuel`: more fuel changes nothing, so that running
out of it is never the answer. `loads_render`: a document that was written is
read back.
-/

namespace Lib.Loads

open Lib.Schema Lib.Text Lib.Document
open Lib.Unicode (Code isHigh isLow)

/-- A JSON container. -/
inductive Container where
  | array
  | object
  deriving DecidableEq, Repr

/-- Why a document is not read: it is not JSON, an integer has too many digits,
or a container is nested too deep. -/
inductive Failure where
  | syntaxError
  | tooManyDigits (digits : Nat)
  | tooDeep (container : Container)
  deriving DecidableEq, Repr

/-! ## White space and punctuation -/

def isSpace : Code → Bool
  | .char c => c = ' ' || c = '\t' || c = '\n' || c = '\r'
  | .surrogate _ => false

/-- What stands behind white space. -/
def skip (s : List Code) : List Code := s.dropWhile isSpace

/-- What stands behind a character. -/
def behind (c : Char) : List Code → Option (List Code)
  | .char d :: r => if d = c then some r else none
  | _ => none

/-! ## Strings -/

def hexDigit : Code → Option Nat
  | .char c =>
      if '0' ≤ c ∧ c ≤ '9' then some (c.toNat - '0'.toNat)
      else if 'a' ≤ c ∧ c ≤ 'f' then some (c.toNat - 'a'.toNat + 10)
      else if 'A' ≤ c ∧ c ≤ 'F' then some (c.toNat - 'A'.toNat + 10)
      else none
  | .surrogate _ => none

/-- Four hexadecimal digits. -/
def unit : List Code → Option (Nat × List Code)
  | a :: b :: c :: d :: r =>
      match hexDigit a, hexDigit b, hexDigit c, hexDigit d with
      | some a, some b, some c, some d => some (((a * 16 + b) * 16 + c) * 16 + d, r)
      | _, _, _, _ => none
  | _ => none

/-- What stands behind `\u`: a second escape is joined when the two are a
surrogate pair, and must be well formed whenever the first is the first half of
one. -/
def unicodeEscape (s : List Code) : Option (Code × List Code) :=
  match unit s with
  | none => none
  | some (high, r) =>
      match if isHigh high then (behind '\\' r).bind (behind 'u') else none with
      | none => some (Code.of high, r)
      | some r' =>
          match unit r' with
          | none => none
          | some (low, r'') =>
              if isLow low then some (Code.of (Lib.Unicode.join high low), r'')
              else some (Code.of high, r)

/-- The escapes of one character. -/
def escapes : List (Char × Char) :=
  [('"', '"'), ('\\', '\\'), ('/', '/'), ('b', '\x08'), ('f', '\x0c'), ('n', '\n'), ('r', '\r'),
    ('t', '\t')]

/-- What stands behind a backslash. -/
def escape : List Code → Option (Code × List Code)
  | .char c :: r =>
      if c = 'u' then unicodeEscape r else (escapes.lookup c).map fun d => (.char d, r)
  | _ => none

/-- One character of a string. A control must be escaped. -/
def character : List Code → Option (Code × List Code)
  | [] => none
  | .surrogate n :: r => some (.surrogate n, r)
  | .char c :: r => if c = '\\' then escape r else if c.toNat < 32 then none else some (.char c, r)

/-- The rest of a string, to the quotation mark that ends it. -/
def string : Nat → List Code → Option (List Code × List Code)
  | 0, _ => none
  | fuel + 1, s =>
      match behind '"' s with
      | some r => some ([], r)
      | none =>
          match character s with
          | none => none
          | some (c, r) => (string fuel r).map fun (cs, r') => (c :: cs, r')

/-- A text without surrogates. -/
def chars : List Code → Option (List Char)
  | [] => some []
  | .char c :: s => (chars s).map (c :: ·)
  | .surrogate _ :: _ => none

/-- A string as a value. -/
def ofString (codes : List Code) : Json :=
  match chars codes with
  | some cs => .str (String.ofList cs)
  | none => .unpaired (codes.map Code.point)

/-! ## Constants and numbers -/

/-- The constants, those included that JSON does not have. -/
def constants : List (List Char × Json) :=
  [(['n', 'u', 'l', 'l'], .null), (['t', 'r', 'u', 'e'], .bool true),
    (['f', 'a', 'l', 's', 'e'], .bool false), (['N', 'a', 'N'], .float "NaN"),
    (['I', 'n', 'f', 'i', 'n', 'i', 't', 'y'], .float "Infinity"),
    (['-', 'I', 'n', 'f', 'i', 'n', 'i', 't', 'y'], .float "-Infinity")]

/-- The constant at the beginning of a text. -/
def constant (s : List Code) : Option (Json × List Code) :=
  (constants.find? fun m => (m.1.map Code.char).isPrefixOf s).map fun m =>
    (m.2, s.drop m.1.length)

/-- The digits at the beginning of a text. -/
def digitsOf : List Code → List Char × List Code
  | .char c :: s => if c.isDigit then (c :: (digitsOf s).1, (digitsOf s).2) else ([], .char c :: s)
  | s => ([], s)

/-- The integer part of a number: behind a zero there is no further digit. -/
def wholePart (s : List Code) : List Char × List Code :=
  match behind '0' s with
  | some r => (['0'], r)
  | none => digitsOf s

/-- The fraction of a number, if there is one. -/
def fraction (s : List Code) : List Char × List Code :=
  match behind '.' s with
  | some r => if (digitsOf r).1 = [] then ([], s) else ('.' :: (digitsOf r).1, (digitsOf r).2)
  | none => ([], s)

/-- The sign of an exponent, if there is one. -/
def sign (s : List Code) : List Char × List Code :=
  match behind '+' s with
  | some r => (['+'], r)
  | none =>
      match behind '-' s with
      | some r => (['-'], r)
      | none => ([], s)

/-- The exponent of a number, if there is one. -/
def exponent (s : List Code) : List Char × List Code :=
  match s with
  | .char c :: r =>
      if (c = 'e' ∨ c = 'E') ∧ (digitsOf (sign r).2).1 ≠ [] then
        (c :: ((sign r).1 ++ (digitsOf (sign r).2).1), (digitsOf (sign r).2).2)
      else ([], s)
  | _ => ([], s)

/-- `sys.get_int_max_str_digits()`. -/
def maxDigits : Nat := 4300

/-- A number without its sign. -/
def magnitude (negative : Bool) (s : List Code) : Except Failure (Json × List Code) :=
  let (whole, r₁) := wholePart s
  let (frac, r₂) := fraction r₁
  let (exp, r) := exponent r₂
  if whole = [] then .error .syntaxError
  else if frac = [] ∧ exp = [] then
    if maxDigits < whole.length then .error (.tooManyDigits whole.length)
    else
      let n : Int := Nat.ofDigitChars 10 whole 0
      .ok (.int (if negative then -n else n), r)
  else
    .ok (.float (String.ofList ((if negative then ['-'] else []) ++ (whole ++ (frac ++ exp)))), r)

/-- A number. -/
def number (s : List Code) : Except Failure (Json × List Code) :=
  match behind '-' s with
  | some r => magnitude true r
  | none => magnitude false s

/-! ## Values -/

/-- An object as a value. -/
def ofMembers (ms : List (List Code × Json)) : Json :=
  let named := dict (ms.filterMap fun m => (chars m.1).map fun cs => (String.ofList cs, m.2))
  match ms.find? fun m => (chars m.1).isNone with
  | none => .obj named
  | some m => .ragged named (m.1.map Code.point)

mutual

/-- Read a value; `depth` is how deep containers may still be nested. -/
def value : Nat → Nat → List Code → Except Failure (Json × List Code)
  | 0, _, _ => .error .syntaxError
  | fuel + 1, depth, s =>
      match behind '"' s with
      | some r =>
          match string fuel r with
          | none => .error .syntaxError
          | some (codes, r) => .ok (ofString codes, r)
      | none =>
      match behind '[' s with
      | some r => array fuel depth (skip r)
      | none =>
      match behind '{' s with
      | some r => object fuel depth (skip r)
      | none =>
      match constant s with
      | some (j, r) => .ok (j, r)
      | none => number s

/-- Read an array behind its bracket. -/
def array : Nat → Nat → List Code → Except Failure (Json × List Code)
  | 0, _, _ => .error .syntaxError
  | _ + 1, 0, _ => .error (.tooDeep .array)
  | fuel + 1, depth + 1, s =>
      match behind ']' s with
      | some r => .ok (.arr [], r)
      | none =>
          match items fuel depth s with
          | .error e => .error e
          | .ok (js, r) => .ok (.arr js, r)

/-- Read an object behind its brace. -/
def object : Nat → Nat → List Code → Except Failure (Json × List Code)
  | 0, _, _ => .error .syntaxError
  | _ + 1, 0, _ => .error (.tooDeep .object)
  | fuel + 1, depth + 1, s =>
      match behind '}' s with
      | some r => .ok (ofMembers [], r)
      | none =>
          match members fuel depth s with
          | .error e => .error e
          | .ok (ms, r) => .ok (ofMembers ms, r)

/-- Read the items of an array that is not empty, and its end. -/
def items : Nat → Nat → List Code → Except Failure (List Json × List Code)
  | 0, _, _ => .error .syntaxError
  | fuel + 1, depth, s =>
      match value fuel depth s with
      | .error e => .error e
      | .ok (j, r) =>
          match behind ']' (skip r) with
          | some r => .ok ([j], r)
          | none =>
              match behind ',' (skip r) with
              | none => .error .syntaxError
              | some r =>
                  match items fuel depth (skip r) with
                  | .error e => .error e
                  | .ok (js, r) => .ok (j :: js, r)

/-- Read the members of an object that is not empty, and its end. -/
def members : Nat → Nat → List Code → Except Failure (List (List Code × Json) × List Code)
  | 0, _, _ => .error .syntaxError
  | fuel + 1, depth, s =>
      match (behind '"' s).bind (string fuel) with
      | none => .error .syntaxError
      | some (name, r) =>
          match behind ':' (skip r) with
          | none => .error .syntaxError
          | some r =>
              match value fuel depth (skip r) with
              | .error e => .error e
              | .ok (j, r) =>
                  match behind '}' (skip r) with
                  | some r => .ok ([(name, j)], r)
                  | none =>
                      match behind ',' (skip r) with
                      | none => .error .syntaxError
                      | some r =>
                          match members fuel depth (skip r) with
                          | .error e => .error e
                          | .ok (ms, r) => .ok ((name, j) :: ms, r)

end

/-- The fuel for a text: no more than three calls for each of its characters. -/
def fuelFor (s : List Code) : Nat := 3 * s.length + 1

/-- Read a whole document. -/
def loads (depth : Nat) (s : List Code) : Except Failure Json :=
  match value (fuelFor s) depth (skip s) with
  | .error e => .error e
  | .ok (j, r) => if skip r = [] then .ok j else .error .syntaxError

/-! ## Every reader moves on -/

theorem skip_length (s : List Code) : (skip s).length ≤ s.length :=
  (List.dropWhile_suffix _).length_le

theorem behind_length {c : Char} {s r : List Code} (h : behind c s = some r) :
    r.length + 1 = s.length := by
  unfold behind at h
  split at h
  · split at h
    · cases h
      rfl
    · cases h
  · cases h

theorem unit_length {s r : List Code} {n : Nat} (h : unit s = some (n, r)) :
    r.length < s.length := by
  unfold unit at h
  split at h
  · split at h
    · cases h
      simp only [List.length_cons]
      omega
    · cases h
  · cases h

theorem unicodeEscape_length {s r : List Code} {c : Code} (h : unicodeEscape s = some (c, r)) :
    r.length < s.length := by
  unfold unicodeEscape at h
  split at h
  · cases h
  · next high r₁ hhigh =>
      have h₁ := unit_length hhigh
      split at h
      · cases h
        exact h₁
      · next r₂ hsecond =>
          have h₂ : r₂.length ≤ r₁.length := by
            split at hsecond
            · obtain ⟨r₃, hbackslash, hu⟩ := Option.bind_eq_some_iff.mp hsecond
              have hb := behind_length hbackslash
              have hu := behind_length hu
              omega
            · cases hsecond
          split at h
          · cases h
          · next low r₃ hlow =>
              have h₃ := unit_length hlow
              split at h
              · have hr := congrArg Prod.snd (Option.some.inj h)
                dsimp only at hr
                rw [← hr]
                omega
              · have hr := congrArg Prod.snd (Option.some.inj h)
                dsimp only at hr
                rw [← hr]
                exact h₁

theorem character_length {s r : List Code} {c : Code} (h : character s = some (c, r)) :
    r.length < s.length := by
  unfold character at h
  split at h
  · cases h
  · cases h
    simp
  · next d t =>
      split at h
      · unfold escape at h
        split at h
        · next e u =>
            split at h
            · have hescape := unicodeEscape_length h
              simp only [List.length_cons]
              omega
            · obtain ⟨d, -, hd⟩ := Option.map_eq_some_iff.mp h
              cases hd
              simp only [List.length_cons]
              omega
        · cases h
      · split at h
        · cases h
        · cases h
          simp

theorem string_length {n : Nat} {s r cs : List Code} (h : string n s = some (cs, r)) :
    r.length < s.length := by
  induction n generalizing s cs with
  | zero => cases h
  | succ n ih =>
      rw [string] at h
      split at h
      · next r' hend =>
          cases h
          have hlength := behind_length hend
          omega
      · split at h
        · cases h
        · next c r' hchar =>
            have hlength := character_length hchar
            obtain ⟨⟨cs', r''⟩, hrest, heq⟩ := Option.map_eq_some_iff.mp h
            cases heq
            have hmore := ih hrest
            omega

theorem constant_length {s r : List Code} {j : Json} (h : constant s = some (j, r)) :
    r.length < s.length := by
  obtain ⟨m, hfind, heq⟩ := Option.map_eq_some_iff.mp h
  cases heq
  have hfound : (m.1.map Code.char).isPrefixOf s = true := by
    simpa only using List.find?_some hfind
  have hprefix := (List.isPrefixOf_iff_prefix.mp hfound).length_le
  have hpos : ∀ m ∈ constants, 0 < m.1.length := by
    simp [constants]
  have hname := hpos m (List.mem_of_find?_eq_some hfind)
  rw [List.length_map] at hprefix
  rw [List.length_drop]
  omega

theorem digitsOf_length (s : List Code) :
    (digitsOf s).1.length + (digitsOf s).2.length = s.length := by
  induction s with
  | nil => rfl
  | cons c s ih =>
      cases c with
      | surrogate n => simp [digitsOf]
      | char c =>
          rw [digitsOf]
          split
          · simp only [List.length_cons]
            omega
          · simp

theorem wholePart_length {s : List Code} (h : (wholePart s).1 ≠ []) :
    (wholePart s).2.length < s.length := by
  unfold wholePart at h ⊢
  split
  · next r hzero =>
      have hlength := behind_length hzero
      dsimp only
      omega
  · next hzero =>
      rw [hzero] at h
      dsimp only at h
      have hlength := digitsOf_length s
      have hpos := List.length_pos_iff.mpr h
      omega

theorem fraction_length (s : List Code) : (fraction s).2.length ≤ s.length := by
  unfold fraction
  split
  · next r hpoint =>
      have hbehind := behind_length hpoint
      have hdigits := digitsOf_length r
      split
      · exact Nat.le_refl _
      · dsimp only
        omega
  · exact Nat.le_refl _

theorem sign_length (s : List Code) : (sign s).2.length ≤ s.length := by
  unfold sign
  split
  · next r hplus =>
      have hlength := behind_length hplus
      dsimp only
      omega
  · split
    · next r hminus =>
        have hlength := behind_length hminus
        dsimp only
        omega
    · exact Nat.le_refl _

theorem exponent_length (s : List Code) : (exponent s).2.length ≤ s.length := by
  unfold exponent
  split
  · next c r =>
      have hsign := sign_length r
      have hdigits := digitsOf_length (sign r).2
      split
      · simp only [List.length_cons]
        omega
      · exact Nat.le_refl _
  · exact Nat.le_refl _

theorem magnitude_length {negative : Bool} {s r : List Code} {j : Json}
    (h : magnitude negative s = .ok (j, r)) : r.length < s.length := by
  unfold magnitude at h
  dsimp only at h
  have hfraction := fraction_length (wholePart s).2
  have hexponent := exponent_length (fraction (wholePart s).2).2
  split at h
  · cases h
  · next hwhole =>
      have hlength := wholePart_length hwhole
      split at h
      · split at h
        · cases h
        · cases h
          omega
      · cases h
        omega

theorem number_length {s r : List Code} {j : Json} (h : number s = .ok (j, r)) :
    r.length < s.length := by
  unfold number at h
  split at h
  · next t hminus =>
      have hlength := behind_length hminus
      have hmagnitude := magnitude_length h
      omega
  · exact magnitude_length h

/-- With some fuel every reader of values moves on. -/
structure MovesOn (fuel : Nat) : Prop where
  value : ∀ {depth s j r}, value fuel depth s = .ok (j, r) → r.length < s.length
  array : ∀ {depth s j r}, array fuel depth s = .ok (j, r) → r.length < s.length
  object : ∀ {depth s j r}, object fuel depth s = .ok (j, r) → r.length < s.length
  items : ∀ {depth s js r}, items fuel depth s = .ok (js, r) → r.length < s.length
  members : ∀ {depth s ms r}, members fuel depth s = .ok (ms, r) → r.length < s.length

theorem value_movesOn {n : Nat} (ih : MovesOn n) {depth : Nat} {s r : List Code} {j : Json}
    (h : value (n + 1) depth s = .ok (j, r)) : r.length < s.length := by
  rw [value] at h
  split at h
  · next t hquote =>
      have hlength := behind_length hquote
      split at h
      · cases h
      · next hstring =>
          cases h
          have hmore := string_length hstring
          omega
  · split at h
    · next t hopen =>
        have hlength := behind_length hopen
        have hgap := skip_length t
        have hmore := ih.array h
        omega
    · split at h
      · next t hopen =>
          have hlength := behind_length hopen
          have hgap := skip_length t
          have hmore := ih.object h
          omega
      · split at h
        · next hconstant =>
            cases h
            exact constant_length hconstant
        · exact number_length h

theorem array_movesOn {n : Nat} (ih : MovesOn n) {depth : Nat} {s r : List Code} {j : Json}
    (h : array (n + 1) depth s = .ok (j, r)) : r.length < s.length := by
  cases depth with
  | zero => rw [array] at h; cases h
  | succ depth =>
      rw [array] at h
      split at h
      · next hclose =>
          cases h
          have hlength := behind_length hclose
          omega
      · split at h
        · cases h
        · next hitems =>
            cases h
            exact ih.items hitems

theorem object_movesOn {n : Nat} (ih : MovesOn n) {depth : Nat} {s r : List Code} {j : Json}
    (h : object (n + 1) depth s = .ok (j, r)) : r.length < s.length := by
  cases depth with
  | zero => rw [object] at h; cases h
  | succ depth =>
      rw [object] at h
      split at h
      · next hclose =>
          cases h
          have hlength := behind_length hclose
          omega
      · split at h
        · cases h
        · next hmembers =>
            cases h
            exact ih.members hmembers

theorem items_movesOn {n : Nat} (ih : MovesOn n) {depth : Nat} {s r : List Code} {js : List Json}
    (h : items (n + 1) depth s = .ok (js, r)) : r.length < s.length := by
  rw [items] at h
  split at h
  · cases h
  · next j t hvalue =>
      have hfirst := ih.value hvalue
      have hgap := skip_length t
      split at h
      · next hclose =>
          cases h
          have hlength := behind_length hclose
          omega
      · split at h
        · cases h
        · next u hcomma =>
            have hlength := behind_length hcomma
            have hgap' := skip_length u
            split at h
            · cases h
            · next hitems =>
                cases h
                have hmore := ih.items hitems
                omega

theorem members_movesOn {n : Nat} (ih : MovesOn n) {depth : Nat} {s r : List Code}
    {ms : List (List Code × Json)} (h : members (n + 1) depth s = .ok (ms, r)) :
    r.length < s.length := by
  rw [members] at h
  split at h
  · cases h
  · next name t hname =>
      obtain ⟨u, hquote, hstring⟩ := Option.bind_eq_some_iff.mp hname
      have hopened := behind_length hquote
      have hread := string_length hstring
      have hgap := skip_length t
      split at h
      · cases h
      · next v hcolon =>
          have hbehind := behind_length hcolon
          have hgap' := skip_length v
          split at h
          · cases h
          · next j w hvalue =>
              have hfirst := ih.value hvalue
              have hgap'' := skip_length w
              split at h
              · next hclose =>
                  cases h
                  have hlength := behind_length hclose
                  omega
              · split at h
                · cases h
                · next x hcomma =>
                    have hlength := behind_length hcomma
                    have hnext := skip_length x
                    split at h
                    · cases h
                    · next hmembers =>
                        cases h
                        have hmore := ih.members hmembers
                        omega

theorem movesOn (n : Nat) : MovesOn n := by
  induction n with
  | zero =>
      constructor <;> intro _ _ _ _ h
      · rw [value] at h; cases h
      · rw [array] at h; cases h
      · rw [object] at h; cases h
      · rw [items] at h; cases h
      · rw [members] at h; cases h
  | succ n ih =>
      exact ⟨value_movesOn ih, array_movesOn ih, object_movesOn ih, items_movesOn ih,
        members_movesOn ih⟩

/-! ## The fuel suffices -/

theorem string_fuel {n : Nat} {s : List Code} (h : s.length ≤ n) :
    string (n + 1) s = string n s := by
  induction n generalizing s with
  | zero =>
      rw [List.eq_nil_of_length_eq_zero (Nat.le_zero.mp h)]
      rfl
  | succ n ih =>
      rw [string, string]
      cases behind '"' s with
      | some r => rfl
      | none =>
          dsimp only
          cases hchar : character s with
          | none => rfl
          | some x =>
              have hlength := character_length hchar
              dsimp only
              rw [ih (by omega)]

/-- More fuel than this makes no difference. -/
structure FuelSuffices (fuel : Nat) : Prop where
  value : ∀ depth s, 3 * s.length + 1 ≤ fuel → value (fuel + 1) depth s = value fuel depth s
  array : ∀ depth s, 3 * s.length + 3 ≤ fuel → array (fuel + 1) depth s = array fuel depth s
  object : ∀ depth s, 3 * s.length + 3 ≤ fuel → object (fuel + 1) depth s = object fuel depth s
  items : ∀ depth s, 3 * s.length + 2 ≤ fuel → items (fuel + 1) depth s = items fuel depth s
  members : ∀ depth s, 3 * s.length + 2 ≤ fuel →
    members (fuel + 1) depth s = members fuel depth s

theorem value_fuel {n : Nat} (ih : FuelSuffices n) (depth : Nat) (s : List Code)
    (h : 3 * s.length + 1 ≤ n + 1) : value (n + 1 + 1) depth s = value (n + 1) depth s := by
  rw [value, value]
  cases hquote : behind '"' s with
  | some r =>
      have hlength := behind_length hquote
      dsimp only
      rw [string_fuel (by omega)]
  | none =>
      dsimp only
      cases harray : behind '[' s with
      | some r =>
          have hlength := behind_length harray
          have hgap := skip_length r
          exact ih.array depth (skip r) (by omega)
      | none =>
          dsimp only
          cases hobject : behind '{' s with
          | some r =>
              have hlength := behind_length hobject
              have hgap := skip_length r
              exact ih.object depth (skip r) (by omega)
          | none => rfl

theorem array_fuel {n : Nat} (ih : FuelSuffices n) (depth : Nat) (s : List Code)
    (h : 3 * s.length + 3 ≤ n + 1) : array (n + 1 + 1) depth s = array (n + 1) depth s := by
  cases depth with
  | zero => rw [array, array]
  | succ depth => rw [array, array, ih.items depth s (by omega)]

theorem object_fuel {n : Nat} (ih : FuelSuffices n) (depth : Nat) (s : List Code)
    (h : 3 * s.length + 3 ≤ n + 1) : object (n + 1 + 1) depth s = object (n + 1) depth s := by
  cases depth with
  | zero => rw [object, object]
  | succ depth => rw [object, object, ih.members depth s (by omega)]

theorem items_fuel {n : Nat} (ih : FuelSuffices n) (depth : Nat) (s : List Code)
    (h : 3 * s.length + 2 ≤ n + 1) : items (n + 1 + 1) depth s = items (n + 1) depth s := by
  rw [items, items, ih.value depth s (by omega)]
  cases hvalue : value n depth s with
  | error e => rfl
  | ok x =>
      obtain ⟨j, r⟩ := x
      have hlength := (movesOn n).value hvalue
      have hgap := skip_length r
      dsimp only
      cases behind ']' (skip r) with
      | some t => rfl
      | none =>
          dsimp only
          cases hcomma : behind ',' (skip r) with
          | none => rfl
          | some t =>
              have hbehind := behind_length hcomma
              have hgap' := skip_length t
              dsimp only
              rw [ih.items depth (skip t) (by omega)]

theorem members_fuel {n : Nat} (ih : FuelSuffices n) (depth : Nat) (s : List Code)
    (h : 3 * s.length + 2 ≤ n + 1) : members (n + 1 + 1) depth s = members (n + 1) depth s := by
  rw [members, members]
  cases hquote : behind '"' s with
  | none => rfl
  | some u =>
      have hopened := behind_length hquote
      rw [Option.bind_some, Option.bind_some, string_fuel (by omega)]
      cases hname : string n u with
      | none => rfl
      | some x =>
          obtain ⟨name, t⟩ := x
          have hread := string_length hname
          have hgap := skip_length t
          dsimp only
          cases hcolon : behind ':' (skip t) with
          | none => rfl
          | some v =>
              have hbehind := behind_length hcolon
              have hgap' := skip_length v
              dsimp only
              rw [ih.value depth (skip v) (by omega)]
              cases hvalue : value n depth (skip v) with
              | error e => rfl
              | ok y =>
                  obtain ⟨j, r⟩ := y
                  have hlength := (movesOn n).value hvalue
                  have hend := skip_length r
                  dsimp only
                  cases behind '}' (skip r) with
                  | some w => rfl
                  | none =>
                      dsimp only
                      cases hcomma : behind ',' (skip r) with
                      | none => rfl
                      | some w =>
                          have hmore := behind_length hcomma
                          have hnext := skip_length w
                          dsimp only
                          rw [ih.members depth (skip w) (by omega)]

theorem fuelSuffices (n : Nat) : FuelSuffices n := by
  induction n with
  | zero => constructor <;> intro depth s h <;> omega
  | succ n ih =>
      exact ⟨value_fuel ih, array_fuel ih, object_fuel ih, items_fuel ih, members_fuel ih⟩

/-- **More fuel changes nothing**, so no document is refused for want of it. -/
theorem loads_fuel (depth : Nat) (s : List Code) {n : Nat} (h : fuelFor s ≤ n) :
    value n depth (skip s) = value (fuelFor s) depth (skip s) := by
  have hgap := skip_length s
  unfold fuelFor at h ⊢
  induction n, h using Nat.le_induction with
  | base => rfl
  | succ n hn ih => rw [(fuelSuffices n).value depth (skip s) (by omega), ih]

/-! ## Texts are read back -/

/-- A text as code points. -/
def codes (s : List Char) : List Code := s.map Code.char

@[simp] theorem codes_nil : codes [] = [] := rfl

@[simp] theorem codes_cons (c : Char) (s : List Char) : codes (c :: s) = .char c :: codes s := rfl

@[simp] theorem codes_append (s t : List Char) : codes (s ++ t) = codes s ++ codes t :=
  List.map_append

@[simp] theorem behind_cons (c : Char) (r : List Code) : behind c (.char c :: r) = some r :=
  if_pos rfl

theorem behind_ne {c d : Char} (h : d ≠ c) (r : List Code) : behind c (.char d :: r) = none :=
  if_neg h

theorem skip_of_not_space {c : Char} (h : isSpace (.char c) = false) (r : List Code) :
    skip (.char c :: r) = .char c :: r := by
  rw [skip, List.dropWhile_cons_of_neg (by rw [h]; decide)]

@[simp] theorem chars_codes (s : List Char) : chars (codes s) = some s := by
  induction s with
  | nil => rfl
  | cons c s ih => rw [codes_cons, chars, ih]; rfl

theorem ofString_codes (s : String) : ofString (codes s.toList) = .str s := by
  rw [ofString, chars_codes]
  dsimp only
  rw [String.ofList_toList]

theorem character_control {n : Nat} (h : n < 32) (r : List Code) :
    character (codes (escapeChar (Char.ofNat n)) ++ r) =
      some (.char (Char.ofNat n), r) := by
  interval_cases n <;> rfl

/-- An escaped character is read back. -/
theorem character_escapeChar (c : Char) (r : List Code) :
    character (codes (escapeChar c) ++ r) = some (.char c, r) := by
  by_cases hc : c.toNat < 32
  · simpa [Char.ofNat_toNat] using character_control hc r
  · by_cases hq : c = '"'
    · subst hq; rfl
    by_cases hb : c = '\\'
    · subst hb; rfl
    rw [escapeChar_plain hc hq hb]
    show character (.char c :: r) = _
    rw [character, if_neg hb, if_neg hc]

theorem string_body (s : List Char) (r : List Code) : ∀ n, (s.flatMap escapeChar).length < n →
    string n (codes (s.flatMap escapeChar) ++ .char '"' :: r) =
      some (codes s, r) := by
  induction s with
  | nil =>
      intro n hn
      obtain ⟨n, rfl⟩ := Nat.exists_eq_add_of_lt hn
      simp [string]
  | cons c s ih =>
      intro n hn
      obtain ⟨d, ds, hds, hquote⟩ := escapeChar_cons c
      have hread := character_escapeChar c (codes (s.flatMap escapeChar) ++ .char '"' :: r)
      rw [List.flatMap_cons, List.length_append, hds, List.length_cons] at hn
      obtain ⟨n, rfl⟩ : ∃ k, n = k + 1 := ⟨n - 1, by omega⟩
      rw [List.flatMap_cons, codes_append, List.append_assoc, string]
      rw [hds, codes_cons, List.cons_append] at hread ⊢
      rw [behind_ne hquote]
      dsimp only
      rw [hread]
      dsimp only
      rw [ih n (by omega)]
      rfl

/-- What stands behind a value does not continue a number. -/
def Follows (r : List Code) : Prop :=
  ∀ c t, r = .char c :: t → c.isDigit = false ∧ c ≠ '.' ∧ c ≠ 'e' ∧ c ≠ 'E'

theorem follows_nil : Follows [] := by
  intro c t h
  cases h

theorem follows_cons {c : Char} (hc : c ∈ [',', ']', '}']) (r : List Code) :
    Follows (.char c :: r) := by
  intro d t h
  cases h
  simp only [List.mem_cons, List.not_mem_nil, or_false] at hc
  rcases hc with rfl | rfl | rfl <;> decide

theorem digitsOf_append {ds : List Char} (hds : ∀ c ∈ ds, c.isDigit = true) {r : List Code}
    (hr : Follows r) : digitsOf (codes ds ++ r) = (ds, r) := by
  induction ds with
  | nil =>
      match r, hr with
      | [], _ => rfl
      | .surrogate n :: r, _ => rfl
      | .char c :: r, hr =>
          have hc := (hr c r rfl).1
          simp [digitsOf, hc]
  | cons c ds ih =>
      rw [codes_cons, List.cons_append, digitsOf, if_pos (hds c List.mem_cons_self),
        ih fun d hd => hds d (List.mem_cons_of_mem _ hd)]

theorem wholePart_digits (n : Nat) {r : List Code} (hr : Follows r) :
    wholePart (codes (Nat.toDigits 10 n) ++ r) = (Nat.toDigits 10 n, r) := by
  rcases Nat.eq_zero_or_pos n with rfl | hn
  · rfl
  · obtain ⟨c, cs, hcs, -⟩ := toDigits_cons n
    have hzero : c ≠ '0' := by
      rintro rfl
      exact toDigits_head hn hcs
    have hdigits := digitsOf_append (fun c hc => isDigit_of_mem_toDigits (n := n) hc) hr
    rw [hcs] at hdigits ⊢
    rw [codes_cons, List.cons_append] at hdigits ⊢
    rw [wholePart, behind_ne hzero]
    exact hdigits

theorem fraction_none {r : List Code} (hr : Follows r) : fraction r = ([], r) := by
  match r, hr with
  | [], _ => rfl
  | .surrogate n :: r, _ => rfl
  | .char c :: r, hr =>
      have hc := (hr c r rfl).2.1
      rw [fraction, behind_ne hc]

theorem exponent_none {r : List Code} (hr : Follows r) : exponent r = ([], r) := by
  match r, hr with
  | [], _ => rfl
  | .surrogate n :: r, _ => rfl
  | .char c :: r, hr =>
      have hc := (hr c r rfl).2.2
      rw [exponent, if_neg (by simp [hc])]

theorem magnitude_digits (negative : Bool) {n : Nat} (hn : n < 10 ^ maxDigits) {r : List Code}
    (hr : Follows r) : magnitude negative (codes (Nat.toDigits 10 n) ++ r) =
      .ok (.int (if negative then -(n : Int) else n), r) := by
  have hlength : ¬ maxDigits < (Nat.toDigits 10 n).length :=
    Nat.not_lt.mpr ((Nat.length_toDigits_le_iff (by decide) (by decide)).mpr hn)
  rw [magnitude, wholePart_digits n hr]
  dsimp only
  rw [fraction_none hr]
  dsimp only
  rw [exponent_none hr]
  dsimp only
  rw [if_neg Nat.toDigits_ne_nil, if_pos ⟨rfl, rfl⟩, if_neg hlength,
    Nat.ofDigitChars_toDigits (by decide) (by decide)]

/-- An integer is read back, if its digits are not too many. -/
theorem number_intText {i : Int} (hi : i.natAbs < 10 ^ maxDigits) {r : List Code}
    (hr : Follows r) : number (codes (intText i) ++ r) = .ok (.int i, r) := by
  rw [intText_eq]
  split
  · next hpos =>
      obtain ⟨c, cs, hcs, hc⟩ := toDigits_cons i.toNat
      have hminus : c ≠ '-' := by
        rintro rfl
        exact absurd hc (by decide)
      have hread := magnitude_digits false (n := i.toNat) (by omega) hr
      rw [hcs] at hread ⊢
      rw [codes_cons, List.cons_append] at hread ⊢
      rw [number, behind_ne hminus]
      dsimp only
      rw [hread, if_neg Bool.false_ne_true, Int.toNat_of_nonneg hpos]
  · next hneg =>
      have hread := magnitude_digits true (n := (-i).toNat) (by omega) hr
      rw [codes_cons, List.cons_append, number, behind_cons]
      dsimp only
      rw [hread, if_pos rfl, Int.toNat_of_nonneg (by omega), Int.neg_neg]

theorem constant_of_digit {c : Char} (hc : c.isDigit = true) (r : List Code) :
    constant (.char c :: r) = none := by
  have hne : ∀ d : Char, d.isDigit = false → ¬ d = c := by
    rintro d hd rfl
    rw [hc] at hd
    cases hd
  simp [constant, constants, List.isPrefixOf, hne 'n' (by decide), hne 't' (by decide),
    hne 'f' (by decide), hne 'N' (by decide), hne 'I' (by decide), hne '-' (by decide)]

theorem constant_of_minus {c : Char} (hc : c.isDigit = true) (r : List Code) :
    constant (.char '-' :: .char c :: r) = none := by
  have hne : ¬ 'I' = c := by
    rintro rfl
    exact absurd hc (by decide)
  simp [constant, constants, List.isPrefixOf, hne]

theorem constant_intText (i : Int) (r : List Code) :
    constant (codes (intText i) ++ r) = none := by
  rw [intText_eq]
  split
  · obtain ⟨c, cs, hcs, hc⟩ := toDigits_cons i.toNat
    rw [hcs]
    exact constant_of_digit hc _
  · obtain ⟨c, cs, hcs, hc⟩ := toDigits_cons (-i).toNat
    rw [hcs]
    exact constant_of_minus hc _

/-! ## Documents are read back -/

theorem not_space_of_opens {c : Char} (hc : Opens c) : isSpace (.char c) = false := by
  rcases hc with hc | hc
  · simp only [List.mem_cons, List.not_mem_nil, or_false] at hc
    rcases hc with rfl | rfl | rfl | rfl | rfl | rfl | rfl <;> decide
  · have hne : ∀ d : Char, d.isDigit = false → c ≠ d := by
      rintro d hd rfl
      rw [hc] at hd
      cases hd
    simp [isSpace, hne ' ' (by decide), hne '\t' (by decide), hne '\n' (by decide),
      hne '\r' (by decide)]

theorem not_closing_of_opens {c : Char} (hc : Opens c) : c ≠ ']' ∧ c ≠ '}' := by
  refine ⟨?_, ?_⟩ <;> rintro rfl <;> rcases hc with hc | hc <;> exact absurd hc (by decide)

theorem value_quote (s : String) {n : Nat} (hn : (quote s.toList).length ≤ n) (depth : Nat)
    (r : List Code) : value (n + 1) depth (codes (quote s.toList) ++ r) = .ok (.str s, r) := by
  rw [quote, List.length_cons, List.length_append] at hn
  have hread := string_body s.toList r n (by simp at hn ⊢; omega)
  simp only [quote, codes_cons, codes_append, codes_nil, List.cons_append, List.append_assoc,
    List.nil_append]
  rw [value, behind_cons]
  dsimp only
  rw [hread]
  dsimp only
  rw [ofString_codes]

/-- A text that opens no string and no container is a constant or a number. -/
theorem value_scalar {c : Char} (hquote : c ≠ '"') (harray : c ≠ '[') (hobject : c ≠ '{')
    (n depth : Nat) (r : List Code) : value (n + 1) depth (.char c :: r) =
      match constant (.char c :: r) with
      | some (j, r) => .ok (j, r)
      | none => number (.char c :: r) := by
  rw [value, behind_ne hquote, behind_ne harray, behind_ne hobject]

theorem value_intText {i : Int} (hi : i.natAbs < 10 ^ maxDigits) {r : List Code} (hr : Follows r)
    (n depth : Nat) : value (n + 1) depth (codes (intText i) ++ r) = .ok (.int i, r) := by
  obtain ⟨c, cs, hcs, hc⟩ := intText_cons i
  have hnumber := number_intText hi hr
  have hconstant := constant_intText i r
  have hne : ∀ d : Char, d.isDigit = false → d ≠ '-' → c ≠ d := by
    rintro d hd hminus rfl
    rcases hc with hc | hc
    · rw [hc] at hd
      cases hd
    · exact hminus hc
  rw [hcs, codes_cons, List.cons_append] at hnumber hconstant ⊢
  rw [value_scalar (hne _ (by decide) (by decide)) (hne _ (by decide) (by decide))
    (hne _ (by decide) (by decide)), hconstant]
  exact hnumber

theorem ofMembers_codes {ms : List (String × Json)} (h : (ms.map Prod.fst).Nodup) :
    ofMembers (ms.map fun m => (codes m.1.toList, m.2)) = .obj ms := by
  have hnames : (ms.map fun m => (codes m.1.toList, m.2)).filterMap
      (fun m => (chars m.1).map fun cs => (String.ofList cs, m.2)) = ms := by
    rw [List.filterMap_map]
    conv_rhs => rw [← List.filterMap_some (l := ms)]
    congr 1
    funext m
    simp
  have hnone : (ms.map fun m => (codes m.1.toList, m.2)).find? (fun m => (chars m.1).isNone) =
      none := by
    rw [List.find?_eq_none]
    intro m hm
    obtain ⟨k, -, rfl⟩ := List.mem_map.mp hm
    simp
  rw [ofMembers, hnames, hnone]
  dsimp only
  rw [dict_of_nodup h]

/-- The first member of an object, with what is left to do. -/
theorem members_first (name : String) {depth : Nat} {j : Json} (h : Simple depth j) (n : Nat)
    (hn : (quote name.toList).length ≤ n) {r : List Code}
    (hvalue : value n depth (codes (render j) ++ r) = .ok (j, r)) :
    members (n + 1) depth (codes (quote name.toList) ++ .char ':' :: (codes (render j) ++ r)) =
      match behind '}' (skip r) with
      | some r => .ok ([(codes name.toList, j)], r)
      | none =>
          match behind ',' (skip r) with
          | none => .error .syntaxError
          | some r =>
              match members n depth (skip r) with
              | .error e => .error e
              | .ok (ms, r) => .ok ((codes name.toList, j) :: ms, r) := by
  obtain ⟨c, cs, hcs, hc⟩ := render_cons h
  rw [quote, List.length_cons, List.length_append] at hn
  have hname := string_body name.toList (.char ':' :: (codes (render j) ++ r)) n
    (by simp at hn ⊢; omega)
  simp only [quote, codes_cons, codes_append, codes_nil, List.cons_append, List.append_assoc,
    List.nil_append]
  rw [members, behind_cons, Option.bind_some]
  rw [hname]
  dsimp only
  rw [skip_of_not_space (by decide), behind_cons]
  dsimp only
  rw [hcs, codes_cons, List.cons_append] at hvalue ⊢
  rw [skip_of_not_space (not_space_of_opens hc), hvalue]

mutual

/-- **What is written is read back**, whatever stands behind it. -/
theorem value_render {depth : Nat} (j : Json) (h : Simple depth j) {r : List Code}
    (hr : Follows r) (n : Nat) (hn : 3 * (render j).length ≤ n) :
    value n depth (codes (render j) ++ r) = .ok (j, r) := by
  obtain ⟨n, rfl⟩ : ∃ k, n = k + 1 := by
    obtain ⟨c, cs, hcs, -⟩ := render_cons h
    rw [hcs, List.length_cons] at hn
    exact ⟨n - 1, by omega⟩
  match j, h, hn with
  | .null, _, _ => rw [render]; exact value_scalar (by decide) (by decide) (by decide) n depth _
  | .bool true, _, _ =>
      rw [render]; exact value_scalar (by decide) (by decide) (by decide) n depth _
  | .bool false, _, _ =>
      rw [render]; exact value_scalar (by decide) (by decide) (by decide) n depth _
  | .int i, h, _ =>
      rw [Simple] at h
      have hdigits : (2 : Nat) ^ 63 < 10 ^ maxDigits :=
        Nat.lt_of_lt_of_le (by decide : 2 ^ 63 < 10 ^ 19)
          (Nat.pow_le_pow_right (by decide) (by decide))
      rw [render]
      exact value_intText (by omega) hr n depth
  | .str s, _, hn =>
      rw [render] at hn ⊢
      exact value_quote s (by omega) depth r
  | .float text, h, _ => rw [Simple] at h; exact h.elim
  | .unpaired codes, h, _ => rw [Simple] at h; exact h.elim
  | .ragged ms name, h, _ => rw [Simple] at h; exact h.elim
  | .arr js, h, hn =>
      rw [Simple] at h
      rw [render] at hn ⊢
      simp only [List.length_cons, List.length_append, List.length_nil] at hn
      obtain ⟨n, rfl⟩ : ∃ k, n = k + 1 := ⟨n - 1, by omega⟩
      obtain ⟨depth, rfl⟩ : ∃ d, depth = d + 1 := ⟨depth - 1, by omega⟩
      have hsimple : SimpleItems depth js := h.2
      simp only [codes_cons, codes_append, codes_nil, List.cons_append, List.append_assoc,
        List.nil_append]
      rw [value, behind_ne (by decide), behind_cons]
      dsimp only
      cases js with
      | nil =>
          rw [renderItems, codes_nil, List.nil_append, skip_of_not_space (by decide), array,
            behind_cons]
      | cons j js =>
          have hitems := items_render (j :: js) hsimple (List.cons_ne_nil j js) (r := r) n
            (by omega)
          obtain ⟨c, cs, hcs, hc⟩ := renderItems_cons hsimple
          rw [hcs, codes_cons, List.cons_append] at hitems ⊢
          rw [skip_of_not_space (not_space_of_opens hc), array,
            behind_ne (not_closing_of_opens hc).1]
          dsimp only
          rw [hitems]
  | .obj ms, h, hn =>
      rw [Simple] at h
      obtain ⟨hdepth, hnodup, hmembers⟩ := h
      rw [render] at hn ⊢
      simp only [List.length_cons, List.length_append, List.length_nil] at hn
      obtain ⟨n, rfl⟩ : ∃ k, n = k + 1 := ⟨n - 1, by omega⟩
      obtain ⟨depth, rfl⟩ : ∃ d, depth = d + 1 := ⟨depth - 1, by omega⟩
      have hsimple : SimpleMembers depth ms := hmembers
      simp only [codes_cons, codes_append, codes_nil, List.cons_append, List.append_assoc,
        List.nil_append]
      rw [value, behind_ne (by decide), behind_ne (by decide), behind_cons]
      dsimp only
      cases ms with
      | nil =>
          rw [renderMembers, codes_nil, List.nil_append, skip_of_not_space (by decide), object,
            behind_cons]
          rfl
      | cons m ms =>
          have hread := members_render (m :: ms) hsimple (List.cons_ne_nil m ms) (r := r) n
            (by omega)
          obtain ⟨cs, hcs⟩ := renderMembers_cons m ms
          rw [hcs, codes_cons, List.cons_append] at hread ⊢
          rw [skip_of_not_space (by decide), object, behind_ne (by decide)]
          dsimp only
          rw [hread]
          dsimp only
          rw [ofMembers_codes hnodup]

/-- Items are read back to the end of their array. -/
theorem items_render {depth : Nat} (js : List Json) (h : SimpleItems depth js) (hne : js ≠ [])
    {r : List Code} (n : Nat) (hn : 3 * (renderItems js).length + 1 ≤ n) :
    items n depth (codes (renderItems js) ++ .char ']' :: r) = .ok (js, r) := by
  obtain ⟨n, rfl⟩ : ∃ k, n = k + 1 := ⟨n - 1, by omega⟩
  match js, h, hn with
  | [j], h, hn =>
      rw [SimpleItems] at h
      rw [renderItems] at hn ⊢
      rw [items, value_render j h.1 (follows_cons (by decide) r) n (by omega)]
      dsimp only
      rw [skip_of_not_space (by decide), behind_cons]
  | j :: k :: js, h, hn =>
      rw [SimpleItems] at h
      rw [renderItems] at hn ⊢
      simp only [List.length_cons, List.length_append] at hn
      have hrest := items_render (k :: js) h.2 (List.cons_ne_nil k js) (r := r) n (by omega)
      obtain ⟨c, cs, hcs, hc⟩ := renderItems_cons h.2
      simp only [codes_cons, codes_append, List.cons_append, List.append_assoc]
      rw [items, value_render j h.1 (follows_cons (by decide) _) n (by omega)]
      dsimp only
      rw [skip_of_not_space (by decide), behind_ne (by decide), behind_cons]
      dsimp only
      rw [hcs, codes_cons, List.cons_append] at hrest ⊢
      rw [skip_of_not_space (not_space_of_opens hc), hrest]

/-- Members are read back to the end of their object. -/
theorem members_render {depth : Nat} (ms : List (String × Json)) (h : SimpleMembers depth ms)
    (hne : ms ≠ []) {r : List Code} (n : Nat) (hn : 3 * (renderMembers ms).length + 1 ≤ n) :
    members n depth (codes (renderMembers ms) ++ .char '}' :: r) =
      .ok (ms.map fun m => (codes m.1.toList, m.2), r) := by
  obtain ⟨n, rfl⟩ : ∃ k, n = k + 1 := ⟨n - 1, by omega⟩
  match ms, h, hn with
  | [(name, j)], h, hn =>
      rw [SimpleMembers] at h
      rw [renderMembers] at hn ⊢
      simp only [List.length_cons, List.length_append] at hn
      simp only [codes_cons, codes_append, List.cons_append, List.append_assoc]
      rw [members_first name h.1 n (by omega)
        (value_render j h.1 (follows_cons (by decide) r) n (by omega))]
      rw [skip_of_not_space (by decide), behind_cons]
      rfl
  | (name, j) :: m :: ms, h, hn =>
      rw [SimpleMembers] at h
      rw [renderMembers] at hn ⊢
      simp only [List.length_cons, List.length_append] at hn
      have hrest := members_render (m :: ms) h.2 (List.cons_ne_nil m ms) (r := r) n (by omega)
      obtain ⟨cs, hcs⟩ := renderMembers_cons m ms
      simp only [codes_cons, codes_append, List.cons_append, List.append_assoc]
      rw [members_first name h.1 n (by omega)
        (value_render j h.1 (follows_cons (by decide) _) n (by omega))]
      rw [skip_of_not_space (by decide), behind_ne (by decide), behind_cons]
      dsimp only
      rw [hcs, codes_cons, List.cons_append] at hrest ⊢
      rw [skip_of_not_space (by decide), hrest]
      rfl

end

/-- **A document is read back.** -/
theorem loads_render {depth : Nat} {j : Json} (h : Simple depth j) :
    loads depth (codes (render j)) = .ok j := by
  obtain ⟨c, cs, hcs, hc⟩ := render_cons h
  have hread := value_render j h follows_nil (fuelFor (codes (render j)))
    (by unfold fuelFor codes; rw [List.length_map]; omega)
  rw [List.append_nil] at hread
  rw [loads]
  rw [hcs, codes_cons] at hread ⊢
  rw [skip_of_not_space (not_space_of_opens hc), hread]
  rfl

end Lib.Loads
