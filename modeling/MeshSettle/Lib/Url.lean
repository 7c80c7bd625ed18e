import MeshSettle.Lib.Unicode
import Mathlib.Data.List.TakeWhile

/-!
# URLs after RFC 3986

Splitting a URL into its components, removing dot segments, and
percent-decoding. Text that a program pastes into a URL is read again by these
three, and each theorem here says what one of them leaves alone: the authority
in front of a pasted path (`split_pasted`), a path without dot segments
(`DotRemoval`), and text without escapes (`percentDecode_eq_encode`). Text that
was encoded first is read back as it was (`percentDecode_encodeURIComponent`).
-/

namespace Lib.Url

open Lib.Unicode

/-! ## Components -/

/-- The components of a URI reference. -/
structure Components where
  scheme : Option (List Char)
  authority : Option (List Char)
  path : List Char
  query : Option (List Char)
  fragment : Option (List Char)
  deriving DecidableEq

/-- `[^:/?#]`. -/
def inScheme (c : Char) : Bool := c ≠ ':' && c ≠ '/' && c ≠ '?' && c ≠ '#'

/-- `[^/?#]`. -/
def inAuthority (c : Char) : Bool := c ≠ '/' && c ≠ '?' && c ≠ '#'

/-- `[^?#]`. -/
def inPath (c : Char) : Bool := c ≠ '?' && c ≠ '#'

/-- `[^#]`. -/
def inQuery (c : Char) : Bool := c ≠ '#'

/-- `(([^:/?#]+):)?` and what follows it. -/
def cutScheme (url : List Char) : Option (List Char) × List Char :=
  match url.takeWhile inScheme, url.dropWhile inScheme with
  | s :: scheme, ':' :: rest => (some (s :: scheme), rest)
  | _, _ => (none, url)

/-- `(//([^/?#]*))?` and what follows it. -/
def cutAuthority : List Char → Option (List Char) × List Char
  | '/' :: '/' :: rest => (some (rest.takeWhile inAuthority), rest.dropWhile inAuthority)
  | rest => (none, rest)

/-- `(\?([^#]*))?` and what follows it. -/
def cutQuery : List Char → Option (List Char) × List Char
  | '?' :: rest => (some (rest.takeWhile inQuery), rest.dropWhile inQuery)
  | rest => (none, rest)

/-- `(#(.*))?`. -/
def cutFragment : List Char → Option (List Char)
  | '#' :: rest => some rest
  | _ => none

/-- The split of RFC 3986, appendix B. -/
def split (url : List Char) : Components :=
  let (scheme, afterScheme) := cutScheme url
  let (authority, afterAuthority) := cutAuthority afterScheme
  let (query, afterQuery) := cutQuery (afterAuthority.dropWhile inPath)
  { scheme := scheme
    authority := authority
    path := afterAuthority.takeWhile inPath
    query := query
    fragment := cutFragment afterQuery }

theorem cutScheme_append {scheme rest : List Char} (hne : scheme ≠ [])
    (h : ∀ c ∈ scheme, inScheme c = true) :
    cutScheme (scheme ++ ':' :: rest) = (some scheme, rest) := by
  unfold cutScheme
  rw [List.takeWhile_append_of_pos h, List.dropWhile_append_of_pos h]
  cases scheme with
  | nil => exact absurd rfl hne
  | cons s scheme => simp [inScheme]

theorem cutAuthority_append {authority rest : List Char}
    (h : ∀ c ∈ authority, inAuthority c = true) :
    cutAuthority ('/' :: '/' :: (authority ++ '/' :: rest)) = (some authority, '/' :: rest) := by
  show (some ((authority ++ '/' :: rest).takeWhile inAuthority),
    (authority ++ '/' :: rest).dropWhile inAuthority) = _
  rw [List.takeWhile_append_of_pos h, List.dropWhile_append_of_pos h]
  simp [inAuthority]

/-- What is pasted behind an authority and a slash cannot change either the
scheme or the authority. -/
theorem split_pasted {scheme authority : List Char} (hne : scheme ≠ [])
    (hscheme : ∀ c ∈ scheme, inScheme c = true)
    (hauthority : ∀ c ∈ authority, inAuthority c = true) (rest : List Char) :
    split (scheme ++ ':' :: '/' :: '/' :: (authority ++ '/' :: rest)) =
      { scheme := some scheme
        authority := some authority
        path := '/' :: rest.takeWhile inPath
        query := (cutQuery (rest.dropWhile inPath)).1
        fragment := cutFragment (cutQuery (rest.dropWhile inPath)).2 } := by
  unfold split
  rw [cutScheme_append hne hscheme]
  dsimp only
  rw [cutAuthority_append hauthority]
  simp [inPath]

/-- No query and no fragment without a question mark or a hash. -/
theorem cutQuery_of_inPath {rest : List Char} (h : ∀ c ∈ rest, inPath c = true) :
    rest.takeWhile inPath = rest ∧ cutQuery (rest.dropWhile inPath) = (none, []) := by
  constructor
  · exact List.takeWhile_eq_self_iff.mpr h
  · rw [List.dropWhile_eq_nil_iff.mpr h]
    rfl

/-! ## Dot segments -/

/-- `.` and `..`. -/
def IsDot (segment : List Char) : Prop := segment = ['.'] ∨ segment = ['.', '.']

instance (segment : List Char) : Decidable (IsDot segment) :=
  inferInstanceAs (Decidable (_ ∨ _))

/-- The segments of a path. -/
def segments (path : List Char) : List (List Char) := path.splitOn '/'

/-- A removal of dot segments. It leaves an absolute path alone that has none,
and every named segment of its result is one of the path's other segments. -/
structure DotRemoval where
  run : List Char → List Char
  keeps : ∀ rest, (∀ s ∈ segments rest, ¬ IsDot s) → run ('/' :: rest) = '/' :: rest
  drops : ∀ rest, ∀ s ∈ segments (run ('/' :: rest)), s ≠ [] → s ∈ segments rest ∧ ¬ IsDot s

/-- The output behind a dot segment. At the end of the path its slash stays. -/
def afterDot (rest out : List (List Char)) : List (List Char) :=
  if rest = [] then [] :: out else out

/-- The loop of RFC 3986, section 5.2.4, on the segments behind the root, with
the output in reverse. -/
def removeDots : List (List Char) → List (List Char) → List (List Char)
  | out, [] => out.reverse
  | out, s :: rest =>
      if s = ['.'] then removeDots (afterDot rest out) rest
      else if s = ['.', '.'] then removeDots (afterDot rest out.tail) rest
      else removeDots (s :: out) rest

/-- `remove_dot_segments` of an absolute path. -/
def removeDotSegments : List Char → List Char
  | '/' :: rest => '/' :: ['/'].intercalate (removeDots [] (segments rest))
  | path => path

theorem mem_afterDot {s : List Char} {rest out : List (List Char)} (h : s ∈ afterDot rest out) :
    s ∈ out ∨ s = [] := by
  unfold afterDot at h
  split at h
  · exact (List.mem_cons.mp h).symm
  · exact .inl h

theorem removeDots_keeps {rest : List (List Char)} (h : ∀ s ∈ rest, ¬ IsDot s)
    (out : List (List Char)) : removeDots out rest = out.reverse ++ rest := by
  induction rest generalizing out with
  | nil => simp [removeDots]
  | cons s rest ih =>
      have hs : ¬ IsDot s := h s List.mem_cons_self
      have h1 : s ≠ ['.'] := fun e => hs (.inl e)
      have h2 : s ≠ ['.', '.'] := fun e => hs (.inr e)
      rw [removeDots, if_neg h1, if_neg h2, ih fun t ht => h t (List.mem_cons_of_mem _ ht)]
      simp

/-- What the loop puts out was there, is no dot segment, or is empty. -/
theorem mem_removeDots {s : List Char} {out rest : List (List Char)}
    (h : s ∈ removeDots out rest) : s ∈ out ∨ (s ∈ rest ∧ ¬ IsDot s) ∨ s = [] := by
  induction rest generalizing out with
  | nil => exact .inl (List.mem_reverse.mp h)
  | cons t rest ih =>
      have hlater : s ∈ rest ∧ ¬ IsDot s → s ∈ t :: rest ∧ ¬ IsDot s := fun hs =>
        ⟨List.mem_cons_of_mem _ hs.1, hs.2⟩
      have hskip : ∀ {out' : List (List Char)}, (∀ u ∈ out', u ∈ out) →
          s ∈ removeDots (afterDot rest out') rest →
          s ∈ out ∨ (s ∈ t :: rest ∧ ¬ IsDot s) ∨ s = [] := by
        intro out' hsub hs
        rcases ih hs with hout | hrest | hnil
        · exact (mem_afterDot hout).imp (hsub s) .inr
        · exact .inr (.inl (hlater hrest))
        · exact .inr (.inr hnil)
      rw [removeDots] at h
      split at h
      · exact hskip (fun _ hu => hu) h
      · split at h
        · exact hskip (fun _ hu => List.mem_of_mem_tail hu) h
        · next h1 h2 =>
            rcases ih h with hout | hrest | hnil
            · rcases List.mem_cons.mp hout with rfl | hout
              · exact .inr (.inl ⟨List.mem_cons_self, fun hd => hd.elim h1 h2⟩)
              · exact .inl hout
            · exact .inr (.inl (hlater hrest))
            · exact .inr (.inr hnil)

theorem segments_slash (rest : List Char) : segments ('/' :: rest) = [] :: segments rest := by
  show ([] ++ '/' :: rest).splitOn '/' = _
  rw [List.splitOn_append_cons_self_of_not_mem List.not_mem_nil]
  rfl

theorem segments_noSlash (path : List Char) : ∀ s ∈ segments path, '/' ∉ s := by
  induction path with
  | nil => simp [segments]
  | cons c path ih =>
      intro s hs
      rw [segments, List.splitOn_cons_eq_if_modifyHead] at hs
      split at hs
      · rcases List.mem_cons.mp hs with rfl | hs
        · exact List.not_mem_nil
        · exact ih s hs
      · next hc =>
          cases hsplit : path.splitOn '/' with
          | nil => simp [hsplit] at hs
          | cons t ts =>
              have ih' : ∀ s ∈ t :: ts, '/' ∉ s := by
                intro s hs
                exact ih s (by rw [segments, hsplit]; exact hs)
              rw [hsplit, List.modifyHead_cons] at hs
              rcases List.mem_cons.mp hs with rfl | hs
              · have ht : '/' ∉ t := ih' t List.mem_cons_self
                have hne : c ≠ '/' := by simpa using hc
                simp [ht, Ne.symm hne]
              · exact ih' s (List.mem_cons_of_mem _ hs)

theorem removeDots_noSlash {out rest : List (List Char)} (hout : ∀ s ∈ out, '/' ∉ s)
    (hrest : ∀ s ∈ rest, '/' ∉ s) : ∀ s ∈ removeDots out rest, '/' ∉ s := by
  intro s hs
  rcases mem_removeDots hs with h | ⟨h, -⟩ | rfl
  · exact hout s h
  · exact hrest s h
  · exact List.not_mem_nil

/-- The segments of a path whose dot segments were removed. -/
theorem mem_segments_removeDotSegments {s rest : List Char} (hne : s ≠ [])
    (h : s ∈ segments ('/' :: ['/'].intercalate (removeDots [] (segments rest)))) :
    s ∈ removeDots [] (segments rest) := by
  rw [segments_slash] at h
  have h' := (List.mem_cons.mp h).resolve_left hne
  cases hout : removeDots [] (segments rest) with
  | nil =>
      rw [hout] at h'
      exact absurd (List.mem_singleton.mp h') hne
  | cons t ts =>
      have hslash : ∀ u ∈ t :: ts, '/' ∉ u := by
        rw [← hout]
        exact removeDots_noSlash (by simp) (segments_noSlash rest)
      rw [hout, segments, List.splitOn_intercalate _ hslash (by simp)] at h'
      exact h'

/-- The algorithm of the RFC is a removal of dot segments. -/
def rfc3986 : DotRemoval where
  run := removeDotSegments
  keeps := by
    intro rest h
    show '/' :: ['/'].intercalate (removeDots [] (segments rest)) = _
    rw [removeDots_keeps h]
    simp [segments]
  drops := by
    intro rest s hs hne
    rcases mem_removeDots (mem_segments_removeDotSegments hne hs) with h | h | h
    · cases h
    · exact h
    · exact absurd h hne

/-! ## Percent-encoding -/

/-- The value of a hexadecimal digit. -/
def hexValue (c : Char) : Option Nat :=
  if '0' ≤ c ∧ c ≤ '9' then some (c.toNat - '0'.toNat)
  else if 'a' ≤ c ∧ c ≤ 'f' then some (c.toNat - 'a'.toNat + 10)
  else if 'A' ≤ c ∧ c ≤ 'F' then some (c.toNat - 'A'.toNat + 10)
  else none

/-- The octet that a character escapes together with the two behind it. -/
def escapedOctet (c hi lo : Char) : Option UInt8 :=
  if c = '%' then
    match hexValue hi, hexValue lo with
    | some h, some l => some (UInt8.ofNat (h * 16 + l))
    | _, _ => none
  else none

/-- Percent-decoding. What is not an escape stands for its UTF-8 encoding. -/
def percentDecode : List Char → List UInt8
  | c :: hi :: lo :: rest =>
      match escapedOctet c hi lo with
      | some octet => octet :: percentDecode rest
      | none => String.utf8EncodeChar c ++ percentDecode (hi :: lo :: rest)
  | short => short.flatMap String.utf8EncodeChar

/-- Some character starts an escape. -/
def HasEscape : List Char → Bool
  | c :: hi :: lo :: rest => (escapedOctet c hi lo).isSome || HasEscape (hi :: lo :: rest)
  | _ => false

/-- Decoding never lengthens, and an escape makes it shorter. -/
theorem percentDecode_length (s : List Char) :
    (percentDecode s).length + (if HasEscape s then 1 else 0) ≤ (encode s).length := by
  fun_induction percentDecode s with
  | case1 c hi lo rest octet hoctet ih =>
      have h1 := utf8EncodeChar_pos c
      have h2 := utf8EncodeChar_pos hi
      have h3 := utf8EncodeChar_pos lo
      simp only [List.length_cons, encode_cons, List.length_append]
      split <;> omega
  | case2 c hi lo rest hnone ih =>
      simp only [HasEscape, hnone, Option.isSome_none, Bool.false_or, encode_cons,
        List.length_append] at ih ⊢
      omega
  | case3 short hshort =>
      -- too short for an escape
      have hnone : HasEscape short = false := by
        unfold HasEscape
        split
        · next c hi lo rest => exact absurd rfl (hshort c hi lo rest)
        · rfl
      rw [hnone]
      exact le_rfl

/-- **What percent-decodes to its own encoding has no escapes.** -/
theorem percentDecode_eq_encode (s : List Char) :
    percentDecode s = encode s ↔ HasEscape s = false := by
  constructor
  · intro h
    have hlength := percentDecode_length s
    rw [h] at hlength
    cases hescape : HasEscape s with
    | false => rfl
    | true =>
        rw [hescape, if_pos rfl] at hlength
        omega
  · intro h
    fun_induction percentDecode s with
    | case1 c hi lo rest octet hoctet ih => simp [HasEscape, hoctet] at h
    | case2 c hi lo rest hnone ih =>
        rw [ih (by simpa [HasEscape, hnone] using h)]
        rfl
    | case3 short hshort => rfl

/-- A beginning of a text decodes to the encoding of the whole only where it is
the whole. -/
theorem eq_of_percentDecode_prefix {s t : List Char} (hp : s <+: t)
    (h : percentDecode s = encode t) : s = t ∧ HasEscape t = false := by
  obtain ⟨rest, rfl⟩ := hp
  have hlength := percentDecode_length s
  rw [h, encode_append, List.length_append] at hlength
  have hrest : encode rest = [] := List.eq_nil_of_length_eq_zero (by omega)
  cases encode_eq_nil hrest
  rw [List.append_nil] at h ⊢
  exact ⟨rfl, (percentDecode_eq_encode s).mp h⟩

/-! ## Encoding a component -/

/-- An upper-case hexadecimal digit. -/
def hexDigit (n : Nat) : Char :=
  if n < 10 then Char.ofNat ('0'.toNat + n) else Char.ofNat ('A'.toNat + (n - 10))

/-- `%XX`. -/
def escapeOctet (octet : UInt8) : List Char :=
  ['%', hexDigit (octet.toNat / 16), hexDigit (octet.toNat % 16)]

/-- The characters that `encodeURIComponent` leaves alone. -/
def isUnescaped (c : Char) : Bool := c.isAlphanum || "-_.!~*'()".toList.contains c

/-- `encodeURIComponent`. -/
def encodeURIComponent (s : List Char) : List Char :=
  s.flatMap fun c => if isUnescaped c then [c] else (String.utf8EncodeChar c).flatMap escapeOctet

theorem hexValue_hexDigit {n : Nat} (h : n < 16) : hexValue (hexDigit n) = some n := by
  have hall : ∀ k : Fin 16, hexValue (hexDigit k) = some k.val := by decide
  exact hall ⟨n, h⟩

theorem hexDigit_alphanum {n : Nat} (h : n < 16) : (hexDigit n).isAlphanum = true := by
  have hall : ∀ k : Fin 16, (hexDigit k).isAlphanum = true := by decide
  exact hall ⟨n, h⟩

theorem percentDecode_cons {c : Char} (h : c ≠ '%') (s : List Char) :
    percentDecode (c :: s) = String.utf8EncodeChar c ++ percentDecode s := by
  match s with
  | [] => rfl
  | [_] => rfl
  | hi :: lo :: rest =>
      have hnone : escapedOctet c hi lo = none := if_neg h
      rw [percentDecode, hnone]

theorem percentDecode_escapeOctet (octet : UInt8) (s : List Char) :
    percentDecode (escapeOctet octet ++ s) = octet :: percentDecode s := by
  have hsize := octet.toNat_lt
  have hescaped : escapedOctet '%' (hexDigit (octet.toNat / 16)) (hexDigit (octet.toNat % 16)) =
      some octet := by
    unfold escapedOctet
    rw [if_pos rfl, hexValue_hexDigit (by omega), hexValue_hexDigit (by omega)]
    have hsum : octet.toNat / 16 * 16 + octet.toNat % 16 = octet.toNat := by omega
    dsimp only
    rw [hsum, UInt8.ofNat_toNat]
  show percentDecode ('%' :: _ :: _ :: s) = _
  rw [percentDecode, hescaped]

theorem percentDecode_escapeOctets (octets : List UInt8) (s : List Char) :
    percentDecode (octets.flatMap escapeOctet ++ s) = octets ++ percentDecode s := by
  induction octets with
  | nil => rfl
  | cons octet octets ih =>
      rw [List.flatMap_cons, List.append_assoc, percentDecode_escapeOctet, ih, List.cons_append]

/-- **A component that was encoded decodes to itself.** -/
theorem percentDecode_encodeURIComponent (s : List Char) :
    percentDecode (encodeURIComponent s) = encode s := by
  induction s with
  | nil => rfl
  | cons c s ih =>
      unfold encodeURIComponent at ih ⊢
      rw [List.flatMap_cons, encode_cons]
      by_cases hc : isUnescaped c = true
      · have hpercent : c ≠ '%' := by
          rintro rfl
          exact absurd hc (by decide)
        rw [if_pos hc, List.singleton_append, percentDecode_cons hpercent, ih]
      · rw [if_neg hc, percentDecode_escapeOctets, ih]

/-- What an encoded component consists of. -/
theorem mem_encodeURIComponent {s : List Char} {c : Char} (h : c ∈ encodeURIComponent s) :
    isUnescaped c = true ∨ c = '%' := by
  obtain ⟨d, -, hc⟩ := List.mem_flatMap.mp h
  split at hc
  · next hd =>
      rw [List.mem_singleton.mp hc]
      exact .inl hd
  · obtain ⟨octet, -, hc⟩ := List.mem_flatMap.mp hc
    have hsize := octet.toNat_lt
    have hdigit : ∀ n, n < 16 → isUnescaped (hexDigit n) = true := by
      intro n hn
      unfold isUnescaped
      rw [hexDigit_alphanum hn, Bool.true_or]
    unfold escapeOctet at hc
    rcases List.mem_cons.mp hc with rfl | hc
    · exact .inr rfl
    · rcases List.mem_cons.mp hc with rfl | hc
      · exact .inl (hdigit _ (by omega))
      · rw [List.mem_singleton.mp hc]
        exact .inl (hdigit _ (by omega))

end Lib.Url
