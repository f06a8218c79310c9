import Mathlib

/-!
Python text and its decoding from bytes.

A Python `str` is a sequence of code points, and a lone surrogate is one of them, so text is a
list of numbers. Decoding follows the codecs with the `surrogatepass` handler: an encoded
surrogate is kept, every other malformed sequence is an error.
-/

namespace CortexDis.PyText

/-- A Python `str`, by its code points. -/
abbrev PyStr := List ℕ

def pyStr (s : String) : PyStr := s.toList.map Char.toNat

/-- A sequence without its longest ends of elements to drop; `str.strip` is one. -/
def trim {α : Type} (drop : α → Bool) (s : List α) : List α :=
  ((s.dropWhile drop).reverse.dropWhile drop).reverse

def isHigh (c : ℕ) : Bool := 0xD800 ≤ c && c ≤ 0xDBFF
def isLow (c : ℕ) : Bool := 0xDC00 ≤ c && c ≤ 0xDFFF

/-- The code point of a surrogate pair. -/
def joinPair (high low : ℕ) : ℕ := 0x10000 + (high - 0xD800) * 0x400 + (low - 0xDC00)

abbrev Bytes := List UInt8

/-- The payload of a continuation byte. -/
def tail (b : UInt8) : Option ℕ := if 0x80 ≤ b ∧ b ≤ 0xBF then some (b.toNat - 0x80) else none

/-- A code point of at least `low`, where its encoding must not be longer than needed. -/
def atLeast (low c : ℕ) : Option ℕ := if low ≤ c ∧ c ≤ 0x10FFFF then some c else none

/-- `bytes.decode("utf-8", "surrogatepass")` -/
def decodeUtf8 : Bytes → Option PyStr
  | [] => some []
  | a :: rest =>
    if a < 0x80 then (decodeUtf8 rest).map (a.toNat :: ·)
    else match rest with
      | [] => none
      | b :: rest =>
        if 0xC2 ≤ a ∧ a ≤ 0xDF then do
          let c := (a.toNat - 0xC0) * 0x40 + (← tail b)
          return c :: (← decodeUtf8 rest)
        else match rest with
          | [] => none
          | c :: rest =>
            if 0xE0 ≤ a ∧ a ≤ 0xEF then do
              let c ← atLeast 0x800 (((a.toNat - 0xE0) * 0x40 + (← tail b)) * 0x40 + (← tail c))
              return c :: (← decodeUtf8 rest)
            else match rest with
              | [] => none
              | d :: rest =>
                if 0xF0 ≤ a ∧ a ≤ 0xF4 then do
                  let c ← atLeast 0x10000
                    ((((a.toNat - 0xF0) * 0x40 + (← tail b)) * 0x40 + (← tail c)) * 0x40 +
                      (← tail d))
                  return c :: (← decodeUtf8 rest)
                else none

inductive Endian
  | big | little

/-- The value of one unit, given its bytes in order. -/
def unit (e : Endian) (bytes : Bytes) : ℕ :=
  let ordered := match e with
    | .big => bytes
    | .little => bytes.reverse
  ordered.foldl (fun n (b : UInt8) => 0x100 * n + b.toNat) 0

/-- The 16-bit units of a text; none when a byte is left over. -/
def units16 (e : Endian) : Bytes → Option (List ℕ)
  | [] => some []
  | [_] => none
  | a :: b :: rest => (units16 e rest).map (unit e [a, b] :: ·)

/-- Pairs of surrogates become one code point; a lone surrogate stays. -/
def joinUnits : List ℕ → PyStr
  | high :: low :: rest =>
    if isHigh high && isLow low then joinPair high low :: joinUnits rest
    else high :: joinUnits (low :: rest)
  | rest => rest

/-- `bytes.decode("utf-16-be" or "utf-16-le", "surrogatepass")` -/
def decodeUtf16 (e : Endian) (bytes : Bytes) : Option PyStr := (units16 e bytes).map joinUnits

/-- `bytes.decode("utf-32-be" or "utf-32-le", "surrogatepass")` -/
def decodeUtf32 (e : Endian) : Bytes → Option PyStr
  | [] => some []
  | a :: b :: c :: d :: rest => do
    let c ← atLeast 0 (unit e [a, b, c, d])
    return c :: (← decodeUtf32 e rest)
  | _ => none

inductive Encoding
  | utf32 (e : Endian)
  | utf16 (e : Endian)
  | utf8

def Encoding.decode : Encoding → Bytes → Option PyStr
  | .utf32 e => decodeUtf32 e
  | .utf16 e => decodeUtf16 e
  | .utf8 => decodeUtf8

/-- The byte order marks, in the order `json.detect_encoding` looks for them. -/
def byteOrderMarks : List (Bytes × Encoding) :=
  [([0x00, 0x00, 0xFE, 0xFF], .utf32 .big), ([0xFF, 0xFE, 0x00, 0x00], .utf32 .little),
    ([0xFE, 0xFF], .utf16 .big), ([0xFF, 0xFE], .utf16 .little), ([0xEF, 0xBB, 0xBF], .utf8)]

/-- What `json.detect_encoding` returns where there is no mark. -/
def detectUnmarked : Bytes → Encoding
  | a :: b :: c :: d :: _ =>
    if a = 0 then (if b = 0 then .utf32 .big else .utf16 .big)
    else if b = 0 then (if c = 0 ∧ d = 0 then .utf32 .little else .utf16 .little)
    else .utf8
  | [a, b] => if a = 0 then .utf16 .big else if b = 0 then .utf16 .little else .utf8
  | _ => .utf8

/-- `json.detect_encoding` and the decoding with what it detects, a mark dropped; none is a
`UnicodeDecodeError`. -/
def decode (bytes : Bytes) : Option PyStr :=
  match byteOrderMarks.find? fun mark => mark.1.isPrefixOf bytes with
  | some mark => mark.2.decode (bytes.drop mark.1.length)
  | none => (detectUnmarked bytes).decode bytes

lemma decode_eq_decodeUtf8 {bytes : Bytes} (h : ∀ b ∈ bytes, 0 < b.toNat ∧ b.toNat < 0x80) :
    decode bytes = decodeUtf8 bytes := by
  -- every mark has a byte that is a zero or no ASCII
  have hbyte : ∀ mark ∈ byteOrderMarks, ∃ b ∈ mark.1, ¬ (0 < b.toNat ∧ b.toNat < 0x80) := by
    decide
  have hmark : (byteOrderMarks.find? fun mark => mark.1.isPrefixOf bytes) = none := by
    rw [List.find?_eq_none]
    intro mark hmem hprefix
    obtain ⟨b, hb, hnot⟩ := hbyte mark hmem
    exact hnot (h b ((List.isPrefixOf_iff_prefix.mp hprefix).subset hb))
  have hzero : ∀ b ∈ bytes, b ≠ 0 := by
    rintro b hb rfl
    exact absurd (h 0 hb).1 (by decide)
  have hutf8 : detectUnmarked bytes = .utf8 := by
    unfold detectUnmarked
    split
    · rename_i a b c d rest
      rw [if_neg (hzero a (by simp)), if_neg (hzero b (by simp))]
    · rename_i a b
      rw [if_neg (hzero a (by simp)), if_neg (hzero b (by simp))]
    · rfl
  rw [decode, hmark, hutf8]
  rfl

end CortexDis.PyText
