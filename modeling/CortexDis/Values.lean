import CortexDis.PyDecimal
import CortexDis.PyDict

/-!
The values the pipeline moves: identifiers, instants, and the cells of a row.
-/

namespace CortexDis.Values

/-- A UUID as its 128 bits. -/
structure Uuid where
  bits : BitVec 128
  deriving DecidableEq, Repr

def hexDigit (n : ℕ) : Char := if n < 10 then Char.ofNat (48 + n) else Char.ofNat (87 + n)

/-- The `len` hexadecimal digits of `n`, most significant first. -/
def hexDigits (n : ℕ) : ℕ → List Char
  | 0 => []
  | len + 1 => hexDigit (n / 16 ^ len % 16) :: hexDigits n len

/-- The characters of `str(uuid)`: lowercase hexadecimal, grouped 8-4-4-4-12. -/
def Uuid.chars (u : Uuid) : List Char :=
  let n := u.bits.toNat
  hexDigits (n / 16 ^ 24) 8 ++ '-' :: hexDigits (n / 16 ^ 20) 4 ++
    '-' :: hexDigits (n / 16 ^ 16) 4 ++ '-' :: hexDigits (n / 16 ^ 12) 4 ++
    '-' :: hexDigits n 12

/-- `str(uuid)` -/
def Uuid.str (u : Uuid) : String := String.ofList u.chars

def Uuid.ofNat (n : ℕ) : Uuid := ⟨BitVec.ofNat 128 n⟩

/-- An instant, in microseconds; every stored timestamp is an aware UTC one. -/
abbrev Timestamp := ℤ

/-- A value of a contribution row or of a stored column. -/
inductive Value
  | str (s : String)
  | int (n : ℤ)
  | float (literal : String)
  | decimal (unscaled : ℤ) (scale : ℕ)
  /-- a `Decimal` that Python made of a text -/
  | number (d : PyDecimal.Number)
  | bool (b : Bool)
  | date (days : ℤ)
  | datetime (t : Timestamp)
  | uuid (u : Uuid)
  /-- a JSONB object whose members are timestamps, such as `attribute_staleness_map` -/
  | stamps (members : List (String × Timestamp))
  deriving DecidableEq, Repr

abbrev Cell := Option Value

end CortexDis.Values
