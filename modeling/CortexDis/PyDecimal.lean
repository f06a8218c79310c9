import CortexDis.PyText

/-!
Python's `decimal` module: numbers, the texts `Decimal` reads, and subtraction in the default
context. The Unicode classes it reads by are `str.isspace` and the decimal digit values.
-/

namespace CortexDis.PyDecimal

/-- A `Decimal`: sign, coefficient and exponent, or a special value. -/
inductive Number
  | finite (negative : Bool) (coefficient : ℕ) (exponent : ℤ)
  | infinity (negative : Bool)
  | nan (negative signaling : Bool) (payload : ℕ)
  deriving DecidableEq, Repr

/-- The number of decimal digits of a coefficient; zero has one. -/
def digitCount (c : ℕ) : ℕ := Nat.log 10 c + 1

/-! ### Texts -/

variable (isSpace : Char → Bool) (decimalDigit : Char → Option ℕ)

def digitChar (d : ℕ) : Char := Char.ofNat (48 + d)

/-- One character of a number: ASCII stays, and so do other white space and other decimal
digits, under their ASCII names. -/
def asciiChar (c : Char) : Option Char :=
  if 0 < c.toNat ∧ c.toNat ≤ 127 then some c
  else if isSpace c then some ' '
  else (decimalDigit c).map digitChar

/-- The text of a number in ASCII, without white space around it and without underscores. -/
def numericAsAscii (s : List Char) : Option (List Char) :=
  ((PyText.trim isSpace s).filter (· ≠ '_')).mapM (asciiChar isSpace decimalDigit)

/-- The sign of a number and what follows it. -/
def takeSign : List Char → Bool × List Char
  | '-' :: s => (true, s)
  | '+' :: s => (false, s)
  | s => (false, s)

def digitsValue (s : List Char) : ℕ := s.foldl (fun n c => 10 * n + (c.toNat - 48)) 0

/-- `inf`, `infinity`, `nan` and `snan`, in any case; the last two may carry digits. -/
def readSpecial (negative : Bool) (s : List Char) : Option Number :=
  match s.map Char.toLower with
  | ['i', 'n', 'f'] | ['i', 'n', 'f', 'i', 'n', 'i', 't', 'y'] => some (.infinity negative)
  | 'n' :: 'a' :: 'n' :: payload =>
    if payload.all Char.isDigit then some (.nan negative false (digitsValue payload)) else none
  | 's' :: 'n' :: 'a' :: 'n' :: payload =>
    if payload.all Char.isDigit then some (.nan negative true (digitsValue payload)) else none
  | _ => none

/-- What follows the digits: nothing, or `e` and an integer. -/
def readExponent : List Char → Option ℤ
  | [] => some 0
  | e :: s =>
    let (negative, digits) := takeSign s
    if e.toLower = 'e' ∧ digits ≠ [] ∧ digits.all Char.isDigit then
      some (if negative then -(digitsValue digits : ℤ) else digitsValue digits)
    else none

/-- The exponents an exact conversion can hold. -/
def representable (coefficient : ℕ) (exponent : ℤ) : Prop :=
  exponent + Nat.log 10 coefficient ≤ 999999999999999999 ∧ -1999999999999999997 ≤ exponent

instance (coefficient : ℕ) (exponent : ℤ) : Decidable (representable coefficient exponent) :=
  inferInstanceAs (Decidable (_ ∧ _))

/-- Digits with an optional point among them, and an optional exponent. -/
def readFinite (negative : Bool) (s : List Char) : Option Number := do
  let whole := s.takeWhile Char.isDigit
  let (fraction, rest) := match s.dropWhile Char.isDigit with
    | '.' :: r => (r.takeWhile Char.isDigit, r.dropWhile Char.isDigit)
    | r => ([], r)
  if whole = [] ∧ fraction = [] then none
  else
    let coefficient := digitsValue (whole ++ fraction)
    let exponent := (← readExponent rest) - fraction.length
    if representable coefficient exponent then some (.finite negative coefficient exponent)
    else none

/-- `Decimal(text)`; none where it raises `InvalidOperation`. -/
def ofText (text : String) : Option Number := do
  let (negative, s) := takeSign (← numericAsAscii isSpace decimalDigit text.toList)
  (readSpecial negative s).or (readFinite negative s)

/-! ### Subtraction -/

/-- The signals the default context traps. -/
inductive Signal
  | invalidOperation | overflow
  deriving DecidableEq, Repr

def prec : ℕ := 28
def emax : ℤ := 999999
/-- The least exponent of a number of the context. -/
def etiny : ℤ := -1000026

/-- `c / 10 ^ k`, rounded half to even. -/
def roundHalfEven (c k : ℕ) : ℕ :=
  let q := c / 10 ^ k
  let r := c % 10 ^ k
  if 10 ^ k < 2 * r ∨ 10 ^ k = 2 * r ∧ q % 2 = 1 then q + 1 else q

/-- The exact result of an operation, fitted to the context. -/
def finalize (negative : Bool) (c : ℕ) (e : ℤ) : Except Signal Number :=
  if c = 0 then .ok (.finite negative 0 (max etiny (min e emax)))
  else if emax < e + Nat.log 10 c then .error .overflow
  else
    let dropped := max (etiny - e).toNat (digitCount c - prec)
    let c' := roundHalfEven c dropped
    -- rounding up may carry into one digit too many
    let (c', e') := if prec < digitCount c' then (c' / 10, e + dropped + 1) else (c', e + dropped)
    if emax < e' + Nat.log 10 c' then .error .overflow else .ok (.finite negative c' e')

def signed (negative : Bool) (c : ℕ) : ℤ := if negative then -(c : ℤ) else c

/-- The coefficient of a finite number at a smaller exponent. -/
def scaledTo (e' : ℤ) (c : ℕ) (e : ℤ) : ℕ := c * 10 ^ (e - e').toNat

/-- `a - b` in the default context -/
def sub : Number → Number → Except Signal Number
  | .nan _ true _, _ => .error .invalidOperation
  | _, .nan _ true _ => .error .invalidOperation
  | .nan n false p, _ => .ok (.nan n false p)
  | _, .nan n false p => .ok (.nan n false p)
  | .infinity n, .infinity m => if n = m then .error .invalidOperation else .ok (.infinity n)
  | .infinity n, .finite .. => .ok (.infinity n)
  | .finite .., .infinity m => .ok (.infinity !m)
  | .finite n c e, .finite m d f =>
    let least := min e f
    let exact := signed n (scaledTo least c e) - signed m (scaledTo least d f)
    let negative := decide (exact < 0) || (decide (exact = 0) && n && !m)
    finalize negative exact.natAbs least

end CortexDis.PyDecimal
