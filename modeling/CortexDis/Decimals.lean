import CortexDis.Numerals

/-!
Decimal numbers as rationals: when the default context computes a difference exactly, and which
number a text writes.

Nothing here is about a program. A number is in the context when it has at most 28 digits that
count, at an exponent the context has.
-/

namespace CortexDis.Decimals

open CortexDis.PyDecimal CortexDis.Numerals

/-- The number that a `Decimal` is, unless it is a special value. -/
def valueOf : Number → Option ℚ
  | .finite negative c e => some (signed negative c * 10 ^ e)
  | _ => none

/-- The parts of a number's text: its sign, the digits around the point, and its exponent. -/
structure Numeral where
  negative : Bool
  whole : List Char
  fraction : List Char
  exponent : ℤ

def Numeral.coefficient (n : Numeral) : ℕ := digitsValue (n.whole ++ n.fraction)

def Numeral.scale (n : Numeral) : ℤ := n.exponent - n.fraction.length

def Numeral.value (n : Numeral) : ℚ := signed n.negative n.coefficient * 10 ^ n.scale

def IsSignOf (negative : Bool) (sign : List Char) : Prop :=
  if negative then sign = ['-'] else sign = [] ∨ sign = ['+']

/-- Nothing, or a point and digits. -/
def IsPoint (fraction point : List Char) : Prop :=
  point = [] ∧ fraction = [] ∨ point = '.' :: fraction ∧ Digits fraction

/-- Nothing, or `e` and an integer. -/
def IsExponent (x : ℤ) (tail : List Char) : Prop :=
  tail = [] ∧ x = 0 ∨ ∃ e negative sign digits, tail = e :: (sign ++ digits) ∧ e.toLower = 'e' ∧
    IsSignOf negative sign ∧ Digits digits ∧ digits ≠ [] ∧ x = signed negative (digitsValue digits)

/-- The text after the sign has the parts. -/
def WritesBody (body : List Char) (n : Numeral) : Prop :=
  ∃ point tail, body = n.whole ++ (point ++ tail) ∧ Digits n.whole ∧ IsPoint n.fraction point ∧
    IsExponent n.exponent tail ∧ (n.whole ≠ [] ∨ n.fraction ≠ [])

/-- The text has the parts. -/
def Writes (s : List Char) (n : Numeral) : Prop :=
  ∃ sign body, s = sign ++ body ∧ IsSignOf n.negative sign ∧ WritesBody body n

lemma takeSign_append {negative : Bool} {sign body : List Char} (h : IsSignOf negative sign)
    (hbody : ∀ c ∈ body.head?, c ≠ '-' ∧ c ≠ '+') : takeSign (sign ++ body) = (negative, body) := by
  cases negative with
  | true =>
    obtain rfl : sign = ['-'] := h
    rfl
  | false =>
    rcases h with rfl | rfl
    · cases body with
      | nil => rfl
      | cons c body =>
        obtain ⟨hminus, hplus⟩ := hbody c rfl
        rw [List.nil_append, takeSign]
        · exact fun s h => hminus (List.cons.inj h).1
        · exact fun s h => hplus (List.cons.inj h).1
    · rfl

lemma toLower_of_isDigit {c : Char} (h : c.isDigit = true) : c.toLower = c := by
  rw [Char.isDigit_iff_toNat] at h
  obtain ⟨hlow, hhigh⟩ := h
  change 48 ≤ c.toNat at hlow
  change c.toNat ≤ 57 at hhigh
  rw [← Char.ofNat_toNat c]
  interval_cases c.toNat <;> rfl

lemma IsExponent.head {x : ℤ} {tail : List Char} (h : IsExponent x tail) :
    ∀ c ∈ tail.head?, c.isDigit = false ∧ c ≠ '.' := by
  rcases h with ⟨rfl, -⟩ | ⟨e, negative, sign, digits, rfl, he, -⟩
  · simp
  · intro c hc
    obtain rfl : e = c := Option.some.inj hc
    refine ⟨?_, ?_⟩
    · by_contra hdigit
      rw [Bool.not_eq_false] at hdigit
      rw [toLower_of_isDigit hdigit] at he
      subst he
      cases hdigit
    · rintro rfl
      exact absurd he (by decide)

/-- A word for a special value. -/
def IsSpecial (s : List Char) : Prop := (readSpecial (takeSign s).1 (takeSign s).2).isSome

lemma WritesBody.head {body : List Char} {n : Numeral} (h : WritesBody body n) :
    ∃ c rest, body = c :: rest ∧ (c.isDigit = true ∨ c = '.') := by
  obtain ⟨point, tail, rfl, hwhole, hpoint, -, hne⟩ := h
  cases hw : n.whole with
  | cons c whole =>
    rw [hw] at hwhole
    exact ⟨c, _, rfl, Or.inl (hwhole c List.mem_cons_self)⟩
  | nil =>
    rcases hpoint with ⟨-, hf⟩ | ⟨rfl, -⟩
    · exact absurd hf (hne.resolve_left fun h => h hw)
    · exact ⟨'.', _, rfl, Or.inr rfl⟩

lemma Writes.takeSign {s : List Char} {n : Numeral} (h : Writes s n) :
    ∃ body, takeSign s = (n.negative, body) ∧ WritesBody body n := by
  obtain ⟨sign, body, rfl, hsign, hbody⟩ := h
  refine ⟨body, takeSign_append hsign fun c hc => ?_, hbody⟩
  obtain ⟨c', rest, rfl, hc'⟩ := hbody.head
  obtain rfl : c' = c := Option.some.inj hc
  constructor <;> rintro rfl <;> rcases hc' with hc' | hc' <;> cases hc'

section Texts

variable (isSpace : Char → Bool) (decimalDigit : Char → Option ℕ)

/-- The text writes the number. -/
def Denotes (text : String) (x : ℚ) : Prop :=
  ∃ s n, numericAsAscii isSpace decimalDigit text.toList = some s ∧ Writes s n ∧ n.value = x

/-- The text is no word for a special value, and a number it writes fits a `Decimal`. -/
structure Plain (text : String) : Prop where
  special : ∀ s, numericAsAscii isSpace decimalDigit text.toList = some s → ¬ IsSpecial s
  range : ∀ s n, numericAsAscii isSpace decimalDigit text.toList = some s → Writes s n →
    representable n.coefficient n.scale

variable {isSpace decimalDigit} {text : String} {s : List Char}

end Texts

end CortexDis.Decimals
