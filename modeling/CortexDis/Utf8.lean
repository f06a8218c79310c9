import CortexDis.PyText

/-!
UTF-8 decoding with an error handler.

The bytes are read one at a time into units: a character, or a place where the bytes are
malformed. A malformed sequence is as long as a character could still have come of it, so
that the two handlers differ only in what they make of such a place.
-/

namespace CortexDis.Utf8

open CortexDis.PyText

/-- A character of which some bytes are still to come. -/
structure Pending where
  needed : ℕ
  /-- the bounds of the next byte -/
  lower : UInt8
  upper : UInt8
  bits : ℕ

/-- What a first byte gives: units, and a character it begins. -/
def first (b : UInt8) : List (Option Char) × Option Pending :=
  if b < 0x80 then ([some (Char.ofNat b.toNat)], none)
  else if 0xC2 ≤ b ∧ b ≤ 0xDF then ([], some ⟨1, 0x80, 0xBF, b.toNat - 0xC0⟩)
  else if 0xE0 ≤ b ∧ b ≤ 0xEF then
    -- no encoding longer than needed, and no surrogate
    ([], some ⟨2, if b = 0xE0 then 0xA0 else 0x80, if b = 0xED then 0x9F else 0xBF,
      b.toNat - 0xE0⟩)
  else if 0xF0 ≤ b ∧ b ≤ 0xF4 then
    ([], some ⟨3, if b = 0xF0 then 0x90 else 0x80, if b = 0xF4 then 0x8F else 0xBF,
      b.toNat - 0xF0⟩)
  else ([none], none)

/-- One more byte. A byte that does not continue the character is read as a first byte. -/
def next : Option Pending → UInt8 → List (Option Char) × Option Pending
  | none, b => first b
  | some p, b =>
    if p.lower ≤ b ∧ b ≤ p.upper then
      let bits := p.bits * 0x40 + (b.toNat - 0x80)
      if p.needed = 1 then ([some (Char.ofNat bits)], none)
      else ([], some ⟨p.needed - 1, 0x80, 0xBF, bits⟩)
    else (none :: (first b).1, (first b).2)

/-- The units of a sequence of bytes. -/
def units (p : Option Pending) : Bytes → List (Option Char)
  | [] => if p.isSome then [none] else []
  | b :: rest => (next p b).1 ++ units (next p b).2 rest

/-- `bytes.decode("utf-8")`; `none` is a `UnicodeDecodeError`. -/
def decode (bytes : Bytes) : Option String := ((units none bytes).mapM id).map String.ofList

/-- `bytes.decode("utf-8", errors="replace")` -/
def decodeReplace (bytes : Bytes) : String :=
  String.ofList ((units none bytes).map fun unit => unit.getD (Char.ofNat 0xFFFD))

lemma mapM_id_eq_some {α : Type} {us : List (Option α)} {cs : List α}
    (h : us.mapM id = some cs) : us = cs.map some := by
  induction us generalizing cs with
  | nil =>
    cases h
    rfl
  | cons u us ih =>
    rw [List.mapM_cons] at h
    cases u with
    | none => cases h
    | some c =>
      cases hrest : us.mapM id with
      | none =>
        rw [hrest] at h
        cases h
      | some rest =>
        rw [hrest] at h
        cases h
        rw [List.map_cons, ih hrest]

/-- The handlers agree where nothing is malformed. -/
theorem decodeReplace_of_decode {bytes : Bytes} {text : String} (h : decode bytes = some text) :
    decodeReplace bytes = text := by
  obtain ⟨cs, hcs, rfl⟩ := Option.map_eq_some_iff.mp h
  rw [decodeReplace, mapM_id_eq_some hcs, List.map_map]
  exact congrArg String.ofList (List.map_id cs)

example : decode [0xE2, 0x82, 0xAC] = some "€" := by decide +kernel

example : decodeReplace [0x61, 0xE2, 0x82, 0x62] = "a\uFFFDb" := by decide +kernel

end CortexDis.Utf8
