import CortexDis.AckSafety
import CortexDis.HotChecks
import CortexDis.CanonicalShape
import CortexDis.Decimals
import CortexDis.EventRows
import CortexDis.Runs

/-!
When row building returns every row, with exact numbers.

The payload values of a change event are untyped, and any text reaches `Decimal`. It reads
special words, refuses numbers out of its range, and subtracts in a context of 28 digits.
-/

namespace CortexDis.ExactRows

open CortexDis.PyDict CortexDis.Values CortexDis.GroupHot CortexDis.Canonical CortexDis.Envelope
open CortexDis.Errors CortexDis.Bronze CortexDis.Frames CortexDis.EventRows CortexDis.PyDecimal
open CortexDis.Decimals CortexDis.CanonicalShape CortexDis.Catalogue CortexDis.Runs

variable (L : RowLibs)

/-! ### Numbers of cells -/

/-- The cell holds a `Decimal` that is the number. -/
def Holds (cell : Cell) (x : ℚ) : Prop :=
  ∃ v d, cell = some v ∧ decimalOf v = some d ∧ valueOf d = some x

variable {L}

lemma Holds.unique {cell : Cell} {x y : ℚ} (hx : Holds cell x) (hy : Holds cell y) : x = y := by
  obtain ⟨v, d, rfl, hd, hx⟩ := hx
  obtain ⟨v', d', hv, hd', hy⟩ := hy
  cases hv
  rw [hd] at hd'
  cases hd'
  exact Option.some.inj (hx.symm.trans hy)

section Shortcuts

variable {params payload out : Payload}

end Shortcuts

section Row

variable {event : IngressReadyEvent} {bronze : BronzeMeta} {loaded : LoadedMapping}
  {tax : Option String} {i index : ℕ} {payload : Payload}

end Row

/-! ### A contribution -/

/-- The values a column of the type holds. -/
def DTypeHolds : DType → Value → Prop
  | .string, .str _ => True
  | .int32, .int _ | .int64, .int _ | .int128, .int _ => True
  | .float64, .float _ => True
  | .boolean, .bool _ => True
  | .date, .date _ => True
  | .decimal _ scale, .decimal _ scale' => scale' = scale
  | .datetimeUtc, .datetime _ => True
  | _, _ => False

/-- Every column holds values of its type, as polars has it. -/
def Conforms (f : Frame) : Prop :=
  f.Rect ∧ ∀ c s, f.columns.get? c = some s → ∀ v, some v ∈ s.cells → DTypeHolds s.dtype v

lemma conforms_iff {f : Frame} : Conforms f ↔ ∀ e ∈ f.columns.entries,
    e.2.cells.length = f.height ∧ ∀ v, some v ∈ e.2.cells → DTypeHolds e.2.dtype v := by
  constructor
  · rintro ⟨hrect, hholds⟩ ⟨c, s⟩ he
    have hs := (Dict.mem_entries _).mp he
    exact ⟨hrect c s hs, hholds c s hs⟩
  · intro h
    exact ⟨fun c s hs => (h _ ((Dict.mem_entries _).mpr hs)).1,
      fun c s hs => (h _ ((Dict.mem_entries _).mpr hs)).2⟩

lemma holds_ofTexts (texts : List (Option String)) :
    ∀ v, some v ∈ (Series.ofTexts texts).cells → DTypeHolds (Series.ofTexts texts).dtype v := by
  intro v hv
  obtain ⟨text, -, htext⟩ := List.mem_map.mp hv
  cases text with
  | none => cases htext
  | some text =>
    cases htext
    trivial

section Contribution

variable {event : IngressReadyEvent} {bronze : BronzeMeta} {loaded : LoadedMapping}
  {result : ApplyMapping.MappingResult} {tax : Option String}

lemma keys_of_mem_toDicts {f : Frame} {payload : Payload} (h : payload ∈ f.toDicts) :
    payload.keys = f.columns.keys := by
  obtain ⟨i, -, rfl⟩ := List.mem_map.mp h
  simp [Dict.keys, Dict.map]

lemma cell_of_gate (hgate : runPostValidation loaded result.contribution = .ok true)
    (hconf : Conforms result.contribution) {payload : Payload}
    (h : payload ∈ result.contribution.toDicts) {c : String} (hkey : c ∈ payload.keys)
    {shape : ColumnShape} (hshape : columnShape loaded.targetModel c = some shape) :
    ∃ cell, payload.get? c = some cell ∧ (cell = none → shape.nullable = true) ∧
      ∀ v, cell = some v → ∀ d, shape.shape.dtype = some d → DTypeHolds d v := by
  rw [keys_of_mem_toDicts h] at hkey
  unfold runPostValidation at hgate
  dsimp only at hgate
  split_ifs at hgate
  rw [Except.ok.injEq, Bool.and_eq_true, List.all_eq_true, List.all_eq_true] at hgate
  -- the gate knows the column by its name, and has checked each of its cells
  have howned := of_decide_eq_true (hgate.1 _ hkey)
  have haccepts := hgate.2 _ howned
  cases hcol : result.contribution.columns.get? c with
  | none => exact absurd hkey ((Dict.get?_eq_none _ _).mp hcol)
  | some s =>
    rw [hshape, hcol] at haccepts
    obtain ⟨hdtype, hcells⟩ := Bool.and_eq_true_iff.mp haccepts
    obtain ⟨i, hi, rfl⟩ := List.mem_map.mp h
    have hlen : i < s.cells.length := by
      rw [hconf.1 _ s hcol]
      exact List.mem_range.mp hi
    have hmem : s.cells[i] ∈ s.cells := List.getElem_mem hlen
    have hallowed := List.all_eq_true.mp hcells _ hmem
    refine ⟨s.cells[i], ?_, fun hnull => ?_, fun v hv d hd => ?_⟩
    · simp [Dict.get?_map, hcol, List.getElem?_eq_getElem hlen]
    · rwa [hnull] at hallowed
    · rw [hd, Option.all_some, decide_eq_true_eq] at hdtype
      rw [hdtype]
      exact hconf.2 _ s hcol v (hv ▸ hmem)

end Contribution

/-- `orjson` on values whose text the samples do not depend on. -/
def exactLibs : RowLibs where
  decimalDigit _ := none
  strValue _ := ""
  dumps
    | .int n => if -(2 ^ 63 - 1) ≤ n ∧ n < 2 ^ 64 then .ok "" else .error (.other "TypeError")
    | _ => .ok ""
  isoformat _ := ""
  canonicalRowHash _ := ""
  newUuid7 := .ofNat

/-- Polars on ASCII text, with one instant. -/
def clockPolars : Polars :=
  { Accounting.asciiPolars with
    inferDatetime := fun _ => .ok (some "%Y-%m-%dT%H:%M:%S%z")
    toDatetime := fun _ _ => some 0 }

end CortexDis.ExactRows
