import CortexDis.ObjectPath
import CortexDis.PyCsv
import CortexDis.Utf8

/-!
The structural gate of an uploaded file.

The gate looks at bytes that are no more than white space, at the decoding, at what the `csv`
module makes of the text, and at the number of records that are not blank.
-/

namespace CortexDis.Tier0

open CortexDis.PyText CortexDis.PyCsv

/-- The reason of an `UploadStructureError`. -/
inductive Reason
  | emptyFile | notUtf8 | notCsv | belowMinRows
  deriving DecidableEq, Repr

/-- `exc.reason` -/
def Reason.text : Reason → String
  | .emptyFile => "empty_file"
  | .notUtf8 => "not_utf8"
  | .notCsv => "not_csv"
  | .belowMinRows => "below_min_rows"

/-- The bytes that `bytes.strip` takes off. -/
def isSpaceByte (b : UInt8) : Bool := (9 ≤ b && b ≤ 13) || b = 32

def bom : Bytes := [0xEF, 0xBB, 0xBF]

/-- `bytes.decode("utf-8-sig")` -/
def decodeSig (bytes : Bytes) : Option String :=
  Utf8.decode (if bom.isPrefixOf bytes then bytes.drop 3 else bytes)

/-- `any(cell.strip() for cell in row)` -/
def hasText (row : Record) : Bool := row.any fun cell => ObjectPath.strip cell ≠ []

/-- `MIN_CSV_RECORDS` -/
def minCsvRecords : ℕ := 2

structure Tier0Result where
  rowCount : ℕ
  deriving DecidableEq, Repr

/-- `run_tier0` -/
def runTier0 (fileBytes : Bytes) : Except Reason Tier0Result :=
  if fileBytes.all isSpaceByte then .error .emptyFile
  else
    match decodeSig fileBytes with
    | none => .error .notUtf8
    | some text =>
      match reader text.toList with
      | .error _ => .error .notCsv
      | .ok rows =>
        let records := rows.filter hasText
        if records.length < minCsvRecords then .error .belowMinRows
        else .ok ⟨records.length - 1⟩

/-! ### White space -/

lemma units_of_ascii {bytes : Bytes} (h : ∀ b ∈ bytes, b < 0x80) :
    Utf8.units none bytes = bytes.map fun b => some (Char.ofNat b.toNat) := by
  induction bytes with
  | nil => rfl
  | cons b bytes ih =>
    have hb : b < 0x80 := h b List.mem_cons_self
    rw [Utf8.units, Utf8.next, Utf8.first, if_pos hb, List.map_cons,
      ← ih fun c hc => h c (List.mem_cons_of_mem _ hc)]
    rfl

lemma isSpaceByte_iff (b : UInt8) :
    isSpaceByte b = true ↔ 9 ≤ b.toNat ∧ b.toNat ≤ 13 ∨ b.toNat = 32 := by
  have heq : b = 32 ↔ b.toNat = 32 := ⟨fun h => by rw [h]; rfl, fun h => UInt8.toNat_inj.mp h⟩
  simp [isSpaceByte, UInt8.le_iff_toNat_le, heq]

lemma space_of_decodeSig {bytes : Bytes} (h : bytes.all isSpaceByte = true) {text : String}
    (htext : decodeSig bytes = some text) : ∀ c ∈ text.toList, ObjectPath.isSpace c = true := by
  have hspace : ∀ b ∈ bytes, 9 ≤ b.toNat ∧ b.toNat ≤ 13 ∨ b.toNat = 32 := fun b hb =>
    (isSpaceByte_iff b).mp (List.all_eq_true.mp h b hb)
  have hbom : bom.isPrefixOf bytes = false := by
    cases bytes with
    | nil => rfl
    | cons b bytes =>
      have hne : (0xEF : UInt8) ≠ b := by
        rintro rfl
        have := hspace 0xEF List.mem_cons_self
        simp at this
      simp [bom, List.isPrefixOf, hne]
  rw [decodeSig, hbom, if_neg Bool.false_ne_true] at htext
  obtain ⟨cs, hcs, rfl⟩ := Option.map_eq_some_iff.mp htext
  have hunits := Utf8.mapM_id_eq_some hcs
  rw [units_of_ascii fun b hb => UInt8.lt_iff_toNat_lt.mpr
    (by have := hspace b hb; simp only [UInt8.reduceToNat]; omega)] at hunits
  intro c hc
  rw [String.toList_ofList] at hc
  have hmem : some c ∈ bytes.map fun b => some (Char.ofNat b.toNat) := by
    rw [hunits]
    exact List.mem_map_of_mem hc
  obtain ⟨b, hb, hbc⟩ := List.mem_map.mp hmem
  rw [← Option.some.inj hbc]
  have hall : ∀ n < 33, (9 ≤ n ∧ n ≤ 13 ∨ n = 32) → ObjectPath.isSpace (Char.ofNat n) = true := by
    decide
  exact hall b.toNat (by have := hspace b hb; omega) (hspace b hb)

lemma strip_of_space {s : List Char} (h : ∀ c ∈ s, ObjectPath.isSpace c = true) :
    ObjectPath.strip s = [] := by
  rw [ObjectPath.strip, PyText.trim, List.dropWhile_eq_nil_iff.mpr h]
  rfl

/-! ### What the gate accepts -/

section Gate

variable {bytes : Bytes} {text : String} {records : List Record}

lemma not_space_of_hasText (h : FileText text.toList records) {row : Record} (hrow : row ∈ records)
    (htext : hasText row = true) : ∃ c ∈ text.toList, ObjectPath.isSpace c = false := by
  obtain ⟨cell, hcell, hstrip⟩ := List.any_eq_true.mp htext
  by_contra hspace
  push Not at hspace
  refine absurd (strip_of_space fun c hc => ?_) (of_decide_eq_true hstrip)
  simpa using hspace c (h.mem row hrow cell hcell c hc)

lemma runTier0_of_fileText (hdecode : decodeSig bytes = some text)
    (h : FileText text.toList records) (hblank : bytes.all isSpaceByte = false) :
    runTier0 bytes =
      if (records.filter hasText).length < minCsvRecords then .error .belowMinRows
      else .ok ⟨(records.filter hasText).length - 1⟩ := by
  rw [runTier0, hblank, if_neg Bool.false_ne_true]
  simp only [hdecode, reader_of_fileText h]

end Gate

/-- **Tier 0 counts the records of RFC 4180.** A file whose text is of the grammar, its fields no
longer than the `csv` module takes them, with or without a byte order mark, is accepted when a
header and at least one more of its records have text, with as many rows as records with text
behind the header; otherwise it is refused. -/
theorem tier0_of_rfc4180 (bytes : Bytes) (text : String) (records : List Record)
    (hdecode : decodeSig bytes = some text) (h : FileText text.toList records) (n : ℕ) :
    runTier0 bytes = .ok ⟨n⟩ ↔ 1 ≤ n ∧ (records.filter hasText).length = n + 1 := by
  by_cases hblank : bytes.all isSpaceByte = true
  · have hspace := space_of_decodeSig hblank hdecode
    have hnone : records.filter hasText = [] := by
      refine List.filter_eq_nil_iff.mpr fun row hrow htext => ?_
      obtain ⟨c, hc, hfalse⟩ := not_space_of_hasText h hrow htext
      rw [hspace c hc] at hfalse
      cases hfalse
    rw [runTier0, if_pos hblank, hnone]
    constructor
    · intro hok
      cases hok
    · rintro ⟨-, hlength⟩
      simp at hlength
  · rw [runTier0_of_fileText hdecode h (by simpa using hblank), minCsvRecords]
    split
    · constructor
      · intro hok
        cases hok
      · rintro ⟨hn, hlength⟩
        omega
    · rw [Except.ok.injEq, Tier0Result.mk.injEq]
      omega

/-- A byte order mark, a header, and a record with a quoted comma: `sku,name` and `7,"a,b"`. -/
def sampleBytes : Bytes :=
  bom ++ [115, 107, 117, 44, 110, 97, 109, 101, 13, 10, 55, 44, 34, 97, 44, 98, 34, 10]

def sampleText : String := "sku,name\r\n7,\"a,b\"\n"

def sampleRecords : List Record :=
  [["sku".toList, "name".toList], ["7".toList, "a,b".toList]]

lemma fileText_sample : FileText sampleText.toList sampleRecords := by
  have hlimit : 5 ≤ fieldSizeLimit := by simp [fieldSizeLimit]
  have hbare : ∀ v : List Char, v.all Char.isAlphanum = true → v.length ≤ 5 → FieldText v v := by
    intro v hv hlength
    refine .bare (fun c hc => ?_) (hlength.trans hlimit)
    have halnum := List.all_eq_true.mp hv c hc
    refine ⟨⟨?_, ?_, ?_⟩, ?_⟩ <;> rintro rfl <;> cases halnum
  have hquoted : FieldText "\"a,b\"".toList "a,b".toList :=
    .quoted (q := "a,b".toList) (le_trans (by decide) hlimit)
  have hheader : RecordText "sku,name".toList ["sku".toList, "name".toList] :=
    .cons (hbare "sku".toList (by decide) (by decide))
      (.last (hbare "name".toList (by decide) (by decide)))
  have hrow : RecordText "7,\"a,b\"".toList ["7".toList, "a,b".toList] :=
    .cons (hbare "7".toList (by decide) (by decide)) (.last hquoted)
  exact .line (e := ['\r', '\n']) hheader (.inr rfl)
    (.line (e := ['\n']) hrow (.inl rfl) .empty)

theorem tier0_of_rfc4180_sample : runTier0 sampleBytes = .ok ⟨1⟩ :=
  (tier0_of_rfc4180 sampleBytes sampleText sampleRecords (by decide +kernel) fileText_sample 1).mpr
    (by decide)

/-- **Tier 0 refuses a text as CSV for a carriage return or its length only.** A text with
neither is a table to it, whatever its quotes. -/
theorem tier0_not_csv (bytes : Bytes) (h : runTier0 bytes = .error .notCsv) :
    ∃ text, decodeSig bytes = some text ∧
      ('\r' ∈ text.toList ∨ fieldSizeLimit < text.toList.length) := by
  unfold runTier0 at h
  split at h
  · cases h
  · split at h
    · cases h
    · rename_i text hdecode
      refine ⟨text, hdecode, ?_⟩
      by_contra hneither
      push Not at hneither
      obtain ⟨records, hrecords⟩ := reader_isOk hneither.1 hneither.2
      rw [hrecords] at h
      dsimp only at h
      split at h
      · cases h
      · cases h

/-- A lone carriage return within a line. -/
theorem tier0_not_csv_sample : ∃ text, decodeSig [97, 13, 98, 10, 49] = some text ∧
    ('\r' ∈ text.toList ∨ fieldSizeLimit < text.toList.length) :=
  tier0_not_csv [97, 13, 98, 10, 49] (by decide +kernel)

/-- A short text with a quote that is never closed. -/
example : runTier0 [97, 10, 34, 98, 10, 99] = .ok ⟨1⟩ := by decide +kernel

end CortexDis.Tier0
