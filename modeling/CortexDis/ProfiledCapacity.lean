import CortexDis.Profiler

/-!
What the capacity of a profiled column holds.

The bucket is chosen by the most digits and the most fraction digits of the cells with a point.
A capacity holds a cell when the integer digits fit beside the scale, and the bucket does not
look at those of the whole column.
-/

namespace CortexDis.ProfiledCapacity

open CortexDis.Profiler CortexDis.DraftIr

/-! ### Largest elements -/

/-- The largest of some numbers. -/
def largest (l : List ℕ) : ℕ := l.foldl max 0

lemma foldl_max_le_iff (l : List ℕ) (a n : ℕ) : l.foldl max a ≤ n ↔ a ≤ n ∧ ∀ x ∈ l, x ≤ n := by
  induction l generalizing a with
  | nil => simp
  | cons x l ih =>
    rw [List.foldl_cons, ih, max_le_iff, List.forall_mem_cons, and_assoc]

lemma largest_le_iff {l : List ℕ} {n : ℕ} : largest l ≤ n ↔ ∀ x ∈ l, x ≤ n := by
  simp [largest, foldl_max_le_iff]

lemma largest_congr {l l' : List ℕ} (h : ∀ n, (∀ x ∈ l, x ≤ n) ↔ ∀ x ∈ l', x ≤ n) :
    largest l = largest l' := by
  apply le_antisymm
  · rw [largest_le_iff, h, ← largest_le_iff]
  · rw [largest_le_iff, ← h, ← largest_le_iff]

/-! ### Numeric columns -/

variable (D : Digits)

/-- The cells of a name that are not null. -/
def cellsUnder (frames : List Frame) (name : String) : List String :=
  nonNull ((placedUnder frames name).flatMap fun e => e.2.cells)

/-- Numbers only, and one with a point. -/
def Numeric (values : List String) : Prop :=
  (∀ v ∈ values, isInt D v = true ∨ isDecimalText D v = true) ∧
    ∃ v ∈ values, isDecimalText D v = true

/-- The digits of the cell with a point that has the most. -/
def digits (values : List String) : ℕ :=
  largest ((values.filter (isDecimalText D)).map fun v => wholeDigits v + fractionDigits v)

def whole (values : List String) : ℕ := largest (values.map wholeDigits)

def fraction (values : List String) : ℕ := largest (values.map fractionDigits)

/-- A capacity holds a cell. -/
def Holds (cap : ℕ × ℕ) (v : String) : Prop :=
  wholeDigits v ≤ cap.1 - cap.2 ∧ fractionDigits v ≤ cap.2

instance (cap : ℕ × ℕ) (v : String) : Decidable (Holds cap v) :=
  inferInstanceAs (Decidable (_ ∧ _))

/-- Some standard capacity holds cells with that many integer and fraction digits. -/
def Standard (whole fraction : ℕ) : Prop :=
  (whole ≤ 11 ∧ fraction ≤ 3) ∨ (whole ≤ 10 ∧ fraction ≤ 4)

/-- The integer digits that are left by the bucket of so many digits and fraction digits. -/
def room (digits fraction : ℕ) : ℕ :=
  if digits ≤ 3 ∧ fraction ≤ 2 then 1
  else if digits ≤ 5 ∧ fraction ≤ 2 then 3
  else if digits ≤ 8 ∧ fraction ≤ 3 then 5
  else if digits ≤ 10 then 6
  else if digits ≤ 12 then 8
  else if digits ≤ 14 ∧ fraction ≤ 3 then 11
  else 10

/-- The integer digits fit in the room that the digits leave. -/
def Roomy (values : List String) : Prop :=
  Standard (whole values) (fraction values) →
    whole values ≤ room (digits D values) (fraction values)

/-- What the capacities of a column hold. -/
structure Covers (frames : List Frame) (col : ProfiledColumn) : Prop where
  decimal : col.base = "decimal" → ∃ cap : ℕ × ℕ,
    col.precision = some (cap.1 : ℤ) ∧ col.scale = some (cap.2 : ℤ) ∧
      ((∃ c ∈ numericCaps, ∀ v ∈ cellsUnder frames col.name, Holds c v) →
        ∀ v ∈ cellsUnder frames col.name, Holds cap v)
  str : col.base = "str" → ∃ maxLength : ℕ, col.maxLength = some (maxLength : ℤ) ∧
    ((∀ v ∈ cellsUnder frames col.name, v.length ≤ 256) →
      ∀ v ∈ cellsUnder frames col.name, v.length ≤ maxLength)

/-! ### The type of a numeric column -/

variable {D} {v : String} {values : List String}

lemma not_isDecimal_point : D.isDecimal '.' = false := D.ascii '.' (by decide)

lemma not_isDecimal_minus : D.isDecimal '-' = false := D.ascii '-' (by decide)

lemma mem_of_mem_unsigned {c : Char} {s : List Char} (h : c ∈ unsigned s) : c ∈ s := by
  unfold unsigned at h
  split at h
  · exact List.mem_cons_of_mem _ h
  · exact h

lemma point_mem (h : isDecimalText D v = true) : '.' ∈ unsigned v.toList := by
  simp only [isDecimalText, Bool.and_eq_true, decide_eq_true_eq] at h
  exact (List.dropWhile_sublist _).subset (List.mem_of_head? h.1.2)

lemma digit_or_point (h : isDecimalText D v = true) {c : Char} (hc : c ∈ unsigned v.toList) :
    D.isDecimal c = true ∨ c = '.' := by
  simp only [isDecimalText, isDigits, Bool.and_eq_true, decide_eq_true_eq, List.all_eq_true] at h
  obtain ⟨⟨⟨-, hwhole⟩, hhead⟩, -, hfraction⟩ := h
  rw [← List.takeWhile_append_dropWhile (p := (· ≠ '.')) (l := unsigned v.toList)] at hc
  rcases List.mem_append.mp hc with hc | hc
  · exact .inl (hwhole c hc)
  · cases hs : (unsigned v.toList).dropWhile (· ≠ '.') with
    | nil =>
      rw [hs] at hhead
      cases hhead
    | cons a s =>
      rw [hs] at hc hhead hfraction
      rcases List.mem_cons.mp hc with rfl | hc
      · exact .inr (Option.some.inj hhead)
      · exact .inl (hfraction c hc)

lemma not_isInt (h : isDecimalText D v = true) : isInt D v = false := by
  rw [← Bool.not_eq_true]
  intro hint
  simp only [isInt, isDigits, Bool.and_eq_true, List.all_eq_true] at hint
  have hpoint := hint.2 _ (point_mem h)
  rw [not_isDecimal_point] at hpoint
  cases hpoint

lemma not_isBool (h : isDecimalText D v = true) : isBool v = false := by
  have hpoint : '.' ∈ v.toList.map Char.toLower :=
    List.mem_map.mpr ⟨'.', mem_of_mem_unsigned (point_mem h), by decide⟩
  rw [← Bool.not_eq_true]
  intro hbool
  rw [isBool, Bool.or_eq_true, decide_eq_true_eq, decide_eq_true_eq] at hbool
  rcases hbool with hbool | hbool <;>
  · rw [hbool] at hpoint
    revert hpoint
    decide

lemma not_fits_date (h : isDecimalText D v = true) (rest : List (Char → Bool)) :
    fits (dateLayout D ++ rest) v.toList = false := by
  rw [← Bool.not_eq_true]
  intro hfits
  have hshape : ∃ a b c d s, v.toList = a :: b :: c :: d :: '-' :: s ∧ D.isDecimal a = true := by
    match hv : v.toList with
    | [] | [a] | [a, b] | [a, b, c] | [a, b, c, d] =>
      rw [hv] at hfits
      simp [dateLayout, fits] at hfits
    | a :: b :: c :: d :: e :: s =>
      rw [hv] at hfits
      simp only [dateLayout, List.cons_append, fits, Bool.and_eq_true, decide_eq_true_eq] at hfits
      obtain ⟨ha, -, -, -, rfl, -⟩ := hfits
      exact ⟨a, b, c, d, s, rfl, ha⟩
  obtain ⟨a, b, c, d, s, hv, ha⟩ := hshape
  have hne : a ≠ '-' := by
    rintro rfl
    rw [not_isDecimal_minus] at ha
    cases ha
  have hunsigned : unsigned v.toList = v.toList := by
    rw [hv]
    unfold unsigned
    split
    · rename_i heq
      exact absurd (List.cons.inj heq).1 hne
    · rfl
  rcases digit_or_point (c := '-') h (by rw [hunsigned, hv]; simp) with hminus | hminus
  · rw [not_isDecimal_minus] at hminus
    cases hminus
  · exact absurd hminus (by decide)

lemma inferBase_of_numeric (h : Numeric D values) : inferBase D values = ("decimal",
    some (bucketDecimalCapacity
      (maxPrecisionScale D values).1 (maxPrecisionScale D values).2)) := by
  obtain ⟨hall, w, hw, hdec⟩ := h
  have hne : values ≠ [] := List.ne_nil_of_mem hw
  have hnot : ∀ p : String → Bool, p w = false → ¬ values.all p = true := by
    intro p hp hallp
    rw [List.all_eq_true] at hallp
    rw [hallp w hw] at hp
    cases hp
  have hdate := not_fits_date hdec
  rw [inferBase, if_neg hne, if_neg (hnot _ (not_isBool hdec)),
    if_neg (hnot _ (by simpa [isDatetime] using hdate _)),
    if_neg (hnot _ (by simpa [isDate] using fun h => absurd h (by simpa using hdate []))),
    if_neg (hnot _ (not_isInt hdec)), if_pos]
  simp only [Bool.and_eq_true, List.all_eq_true, Bool.or_eq_true, List.any_eq_true]
  exact ⟨hall, w, hw, hdec⟩

lemma numeric_of_inferBase (h : (inferBase D values).1 = "decimal") : Numeric D values := by
  by_contra hnot
  have hnum : ¬ ((values.all fun v => isInt D v || isDecimalText D v) &&
      values.any (isDecimalText D)) = true := by simpa [Numeric] using hnot
  rw [inferBase, if_neg hnum] at h
  split_ifs at h <;> exact absurd h (by decide)

/-! ### The bucket of a numeric column -/

lemma mem_unsigned {c : Char} {s : List Char} (h : c ∈ s) : c = '-' ∨ c ∈ unsigned s := by
  unfold unsigned
  split
  · exact List.mem_cons.mp h
  · exact .inr h

lemma fractionDigits_of_isInt (h : isInt D v = true) : fractionDigits v = 0 := by
  simp only [isInt, isDigits, Bool.and_eq_true, List.all_eq_true] at h
  have hnil : (v.toList.dropWhile (· = '-')).dropWhile (· ≠ '.') = [] := by
    refine List.dropWhile_eq_nil_iff.mpr fun c hc => decide_eq_true ?_
    rintro rfl
    rcases mem_unsigned ((List.dropWhile_sublist _).subset hc) with hminus | hmem
    · exact absurd hminus (by decide)
    · have hpoint := h.2 _ hmem
      rw [not_isDecimal_point] at hpoint
      cases hpoint
  rw [fractionDigits, hnil]
  rfl

lemma maxPrecisionScale_eq (values : List String) : maxPrecisionScale D values =
    (digits D values, largest ((values.filter (isDecimalText D)).map fractionDigits)) := by
  suffices h : ∀ p s, values.foldl (fun acc v =>
      if isDecimalText D v then
        (max acc.1 (decimalPrecisionScale v).1, max acc.2 (decimalPrecisionScale v).2)
      else acc) (p, s) =
      (((values.filter (isDecimalText D)).map
          fun v => wholeDigits v + fractionDigits v).foldl max p,
        ((values.filter (isDecimalText D)).map fractionDigits).foldl max s) from h 0 0
  induction values with
  | nil => exact fun _ _ => rfl
  | cons v values ih =>
    intro p s
    rw [List.foldl_cons, List.filter_cons]
    by_cases hdec : isDecimalText D v = true
    · simp only [hdec, if_true]
      exact ih _ _
    · simp only [hdec]
      exact ih _ _

lemma largest_fractionDigits (h : Numeric D values) :
    largest ((values.filter (isDecimalText D)).map fractionDigits) = fraction values := by
  refine largest_congr fun n => ?_
  rw [List.forall_mem_map, List.forall_mem_map]
  constructor
  · intro hn v hv
    rcases h.1 v hv with hint | hdec
    · rw [fractionDigits_of_isInt hint]
      exact Nat.zero_le n
    · exact hn v (List.mem_filter.mpr ⟨hv, hdec⟩)
  · exact fun hn v hv => hn v (List.mem_of_mem_filter hv)

lemma forall_holds_iff {c : ℕ × ℕ} : (∀ v ∈ values, Holds c v) ↔
    whole values ≤ c.1 - c.2 ∧ fraction values ≤ c.2 := by
  rw [whole, fraction, largest_le_iff, largest_le_iff, List.forall_mem_map, List.forall_mem_map]
  exact forall₂_and

lemma standard_iff : (∃ c ∈ numericCaps, ∀ v ∈ values, Holds c v) ↔
    Standard (whole values) (fraction values) := by
  simp only [forall_holds_iff, numericCaps, List.exists_mem_cons_iff, List.not_mem_nil,
    false_and, exists_false, or_false, Standard]
  omega

lemma getD_find?_cons {α : Type*} (p : α → Bool) (a : α) (l : List α) (d : α) :
    ((a :: l).find? p).getD d = if p a then a else (l.find? p).getD d := by
  rw [List.find?_cons]
  cases p a <;> rfl

lemma bucket_room (digits : ℕ) {fraction : ℕ} (h : fraction ≤ 4) :
    (bucketDecimalCapacity digits fraction).1 - (bucketDecimalCapacity digits fraction).2 =
      room digits fraction ∧ fraction ≤ (bucketDecimalCapacity digits fraction).2 := by
  simp only [bucketDecimalCapacity, numericCaps, room, getD_find?_cons, List.find?_nil,
    Option.getD_none, Bool.and_eq_true, decide_eq_true_eq, h, and_true]
  split_ifs <;> simp only [true_and, Nat.reduceSub] <;> omega

lemma le_bucketStrCapacity {n : ℕ} (h : n ≤ 256) : n ≤ bucketStrCapacity n := by
  simp only [bucketStrCapacity, strCaps, getD_find?_cons, List.find?_nil, Option.getD_none,
    decide_eq_true_eq]
  split_ifs <;> assumption

/-! ### The law -/

variable {frames : List Frame} {col : ProfiledColumn}

lemma capacities_eq (h : col ∈ profileCsvs D frames) :
    col.base = (inferBase D (cellsUnder frames col.name)).1 ∧
      col.precision = (inferBase D (cellsUnder frames col.name)).2.map (fun c => (c.1 : ℤ)) ∧
      col.scale = (inferBase D (cellsUnder frames col.name)).2.map (fun c => (c.2 : ℤ)) ∧
      (col.base = "str" → col.maxLength = some
        ((bucketStrCapacity
          (largest ((cellsUnder frames col.name).map String.length)) : ℕ) : ℤ)) := by
  obtain ⟨g, hg, -, heq⟩ := eq_profileColumn h
  have hcells : nonNull g.cells = cellsUnder frames col.name := by rw [hg.cells, cellsUnder]
  rw [← hcells]
  have hbase : col.base = (inferBase D (nonNull g.cells)).1 := congrArg ProfiledColumn.base heq
  refine ⟨hbase, congrArg ProfiledColumn.precision heq, congrArg ProfiledColumn.scale heq, ?_⟩
  intro hstr
  rw [hbase] at hstr
  exact (congrArg ProfiledColumn.maxLength heq).trans (if_pos hstr)

lemma str_covers (h : col ∈ profileCsvs D frames) (hstr : col.base = "str") :
    ∃ maxLength : ℕ, col.maxLength = some (maxLength : ℤ) ∧
      ((∀ v ∈ cellsUnder frames col.name, v.length ≤ 256) →
        ∀ v ∈ cellsUnder frames col.name, v.length ≤ maxLength) := by
  refine ⟨_, (capacities_eq h).2.2.2 hstr, fun hshort v hv => ?_⟩
  have hle : largest ((cellsUnder frames col.name).map String.length) ≤ 256 := by
    rw [largest_le_iff, List.forall_mem_map]
    exact hshort
  calc v.length ≤ largest ((cellsUnder frames col.name).map String.length) :=
        largest_le_iff.mp le_rfl _ (List.mem_map_of_mem hv)
    _ ≤ _ := le_bucketStrCapacity hle

lemma bucket_covers_iff (D : Digits) (values : List String) :
    ((∃ c ∈ numericCaps, ∀ v ∈ values, Holds c v) → ∀ v ∈ values,
      Holds (bucketDecimalCapacity (digits D values) (fraction values)) v) ↔ Roomy D values := by
  rw [standard_iff, forall_holds_iff, Roomy]
  refine forall_congr' fun hstandard => ?_
  have hfraction : fraction values ≤ 4 := by
    rcases hstandard with hs | hs <;> omega
  obtain ⟨hroom, hscale⟩ := bucket_room (digits D values) hfraction
  rw [hroom]
  exact and_iff_left hscale

lemma covers_iff (hcol : col ∈ profileCsvs D frames) : Covers frames col ↔
    (Numeric D (cellsUnder frames col.name) → Roomy D (cellsUnder frames col.name)) := by
  obtain ⟨hbase, hprecision, hscale, -⟩ := capacities_eq hcol
  have hcapacity : Numeric D (cellsUnder frames col.name) →
      (inferBase D (cellsUnder frames col.name)).2 = some (bucketDecimalCapacity
        (digits D (cellsUnder frames col.name)) (fraction (cellsUnder frames col.name))) := by
    intro hnum
    rw [inferBase_of_numeric hnum, maxPrecisionScale_eq, largest_fractionDigits hnum]
  constructor
  · intro h hnum
    have hdecimal : col.base = "decimal" := by rw [hbase, inferBase_of_numeric hnum]
    obtain ⟨cap, hp, hs, hcovers⟩ := h.decimal hdecimal
    rw [hprecision, hcapacity hnum, Option.map_some, Option.some.injEq, Nat.cast_inj] at hp
    rw [hscale, hcapacity hnum, Option.map_some, Option.some.injEq, Nat.cast_inj] at hs
    rw [← Prod.ext hp hs] at hcovers
    exact (bucket_covers_iff D _).mp hcovers
  · intro h
    refine ⟨fun hdecimal => ?_, str_covers hcol⟩
    have hnum := numeric_of_inferBase (hbase ▸ hdecimal)
    refine ⟨_, ?_, ?_, (bucket_covers_iff D _).mpr (h hnum)⟩
    · rw [hprecision, hcapacity hnum, Option.map_some]
    · rw [hscale, hcapacity hnum, Option.map_some]

/-- **When capacities cover the data.** They do exactly when the integer digits of every numeric
column that some standard capacity holds fit in the room that its cells with a point leave. -/
theorem capacity_covers_iff (D : Digits) (frames : List Frame) :
    (∀ col ∈ profileCsvs D frames, Covers frames col) ↔
      ∀ name, Numeric D (cellsUnder frames name) → Roomy D (cellsUnder frames name) := by
  constructor
  · intro h name hnum
    have hplaced : placedUnder frames name ≠ [] := by
      intro hnil
      obtain ⟨-, v, hv, -⟩ := hnum
      rw [cellsUnder, hnil] at hv
      cases hv
    obtain ⟨col, hcol, rfl⟩ := exists_profiled (D := D) hplaced
    exact (covers_iff hcol).mp (h col hcol) hnum
  · intro h col hcol
    exact (covers_iff hcol).mpr (h col.name)

/-- One file: a price with a point, and a whole number with more digits. -/
def wholePrice : Frame where
  height := 2
  columns := [⟨"price", [some "1.25", some "123456"]⟩]
  distinct := by decide
  heights := by simp

/-- The column is profiled as a number of three digits, two of them after the point. -/
theorem whole_price_overflows : ¬ ∀ col ∈ profileCsvs asciiDigits [wholePrice],
    Covers [wholePrice] col := by
  intro h
  have hprofile : (profileCsvs asciiDigits [wholePrice]).map
      (fun col => (col.name, col.base, col.precision, col.scale)) =
        [("price", "decimal", some 3, some 2)] := by decide +kernel
  obtain ⟨col, hcol, hfields⟩ := List.mem_map.mp (hprofile ▸ List.mem_singleton_self
    (("price", "decimal", some 3, some 2) : String × String × Option ℤ × Option ℤ))
  obtain ⟨hname, hbase, hprecision, hscale⟩ : col.name = "price" ∧ col.base = "decimal" ∧
      col.precision = some 3 ∧ col.scale = some 2 := by simpa using hfields
  obtain ⟨cap, hp, hs, hcovers⟩ := (h col hcol).decimal hbase
  rw [hprecision, Option.some.injEq] at hp
  rw [hscale, Option.some.injEq] at hs
  obtain rfl : cap = (3, 2) := Prod.ext (by exact_mod_cast hp.symm) (by exact_mod_cast hs.symm)
  have hcells : cellsUnder [wholePrice] "price" = ["1.25", "123456"] := by decide +kernel
  rw [hname, hcells] at hcovers
  have hwide : ∀ v ∈ ["1.25", "123456"], Holds (10, 4) v := by decide +kernel
  have hnarrow : ¬ ∀ v ∈ ["1.25", "123456"], Holds (3, 2) v := by decide +kernel
  exact hnarrow (hcovers ⟨(10, 4), by decide, hwide⟩)

end CortexDis.ProfiledCapacity
