import CortexDis.PercentNumbers

/-!
Values that vanish from a clean row.

A step loses a value silently when it turns text into null and reports no failure. Two kinds
of steps can: a `null_tokens` step on one of its tokens, which is what it is for, and a
`parse_percent` step whose mask accepts a text that its decimal cannot hold: a number of more
than 20 digits before the point, or one in digits that are not ASCII.
-/

namespace CortexDis.SilentNull

open CortexDis.PyDict CortexDis.Values CortexDis.Errors CortexDis.Frames CortexDis.MappingRules
open CortexDis.Masked CortexDis.Normalize CortexDis.ApplyMapping CortexDis.Accounting
open CortexDis.Patterns CortexDis.PyDecimal CortexDis.Numerals CortexDis.LocaleNumbers
open CortexDis.PercentNumbers

variable (P : Polars)

/-- The steps a cell goes through and the value that enters each, up to a failure. -/
def entering : List NormalizeOp → Option String → List (NormalizeOp × Option String)
  | [], _ => []
  | op :: specs, s =>
    (op, s) :: if (impl P op s).failed then [] else entering specs (impl P op s).value

/-- Some step is entered by a text that it treats as `Q` says. -/
def AtStep (Q : NormalizeOp → String → Prop) (specs : List NormalizeOp) (s : Option String) :
    Prop :=
  ∃ op t, (op, some t) ∈ entering P specs s ∧ Q op t

/-- A `null_tokens` step and one of its tokens. -/
def TokenMatch (op : NormalizeOp) (t : String) : Prop :=
  ∃ tokens, op = .nullTokens tokens ∧ t ∈ tokens

/-- A numeral in ASCII digits, of at most 20 digits before the point that count. -/
def Representable (s : String) : Prop :=
  ∃ r, Reads (some '.') none s.toList r ∧ digitsValue r.whole < 10 ^ 20

/-- What is assumed of `Decimal(38, 18)`: text becomes null exactly when no such decimal
represents it, and every such decimal has a hundredth. -/
structure DecimalCast (P : Polars) : Prop where
  null : ∀ s, P.castDecimal 38 18 s = none ↔ ¬ Representable s
  hundredth : ∀ s u, P.castDecimal 38 18 s = some u → (P.hundredthText u).isSome

/-- The body of a percentage, without its separators. -/
def percentBody (d : Char) (thousands : Option Char) (t : String) : String :=
  stripSeparators (some d) thousands (dropEnd '%' t)

/-- A `parse_percent` step and a percentage in its declared form whose body is a number of more
than 20 digits before the point, or not one in ASCII digits. -/
def PercentTooWide (op : NormalizeOp) (t : String) : Prop :=
  ∃ d thousands, op = .parsePercent d thousands ∧
    fullMatch (percentPattern P d thousands) t = true ∧ ¬ Representable (percentBody d thousands t)

def Silent (op : NormalizeOp) (t : String) : Prop := impl P op (some t) = ⟨none, false⟩

lemma silent_iff_outcome (op : NormalizeOp) (t : String) :
    Silent P op t ↔ (impl P op (some t)).failed = false ∧ (impl P op (some t)).value = none := by
  unfold Silent
  cases impl P op (some t)
  simp [and_comm]

variable {P} in
lemma percentText_eq_none_iff (hP : DecimalCast P) (d : Char) (thousands : Option Char)
    (t : String) :
    percentText P d thousands t = none ↔ ¬ Representable (percentBody d thousands t) := by
  rw [← hP.null, percentText, Option.map_eq_none_iff, Option.bind_eq_none_iff]
  constructor
  · intro h
    by_contra hsome
    obtain ⟨u, hu⟩ := Option.ne_none_iff_exists'.mp hsome
    have hprinted := hP.hundredth _ u hu
    rw [h u hu] at hprinted
    cases hprinted
  · intro h u hu
    rw [percentBody, hu] at h
    cases h

variable {P} in
lemma silent_iff (hP : DecimalCast P) (op : NormalizeOp) (t : String) :
    Silent P op t ↔ TokenMatch op t ∨ PercentTooWide P op t := by
  unfold Silent TokenMatch PercentTooWide
  cases op with
  | parseDate format => simp [impl, parseDate]
  | parseDatetime format tz => simp [impl, parseDatetime]
  | parseDecimal d th => simp [impl, parseDecimal, parseNumeric, nullWhere]
  | parsePercent d th =>
    have hnone := percentText_eq_none_iff hP d th t
    by_cases h : fullMatch (percentPattern P d th) t = true <;>
      simp [impl, parsePercent, parseNumeric, nullWhere, h, hnone]
  | parseInteger th => simp [impl, parseInteger, parseNumeric, nullWhere]
  | parseBoolean ts fs =>
    by_cases h₁ : t ∈ ts <;> by_cases h₂ : t ∈ fs <;> simp [impl, parseBoolean, h₁, h₂]
  | mapEnum mapping ci => simp [impl, mapEnum]
  | nullTokens tokens => by_cases h : t ∈ tokens <;> simp [impl, nullTokens, nullWhere, h]
  | normalizeWhitespace trim collapse =>
    cases trim <;> cases collapse <;> simp [impl, normalizeWhitespace]
  | normalizeCase mode => cases mode <;> simp [impl, normalizeCase]

lemma not_mem_entering_null (specs : List NormalizeOp) (op : NormalizeOp) (t : String) :
    (op, some t) ∉ entering P specs none := by
  induction specs with
  | nil => simp [entering]
  | cons op' specs ih => simp [entering, ih]

variable {P} {Q R : NormalizeOp → String → Prop} {specs : List NormalizeOp} {s : Option String}

lemma atStep_or : AtStep P (fun op t => Q op t ∨ R op t) specs s ↔
    AtStep P Q specs s ∨ AtStep P R specs s := by
  constructor
  · rintro ⟨op, t, hm, h | h⟩
    · exact Or.inl ⟨op, t, hm, h⟩
    · exact Or.inr ⟨op, t, hm, h⟩
  · rintro (⟨op, t, hm, h⟩ | ⟨op, t, hm, h⟩)
    · exact ⟨op, t, hm, Or.inl h⟩
    · exact ⟨op, t, hm, Or.inr h⟩

lemma atStep_cons {op : NormalizeOp} {t : String} :
    AtStep P Q (op :: specs) (some t) ↔ Q op t ∨
      (impl P op (some t)).failed = false ∧ AtStep P Q specs (impl P op (some t)).value := by
  unfold AtStep
  cases hf : (impl P op (some t)).failed with
  | true => simp [entering, hf]
  | false =>
    simp only [entering, hf, Bool.false_eq_true, if_false, List.mem_cons, Prod.mk.injEq,
      Option.some.injEq, true_and]
    constructor
    · rintro ⟨op', t', ⟨rfl, rfl⟩ | hm, h⟩
      · exact Or.inl h
      · exact Or.inr ⟨op', t', hm, h⟩
    · rintro (h | ⟨op', t', hm, h⟩)
      · exact ⟨op, t, Or.inl ⟨rfl, rfl⟩, h⟩
      · exact ⟨op', t', Or.inr hm, h⟩

lemma not_atStep_null : ¬ AtStep P Q specs none := by
  rintro ⟨op, t, hm, -⟩
  exact not_mem_entering_null P specs op t hm

lemma atStep_unique (hQ : ∀ op t, Q op t → Silent P op t) (hR : ∀ op t, R op t → Silent P op t)
    (h₁ : AtStep P Q specs s) (h₂ : AtStep P R specs s) : ∃ op t, Q op t ∧ R op t := by
  induction specs generalizing s with
  | nil =>
    obtain ⟨op, t, hm, -⟩ := h₁
    simp [entering] at hm
  | cons op specs ih =>
    cases s with
    | none => exact absurd h₁ not_atStep_null
    | some t =>
      rcases atStep_cons.mp h₁ with hq | ⟨-, hq⟩ <;> rcases atStep_cons.mp h₂ with hr | ⟨-, hr⟩
      · exact ⟨op, t, hq, hr⟩
      · rw [hQ op t hq] at hr
        exact absurd hr not_atStep_null
      · rw [hR op t hr] at hq
        exact absurd hq not_atStep_null
      · exact ih hq hr

section Cell

variable {column : String} {sourceColumn : Option String} {stage : FailureStage}

lemma applyCell_null_iff {k i : ℕ} {t : String} :
    applyCell P column sourceColumn stage k specs i (some t) = .ok none ↔
      AtStep P (Silent P) specs (some t) := by
  induction specs generalizing k t with
  | nil =>
    simp [applyCell, opSteps, runCell, AtStep, entering]
  | cons op specs ih =>
    have hnull : applyCell P column sourceColumn stage (k + 1) specs i none = .ok none :=
      runCell_null i (opSteps_passesNull P column sourceColumn stage (k + 1) specs)
    rw [atStep_cons, silent_iff_outcome]
    cases hf : (impl P op (some t)).failed with
    | true => simp [applyCell, opSteps, runCell, Step.row, opStep, hf, Except.bind]
    | false =>
      have hstep : applyCell P column sourceColumn stage k (op :: specs) i (some t) =
          applyCell P column sourceColumn stage (k + 1) specs i (impl P op (some t)).value := by
        simp [applyCell, opSteps, runCell, Step.row, opStep, hf, Except.bind]
      rw [hstep]
      cases hv : (impl P op (some t)).value with
      | none => simp [hnull]
      | some t' => simp [ih]

end Cell

lemma castCell_null_iff (m : Rules) (format : String → Option DatetimeFormat) (i : ℕ)
    (row : String → Option String) (c : String) :
    castCell P m format i row c = .ok none ↔ normalizedCell P m i row c = .ok none := by
  unfold castCell
  cases normalizedCell P m i row c with
  | error f => simp [Except.bind]
  | ok t =>
    cases hc : m.cast.get? c with
    | none => cases t <;> simp [Except.bind, Frames.ofText]
    | some type =>
      cases t with
      | none => simp [Except.bind, castTextStep, castStep_null P (castText_null P _)]
      | some t =>
        obtain hv | ⟨value, hv⟩ := Option.eq_none_or_eq_some (castText P type (format c) (some t))
        all_goals simp [Except.bind, Step.row, castTextStep, castStep, hv]

section Claim

variable {v : SourceMapping P.upper} {chunk : Frame} {res : MappingResult} {i : ℕ}
  {source c : String}

/-- The operations of a rename target. -/
def specsOf (m : Rules) (c : String) : List NormalizeOp := (m.normalize.get? c).getD []

lemma imageCell_of_rename (hrename : v.rename.get? source = some c)
    (format : String → Option DatetimeFormat) (i : ℕ) (row : String → Option String) :
    imageCell P v.toRules format i row c = castCell P v.toRules format i row c := by
  have hc : v.derive.get? c = none := by
    refine (v.derive.get?_eq_none c).mpr fun hk => v.derive_keys c hk ?_
    exact List.mem_map_of_mem (f := Prod.snd) (v.rename.mem_entries.mpr hrename)
  simp [imageCell, hc]

lemma normalizedCell_of_rename (hrename : v.rename.get? source = some c) (i : ℕ)
    (row : String → Option String) :
    normalizedCell P v.toRules i row c =
      applyCell P c (some source) .normalize 0 (specsOf v.toRules c) i (row source) := by
  have hinv := (Dict.get?_inverse v.renameTargets_nodup).mpr hrename
  simp [normalizedCell, originOf, renameInverse, hinv, specsOf]

lemma contribution_null_iff (h : AccountsRows P v.toRules chunk res) {k : ℕ}
    (hk : res.sourceRowIndices[k]? = some i) {s : Series}
    (hs : res.contribution.columns.get? c = some s) :
    s.cells[k]? = some none ↔
      imageCell P v.toRules (formatOf P v.toRules chunk) i (rowOf chunk i) c = .ok none := by
  have hrow := congrArg (·[k]?) (h.rows c s hs)
  simp only [List.getElem?_map, hk, Option.map_some] at hrow
  cases hcell : s.cells[k]? with
  | none => simp [hcell] at hrow
  | some cell =>
    simp only [hcell, Option.map_some, Option.some.injEq] at hrow
    rw [← hrow]
    simp

variable (P) in
/-- A kept row, the column of a rename target in the contribution: a value is null there only
where a `null_tokens` step matched. -/
def NoSilentNull (m : Rules) (chunk : Frame) (s : Series) (k i : ℕ) (source c : String) : Prop :=
  rowOf chunk i source ≠ none → s.cells[k]? = some none →
    AtStep P TokenMatch (specsOf m c) (rowOf chunk i source)

/-- A kept value is never lost silently, except at a `parse_percent` step that its decimal
cannot follow. -/
theorem no_silent_null_iff (hP : DecimalCast P) (v : SourceMapping P.upper) (chunk : Frame)
    (hrect : chunk.Rect) (htext : chunk.AllText) {res : MappingResult}
    (h : applyMapping P v.toRules chunk = .ok res) {k i : ℕ}
    (hk : res.sourceRowIndices[k]? = some i) {source c : String}
    (hrename : v.rename.get? source = some c) {s : Series}
    (hs : res.contribution.columns.get? c = some s) :
    NoSilentNull P v.toRules chunk s k i source c ↔
      ¬ AtStep P (PercentTooWide P) (specsOf v.toRules c) (rowOf chunk i source) := by
  have hnamed : v.rename.keys ≠ [] :=
    List.ne_nil_of_mem (List.mem_map_of_mem (f := Prod.fst) (v.rename.mem_entries.mpr hrename))
  have hacc := accountsRows_of_ok P hrect htext (fun hnone => absurd hnone hnamed) h
  cases hcell : rowOf chunk i source with
  | none => simp [NoSilentNull, hcell, not_atStep_null]
  | some t =>
    have hnull : s.cells[k]? = some none ↔
        AtStep P TokenMatch (specsOf v.toRules c) (some t) ∨
          AtStep P (PercentTooWide P) (specsOf v.toRules c) (some t) := by
      rw [contribution_null_iff hacc hk hs, imageCell_of_rename hrename, castCell_null_iff,
        normalizedCell_of_rename hrename, hcell, applyCell_null_iff]
      simp only [← atStep_or, ← silent_iff hP]
    constructor
    · -- a value lost at a percentage was not matched by a token
      intro hno hwide
      have htoken := hno (by simp [hcell]) (hnull.mpr (Or.inr hwide))
      rw [hcell] at htoken
      obtain ⟨op, t', ⟨tokens, rfl, -⟩, ⟨d, th, hop, -⟩⟩ := atStep_unique
        (fun op t ht => (silent_iff hP op t).mpr (Or.inl ht))
        (fun op t ht => (silent_iff hP op t).mpr (Or.inr ht)) htoken hwide
      cases hop
    · intro hwide _ hlost
      rw [hcell]
      exact (hnull.mp hlost).resolve_right hwide

end Claim

/-! ### A column of discounts -/

/-- Is the text a numeral with a point? -/
def isNumeral (s : String) : Bool := fullMatch (decimalPattern asciiPolars '.' none) s

/-- Polars on ASCII text, with a cast that takes numerals only. -/
def numeralPolars : Polars :=
  { decimalPolars with
    castDecimal := fun precision scale s =>
      if isNumeral s then readDecimal precision scale s else none }

lemma isNumeral_iff (s : String) :
    isNumeral s = true ↔ ∃ r, Reads (some '.') none s.toList r :=
  fullMatch_numberPattern (P := asciiPolars) (fun _ _ => rfl) (some '.') none

lemma abs_value_lt_iff {r : Reading} (hf : Digits (r.fraction.getD [])) :
    |r.value| < 10 ^ 20 ↔ digitsValue r.whole < 10 ^ 20 := by
  have hpos := fractionValue_nonneg (r.fraction.getD [])
  have hlt := fractionValue_lt_one hf
  rw [r.abs_value, Reading.magnitude]
  constructor
  · intro h
    have hwhole : (digitsValue r.whole : ℚ) < 10 ^ 20 := by linarith
    exact_mod_cast hwhole
  · intro h
    have hwhole : (digitsValue r.whole : ℚ) + 1 ≤ 10 ^ 20 := by exact_mod_cast h
    linarith

lemma decimalCast_numeralPolars : DecimalCast numeralPolars where
  null s := by
    change (if isNumeral s then readDecimal 38 18 s else none) = none ↔ ¬ Representable s
    by_cases hs : isNumeral s
    · obtain ⟨r, hr⟩ := (isNumeral_iff s).mp hs
      have hread : readDecimal 38 18 s = _ :=
        decimalType_decimalPolars.cast s r.value ⟨r, hr, rfl⟩
      have hwhole := abs_value_lt_iff hr.digits.2.2
      rw [if_pos hs, hread, ite_eq_right_iff, natAbs_truncate_lt_iff, hwhole]
      simp only [reduceCtorEq, imp_false, Representable, not_exists, not_and]
      -- every reading has the number of this one
      refine ⟨fun h r' hr' => ?_, fun h => h r hr⟩
      have hsame : r'.value = r.value :=
        Literal.unique (s := s) ⟨r', hr', rfl⟩ ⟨r, hr, rfl⟩
      rwa [← abs_value_lt_iff hr'.digits.2.2, hsame, hwhole]
    · rw [if_neg hs]
      refine iff_of_true rfl fun ⟨r, hr, _⟩ => hs ((isNumeral_iff s).mpr ⟨r, hr⟩)
  hundredth _ _ _ := rfl

def discountRules : Rules where
  version := 1
  rename := Dict.ofList [("Rabatt", "discount")]
  normalize := Dict.ofList [("discount", [.parsePercent '.' none])]
  cast := Dict.empty
  derive := Dict.empty

def discountMapping : SourceMapping numeralPolars.upper := ⟨discountRules, by decide⟩

def discountColumn : Series := Series.ofTexts [some "12.5%", some "123456789012345678901%"]

def discountChunk : Frame where
  height := 2
  columns := Dict.ofList [("Rabatt", discountColumn)]

lemma discountChunk_column {c : String} {s : Series}
    (h : discountChunk.columns.get? c = some s) : s = discountColumn := by
  have hm := discountChunk.columns.mem_entries.mpr h
  have he : discountChunk.columns.entries = [("Rabatt", discountColumn)] := by decide
  simp only [he, List.mem_singleton, Prod.mk.injEq] at hm
  exact hm.2

lemma discount_result : ∃ res,
    applyMapping numeralPolars discountMapping.toRules discountChunk = .ok res ∧
      res.sourceRowIndices = [0, 1] ∧ res.failures = [] ∧
      res.contribution.columns.get? "discount" = some (Series.ofTexts [some "0.125", none]) := by
  have h : (applyMapping numeralPolars discountMapping.toRules discountChunk).toOption.map
      (fun res => (res.sourceRowIndices, res.failures,
        res.contribution.columns.get? "discount")) =
      some ([0, 1], [], some (Series.ofTexts [some "0.125", none])) := by decide +kernel
  cases hr : applyMapping numeralPolars discountMapping.toRules discountChunk with
  | error e =>
    rw [hr] at h
    cases h
  | ok res =>
    rw [hr] at h
    exact ⟨res, rfl, by simpa [Except.toOption] using h⟩

lemma discountSpecs : specsOf discountMapping.toRules "discount" = [.parsePercent '.' none] := by
  decide

lemma representable_discount : Representable (percentBody '.' none "12.5%") := by
  refine ⟨⟨[], ['1', '2'], some ['5']⟩, ⟨['1', '2'], ['.', '5'], by decide +kernel, Or.inl rfl,
    Or.inl ⟨rfl, by simp, by simp [Digits]⟩,
    Or.inr ⟨'.', _, rfl, rfl, rfl, by simp, by simp [Digits]⟩⟩, by decide⟩

/-- The first discount is a decimal of 18 fraction digits. -/
theorem no_silent_null_of_discount : ∃ res s,
    applyMapping numeralPolars discountMapping.toRules discountChunk = .ok res ∧
      res.contribution.columns.get? "discount" = some s ∧
      NoSilentNull numeralPolars discountMapping.toRules discountChunk s 0 0 "Rabatt"
        "discount" := by
  obtain ⟨res, hr, hidx, -, hcol⟩ := discount_result
  refine ⟨res, _, hr, hcol, (no_silent_null_iff decimalCast_numeralPolars discountMapping
    discountChunk (fun c s hs => by rw [discountChunk_column hs]; rfl)
    (fun c s hs => ⟨_, discountChunk_column hs⟩) hr (by rw [hidx]; rfl) (by decide) hcol).mpr ?_⟩
  have hrow : rowOf discountChunk 0 "Rabatt" = some "12.5%" := by decide
  rw [hrow, discountSpecs, atStep_cons]
  rintro (⟨d, th, hop, -, hwide⟩ | ⟨-, op, t, hm, -⟩)
  · cases hop
    exact hwide representable_discount
  · simp [entering] at hm

/-- A percentage of 21 digits before the point becomes null in a row that is kept as clean. -/
theorem wide_percent_vanishes : DecimalCast numeralPolars ∧ ∃ res s,
    applyMapping numeralPolars discountMapping.toRules discountChunk = .ok res ∧
      res.sourceRowIndices[1]? = some 1 ∧ res.failures = [] ∧
      res.contribution.columns.get? "discount" = some s ∧
      ¬ NoSilentNull numeralPolars discountMapping.toRules discountChunk s 1 1 "Rabatt"
        "discount" := by
  obtain ⟨res, hr, hidx, hfail, hcol⟩ := discount_result
  refine ⟨decimalCast_numeralPolars, res, _, hr, by rw [hidx]; rfl, hfail, hcol, fun hno => ?_⟩
  have hrow : rowOf discountChunk 1 "Rabatt" = some "123456789012345678901%" := by decide
  have htoken := hno (by rw [hrow]; simp) rfl
  rw [hrow, discountSpecs, atStep_cons] at htoken
  rcases htoken with ⟨tokens, hop, -⟩ | ⟨-, op, t, hm, -⟩
  · cases hop
  · simp [entering] at hm

end CortexDis.SilentNull
