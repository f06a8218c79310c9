import CortexDis.Frames
import CortexDis.MappingRules
import CortexDis.Masked
import CortexDis.Patterns
import CortexDis.Runs

/-!
The normalize stage: an ordered list of operations a column, each from text to text.

An operation works cell by cell. A cell that fails at a step is recorded with the value that
entered the step and is nulled; every operation passes null through.
-/

namespace CortexDis.Normalize

open CortexDis.PyDict CortexDis.Values CortexDis.Errors CortexDis.Frames CortexDis.MappingRules
open CortexDis.Masked CortexDis.Patterns CortexDis.Runs

/-- An operation's result at one cell. -/
structure OpOutcome where
  value : Option String
  failed : Bool
  deriving DecidableEq, Repr

/-- `_null_where` -/
def nullWhere (value : Option String) (mask : Bool) : Option String :=
  if mask then none else value

variable (P : Polars)

/-! ### The operations -/

/-- `_parse_date` -/
def parseDate (format : String) (s : Option String) : OpOutcome :=
  let parsed := s.bind (P.strptimeDate format)
  ⟨parsed.map P.strftimeDate, parsed.isNone && s.isSome⟩

/-- Wall time in the declared zone, as an instant; without a zone it is taken as UTC. -/
def inZone (timezone : Option String) (t : ℤ) : Option ℤ :=
  match timezone with
  | some tz => P.replaceTimeZone tz t
  | none => some t

/-- `_parse_datetime` -/
def parseDatetime (format : String) (timezone : Option String) (s : Option String) : OpOutcome :=
  let parsed := s.bind (P.strptimeDatetime format)
  let utc := if P.awareFormat format then parsed else parsed.bind (inZone P timezone)
  ⟨utc.map P.strftimeDatetime, utc.isNone && s.isSome⟩

/-- `_numeric_body_pattern`: plain digits, or strict groups of three. -/
def numericBodyPattern (thousandsSeparator : Option Char) : Pattern :=
  match thousandsSeparator with
  | none => many1 P.isDigit
  | some sep => alt (many1 P.isDigit)
      (seq (upTo (chr P.isDigit) 3)
        (plus (seq (chr (· = sep)) (times (chr P.isDigit) 3))))

def sign : Pattern := opt (chr fun c => c = '+' ∨ c = '-')

def fraction (decimalSeparator : Char) : Pattern :=
  opt (seq (chr (· = decimalSeparator)) (many1 P.isDigit))

def integerPattern (thousandsSeparator : Option Char) : Pattern :=
  seq sign (numericBodyPattern P thousandsSeparator)

def decimalPattern (decimalSeparator : Char) (thousandsSeparator : Option Char) : Pattern :=
  seq (integerPattern P thousandsSeparator) (fraction P decimalSeparator)

def percentPattern (decimalSeparator : Char) (thousandsSeparator : Option Char) : Pattern :=
  seq (decimalPattern P decimalSeparator thousandsSeparator) (opt (chr (· = '%')))

/-- `_strip_separators` -/
def stripSeparators (decimalSeparator thousandsSeparator : Option Char) (s : String) : String :=
  let cleaned := match thousandsSeparator with
    | some t => removeAll t s
    | none => s
  match decimalSeparator with
  | some d => if d = '.' then cleaned else dotFor d cleaned
  | none => cleaned

/-- A numeric operation: the mask reads the original text, the value is what the text
converts to. -/
def parseNumeric (pattern : Pattern) (convert : String → Option String) (s : Option String) :
    OpOutcome :=
  let failed := s.isSome && !(s.map (fullMatch pattern)).getD false
  ⟨nullWhere (s.bind convert) failed, failed⟩

/-- `_parse_decimal` -/
def parseDecimal (d : Char) (t : Option Char) : Option String → OpOutcome :=
  parseNumeric (decimalPattern P d t) fun s => some (stripSeparators (some d) t s)

/-- A hundredth of a percentage's body, through a decimal with 18 fraction digits; none when
that decimal cannot hold it. -/
def percentText (d : Char) (t : Option Char) (s : String) : Option String :=
  ((P.castDecimal 38 18 (stripSeparators (some d) t (dropEnd '%' s))).bind P.hundredthText).map
    fun q => dropEnd '.' (dropZeros q)

/-- `_parse_percent` -/
def parsePercent (d : Char) (t : Option Char) : Option String → OpOutcome :=
  parseNumeric (percentPattern P d t) (percentText P d t)

/-- `_parse_integer` -/
def parseInteger (t : Option Char) : Option String → OpOutcome :=
  parseNumeric (integerPattern P t) fun s => some (stripSeparators none t s)

/-- `_parse_boolean` -/
def parseBoolean (trueValues falseValues : List String) (s : Option String) : OpOutcome :=
  let isTrue := s.any (· ∈ trueValues)
  let isFalse := s.any (· ∈ falseValues)
  ⟨if isTrue then some "true" else if isFalse then some "false" else none,
    s.isSome && !(isTrue || isFalse)⟩

/-- `_map_enum` -/
def mapEnum (mapping : List (String × String)) (caseInsensitive : Bool) (s : Option String) :
    OpOutcome :=
  let lookup : Dict String String :=
    if caseInsensitive then Dict.ofList (mapping.map fun e => (P.upper e.1, e.2))
    else Dict.ofList mapping
  let key := if caseInsensitive then s.map P.toUppercase else s
  let mapped := key.bind lookup.get?
  ⟨mapped, mapped.isNone && s.isSome⟩

/-- `_null_tokens` -/
def nullTokens (tokens : List String) (s : Option String) : OpOutcome :=
  ⟨nullWhere s (s.any (· ∈ tokens)), false⟩

/-- `_normalize_whitespace` -/
def normalizeWhitespace (trim collapse : Bool) (s : Option String) : OpOutcome :=
  let trimmed := if trim then s.map P.stripChars else s
  ⟨if collapse then trimmed.map P.collapse else trimmed, false⟩

/-- `_normalize_case` -/
def normalizeCase (mode : CaseMode) (s : Option String) : OpOutcome :=
  match mode with
  | .upper => ⟨s.map P.toUppercase, false⟩
  | .lower => ⟨s.map P.toLowercase, false⟩

/-- `NORMALIZE_IMPLS`, at one cell -/
def impl : NormalizeOp → Option String → OpOutcome
  | .parseDate format => parseDate P format
  | .parseDatetime format tz => parseDatetime P format tz
  | .parseDecimal d t => parseDecimal P d t
  | .parsePercent d t => parsePercent P d t
  | .parseInteger t => parseInteger P t
  | .parseBoolean ts fs => parseBoolean ts fs
  | .mapEnum mapping ci => mapEnum P mapping ci
  | .nullTokens tokens => nullTokens tokens
  | .normalizeWhitespace trim collapse => normalizeWhitespace P trim collapse
  | .normalizeCase mode => normalizeCase P mode

/-- What an operation raises on a column, whatever its cells hold: a format polars refuses, a
zone it does not know, or a name it does not read as the column's. -/
def raised (column : String) : NormalizeOp → Option Exn
  | .parseDate format => P.dateFormatError format
  | .parseDatetime format tz =>
    match P.datetimeFormatError format, tz with
    | some e, _ => some e
    | none, some tz =>
      if P.awareFormat format || P.knowsZone tz then none else some (.mappingConfig (some column))
    | none, none => none
  | .parseBoolean .. => P.ownError column
  | _ => none

def withThousands (join : String) : Option Char → String
  | some t => join ++ P.repr (String.singleton t)
  | none => ""

/-- The expectation an operation reports. -/
def expected : NormalizeOp → String
  | .parseDate format => "date in format " ++ P.repr format
  | .parseDatetime format tz => "datetime in format " ++ P.repr format ++
    match tz with
    | some tz => " in zone " ++ tz
    | none => " with offset"
  | .parseDecimal d t => "decimal with separator " ++ P.repr (String.singleton d) ++
    withThousands P " and thousands " t
  | .parsePercent d t => "percentage with decimal separator " ++ P.repr (String.singleton d) ++
    withThousands P " and thousands " t
  | .parseInteger t => "integer" ++ withThousands P " with thousands " t
  | .parseBoolean ts fs => "boolean token in " ++ P.reprList ts ++ " or " ++ P.reprList fs
  | .mapEnum mapping _ =>
    "one of " ++ P.reprList ((mapping.map Prod.fst).mergeSort fun a b => a ≤ b)
  | .nullTokens _ => ""
  | .normalizeWhitespace .. => ""
  | .normalizeCase _ => ""

/-! ### The stage -/

inductive FailureStage
  | normalize | cast | derive
  deriving DecidableEq, Repr

structure CellNormalizationFailure where
  rowIndex : ℕ
  column : String
  sourceColumn : Option String
  value : Option String
  op : String
  transformIndex : ℕ
  expectedFormat : String
  stage : FailureStage
  reason : String
  deriving DecidableEq, Repr

/-- Step `k` of a column's list, and the failure it records. -/
def opStep (column : String) (sourceColumn : Option String) (stage : FailureStage) (k : ℕ)
    (op : NormalizeOp) : Step String String CellNormalizationFailure where
  value s := (impl P op s).value
  failed s := (impl P op s).failed
  record row entering :=
    { rowIndex := row, column, sourceColumn, value := entering, op := op.op, transformIndex := k
      expectedFormat := expected P op, stage
      reason := "column " ++ P.repr column ++ ": step " ++ toString k ++ " (" ++ op.op ++
        ") could not normalize the value; expected " ++ expected P op }

/-- `apply_transform_list` from step `k` on: the column it returns and the failures it
appends. -/
def applyTransformList (column : String) (sourceColumn : Option String) (stage : FailureStage) :
    ℕ → List NormalizeOp → List (Option String) →
      Except Exn (List (Option String) × List CellNormalizationFailure)
  | _, [], current => .ok (current, [])
  | k, op :: specs, current =>
    match raised P column op with
    | some e => .error e
    | none => do
      let step := opStep P column sourceColumn stage k op
      let rest ← applyTransformList column sourceColumn stage (k + 1) specs (step.column current)
      return (rest.1, step.log current ++ rest.2)

abbrev Work := Frame × List CellNormalizationFailure

/-- One column of the normalize stage. -/
def normalizeColumn (renameInverse : Dict String String) (w : Work)
    (rule : String × List NormalizeOp) : Except Exn Work := do
  let series ← w.1.getColumn rule.1
  if series.dtype = .string then
    let out ← applyTransformList P rule.1 (renameInverse.get? rule.1) .normalize 0 rule.2
      series.texts
    return (w.1.withColumn rule.1 (Series.ofTexts out.1), w.2 ++ out.2)
  else throw (.mappingInput (some rule.1))

/-- `run_normalize` -/
def runNormalize (rules : Dict String (List NormalizeOp)) (renameInverse : Dict String String)
    (w : Work) : Except Exn Work :=
  rules.entries.foldlM (normalizeColumn P renameInverse) w

/-! ### Cell by cell -/

@[simp] lemma impl_null (op : NormalizeOp) : impl P op none = ⟨none, false⟩ := by
  cases op with
  | normalizeWhitespace trim collapse =>
    simp [impl, normalizeWhitespace]
  | normalizeCase mode => cases mode <;> rfl
  | parseDatetime format tz => simp [impl, parseDatetime]
  | mapEnum mapping ci => simp [impl, mapEnum]
  | _ => rfl

variable (column : String) (sourceColumn : Option String) (stage : FailureStage)

/-- The steps of a list, numbered from `k` on. -/
def opSteps : ℕ → List NormalizeOp → List (Step String String CellNormalizationFailure)
  | _, [] => []
  | k, op :: specs => opStep P column sourceColumn stage k op :: opSteps (k + 1) specs

lemma mem_opSteps {k : ℕ} {specs : List NormalizeOp}
    {s : Step String String CellNormalizationFailure}
    (h : s ∈ opSteps P column sourceColumn stage k specs) :
    ∃ j op, op ∈ specs ∧ s = opStep P column sourceColumn stage j op := by
  induction specs generalizing k with
  | nil => simp [opSteps] at h
  | cons op specs ih =>
    rcases List.mem_cons.mp h with rfl | h'
    · exact ⟨k, op, List.mem_cons_self, rfl⟩
    · obtain ⟨j, op', hm, hs⟩ := ih h'
      exact ⟨j, op', List.mem_cons_of_mem _ hm, hs⟩

lemma opSteps_passesNull (k : ℕ) (specs : List NormalizeOp) :
    ∀ s ∈ opSteps P column sourceColumn stage k specs, s.PassesNull := by
  intro s hs
  obtain ⟨j, op, -, rfl⟩ := mem_opSteps P column sourceColumn stage hs
  simp [Step.PassesNull, opStep]

lemma opSteps_record (k : ℕ) (specs : List NormalizeOp) :
    ∀ s ∈ opSteps P column sourceColumn stage k specs,
      ∀ i c, (s.record i c).rowIndex = i ∧ (s.record i c).column = column := by
  intro s hs i c
  obtain ⟨j, op, -, rfl⟩ := mem_opSteps P column sourceColumn stage hs
  exact ⟨rfl, rfl⟩

lemma applyTransformList_ok {k : ℕ} {specs : List NormalizeOp} {cells : List (Option String)}
    {out : List (Option String) × List CellNormalizationFailure}
    (h : applyTransformList P column sourceColumn stage k specs cells = .ok out) :
    out = runColumn (opSteps P column sourceColumn stage k specs) cells := by
  induction specs generalizing k cells out with
  | nil =>
    cases h
    rfl
  | cons op specs ih =>
    rw [applyTransformList] at h
    split at h
    · cases h
    · obtain ⟨rest, hrest, hout⟩ := of_bind_eq_ok h
      cases hout
      rw [opSteps, runColumn, ← ih hrest]

/-- One cell through a list, up to the first step that fails. -/
def applyCell (k : ℕ) (specs : List NormalizeOp) (row : ℕ) (s : Option String) :
    Except CellNormalizationFailure (Option String) :=
  runCell row (opSteps P column sourceColumn stage k specs) s

end CortexDis.Normalize
