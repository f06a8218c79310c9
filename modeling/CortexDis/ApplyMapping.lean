import CortexDis.Normalize

/-!
The mapping engine: rename, normalize, cast and derive over one chunk, and the clean rows.
-/

namespace CortexDis.ApplyMapping

open CortexDis.PyDict CortexDis.Values CortexDis.Errors CortexDis.Frames CortexDis.MappingRules
open CortexDis.Masked CortexDis.Normalize

variable (P : Polars)

/-! ### Rename -/

/-- `run_rename` -/
def runRename (frame : Frame) (rename : Dict String String) : Except Exn Frame :=
  match rename.keys.find? fun source => source ∉ frame.columns.keys with
  | some source => .error (.mappingInput (some source))
  | none => do
    let selected ← frame.select P rename.keys
    selected.rename rename

/-! ### Cast -/

/-- `target_dtype` -/
def targetDtype : CastType → DType
  | .string => .string
  | .integer => .int64
  | .decimal precision scale => .decimal precision scale
  | .date => .date
  | .datetime => .datetimeUtc
  | .boolean => .boolean

/-- `_cast_string_series` at one cell, in the datetime format the column has. -/
def castText (type : CastType) (format : Option DatetimeFormat) (s : Option String) : Cell :=
  match type with
  | .string => ofText s
  | .integer => (s.bind P.castInt64).map .int
  | .decimal precision scale => (s.bind (P.castDecimal precision scale)).map (.decimal · scale)
  | .date => (s.bind P.toDate).map .date
  | .datetime => format.bind fun f => (s.bind (P.toDatetime f)).map .datetime
  | .boolean => s.bind fun t =>
    if t = "true" then some (.bool true) else if t = "false" then some (.bool false) else none

/-- `_expected_format` -/
def expectedFormat : CastType → String
  | .decimal precision scale =>
    "decimal(" ++ toString precision ++ "," ++ toString scale ++ ")"
  | .date => "ISO date (%Y-%m-%d)"
  | .datetime => "ISO-8601 UTC datetime"
  | .boolean => "'true' or 'false'"
  | type => type.name

/-- The cast of a column as a step: a cell fails when it was not null and comes out null. -/
def castStep {α : Type} (column : String) (sourceColumn : Option String) (type : CastType)
    (cast : Option α → Cell) (str : α → String) : Step α Value CellNormalizationFailure where
  value := cast
  failed c := (cast c).isNone && c.isSome
  record row entering :=
    { rowIndex := row, column, sourceColumn, value := entering.map str, op := "cast"
      transformIndex := 0, expectedFormat := expectedFormat type, stage := .cast
      reason := "column " ++ P.repr column ++ ": value could not be cast; expected " ++
        expectedFormat type }

def castTextStep (column : String) (sourceColumn : Option String) (type : CastType)
    (format : Option DatetimeFormat) : Step String Value CellNormalizationFailure :=
  castStep P column sourceColumn type (castText P type format) id

def castTypedStep (column : String) (sourceColumn : Option String) (type : CastType) :
    Step Value Value CellNormalizationFailure :=
  castStep P column sourceColumn type (fun c => c.bind (P.castTyped (targetDtype type))) P.strValue

/-- The format a text column is parsed in, where the cast is to datetimes. -/
def castFormat (type : CastType) (texts : List (Option String)) :
    Except Exn (Option DatetimeFormat) :=
  if type = .datetime then P.inferDatetime texts else .ok none

/-- What the cast of a text column raises for its name: booleans go through `pl.col(name)`. -/
def castNameError (column : String) (type : CastType) : Option Exn :=
  if type = .boolean then P.ownError column else none

/-- One column of the cast stage. -/
def castColumn (renameInverse : Dict String String) (w : Work) (rule : String × CastType) :
    Except Exn Work := do
  let series ← w.1.getColumn rule.1
  match P.dtypeError (targetDtype rule.2) with
  | some e => throw e
  | none =>
    if series.dtype = targetDtype rule.2 then return w
    else if series.dtype = .string then
      match castNameError P rule.1 rule.2 with
      | some e => throw e
      | none =>
        let format ← castFormat P rule.2 series.texts
        let step := castTextStep P rule.1 (renameInverse.get? rule.1) rule.2 format
        return (w.1.withColumn rule.1 ⟨targetDtype rule.2, step.column series.texts⟩,
          w.2 ++ step.log series.texts)
    else
      let step := castTypedStep P rule.1 (renameInverse.get? rule.1) rule.2
      return (w.1.withColumn rule.1 ⟨targetDtype rule.2, step.column series.cells⟩,
        w.2 ++ step.log series.cells)

/-- `run_cast` -/
def runCast (rules : Dict String CastType) (renameInverse : Dict String String) (w : Work) :
    Except Exn Work :=
  rules.entries.foldlM (castColumn P renameInverse) w

/-! ### Derive -/

def scalarValue : Scalar → Value
  | .str s => .str s
  | .int n => .int n
  | .float literal => .float literal
  | .bool b => .bool b

def scalarDtype : Scalar → Except Exn DType
  | .str _ => .ok .string
  | .int n => P.intDtype n
  | .float _ => .ok .float64
  | .bool _ => .ok .boolean

def microsPerDay : ℤ := 86400000000

/-- `dt.date()` of a UTC datetime -/
def dateOf : Cell → Cell
  | some (.datetime t) => some (.date (t / microsPerDay))
  | _ => none

def sourceOf : Generator → Option String
  | .copy source => some source
  | .constant _ => none
  | .dateFromDatetime source => some source

/-- `_generate` -/
def generate (frame : Frame) : Generator → Except Exn Series
  | .copy source => frame.getColumn source
  | .constant value => do
    let dtype ← scalarDtype P value
    return ⟨dtype, List.replicate frame.height (some (scalarValue value))⟩
  | .dateFromDatetime source => do
    let series ← frame.getColumn source
    return ⟨.date, series.cells.map dateOf⟩

/-- One column of the derive stage. Operations on a column that is not text are refused. -/
def deriveColumn (w : Work) (rule : String × DeriveSpec) : Except Exn Work := do
  let series ← generate P w.1 rule.2.generator
  if rule.2.rest = [] then return (w.1.withColumn rule.1 series, w.2)
  else if series.dtype = .string then
    let out ← applyTransformList P rule.1 (sourceOf rule.2.generator) .derive 1 rule.2.rest
      series.texts
    return (w.1.withColumn rule.1 (Series.ofTexts out.1), w.2 ++ out.2)
  else throw (.other "SchemaError")

/-- `run_derive` -/
def runDerive (rules : Dict String DeriveSpec) (w : Work) : Except Exn Work :=
  rules.entries.foldlM (deriveColumn P) w

/-! ### The engine -/

structure MappingResult where
  contribution : Frame
  sourceRowIndices : List ℕ
  failures : List CellNormalizationFailure

/-- `{canonical: source for source, canonical in rename.items()}` -/
def renameInverse (m : Rules) : Dict String String :=
  Dict.ofList (m.rename.entries.map Prod.swap)

/-- The rows without a failure, in order. -/
def keep (height : ℕ) (failures : List CellNormalizationFailure) : List ℕ :=
  (List.range height).filter fun i => i ∉ failures.map (·.rowIndex)

/-- `apply_mapping` -/
def applyMapping (m : Rules) (chunk : Frame) : Except Exn MappingResult := do
  let frame ← runRename P chunk m.rename
  let normalized ← runNormalize P m.normalize (renameInverse m) (frame, [])
  let cast ← runCast P m.cast (renameInverse m) normalized
  let (frame, failures) ← runDerive P m.derive cast
  let selected ← frame.select P m.targetColumns
  let contribution ← selected.gather (keep frame.height failures)
  return ⟨contribution, keep frame.height failures, failures⟩

end CortexDis.ApplyMapping
