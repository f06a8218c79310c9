import CortexDis.Values

/-!
The validated mapping rules of one source.

An operation carries its declared arguments at the types the construction checks enforce:
separators are single characters, token lists and formats are not empty. What the checks
demand across operations and columns is the `valid` field of a `SourceMapping`.
-/

namespace CortexDis.MappingRules

open CortexDis.PyDict CortexDis.Values

inductive CaseMode
  | upper | lower
  deriving DecidableEq, Repr

/-- The normalize vocabulary with each operation's arguments. -/
inductive NormalizeOp
  | parseDate (format : String)
  | parseDatetime (format : String) (timezone : Option String)
  | parseDecimal (decimalSeparator : Char) (thousandsSeparator : Option Char)
  | parsePercent (decimalSeparator : Char) (thousandsSeparator : Option Char)
  | parseInteger (thousandsSeparator : Option Char)
  | parseBoolean (trueValues falseValues : List String)
  | mapEnum (mapping : List (String × String)) (caseInsensitive : Bool)
  | nullTokens (tokens : List String)
  | normalizeWhitespace (trim collapse : Bool)
  | normalizeCase (mode : CaseMode)
  deriving DecidableEq, Repr

/-- The operation's name, as failures record it. -/
def NormalizeOp.op : NormalizeOp → String
  | .parseDate _ => "parse_date"
  | .parseDatetime .. => "parse_datetime"
  | .parseDecimal .. => "parse_decimal"
  | .parsePercent .. => "parse_percent"
  | .parseInteger _ => "parse_integer"
  | .parseBoolean .. => "parse_boolean"
  | .mapEnum .. => "map_enum"
  | .nullTokens _ => "null_tokens"
  | .normalizeWhitespace .. => "normalize_whitespace"
  | .normalizeCase _ => "normalize_case"

/-- The scalar a `constant` generator writes. -/
inductive Scalar
  | str (s : String)
  | int (n : ℤ)
  | float (literal : String)
  | bool (b : Bool)
  deriving DecidableEq, Repr

/-- The generator that starts a derive list. -/
inductive Generator
  | copy (sourceColumn : String)
  | constant (value : Scalar)
  | dateFromDatetime (sourceColumn : String)
  deriving DecidableEq, Repr

def Generator.op : Generator → String
  | .copy _ => "copy"
  | .constant _ => "constant"
  | .dateFromDatetime _ => "date_from_datetime"

/-- A derive list: a generator and the normalize operations after it. -/
structure DeriveSpec where
  generator : Generator
  rest : List NormalizeOp
  deriving DecidableEq, Repr

inductive CastType
  | string | integer | decimal (precision scale : ℕ) | date | datetime | boolean
  deriving DecidableEq, Repr

def CastType.name : CastType → String
  | .string => "string"
  | .integer => "integer"
  | .decimal .. => "decimal"
  | .date => "date"
  | .datetime => "datetime"
  | .boolean => "boolean"

/-- Is `sub` a substring of `s`? -/
def containsStr (s sub : String) : Bool := decide (sub.toList <:+: s.toList)

/-- What `validate_normalize_args` demands of the arguments beyond their types; `upper` is
the case folding of keys. -/
def NormalizeOp.valid (upper : String → String) : NormalizeOp → Bool
  | .parseDate format => format ≠ ""
  | .parseDatetime format none => format ≠ "" && containsStr format "%z"
  | .parseDatetime format (some tz) => format ≠ "" && tz ≠ "" && !containsStr format "%z"
  | .parseDecimal d t => t ≠ some d
  | .parsePercent d t => t ≠ some d
  | .parseInteger _ => true
  | .parseBoolean ts fs => ts ≠ [] && fs ≠ [] && ts.all fun t => t ∉ fs
  | .mapEnum mapping ci =>
    mapping ≠ [] && (mapping.map Prod.fst).Nodup &&
      (!ci || (mapping.map fun e => upper e.1).Nodup)
  | .nullTokens tokens => tokens ≠ []
  | .normalizeWhitespace .. => true
  | .normalizeCase _ => true

/-- `validate_cast_spec` -/
def CastType.valid : CastType → Bool
  | .decimal precision scale => 1 ≤ precision && scale ≤ precision
  | _ => true

/-- The rules as declared, before validation. -/
structure Rules where
  version : ℤ
  rename : Dict String String
  normalize : Dict String (List NormalizeOp)
  cast : Dict String CastType
  derive : Dict String DeriveSpec

/-- The columns the rename produces, in declaration order. -/
def Rules.renameTargets (r : Rules) : List String := r.rename.values

/-- `_validate_derive_list` -/
def Rules.validDerive (r : Rules) (upper : String → String) (d : DeriveSpec) : Bool :=
  (match d.generator with
    | .copy source => decide (source ∈ r.renameTargets)
    | .constant _ => true
    | .dateFromDatetime source =>
      decide (source ∈ r.renameTargets) && decide (r.cast.get? source = some .datetime)) &&
  d.rest.all (·.valid upper) &&
  (d.rest.isEmpty ||
    match d.generator with
    | .copy source =>
      match r.cast.get? source with
      | none => true
      | some type => decide (type = .string)
    | .constant (.str _) => true
    | .constant _ => false
    | .dateFromDatetime _ => false)

/-- `_validate_rules` -/
def Rules.valid (r : Rules) (upper : String → String) : Bool :=
  decide (1 ≤ r.version) &&
  decide r.renameTargets.Nodup &&
  r.normalize.keys.all (fun c => decide (c ∈ r.renameTargets)) &&
  r.cast.keys.all (fun c => decide (c ∈ r.renameTargets)) &&
  r.derive.keys.all (fun c => decide (c ∉ r.renameTargets)) &&
  r.normalize.values.all (fun ops => ops.all (·.valid upper)) &&
  r.cast.values.all (fun c => c.valid) &&
  r.derive.values.all (r.validDerive upper)

/-- A mapping that passed construction; `upper` is `str.upper`. -/
structure SourceMapping (upper : String → String) extends Rules where
  valid : toRules.valid upper = true

/-- `target_columns`: rename targets, then derive targets. -/
def Rules.targetColumns (r : Rules) : List String := r.rename.values ++ r.derive.keys

section Valid

variable {upper : String → String} (m : SourceMapping upper)

lemma SourceMapping.renameTargets_nodup : m.renameTargets.Nodup := by
  have h := m.valid
  simp only [Rules.valid, Bool.and_eq_true, decide_eq_true_eq] at h
  tauto

lemma SourceMapping.normalize_keys : ∀ c ∈ m.normalize.keys, c ∈ m.renameTargets := by
  have h := m.valid
  simp only [Rules.valid, Bool.and_eq_true, List.all_eq_true, decide_eq_true_eq] at h
  tauto

lemma SourceMapping.cast_keys : ∀ c ∈ m.cast.keys, c ∈ m.renameTargets := by
  have h := m.valid
  simp only [Rules.valid, Bool.and_eq_true, List.all_eq_true, decide_eq_true_eq] at h
  tauto

lemma SourceMapping.derive_keys : ∀ c ∈ m.derive.keys, c ∉ m.renameTargets := by
  have h := m.valid
  simp only [Rules.valid, Bool.and_eq_true, List.all_eq_true, decide_eq_true_eq] at h
  tauto

lemma SourceMapping.validDerive : ∀ d ∈ m.derive.values, m.toRules.validDerive upper d = true := by
  have h := m.valid
  simp only [Rules.valid, Bool.and_eq_true, List.all_eq_true, decide_eq_true_eq] at h
  tauto

lemma SourceMapping.targetColumns_nodup : m.targetColumns.Nodup := by
  refine List.nodup_append.mpr ⟨m.renameTargets_nodup, m.derive.nodup, ?_⟩
  rintro a ha b hb rfl
  exact m.derive_keys a hb ha

end Valid

end CortexDis.MappingRules
