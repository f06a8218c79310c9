import CortexDis.CanonicalShape
import CortexDis.CreateGate

/-!
The create contract of a template, translated into a `mapping_rules` document.

A column names a source header and a destination, and declares how its cells are written. The
operation for a destination is chosen by its data type, and the last column that gives one
keeps it.
-/

namespace CortexDis.ContractTranslation

open CortexDis.PyDict CortexDis.PyText CortexDis.PyJson CortexDis.Errors CortexDis.Canonical
open CortexDis.MappingRules CortexDis.CanonicalShape CortexDis.RulesDocument CortexDis.CreateGate
open CortexDis.LoadMapping CortexDis.Runs

/-! ### The contract -/

inductive DecimalSeparator
  | point | comma
  deriving DecidableEq, Repr

def DecimalSeparator.text : DecimalSeparator → String
  | point => "."
  | comma => ","

inductive ThousandSeparator
  | point | comma | apostrophe
  deriving DecidableEq, Repr

def ThousandSeparator.text : ThousandSeparator → String
  | point => "."
  | comma => ","
  | apostrophe => "'"

/-- `MappingColumn` -/
structure MappingColumn where
  srcKey : String
  destKey : String
  srcDatetimeFormat : Option String
  srcDecimalSeparator : Option DecimalSeparator
  srcThousandSeparator : Option ThousandSeparator
  srcIsPercentage : Option Bool
  srcKey_ne : srcKey ≠ ""
  destKey_ne : destKey ≠ ""

/-- `MappingTemplateCreate`, as far as it is translated -/
structure MappingTemplateCreate where
  templateType : String
  columns : List MappingColumn
  columns_ne : columns ≠ []

/-- `_IGNORE` -/
def ignore : String := "__ignore__"

/-! ### The shapes of the destinations -/

/-- `FieldDatatype` -/
inductive FieldDatatype
  | text | choice | integer | number | date | datetime | boolean | json
  deriving DecidableEq, Repr

/-- `_datatype_and_values`, with the precision and the scale of a number -/
def fieldShape : Shape → FieldDatatype × Option ℤ × Option ℤ
  | .text _ => (.text, none, none)
  | .vocab _ => (.choice, none, none)
  | .decimal precision scale => (.number, some precision, some scale)
  | .integer => (.integer, none, none)
  | .boolean => (.boolean, none, none)
  | .datetime => (.datetime, none, none)
  | .date => (.date, none, none)
  | .untyped => (.json, none, none)

/-- The fields that no source supplies. The builder has no data type for an id. -/
def platformShapes : TargetModel → List (String × Option Shape)
  | .storeSkuSaleEvent =>
    [("id", none), ("tenant_id", none), ("store_id", none),
      ("tax_treatment", some (.vocab ["INCLUSIVE", "EXCLUSIVE"])),
      ("store_sku_current_position_id", none), ("related_sale_event_id", none),
      ("source_id", some (.text 128)), ("source_event_id", some (.text 256)),
      ("mapping_version_id", some .integer), ("trace_id", none), ("dis_channel", some (.text 32)),
      ("last_updated_at", some .datetime), ("ingest_metadata", some .untyped)]
  | .storeSkuChangeEvent =>
    [("id", none), ("tenant_id", none), ("store_id", none),
      ("store_sku_current_position_id", none), ("numeric_value_before", some (.decimal 14 4)),
      ("numeric_value_after", some (.decimal 14 4)), ("numeric_change", some (.decimal 14 4)),
      ("source_id", some (.text 128)), ("source_event_id", some (.text 256)),
      ("mapping_version_id", some .integer), ("trace_id", none), ("dis_channel", some (.text 32)),
      ("last_updated_at", some .datetime), ("ingest_metadata", some .untyped)]
  | .storeSkuCurrentPosition =>
    [("id", none), ("tenant_id", none), ("store_id", none),
      ("yesterday_retail_price", some (.decimal 12 4)), ("velocity_7day", some (.decimal 10 4)),
      ("stock_age_days", some .integer), ("unit_cost_trend_30day", some (.decimal 12 4)),
      ("attribute_staleness_map", some .untyped), ("last_source_event_at", some .datetime),
      ("mapping_version_id", some .integer), ("trace_id", none), ("dis_channel", some (.text 32)),
      ("last_updated_at", some .datetime), ("ingest_metadata", some .untyped)]

/-- `model.model_fields`, in no particular order -/
def modelFields (model : TargetModel) : List String :=
  (columnShapes model).map Prod.fst ++ (platformShapes model).map Prod.fst

example : ∀ model ∈ [TargetModel.storeSkuSaleEvent, .storeSkuChangeEvent, .storeSkuCurrentPosition],
    (modelFields model).Perm (insertColumns model ++ ["last_updated_at"]) := by decide

/-- `reflect_field_shape`, of a field of the model -/
def reflectFieldShape (model : TargetModel) (name : String) :
    Except Exn (FieldDatatype × Option ℤ × Option ℤ) :=
  match columnShape model name, lookup name (platformShapes model) with
  | some c, _ => .ok (fieldShape c.shape)
  | none, some (some shape) => .ok (fieldShape shape)
  | none, _ => .error (.other "FieldCatalogDriftError")

/-! ### The translation -/

/-- `_DATE_TOKEN_TO_STRPTIME` -/
def dateTokens : List (String × String) :=
  [("DD-MM-YYYY", "%d-%m-%Y"), ("DD/MM/YYYY", "%d/%m/%Y"), ("MM/DD/YYYY", "%m/%d/%Y"),
    ("YYYY-MM-DD", "%Y-%m-%d"), ("DD-MM-YY", "%d-%m-%y")]

/-- `date_token_to_strptime` -/
def dateTokenToStrptime (token : String) : Except Exn String :=
  match lookup token dateTokens with
  | some code => .ok code
  | none => .error (.mappingConfig none)

/-- The specification of an operation with its arguments. -/
def specOf (op : String) (args : List (String × Json)) : TransformSpec := ⟨op, .ofList args⟩

/-- The two separators of a number, as they are declared. -/
def separators (column : MappingColumn) : List (String × Json) :=
  [("decimal_separator", column.srcDecimalSeparator.elim .null fun s => dumpText s.text),
    ("thousands_separator", column.srcThousandSeparator.elim .null fun s => dumpText s.text)]

/-- `_normalize_ops` -/
def normalizeOps (column : MappingColumn) (datatype : FieldDatatype) :
    Except Exn (List TransformSpec) :=
  match datatype with
  | .date =>
    match column.srcDatetimeFormat with
    | some token => do
      return [specOf "parse_date" [("format", dumpText (← dateTokenToStrptime token))]]
    | none => .ok []
  | .datetime =>
    match column.srcDatetimeFormat with
    | some token => do
      return [specOf "parse_datetime" [("format", dumpText (← dateTokenToStrptime token)),
        ("timezone", dumpText "UTC")]]
    | none => .ok []
  | .number =>
    if column.srcIsPercentage = some true then .ok [specOf "parse_percent" (separators column)]
    else if column.srcDecimalSeparator.isSome then
      .ok [specOf "parse_decimal" (separators column)]
    else .ok []
  | _ => .ok []

/-- `_CAST_TYPE_BY_DATATYPE` -/
def castTypeByDatatype : FieldDatatype → Option CastName
  | .text | .choice => some .string
  | .integer => some .integer
  | .number => some .decimal
  | .date => some .date
  | .datetime => some .datetime
  | .boolean => some .boolean
  | .json => none

/-- `_cast_spec`; only a decimal is rendered with its precision and scale -/
def castSpec (datatype : FieldDatatype) (precision scale : Option ℤ) : Except Exn CastSpec :=
  match castTypeByDatatype datatype with
  | none => .error (.mappingConfig none)
  | some .decimal => .ok ⟨.decimal, precision, scale⟩
  | some type => .ok ⟨type, none, none⟩

/-- The dictionaries the loop over the columns fills. -/
structure Translated where
  rename : Dict String String
  normalize : Dict String (List TransformSpec)
  cast : Dict String CastSpec

/-- One turn of the loop. -/
def translateColumn (model : TargetModel) (t : Translated) (column : MappingColumn) :
    Except Exn Translated :=
  if column.destKey = ignore then .ok t
  else
    let rename := t.rename.set column.srcKey column.destKey
    if (modelFields model).contains column.destKey then do
      let (datatype, precision, scale) ← reflectFieldShape model column.destKey
      let ops ← normalizeOps column datatype
      let cast ← castSpec datatype precision scale
      return ⟨rename, if ops.isEmpty then t.normalize else t.normalize.set column.destKey ops,
        t.cast.set column.destKey cast⟩
    else .ok { t with rename := rename }

def renderCast (spec : CastSpec) : Json :=
  if spec.type = .decimal then dumpCast spec else .obj [(pyStr "type", dumpText spec.type.text)]

/-- The document of the dictionaries. -/
def render (t : Translated) : Json :=
  .obj [(pyStr "version", .int 1), (pyStr "rename", dumpDict dumpText t.rename),
    (pyStr "normalize", dumpDict (fun specs => .arr (specs.map dumpTransform)) t.normalize),
    (pyStr "cast", dumpDict renderCast t.cast), (pyStr "derive", .obj [])]

/-- `translate_columns_to_mapping_rules` -/
def translateColumnsToMappingRules (body : MappingTemplateCreate) : Except Exn Json :=
  match templateType? body.templateType with
  | none => .error (.other "KeyError")
  | some type => do
    return render (← body.columns.foldlM (translateColumn (modelForTemplateType type))
      ⟨.empty, .empty, .empty⟩)

/-! ### What is stored -/

/-- A cast as it is read back. -/
def heldCast (spec : CastSpec) : CastSpec :=
  if spec.type = .decimal then spec else ⟨spec.type, none, none⟩

lemma parseCast_renderCast (lax : Json → Option ℤ) (spec : CastSpec) :
    parseCast lax (renderCast spec) = .ok (heldCast spec) := by
  unfold renderCast heldCast
  split_ifs with h
  · exact parseCast_dumpCast lax spec
  · simp [parseCast, parseFields, parseMember, lookup, accept, bind, Except.bind, pure, Except.pure]

lemma parseDocument_render (lax : Json → Option ℤ) (t : Translated) :
    parseDocument lax (render t) =
      .ok ⟨1, t.rename, t.normalize, t.cast.map heldCast, .empty⟩ := by
  have hrename : parseDict parseText (dumpDict dumpText t.rename) = .ok t.rename :=
    parseDict_dumpDict fun _ _ => parseText_dumpText _
  have hcast : parseDict (parseCast lax) (dumpDict renderCast t.cast) =
      .ok (t.cast.map heldCast) := parseDict_dumpDict_map fun _ _ => parseCast_renderCast lax _
  have hnormalize : parseDict (parseList parseTransform)
      (dumpDict (fun specs => .arr (specs.map dumpTransform)) t.normalize) = .ok t.normalize :=
    parseDict_dumpDict fun _ _ => parseTransforms_dumpTransforms _
  have hderive : parseDict (parseList parseTransform) (.obj []) =
      .ok (.empty : Dict String (List TransformSpec)) := rfl
  simp [parseDocument, render, parseFields, parseMember, lookup, hrename, hcast, hnormalize,
    hderive, parseInt, bind, Except.bind, pure, Except.pure]

lemma stored_eq {lax : Json → Option ℤ} {upper : String → String} {t : Translated}
    {templateType : String} {d : Document} {rules : Rules}
    (h : validateMappingRulesForType lax upper (render t) templateType = .ok (d, rules)) :
    d.rename = t.rename ∧ d.normalize = t.normalize := by
  unfold validateMappingRulesForType at h
  split at h
  · cases h
  · obtain ⟨⟨d', rules'⟩, hparse, h⟩ := of_bind_eq_ok h
    have heq : (d', rules') = (d, rules) := by
      simp only at h
      split_ifs at h
      exact Except.ok.inj h
    cases heq
    unfold parseMappingRules at hparse
    split at hparse
    · cases hparse
    · cases hparse
    · rename_i d' rules' hvalid
      split_ifs at hparse
      cases hparse
      obtain ⟨d', hdoc, hrules⟩ := of_bind_eq_ok hvalid
      obtain ⟨r, -, heq⟩ := of_bind_eq_ok hrules
      cases heq
      rw [parseDocument_render] at hdoc
      cases hdoc
      exact ⟨rfl, rfl⟩

/-! ### What the loop fills in -/

variable {model : TargetModel} {columns : List MappingColumn} {t : Translated}

/-- The data type of a destination, if it has one. -/
def datatypeOf (model : TargetModel) (dest : String) : Option FieldDatatype :=
  if (modelFields model).contains dest then
    ((reflectFieldShape model dest).toOption).map Prod.fst
  else none

/-- A column gives an operation for its destination. -/
def emits (model : TargetModel) (c : MappingColumn) : Bool :=
  match datatypeOf model c.destKey with
  | some .date | some .datetime => c.srcDatetimeFormat.isSome
  | some .number => c.srcIsPercentage = some true || c.srcDecimalSeparator.isSome
  | _ => false

/-- The last column that gives an operation for a destination. -/
def speaker (model : TargetModel) (columns : List MappingColumn) (dest : String) :
    Option MappingColumn :=
  (columns.filter fun c => c.destKey = dest && emits model c).getLast?

/-- The pairs of the columns that are not ignored. -/
def pairs (columns : List MappingColumn) : List (String × String) :=
  (columns.filter fun c => c.destKey ≠ ignore).map fun c => (c.srcKey, c.destKey)

/-- The operations that a destination has are those of its speaker. -/
def Spoken (model : TargetModel) (speaker : Option MappingColumn)
    (ops : Option (List TransformSpec)) : Prop :=
  (speaker = none ∧ ops = none) ∨ ∃ c datatype ops', speaker = some c ∧ emits model c = true ∧
    datatypeOf model c.destKey = some datatype ∧ normalizeOps c datatype = .ok ops' ∧
    ops = some ops'

lemma isEmpty_normalizeOps {c : MappingColumn} {datatype : FieldDatatype}
    {ops : List TransformSpec} (hd : datatypeOf model c.destKey = some datatype)
    (h : normalizeOps c datatype = .ok ops) : ops.isEmpty = !emits model c := by
  -- dates and datetimes emit exactly when the column has a format token
  have htoken : ∀ {f : String → TransformSpec} {ops : List TransformSpec},
      (match c.srcDatetimeFormat with
        | some token => do return [f (← dateTokenToStrptime token)]
        | none => .ok [] : Except Exn (List TransformSpec)) = .ok ops →
      ops.isEmpty = !c.srcDatetimeFormat.isSome := by
    intro f ops hops
    cases hf : c.srcDatetimeFormat with
    | none =>
      rw [hf] at hops
      cases hops
      rfl
    | some token =>
      rw [hf] at hops
      obtain ⟨code, -, hops⟩ := of_bind_eq_ok hops
      cases hops
      rfl
  unfold emits
  rw [hd]
  cases datatype with
  | date => exact htoken h
  | datetime => exact htoken (f := fun code => specOf "parse_datetime"
      [("format", dumpText code), ("timezone", dumpText "UTC")]) h
  | number =>
    simp only [normalizeOps] at h
    split_ifs at h with hpercent hdecimal <;> cases h <;> simp_all
  | text | choice | integer | boolean | json =>
    cases h
    rfl

lemma speaker_snoc (columns : List MappingColumn) (c : MappingColumn) (dest : String) :
    speaker model (columns ++ [c]) dest =
      if c.destKey = dest ∧ emits model c = true then some c else speaker model columns dest := by
  unfold speaker
  rw [List.filter_append]
  by_cases h : c.destKey = dest ∧ emits model c = true
  · rw [if_pos h]
    simp [h.1, h.2]
  · rw [if_neg h]
    have hno : (decide (c.destKey = dest) && emits model c) = false := by
      rw [← Bool.not_eq_true, Bool.and_eq_true, decide_eq_true_eq]
      exact h
    simp [hno]

lemma pairs_snoc (columns : List MappingColumn) (c : MappingColumn) : pairs (columns ++ [c]) =
    pairs columns ++ if c.destKey = ignore then [] else [(c.srcKey, c.destKey)] := by
  unfold pairs
  rw [List.filter_append, List.map_append]
  by_cases h : c.destKey = ignore <;> simp [h]

lemma translateColumn_eq_ok {t' : Translated} {c : MappingColumn}
    (h : translateColumn model t c = .ok t') :
    t'.rename = (if c.destKey = ignore then t.rename else t.rename.set c.srcKey c.destKey) ∧
      ((c.destKey = ignore ∨ datatypeOf model c.destKey = none) ∧ t'.normalize = t.normalize ∨
        ∃ datatype ops, c.destKey ≠ ignore ∧ datatypeOf model c.destKey = some datatype ∧
          normalizeOps c datatype = .ok ops ∧
          t'.normalize = if ops.isEmpty then t.normalize else t.normalize.set c.destKey ops) := by
  unfold translateColumn at h
  split_ifs at h with hignore hfield
  · cases h
    exact ⟨(if_pos hignore).symm, .inl ⟨.inl hignore, rfl⟩⟩
  · obtain ⟨⟨datatype, precision, scale⟩, hshape, h⟩ := of_bind_eq_ok h
    obtain ⟨ops, hops, h⟩ := of_bind_eq_ok h
    obtain ⟨cast, -, h⟩ := of_bind_eq_ok h
    cases h
    refine ⟨(if_neg hignore).symm, .inr ⟨datatype, ops, hignore, ?_, hops, rfl⟩⟩
    rw [datatypeOf, if_pos hfield, hshape]
    rfl
  · cases h
    exact ⟨(if_neg hignore).symm, .inl ⟨.inr (if_neg hfield), rfl⟩⟩

lemma datatypeOf_ignore (model : TargetModel) : datatypeOf model ignore = none := by
  cases model <;> decide

/-- **What the loop fills in**: the pairs, and for each destination the operations of its
speaker. -/
theorem translate_loop (h : columns.foldlM (translateColumn model) ⟨.empty, .empty, .empty⟩ =
    .ok t) : t.rename = .ofList (pairs columns) ∧
      ∀ dest, Spoken model (speaker model columns dest) (t.normalize.get? dest) := by
  induction columns using List.reverseRecOn generalizing t with
  | nil =>
    cases h
    exact ⟨rfl, fun _ => .inl ⟨rfl, rfl⟩⟩
  | append_singleton columns c ih =>
    rw [List.foldlM_append] at h
    obtain ⟨before, hbefore, h⟩ := of_bind_eq_ok h
    rw [List.foldlM_cons] at h
    obtain ⟨after, hafter, h⟩ := of_bind_eq_ok h
    cases h
    obtain ⟨hrename, hspoken⟩ := ih hbefore
    obtain ⟨hset, hnormalize⟩ := translateColumn_eq_ok hafter
    refine ⟨?_, fun dest => ?_⟩
    · rw [hset, hrename, pairs_snoc]
      split_ifs
      · rw [List.append_nil]
      · rw [Dict.ofList_snoc]
    · rw [speaker_snoc]
      rcases hnormalize with ⟨hnone, hsame⟩ | ⟨datatype, ops, hignore, hd, hops, hnew⟩
      · have hd : datatypeOf model c.destKey = none := by
          rcases hnone with hignore | hd
          · rw [hignore, datatypeOf_ignore]
          · exact hd
        have hemits : emits model c = false := by rw [emits, hd]
        rw [if_neg (by simp [hemits]), hsame]
        exact hspoken dest
      · -- a column that emits operations speaks for its destination over the columns before it
        have hempty := isEmpty_normalizeOps hd hops
        rw [hnew]
        by_cases hemits : emits model c = true
        · have hfull : ops.isEmpty = false := by
            rw [hempty, hemits]
            rfl
          rw [hfull, if_neg Bool.false_ne_true]
          by_cases hdest : c.destKey = dest
          · subst hdest
            rw [if_pos ⟨rfl, hemits⟩]
            exact .inr ⟨c, datatype, ops, rfl, hemits, hd, hops, by simp⟩
          · rw [if_neg fun hboth => hdest hboth.1]
            rw [Dict.get?_set_ne _ _ hdest]
            exact hspoken dest
        · have hnil : ops.isEmpty = true := by
            rw [hempty, Bool.eq_false_of_not_eq_true hemits]
            rfl
          rw [hnil, if_pos rfl, if_neg fun hboth => hemits hboth.2]
          exact hspoken dest

/-! ### Declarations in operations -/

/-- The format declarations of a column are in operations. -/
structure Carries (ops : List TransformSpec) (c : MappingColumn) : Prop where
  token : ∀ token, c.srcDatetimeFormat = some token → ∃ op ∈ ops, ∃ code,
    dateTokenToStrptime token = .ok code ∧ op.args.get? "format" = some (dumpText code)
  decimal : ∀ s, c.srcDecimalSeparator = some s →
    ∃ op ∈ ops, op.args.get? "decimal_separator" = some (dumpText s.text)
  thousand : ∀ s, c.srcThousandSeparator = some s →
    ∃ op ∈ ops, op.args.get? "thousands_separator" = some (dumpText s.text)
  percentage : ∀ b, c.srcIsPercentage = some b → (b = true ↔ ∃ op ∈ ops, op.op = "parse_percent")

/-- The declarations of a column suit its destination, and its speaker makes them too. -/
structure Honoured (model : TargetModel) (columns : List MappingColumn) (c : MappingColumn) :
    Prop where
  token : ∀ token, c.srcDatetimeFormat = some token →
    (datatypeOf model c.destKey = some .date ∨ datatypeOf model c.destKey = some .datetime) ∧
      ∃ e, speaker model columns c.destKey = some e ∧ e.srcDatetimeFormat = some token
  decimal : ∀ s, c.srcDecimalSeparator = some s → datatypeOf model c.destKey = some .number ∧
    ∃ e, speaker model columns c.destKey = some e ∧ e.srcDecimalSeparator = some s
  thousand : ∀ s, c.srcThousandSeparator = some s → datatypeOf model c.destKey = some .number ∧
    ∃ e, speaker model columns c.destKey = some e ∧ e.srcThousandSeparator = some s
  percentage : ∀ b, c.srcIsPercentage = some b → (b = true ↔
    datatypeOf model c.destKey = some .number ∧
      ∃ e, speaker model columns c.destKey = some e ∧ e.srcIsPercentage = some true)

lemma dumpText_injective : Function.Injective dumpText := fun _ _ h =>
  PyValue.pyStr_injective (Json.str.inj h)

lemma decimalSeparator_text_injective : Function.Injective DecimalSeparator.text := by
  intro a b
  cases a <;> cases b <;> decide

lemma thousandSeparator_text_injective : Function.Injective ThousandSeparator.text := by
  intro a b
  cases a <;> cases b <;> decide

lemma dateToken_injective {token token' code : String}
    (h : dateTokenToStrptime token = .ok code) (h' : dateTokenToStrptime token' = .ok code) :
    token = token' := by
  have hmem : ∀ {token}, dateTokenToStrptime token = .ok code → (token, code) ∈ dateTokens := by
    intro token h
    unfold dateTokenToStrptime at h
    split at h
    · rename_i heq
      cases h
      exact mem_of_lookup heq
    · cases h
  have hall : ∀ a ∈ dateTokens, ∀ b ∈ dateTokens, a.2 = b.2 → a.1 = b.1 := by decide
  exact hall _ (hmem h) _ (hmem h') rfl

lemma rendered_separator {σ : Type} {text : σ → String} (htext : Function.Injective text)
    (o : Option σ) (s : σ) :
    (o.elim Json.null fun s => dumpText (text s)) = dumpText (text s) ↔ o = some s := by
  cases o with
  | none => exact iff_of_false (fun h => by cases h) (by simp)
  | some s' =>
    rw [Option.elim_some, Option.some.injEq]
    exact ⟨fun h => htext (dumpText_injective h), fun h => by rw [h]⟩

/-- What the operations of a column say of it. -/
structure Says (ops : List TransformSpec) (datatype : FieldDatatype) (e : MappingColumn) :
    Prop where
  token : ∀ token, (∃ op ∈ ops, ∃ code, dateTokenToStrptime token = .ok code ∧
    op.args.get? "format" = some (dumpText code)) ↔
      (datatype = .date ∨ datatype = .datetime) ∧ e.srcDatetimeFormat = some token
  decimal : ∀ s : DecimalSeparator,
    (∃ op ∈ ops, op.args.get? "decimal_separator" = some (dumpText s.text)) ↔
      datatype = .number ∧ e.srcDecimalSeparator = some s
  thousand : ∀ s : ThousandSeparator,
    (∃ op ∈ ops, op.args.get? "thousands_separator" = some (dumpText s.text)) ↔
      datatype = .number ∧ e.srcThousandSeparator = some s
  percentage : (∃ op ∈ ops, op.op = "parse_percent") ↔
    datatype = .number ∧ e.srcIsPercentage = some true

lemma says_date {name code token : String} {rest : List (String × Json)} {e : MappingColumn}
    {datatype : FieldDatatype} (hd : datatype = .date ∨ datatype = .datetime)
    (htoken : e.srcDatetimeFormat = some token) (hcode : dateTokenToStrptime token = .ok code)
    (hname : name ≠ "parse_percent")
    (hformat : (specOf name rest).args.get? "format" = some (dumpText code))
    (hdecimal : (specOf name rest).args.get? "decimal_separator" = none)
    (hthousand : (specOf name rest).args.get? "thousands_separator" = none) :
    Says [specOf name rest] datatype e := by
  have hnumber : datatype ≠ .number := by
    rintro rfl
    simp at hd
  refine ⟨fun token' => ?_, fun s => ?_, fun s => ?_, ?_⟩
  · rw [htoken, Option.some.injEq]
    simp only [List.mem_singleton, exists_eq_left, hformat, Option.some.injEq]
    constructor
    · rintro ⟨code', hcode', hsame⟩
      rw [← dumpText_injective hsame] at hcode'
      exact ⟨hd, dateToken_injective hcode hcode'⟩
    · rintro ⟨-, rfl⟩
      exact ⟨code, hcode, rfl⟩
  · simp [hdecimal, hnumber]
  · simp [hthousand, hnumber]
  · simp [specOf, hname, hnumber]

lemma says_number {name : String} {e : MappingColumn}
    (hname : name = "parse_percent" ↔ e.srcIsPercentage = some true) :
    Says [specOf name (separators e)] .number e := by
  have hformat : (specOf name (separators e)).args.get? "format" = none := rfl
  have hdecimal : (specOf name (separators e)).args.get? "decimal_separator" =
    some (e.srcDecimalSeparator.elim .null fun s => dumpText s.text) := rfl
  have hthousand : (specOf name (separators e)).args.get? "thousands_separator" =
    some (e.srcThousandSeparator.elim .null fun s => dumpText s.text) := rfl
  refine ⟨fun token => ?_, fun s => ?_, fun s => ?_, ?_⟩
  · simp [hformat]
  · simp only [List.mem_singleton, exists_eq_left, hdecimal, Option.some.injEq, true_and]
    exact rendered_separator decimalSeparator_text_injective _ s
  · simp only [List.mem_singleton, exists_eq_left, hthousand, Option.some.injEq, true_and]
    exact rendered_separator thousandSeparator_text_injective _ s
  · simp [specOf, hname]

/-- The operations of a column that emits say what it declares, as far as they suit the data
type. -/
lemma says_of_emits {e : MappingColumn} {datatype : FieldDatatype} {ops : List TransformSpec}
    (hemits : emits model e = true) (hd : datatypeOf model e.destKey = some datatype)
    (h : normalizeOps e datatype = .ok ops) : Says ops datatype e := by
  unfold emits at hemits
  rw [hd] at hemits
  cases datatype with
  | date =>
    obtain ⟨token, htoken⟩ := Option.isSome_iff_exists.mp hemits
    simp only [normalizeOps, htoken] at h
    obtain ⟨code, hcode, h⟩ := of_bind_eq_ok h
    cases h
    exact says_date (.inl rfl) htoken hcode (by decide) rfl rfl rfl
  | datetime =>
    obtain ⟨token, htoken⟩ := Option.isSome_iff_exists.mp hemits
    simp only [normalizeOps, htoken] at h
    obtain ⟨code, hcode, h⟩ := of_bind_eq_ok h
    cases h
    exact says_date (.inr rfl) htoken hcode (by decide) rfl rfl rfl
  | number =>
    simp only [normalizeOps] at h
    split_ifs at h with hpercent hdecimal
    · cases h
      exact says_number (iff_of_true rfl hpercent)
    · cases h
      exact says_number (iff_of_false (by decide) hpercent)
    · simp [hpercent, hdecimal] at hemits
  | text | choice | integer | boolean | json => cases hemits

lemma carries_iff {c : MappingColumn} {ops : Option (List TransformSpec)}
    (h : Spoken model (speaker model columns c.destKey) ops) :
    Carries (ops.getD []) c ↔ Honoured model columns c := by
  rcases h with ⟨hnone, rfl⟩ | ⟨e, datatype, ops', hspeaker, hemits, hd, hops, rfl⟩
  · constructor
    · intro hc
      exact ⟨fun t ht => by simpa using hc.token t ht, fun s hs => by simpa using hc.decimal s hs,
        fun s hs => by simpa using hc.thousand s hs,
        fun b hb => by simpa [hnone] using hc.percentage b hb⟩
    · intro hh
      exact ⟨fun t ht => by simpa [hnone] using hh.token t ht,
        fun s hs => by simpa [hnone] using hh.decimal s hs,
        fun s hs => by simpa [hnone] using hh.thousand s hs,
        fun b hb => by simpa [hnone] using hh.percentage b hb⟩
  · -- the operations are those of the speaker `e`, which need not be the column `c`
    have hdest : e.destKey = c.destKey := by
      have hmem := List.mem_of_getLast? hspeaker
      rw [List.mem_filter, Bool.and_eq_true, decide_eq_true_eq] at hmem
      exact hmem.2.1
    rw [hdest] at hd
    have hspoken := says_of_emits hemits (hdest ▸ hd) hops
    rw [Option.getD_some]
    constructor
    · intro hc
      refine ⟨fun t ht => ?_, fun s hs => ?_, fun s hs => ?_, fun b hb => ?_⟩
      · simpa [hspeaker, hd] using (hspoken.token t).mp (hc.token t ht)
      · simpa [hspeaker, hd] using (hspoken.decimal s).mp (hc.decimal s hs)
      · simpa [hspeaker, hd] using (hspoken.thousand s).mp (hc.thousand s hs)
      · rw [hc.percentage b hb, hspoken.percentage]
        simp [hspeaker, hd]
    · intro hh
      refine ⟨fun t ht => ?_, fun s hs => ?_, fun s hs => ?_, fun b hb => ?_⟩
      · exact (hspoken.token t).mpr (by simpa [hspeaker, hd] using hh.token t ht)
      · exact (hspoken.decimal s).mpr (by simpa [hspeaker, hd] using hh.decimal s hs)
      · exact (hspoken.thousand s).mpr (by simpa [hspeaker, hd] using hh.thousand s hs)
      · rw [hh.percentage b hb, hspoken.percentage]
        simp [hspeaker, hd]

/-! ### The law -/

/-- What is stored says what the columns say. -/
structure Faithful (columns : List MappingColumn) (d : Document) : Prop where
  rename : ∀ src dest, d.rename.get? src = some dest ↔
    ∃ c ∈ columns, c.destKey ≠ ignore ∧ c.srcKey = src ∧ c.destKey = dest
  carries : ∀ c ∈ columns, c.destKey ≠ ignore → Carries ((d.normalize.get? c.destKey).getD []) c

/-- No header has two destinations. -/
def OneDestination (columns : List MappingColumn) : Prop :=
  ∀ c ∈ columns, ∀ c' ∈ columns, c.destKey ≠ ignore → c'.destKey ≠ ignore →
    c.srcKey = c'.srcKey → c.destKey = c'.destKey

lemma mem_pairs {src dest : String} : (src, dest) ∈ pairs columns ↔
    ∃ c ∈ columns, c.destKey ≠ ignore ∧ c.srcKey = src ∧ c.destKey = dest := by
  simp [pairs, and_assoc]

lemma rename_iff : (∀ src dest, (Dict.ofList (pairs columns)).get? src = some dest ↔
    ∃ c ∈ columns, c.destKey ≠ ignore ∧ c.srcKey = src ∧ c.destKey = dest) ↔
      OneDestination columns := by
  constructor
  · intro h c hc c' hc' hne hne' hsrc
    have hget := (h c.srcKey c.destKey).mpr ⟨c, hc, hne, rfl, rfl⟩
    have hget' := (h c.srcKey c'.destKey).mpr ⟨c', hc', hne', hsrc.symm, rfl⟩
    exact Option.some.inj (hget.symm.trans hget')
  · intro h src dest
    constructor
    · exact fun hget => mem_pairs.mp (Dict.mem_of_get?_ofList hget)
    · rintro ⟨c, hc, hne, rfl, rfl⟩
      have hkey : c.srcKey ∈ (Dict.ofList (pairs columns)).keys :=
        (Dict.mem_keys_ofList _ _).mpr
          (List.mem_map_of_mem (mem_pairs.mpr ⟨c, hc, hne, rfl, rfl⟩))
      cases hget : (Dict.ofList (pairs columns)).get? c.srcKey with
      | none => exact absurd hkey ((Dict.get?_eq_none _ _).mp hget)
      | some dest =>
        obtain ⟨c', hc', hne', hsrc, rfl⟩ := mem_pairs.mp (Dict.mem_of_get?_ofList hget)
        rw [h c' hc' c hc hne' hne hsrc]

/-- **When the translation is faithful.** A contract that is translated and accepted is stored
faithfully exactly when no header has two destinations, and every declaration suits its
destination and is made by the last column that gives an operation for it. -/
theorem translation_faithful_iff (lax : Json → Option ℤ) (upper : String → String)
    (body : MappingTemplateCreate) (type : TemplateType) (raw : Json) (d : Document)
    (rules : Rules) (htype : templateType? body.templateType = some type)
    (htranslate : translateColumnsToMappingRules body = .ok raw)
    (hgate : validateMappingRulesForType lax upper raw body.templateType = .ok (d, rules)) :
    Faithful body.columns d ↔ OneDestination body.columns ∧
      ∀ c ∈ body.columns, c.destKey ≠ ignore →
        Honoured (modelForTemplateType type) body.columns c := by
  rw [translateColumnsToMappingRules, htype] at htranslate
  obtain ⟨t, hloop, hraw⟩ := of_bind_eq_ok htranslate
  cases hraw
  obtain ⟨hrename, hspoken⟩ := translate_loop hloop
  obtain ⟨hstoredRename, hstoredNormalize⟩ := stored_eq hgate
  rw [← rename_iff]
  constructor
  · intro h
    refine ⟨fun src dest => ?_, fun c hc hne => (carries_iff (hspoken _)).mp ?_⟩
    · rw [← hrename, ← hstoredRename]
      exact h.rename src dest
    · rw [← hstoredNormalize]
      exact h.carries c hc hne
  · rintro ⟨hpairs, hhonoured⟩
    refine ⟨fun src dest => ?_, fun c hc hne => ?_⟩
    · rw [hstoredRename, hrename]
      exact hpairs src dest
    · rw [hstoredNormalize]
      exact (carries_iff (hspoken _)).mpr (hhonoured c hc hne)

/-- A column without declarations. -/
def plainColumn (srcKey destKey : String) (hsrc : srcKey ≠ "") (hdest : destKey ≠ "") :
    MappingColumn := ⟨srcKey, destKey, none, none, none, none, hsrc, hdest⟩

/-- A snapshot contract with one more column. -/
def snapshotContract (column : MappingColumn) : MappingTemplateCreate where
  templateType := "snapshot"
  columns := [plainColumn "SKU" "sku_id" (by decide) (by decide),
    plainColumn "Name" "product_name" (by decide) (by decide),
    plainColumn "Price" "current_retail_price" (by decide) (by decide), column]
  columns_ne := by simp

/-- The stock as a number with declared separators. -/
def stockColumn : MappingColumn :=
  ⟨"Stock", "stock_qty", none, some .point, some .comma, none, by decide, by decide⟩

/-- The lead time, with a separator of thousands. -/
def leadTimeColumn : MappingColumn :=
  ⟨"Lead time", "lead_time_days", none, none, some .comma, none, by decide, by decide⟩

/-- What is stored for a contract. -/
def stored (body : MappingTemplateCreate) : Except Exn (Document × Rules) := do
  validateMappingRulesForType (fun _ => none) id (← translateColumnsToMappingRules body)
    body.templateType

lemma exists_stored (body : MappingTemplateCreate) (h : (stored body).toOption.isSome = true) :
    ∃ raw d rules, translateColumnsToMappingRules body = .ok raw ∧
      validateMappingRulesForType (fun _ => none) id raw body.templateType = .ok (d, rules) := by
  cases hraw : translateColumnsToMappingRules body with
  | error e =>
    rw [stored, hraw] at h
    cases h
  | ok raw =>
    cases hgate : validateMappingRulesForType (fun _ => none) id raw body.templateType with
    | error e =>
      rw [stored, hraw, ok_bind, hgate] at h
      cases h
    | ok accepted => exact ⟨raw, accepted.1, accepted.2, rfl, hgate⟩

theorem stock_separators_stored : ∃ d rules,
    stored (snapshotContract stockColumn) = .ok (d, rules) ∧
      Faithful (snapshotContract stockColumn).columns d := by
  obtain ⟨raw, d, rules, htranslate, hgate⟩ :=
    exists_stored (snapshotContract stockColumn) (by decide +kernel)
  refine ⟨d, rules, by rw [stored, htranslate, ok_bind, hgate], ?_⟩
  refine (translation_faithful_iff (fun _ => none) id (snapshotContract stockColumn) .snapshot raw
    d rules rfl htranslate hgate).mpr ⟨by unfold OneDestination; decide +kernel, ?_⟩
  have hspeaker : speaker .storeSkuCurrentPosition (snapshotContract stockColumn).columns
      "stock_qty" = some stockColumn := by rfl
  have hnumber : datatypeOf .storeSkuCurrentPosition "stock_qty" = some .number := by decide +kernel
  intro c hc hne
  simp only [snapshotContract, List.mem_cons, List.not_mem_nil, or_false] at hc
  rcases hc with rfl | rfl | rfl | rfl
  · exact ⟨by simp [plainColumn], by simp [plainColumn], by simp [plainColumn],
      by simp [plainColumn]⟩
  · exact ⟨by simp [plainColumn], by simp [plainColumn], by simp [plainColumn],
      by simp [plainColumn]⟩
  · exact ⟨by simp [plainColumn], by simp [plainColumn], by simp [plainColumn],
      by simp [plainColumn]⟩
  · exact ⟨by simp [stockColumn], fun s hs => ⟨hnumber, stockColumn, hspeaker, hs⟩,
      fun s hs => ⟨hnumber, stockColumn, hspeaker, hs⟩, by simp [stockColumn]⟩

/-- The separator of the lead time is accepted and not stored. -/
theorem lead_time_separator_dropped : ∃ d rules,
    stored (snapshotContract leadTimeColumn) = .ok (d, rules) ∧
      ¬ Faithful (snapshotContract leadTimeColumn).columns d := by
  obtain ⟨raw, d, rules, htranslate, hgate⟩ :=
    exists_stored (snapshotContract leadTimeColumn) (by decide +kernel)
  refine ⟨d, rules, by rw [stored, htranslate, ok_bind, hgate], fun h => ?_⟩
  obtain ⟨t, hloop, hraw⟩ := of_bind_eq_ok htranslate
  cases hraw
  have hnone : (t.normalize.get? "lead_time_days").isNone = true := by
    have hloop' : ((snapshotContract leadTimeColumn).columns.foldlM
        (translateColumn .storeSkuCurrentPosition) ⟨.empty, .empty, .empty⟩).toOption.all
          (fun t => (t.normalize.get? "lead_time_days").isNone) = true := by decide +kernel
    have heq : (snapshotContract leadTimeColumn).columns.foldlM
        (translateColumn .storeSkuCurrentPosition) ⟨.empty, .empty, .empty⟩ = .ok t := hloop
    rw [heq] at hloop'
    exact hloop'
  have hmem : leadTimeColumn ∈ (snapshotContract leadTimeColumn).columns := by
    simp [snapshotContract]
  obtain ⟨op, hop, -⟩ := (h.carries leadTimeColumn hmem (by decide)).thousand .comma rfl
  have hops : (d.normalize.get? leadTimeColumn.destKey).getD [] = [] := by
    rw [(stored_eq hgate).2]
    have hget : t.normalize.get? leadTimeColumn.destKey = none := Option.isNone_iff_eq_none.mp hnone
    rw [hget]
    rfl
  rw [hops] at hop
  cases hop

end CortexDis.ContractTranslation
