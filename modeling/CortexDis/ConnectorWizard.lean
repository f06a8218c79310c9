import CortexDis.PyDict

/-!
The state machine of the Add Source wizard.

A record of the state is a dictionary of its own properties, spread and assigned as an object
literal is. A read of a missing property finds the members every object inherits, so a source
field may be called `constructor`.
-/

namespace CortexDis.ConnectorWizard

open CortexDis.PyDict

inductive Branch
  | pos | csv
  deriving DecidableEq, Repr

inductive StepKey
  | source | connect | authorized | locations | dataSync | mapping | preview | live
  | upload | templateType | created
  deriving DecidableEq, Repr

/-- `POS_FLOW` -/
def posFlow : List StepKey :=
  [.source, .connect, .authorized, .locations, .dataSync, .mapping, .preview, .live]

/-- `CSV_FLOW` -/
def csvFlow : List StepKey := [.source, .upload, .templateType, .mapping, .preview, .created]

def flowFor (branch : Option Branch) : List StepKey :=
  if branch = some .csv then csvFlow else posFlow

inductive ConnectorKey
  | shopify | square | clover
  deriving DecidableEq, Repr

inductive ConnectorAuthMethod
  | oauth | apiToken
  deriving DecidableEq, Repr

inductive ConnectorDataType
  | orders | products | inventory
  deriving DecidableEq, Repr

inductive SyncCadence
  | realtime | hourly | daily
  deriving DecidableEq, Repr

inductive LocaleKey
  | us | eu | swiss
  deriving DecidableEq, Repr

inductive FieldDatatype
  | text | integer | number | date | datetime | boolean | choice | json
  deriving DecidableEq, Repr

structure ConnectorAccount where
  businessName : String
  accountId : String
  readOnly : Bool
  tokenStored : Bool

structure LocationMapping where
  checked : Bool
  storeId : String
  deriving DecidableEq

structure CsvColumnFormat where
  datetimeFormat : Option String
  isPercentage : Option Bool

structure LiveConnectorSource where
  id : String
  connector : ConnectorKey
  sourceName : String
  live : Bool
  lastSyncAt : Option String
  recordsSynced : ℕ

structure CreatedTemplate where
  templateId : String
  templateName : String
  templateType : String
  activeVersion : Option ℕ
  draftVersion : Option ℕ

structure ConnectorMappingField where
  sourceField : String
  suggestedTarget : Option String

structure ConnectorWizardState where
  branch : Option Branch
  stepIndex : ℤ
  connector : Option ConnectorKey
  sourceName : String
  authMethod : ConnectorAuthMethod
  preAuth : Dict String String
  tokenFields : Dict String String
  account : Option ConnectorAccount
  locations : Dict String LocationMapping
  dataTypes : List ConnectorDataType
  cadence : SyncCadence
  csvFileName : String
  csvAnalysisReady : Bool
  mappingOverrides : Dict String String
  ignored : Dict String Bool
  templateType : String
  csvLocale : LocaleKey
  csvColumnFormat : Dict String CsvColumnFormat
  liveSource : Option LiveConnectorSource
  createdTemplate : Option CreatedTemplate

def initialConnectorWizardState : ConnectorWizardState where
  branch := none
  stepIndex := 0
  connector := none
  sourceName := ""
  authMethod := .oauth
  preAuth := .empty
  tokenFields := .empty
  account := none
  locations := .empty
  dataTypes := [.orders]
  cadence := .daily
  csvFileName := ""
  csvAnalysisReady := false
  mappingOverrides := .empty
  ignored := .empty
  templateType := ""
  csvLocale := .us
  csvColumnFormat := .empty
  liveSource := none
  createdTemplate := none

inductive ConnectorWizardAction
  | selectConnector (connector : ConnectorKey)
  | selectCsv
  | setSourceName (value : String)
  | setAuthMethod (method : ConnectorAuthMethod)
  | setPreAuthField (name value : String)
  | setTokenField (name value : String)
  | setAccount (account : ConnectorAccount)
  | setLocationChecked (locationId : String) (checked : Bool)
  | setLocationStore (locationId storeId : String)
  | toggleDataType (dataType : ConnectorDataType)
  | setCadence (cadence : SyncCadence)
  | setCsvFile (fileName : String)
  | setCsvAnalysisReady
  | setMappingTarget (sourceField target : String)
  | toggleIgnore (sourceField : String)
  | setTemplateType (value : String)
  | setCsvLocale (locale : LocaleKey)
  | setCsvDatetimeFormat (sourceField format : String)
  | setCsvPercentage (sourceField : String) (isPercentage : Bool)
  | setLiveSource (source : LiveConnectorSource)
  | setCreatedTemplate (template : CreatedTemplate)
  | next
  | back

/-- The `length` of a member inherited from `Object.prototype`, zero where it has none; `none`
for a name that is no such member. -/
def inheritedLength (name : String) : Option ℕ :=
  if ["toString", "toLocaleString", "valueOf", "__proto__"].contains name then some 0
  else if ["constructor", "hasOwnProperty", "isPrototypeOf", "propertyIsEnumerable",
    "__lookupGetter__", "__lookupSetter__"].contains name then some 1
  else if ["__defineGetter__", "__defineSetter__"].contains name then some 2
  else none

/-- `ignored[field] ?? false`, as it is tested. An inherited member is true. -/
def isIgnored (state : ConnectorWizardState) (sourceField : String) : Bool :=
  (state.ignored.get? sourceField).getD (inheritedLength sourceField).isSome

def clampStep (index : ℤ) (flowLength : ℕ) : ℤ := max 0 (min (flowLength - 1) index)

def resetForSourceChange (state : ConnectorWizardState) : ConnectorWizardState :=
  { state with
    stepIndex := 0
    preAuth := .empty
    tokenFields := .empty
    account := none
    csvFileName := ""
    csvAnalysisReady := false
    mappingOverrides := .empty
    ignored := .empty
    templateType := ""
    csvLocale := .us
    csvColumnFormat := .empty
    liveSource := none
    createdTemplate := none }

/-- The declared formats of a field; an inherited member has no such property. -/
def formatOf (state : ConnectorWizardState) (sourceField : String) : CsvColumnFormat :=
  (state.csvColumnFormat.get? sourceField).getD ⟨none, none⟩

def connectorWizardReducer (state : ConnectorWizardState) :
    ConnectorWizardAction → ConnectorWizardState
  | .selectConnector connector =>
    { resetForSourceChange state with branch := some .pos, connector := some connector }
  | .selectCsv => { resetForSourceChange state with branch := some .csv, connector := none }
  | .setSourceName value => { state with sourceName := value }
  | .setAuthMethod method => { state with authMethod := method }
  | .setPreAuthField name value => { state with preAuth := state.preAuth.set name value }
  | .setTokenField name value => { state with tokenFields := state.tokenFields.set name value }
  | .setAccount account => { state with account := some account }
  | .setLocationChecked locationId checked =>
    let storeId := ((state.locations.get? locationId).map (·.storeId)).getD ""
    { state with locations := state.locations.set locationId ⟨checked, storeId⟩ }
  | .setLocationStore locationId storeId =>
    let checked := ((state.locations.get? locationId).map (·.checked)).getD true
    { state with locations := state.locations.set locationId ⟨checked, storeId⟩ }
  | .toggleDataType dataType =>
    { state with dataTypes :=
        if state.dataTypes.contains dataType then state.dataTypes.filter (· ≠ dataType)
        else state.dataTypes ++ [dataType] }
  | .setCadence cadence => { state with cadence := cadence }
  | .setCsvFile fileName => { state with csvFileName := fileName, csvAnalysisReady := false }
  | .setCsvAnalysisReady => { state with csvAnalysisReady := true }
  | .setMappingTarget sourceField target =>
    { state with mappingOverrides := state.mappingOverrides.set sourceField target }
  | .toggleIgnore sourceField =>
    { state with ignored := state.ignored.set sourceField (!isIgnored state sourceField) }
  | .setTemplateType value => { state with templateType := value }
  | .setCsvLocale locale => { state with csvLocale := locale }
  | .setCsvDatetimeFormat sourceField format =>
    let declared := { formatOf state sourceField with datetimeFormat := some format }
    { state with csvColumnFormat := state.csvColumnFormat.set sourceField declared }
  | .setCsvPercentage sourceField isPercentage =>
    let declared := { formatOf state sourceField with isPercentage := some isPercentage }
    { state with csvColumnFormat := state.csvColumnFormat.set sourceField declared }
  | .setLiveSource source => { state with liveSource := some source }
  | .setCreatedTemplate template => { state with createdTemplate := some template }
  | .next =>
    { state with stepIndex := clampStep (state.stepIndex + 1) (flowFor state.branch).length }
  | .back =>
    { state with stepIndex := clampStep (state.stepIndex - 1) (flowFor state.branch).length }

def currentStepKey (state : ConnectorWizardState) : Option StepKey :=
  (flowFor state.branch)[(clampStep state.stepIndex (flowFor state.branch).length).toNat]?

/-- What is read as the target of a field: a text, or an inherited member. -/
inductive Target
  | key (text : String)
  | inherited (name : String) (length : ℕ)
  deriving DecidableEq, Repr

def Target.length : Target → ℕ
  | .key text => text.length
  | .inherited _ length => length

def mappingTargetFor (state : ConnectorWizardState) (field : ConnectorMappingField) : Target :=
  match state.mappingOverrides.get? field.sourceField with
  | some target => .key target
  | none =>
    match inheritedLength field.sourceField with
    | some length => .inherited field.sourceField length
    | none => .key (field.suggestedTarget.getD "")

def activeMappingFields (state : ConnectorWizardState)
    (mappingFields : List ConnectorMappingField) : List ConnectorMappingField :=
  mappingFields.filter fun f => !isIgnored state f.sourceField

/-- White space, as `String.prototype.trim` takes it. -/
def isTrimmed (c : Char) : Bool :=
  let n := c.toNat
  (9 ≤ n && n ≤ 13) || n = 32 || n = 0xa0 || n = 0x1680 || (0x2000 ≤ n && n ≤ 0x200a) ||
    n = 0x2028 || n = 0x2029 || n = 0x202f || n = 0x205f || n = 0x3000 || n = 0xfeff

/-- `sourceName.trim().length > 0` -/
def named (state : ConnectorWizardState) : Bool := state.sourceName.toList.any (!isTrimmed ·)

/-- The gate of the locations step: one is checked, and each that is has a store. -/
def locationsReady (locations : Dict String LocationMapping) : Bool :=
  let checked := locations.values.filter (·.checked)
  0 < checked.length && checked.all fun l => 0 < l.storeId.length

def canAdvance (state : ConnectorWizardState) (mappingFields : List ConnectorMappingField) :
    Bool :=
  match currentStepKey state with
  | some .source => state.branch.isSome
  | some .connect => named state && state.account.isSome
  | some .authorized => state.account.isSome
  | some .locations => locationsReady state.locations
  | some .dataSync => 0 < state.dataTypes.length
  | some .upload => state.csvAnalysisReady && named state
  | some .templateType => 0 < state.templateType.length
  | some .mapping =>
    if mappingFields.length = 0 then false
    else (activeMappingFields state mappingFields).all fun f =>
      0 < (mappingTargetFor state f).length
  | some .preview => true
  | some .live => false
  | some .created => false
  | none => false

structure LocalePreset where
  key : LocaleKey
  decimal : Char
  thousand : Char

def localePreset : LocaleKey → LocalePreset
  | .us => ⟨.us, '.', ','⟩
  | .eu => ⟨.eu, ',', '.'⟩
  | .swiss => ⟨.swiss, '.', Char.ofNat 39⟩

/-- A column of the create body; the format members are optional, and the date format may be
present as null. -/
structure ConnectorColumn where
  srcKey : String
  destKey : Target
  srcDatetimeFormat : Option (Option String) := none
  srcDecimalSeparator : Option Char := none
  srcThousandSeparator : Option Char := none
  srcIsPercentage : Option Bool := none
  deriving DecidableEq

def assembleConnectorColumns (state : ConnectorWizardState)
    (mappingFields : List ConnectorMappingField)
    (datatypeByKey : Dict String (Option FieldDatatype)) (locale : LocalePreset) :
    List ConnectorColumn :=
  mappingFields.map fun field =>
    let srcKey := field.sourceField
    if isIgnored state srcKey then { srcKey := srcKey, destKey := .key "__ignore__" }
    else
      let destKey := mappingTargetFor state field
      let datatype := match destKey with
        | .key text => (datatypeByKey.get? text).join
        | .inherited .. => none
      let decl := formatOf state srcKey
      match datatype with
      | some .datetime =>
        { srcKey := srcKey, destKey := destKey, srcDatetimeFormat := some decl.datetimeFormat }
      | some .date =>
        { srcKey := srcKey, destKey := destKey, srcDatetimeFormat := some decl.datetimeFormat }
      | some .number =>
        { srcKey := srcKey, destKey := destKey, srcDecimalSeparator := some locale.decimal,
          srcThousandSeparator := some locale.thousand,
          srcIsPercentage := if decl.isPercentage = some true then some true else none }
      | _ => { srcKey := srcKey, destKey := destKey }

/-- The columns that `handleCreateTemplate` sends, in the format of the chosen locale. -/
def createdColumns (state : ConnectorWizardState) (mappingFields : List ConnectorMappingField)
    (datatypeByKey : Dict String (Option FieldDatatype)) : List ConnectorColumn :=
  assembleConnectorColumns state mappingFields datatypeByKey (localePreset state.csvLocale)

end CortexDis.ConnectorWizard
