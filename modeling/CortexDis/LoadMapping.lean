import CortexDis.Bronze
import CortexDis.Canonical
import CortexDis.PyJson

/-!
The mapping of an event: the ACTIVE row of its source and template, parsed, routed to a
canonical table, and classified by whether its rows may create hot rows.
-/

namespace CortexDis.LoadMapping

open CortexDis.PyDict CortexDis.Values CortexDis.Envelope CortexDis.Errors CortexDis.MappingRules
open CortexDis.Canonical CortexDis.PyJson

inductive TemplateType
  | snapshot | sales | inventoryChange
  deriving DecidableEq, Repr

/-- A row of `config.source_mappings`. -/
structure MappingRow where
  tenantId : Uuid
  sourceId : String
  templateId : Uuid
  active : Bool
  mappingVersionId : ℕ
  mappingRules : Json
  templateType : TemplateType
  preValidationSuiteRef : Option String
  postValidationSuiteRef : Option String

/-! ### Completeness -/

/-- `_constant_derive` -/
def constantDerive (source : Rules) (column : String) : Option String :=
  match source.derive.get? column with
  | some ⟨.constant (.str value), _⟩ => some value
  | _ => none

/-- `guaranteed_hot_columns` -/
def guaranteedHotColumns (source : Rules) : TargetModel → List String
  | .storeSkuCurrentPosition =>
    (source.targetColumns.filter fun c => c ∈ currentPositionMappingProduced) ++ enrichmentFields
  | .storeSkuSaleEvent =>
    source.targetColumns.filterMap fun c => PyDict.lookup c saleHotProjection
  | .storeSkuChangeEvent =>
    match constantDerive source "event_category", constantDerive source "attribute_name" with
    | some category, some name =>
      (PyDict.lookup (category, name) changeHotProjection).toList
    | _, _ => []

/-- `HOT_CHECK_IMPLICATIONS`: a column of the first set demands all of the second. -/
def hotCheckImplications : List (List String × List String) :=
  [(["promo_identifier"], ["promo_price"]),
    (["expiry_date", "expiry_source", "expiry_confidence"],
      ["expiry_date", "expiry_source", "expiry_confidence"])]

/-- `classify_hot_completeness` -/
def classifyHotCompleteness (source : Rules) (target : TargetModel) : Bool :=
  let guaranteed := guaranteedHotColumns source target
  hotRequiredFromProjection.all (fun c => decide (c ∈ guaranteed)) &&
    hotCheckImplications.all fun e =>
      e.1.all (fun c => decide (c ∉ guaranteed)) || e.2.all fun c => decide (c ∈ guaranteed)

/-! ### Routing -/

/-- `EVENT_MODELS` -/
def eventModels : List TargetModel := [.storeSkuSaleEvent, .storeSkuChangeEvent]

/-- `route_target_model` -/
def routeTargetModel (source : Rules) : Except Exn TargetModel :=
  match eventModels.filter fun m => source.targetColumns.all fun c =>
      decide (c ∈ mappingProducedColumns m) with
  | [m] => .ok m
  | _ => .error (.mappingConfig none)

/-- The canonical table of a mapping. -/
def targetModel (templateType : TemplateType) (source : Rules) : Except Exn TargetModel :=
  if templateType = .snapshot then .ok .storeSkuCurrentPosition else routeTargetModel source

/-! ### The load -/

/-- The row the lookup keys on; at most one is active. -/
def activeMapping (rows : List MappingRow) (event : IngressReadyEvent) : Option MappingRow :=
  rows.find? fun r => r.tenantId = event.tenantId ∧ r.sourceId = event.sourceId ∧
    r.templateId = event.templateId ∧ r.active

/-- `SourceMapping.model_validate`, whose `ValidationError` the load replaces. -/
def parseRules (modelValidate : Json → Except Exn Rules) (raw : Json) : Except Exn Rules :=
  match modelValidate raw with
  | .error (.other "ValidationError") => .error (.mappingConfig none)
  | parsed => parsed

/-- `load_active_mapping` -/
def loadActiveMapping (modelValidate : Json → Except Exn Rules) (rows : List MappingRow)
    (event : IngressReadyEvent) : Except Exn LoadedMapping :=
  match activeMapping rows event with
  | none => .error (.mappingConfig none)
  | some row =>
    if row.preValidationSuiteRef ≠ none ∨ row.postValidationSuiteRef ≠ none then
      .error .suiteDefinition
    else do
      let source ← parseRules modelValidate row.mappingRules
      if source.rename.keys = [] then .error (.mappingConfig none)
      else
        let target ← targetModel row.templateType source
        return {
          mappingVersionId := row.mappingVersionId
          source
          targetModel := target
          hotComplete := classifyHotCompleteness source target }

/-! ### Store facts -/

/-- A row of `identity_mirror.stores`. -/
structure StoreRow where
  tenantId : Uuid
  storeId : Uuid
  taxTreatment : String
  currency : String
  deriving DecidableEq, Repr

structure StoreFacts where
  taxTreatment : String
  currency : String
  deriving DecidableEq, Repr

/-- `read_store_facts` -/
def readStoreFacts (rows : List StoreRow) (event : IngressReadyEvent) : Except Exn StoreFacts :=
  match rows.find? fun r => r.tenantId = event.tenantId ∧ r.storeId = event.storeId with
  | some row => .ok ⟨row.taxTreatment, row.currency⟩
  | none => .error (Bronze.contractError event "store_id")

end CortexDis.LoadMapping
