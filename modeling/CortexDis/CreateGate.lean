import CortexDis.LoadMapping
import CortexDis.RulesDocument

/-!
The create gate of the console against the loader of the consumer.

The gate judges a document by the declared template type. The consumer parses what the gate
stored, infers the target of an event type from the columns, and works out whether rows may
create hot rows. What the gate accepts, the consumer loads as the gate meant it.
-/

namespace CortexDis.CreateGate

open CortexDis.PyText CortexDis.PyJson CortexDis.Errors CortexDis.Values CortexDis.Canonical
open CortexDis.MappingRules
open CortexDis.LoadMapping CortexDis.RulesDocument CortexDis.Runs CortexDis.Envelope

/-! ### The gate -/

/-- `MODEL_BY_TYPE` -/
def modelForTemplateType : TemplateType → TargetModel
  | .snapshot => .storeSkuCurrentPosition
  | .sales => .storeSkuSaleEvent
  | .inventoryChange => .storeSkuChangeEvent

/-- `TEMPLATE_TYPES` -/
def templateType? : String → Option TemplateType
  | "snapshot" => some .snapshot
  | "sales" => some .sales
  | "inventory_change" => some .inventoryChange
  | _ => none

/-- The fields of a model without a default. -/
def requiredFields : TargetModel → List String
  | .storeSkuSaleEvent =>
    ["event_date", "tenant_id", "store_id", "sku_id", "event_subtype", "source_sale_timestamp",
      "quantity", "unit_retail_price", "unit_sale_price", "tax_treatment", "currency",
      "source_id", "source_event_id", "mapping_version_id", "trace_id", "dis_channel"]
  | .storeSkuChangeEvent =>
    ["event_date", "tenant_id", "store_id", "sku_id", "event_category", "event_subtype",
      "source_event_timestamp", "source_id", "source_event_id", "mapping_version_id", "trace_id",
      "dis_channel"]
  | .storeSkuCurrentPosition => currentPositionRequired

/-- `enrichment_guaranteed_for` -/
def enrichmentGuaranteedFor : TargetModel → List String
  | .storeSkuCurrentPosition => enrichmentFields
  | _ => []

/-- `mandatory_mapping_produced` -/
def mandatoryMappingProduced (model : TargetModel) : List String :=
  (requiredFields model).filter fun c =>
    (mappingProducedColumns model).contains c && !(enrichmentGuaranteedFor model).contains c

/-- `_CATALOGUE_PRESENCE_PAIRINGS` -/
def cataloguePresencePairings : List (List String × List String) :=
  [(["promo_identifier"], ["promo_price"]),
    (["expiry_date", "expiry_source", "expiry_confidence"],
      ["expiry_date", "expiry_source", "expiry_confidence"])]

/-- `check_target_legality`, `check_mandatory_coverage` and `check_presence_pairings` -/
def checkTargets (targets : List String) (model : TargetModel) : Bool :=
  (targets.all fun c => (mappingProducedColumns model).contains c) &&
    (mandatoryMappingProduced model).all (fun c => targets.contains c) &&
    (model != .storeSkuCurrentPosition || cataloguePresencePairings.all fun e =>
      e.1.all (fun c => !targets.contains c) || e.2.all fun c => targets.contains c)

variable (lax : Json → Option ℤ) (upper : String → String)

/-- `parse_mapping_rules` -/
def parseMappingRules (raw : Json) : Except Exn (Document × Rules) :=
  match modelValidate lax upper raw with
  | .error (.other "ValidationError") => .error (.mappingConfig none)
  | .error e => .error e
  | .ok (d, rules) => if d.rename.keys = [] then .error (.mappingConfig none) else .ok (d, rules)

/-- `validate_mapping_rules_for_type`; the rules are those the engine would run. -/
def validateMappingRulesForType (raw : Json) (templateType : String) :
    Except Exn (Document × Rules) :=
  match templateType? templateType with
  | none => .error (.other "InvalidTemplateTypeError")
  | some type => do
    let (d, rules) ← parseMappingRules lax upper raw
    if checkTargets d.targetColumns (modelForTemplateType type) then .ok (d, rules)
    else .error (.mappingConfig none)

/-! ### What the gate accepts -/

variable {lax upper}

/-- What a document that the gate accepts is. -/
structure Accepted (lax : Json → Option ℤ) (upper : String → String) (d : Document)
    (rules : Rules) (type : TemplateType) : Prop where
  parsed : modelValidate lax upper (dumpDocument d) = .ok (d, rules)
  rename_ne : rules.rename.keys ≠ []
  targets : checkTargets rules.targetColumns (modelForTemplateType type) = true

lemma accepted_of_validate {raw : Json} {templateType : String} {d : Document} {rules : Rules}
    (h : validateMappingRulesForType lax upper raw templateType = .ok (d, rules)) :
    ∃ type, templateType? templateType = some type ∧ Accepted lax upper d rules type := by
  unfold validateMappingRulesForType at h
  split at h
  · cases h
  · rename_i type htype
    obtain ⟨⟨d', rules'⟩, hparse, h⟩ := of_bind_eq_ok h
    obtain ⟨htargets, h⟩ : checkTargets d'.targetColumns (modelForTemplateType type) = true ∧
        (d', rules') = (d, rules) := by
      simp only at h
      split_ifs at h with htargets
      exact ⟨htargets, Except.ok.inj h⟩
    cases h
    unfold parseMappingRules at hparse
    split at hparse
    · cases hparse
    · cases hparse
    · rename_i d' rules' hvalid
      split_ifs at hparse with hne
      cases hparse
      obtain ⟨d', hdoc, hrules⟩ := of_bind_eq_ok hvalid
      obtain ⟨r, hrules, heq⟩ := of_bind_eq_ok hrules
      cases heq
      obtain ⟨-, hrename, hcolumns⟩ := checkRules_eq_ok hrules
      refine ⟨type, htype, ?_, ?_, ?_⟩
      · rw [modelValidate, parseDocument_dumpDocument]
        show (do return (_, ← checkRules upper _)) = _
        rw [hrules]
        rfl
      · rwa [hrename]
      · rwa [hcolumns]

/-! ### What the consumer makes of it -/

variable {rules : Rules} {type : TemplateType}

lemma targets_iff {targets : List String} {model : TargetModel} :
    checkTargets targets model = true ↔ (∀ c ∈ targets, c ∈ mappingProducedColumns model) ∧
      (∀ c ∈ mandatoryMappingProduced model, c ∈ targets) ∧
      (model = .storeSkuCurrentPosition → ∀ e ∈ cataloguePresencePairings,
        (∀ c ∈ e.1, c ∉ targets) ∨ ∀ c ∈ e.2, c ∈ targets) := by
  simp only [checkTargets, Bool.and_eq_true, Bool.or_eq_true, List.all_eq_true,
    List.contains_iff_mem, bne_iff_ne, ne_eq, Bool.not_eq_true', ← Bool.not_eq_true, and_assoc]
  refine and_congr_right fun _ => and_congr_right fun _ => ?_
  rw [or_iff_not_imp_left, not_not]

lemma routeTargetModel_eq (h : checkTargets rules.targetColumns (modelForTemplateType type) = true)
    (hevent : type ≠ .snapshot) :
    routeTargetModel rules = .ok (modelForTemplateType type) := by
  obtain ⟨hlegal, hmandatory, -⟩ := targets_iff.mp h
  -- each event model has a mandatory column that the other one does not produce
  have hother : ∀ (c : String) (other : TargetModel),
      c ∈ mandatoryMappingProduced (modelForTemplateType type) → c ∉ mappingProducedColumns other →
      (rules.targetColumns.all fun c => decide (c ∈ mappingProducedColumns other)) = false := by
    intro c other hc hnot
    rw [List.all_eq_false]
    exact ⟨c, hmandatory c hc, by simpa using hnot⟩
  have hself : (rules.targetColumns.all fun c =>
      decide (c ∈ mappingProducedColumns (modelForTemplateType type))) = true :=
    List.all_eq_true.mpr fun c hc => decide_eq_true (hlegal c hc)
  cases type with
  | snapshot => exact absurd rfl hevent
  | sales =>
    have hchange := hother "source_sale_timestamp" .storeSkuChangeEvent (by decide) (by decide)
    have hone : (eventModels.filter fun m => rules.targetColumns.all fun c =>
        decide (c ∈ mappingProducedColumns m)) = [.storeSkuSaleEvent] := by
      rw [eventModels, List.filter_cons_of_pos (by exact hself), List.filter_cons_of_neg
        (by rw [hchange]; decide), List.filter_nil]
    rw [routeTargetModel, hone]
    rfl
  | inventoryChange =>
    have hsale := hother "source_event_timestamp" .storeSkuSaleEvent (by decide) (by decide)
    have hone : (eventModels.filter fun m => rules.targetColumns.all fun c =>
        decide (c ∈ mappingProducedColumns m)) = [.storeSkuChangeEvent] := by
      rw [eventModels, List.filter_cons_of_neg (by rw [hsale]; decide),
        List.filter_cons_of_pos (by exact hself), List.filter_nil]
    rw [routeTargetModel, hone]
    rfl

lemma targetModel_eq (h : checkTargets rules.targetColumns (modelForTemplateType type) = true) :
    targetModel type rules = .ok (modelForTemplateType type) := by
  unfold targetModel
  split_ifs with hsnapshot
  · rw [hsnapshot]
    rfl
  · exact routeTargetModel_eq h hsnapshot

lemma classify_snapshot (h : checkTargets rules.targetColumns .storeSkuCurrentPosition = true) :
    classifyHotCompleteness rules .storeSkuCurrentPosition = true := by
  obtain ⟨hlegal, hmandatory, hpairs⟩ := targets_iff.mp h
  have hguaranteed : ∀ c, c ∈ guaranteedHotColumns rules .storeSkuCurrentPosition ↔
      c ∈ rules.targetColumns ∨ c ∈ enrichmentFields := by
    intro c
    rw [guaranteedHotColumns, List.mem_append, List.mem_filter, decide_eq_true_eq]
    exact or_congr_left ⟨And.left, fun hc => ⟨hc, hlegal c hc⟩⟩
  have hrequired : hotRequiredFromProjection =
      mandatoryMappingProduced .storeSkuCurrentPosition := by decide
  have hnot : ∀ e ∈ cataloguePresencePairings, ∀ c ∈ e.1, c ∉ enrichmentFields := by decide
  rw [classifyHotCompleteness]
  simp only [Bool.and_eq_true, List.all_eq_true, Bool.or_eq_true, decide_eq_true_eq]
  refine ⟨fun c hc => (hguaranteed c).mpr (.inl (hmandatory c (hrequired ▸ hc))), fun e he => ?_⟩
  rcases hpairs rfl e he with htrigger | hcompanion
  · refine .inl fun c hc => ?_
    rw [hguaranteed, not_or]
    exact ⟨htrigger c hc, hnot e he c hc⟩
  · exact .inr fun c hc => (hguaranteed c).mpr (.inl (hcompanion c hc))

lemma classify_event (rules : Rules) {model : TargetModel}
    (hmodel : model ≠ .storeSkuCurrentPosition) : classifyHotCompleteness rules model = false := by
  have hrequired : "sku_id" ∈ hotRequiredFromProjection := by decide
  have hsku : "sku_id" ∉ guaranteedHotColumns rules model := by
    cases model with
    | storeSkuCurrentPosition => exact absurd rfl hmodel
    | storeSkuSaleEvent =>
      intro hmem
      obtain ⟨c, -, hlookup⟩ := List.mem_filterMap.mp hmem
      exact absurd (PyDict.mem_of_lookup hlookup) (by simp [saleHotProjection])
    | storeSkuChangeEvent =>
      intro hmem
      rw [guaranteedHotColumns] at hmem
      split at hmem
      · exact absurd (PyDict.mem_of_lookup (Option.mem_toList.mp hmem))
          (by simp [changeHotProjection])
      · cases hmem
  rw [classifyHotCompleteness]
  simp only [Bool.and_eq_false_iff, List.all_eq_false]
  exact .inl ⟨"sku_id", hrequired, by simpa using hsku⟩

/-- **What the gate accepts the consumer loads**: the stored dump parses to the same document,
the load of a row with it succeeds, it routes to the model of the template type, and it is
classified complete for the snapshot type only. -/
theorem consumer_loads_accepted (lax : Json → Option ℤ) (upper : String → String) (raw : Json)
    (templateType : String) (d : Document) (rules : Rules)
    (h : validateMappingRulesForType lax upper raw templateType = .ok (d, rules)) :
    ∃ type, templateType? templateType = some type ∧
      modelValidate lax upper (dumpDocument d) = .ok (d, rules) ∧
      ∀ (rows : List MappingRow) (event : IngressReadyEvent) (row : MappingRow),
        activeMapping rows event = some row → row.mappingRules = dumpDocument d →
        row.templateType = type → row.preValidationSuiteRef = none →
        row.postValidationSuiteRef = none →
        loadActiveMapping (fun v => (modelValidate lax upper v).map Prod.snd) rows event =
          .ok ⟨row.mappingVersionId, rules, modelForTemplateType type,
            decide (type = .snapshot)⟩ := by
  obtain ⟨type, htype, haccepted⟩ := accepted_of_validate h
  refine ⟨type, htype, haccepted.parsed, ?_⟩
  rintro rows event row hactive hrules rfl hpre hpost
  have hparse : parseRules (fun v => (modelValidate lax upper v).map Prod.snd)
      row.mappingRules = .ok rules := by
    rw [parseRules, hrules, haccepted.parsed]
    rfl
  -- the gate makes a snapshot mapping complete, and no event mapping can be
  have hclass : classifyHotCompleteness rules (modelForTemplateType row.templateType) =
      decide (row.templateType = .snapshot) := by
    by_cases hsnapshot : row.templateType = .snapshot
    · have htargets := haccepted.targets
      rw [hsnapshot] at htargets ⊢
      exact classify_snapshot htargets
    · rw [decide_eq_false hsnapshot]
      refine classify_event rules ?_
      cases htt : row.templateType with
      | snapshot => exact absurd htt hsnapshot
      | sales => exact TargetModel.noConfusion
      | inventoryChange => exact TargetModel.noConfusion
  rw [loadActiveMapping, hactive]
  simp only [hpre, hpost, ne_eq, not_true_eq_false, or_self, if_false, hparse, ok_bind,
    haccepted.rename_ne, targetModel_eq haccepted.targets, hclass]
  rfl

/-- The least a snapshot template maps. -/
def leastSnapshot : Json :=
  .obj [(pyStr "version", .int 1), (pyStr "rename", .obj [(pyStr "SKU", dumpText "sku_id"),
    (pyStr "Name", dumpText "product_name"), (pyStr "Price", dumpText "current_retail_price")])]

/-- A message of the template, and its row with what was stored. -/
def snapshotEvent : IngressReadyEvent where
  traceId := .ofNat 1
  tenantId := .ofNat 2
  storeId := .ofNat 3
  sourceId := "pos"
  templateId := .ofNat 4
  bronzeRef := .ofNat 5
  gcsUri := "gs://bronze/catalogue.csv"
  receivedTs := 0
  delimiter := ','
  tenantDisplayCode := none
  storeCode := none
  replay := false
  parentTraceId := none

def snapshotRow (d : Document) : MappingRow where
  tenantId := .ofNat 2
  sourceId := "pos"
  templateId := .ofNat 4
  active := true
  mappingVersionId := 7
  mappingRules := dumpDocument d
  templateType := .snapshot
  preValidationSuiteRef := none
  postValidationSuiteRef := none

theorem least_snapshot_loads : ∃ d rules,
    validateMappingRulesForType (fun _ => none) id leastSnapshot "snapshot" = .ok (d, rules) ∧
      loadActiveMapping (fun v => (modelValidate (fun _ => none) id v).map Prod.snd)
        [snapshotRow d] snapshotEvent = .ok ⟨7, rules, .storeSkuCurrentPosition, true⟩ := by
  have hok : (validateMappingRulesForType (fun _ => none) id leastSnapshot
      "snapshot").toOption.isSome = true := by decide +kernel
  cases hrun : validateMappingRulesForType (fun _ => none) id leastSnapshot "snapshot" with
  | error e =>
    rw [hrun] at hok
    cases hok
  | ok accepted =>
    obtain ⟨type, htype, -, hload⟩ := consumer_loads_accepted (fun _ => none) id leastSnapshot
      "snapshot" accepted.1 accepted.2 hrun
    obtain rfl : TemplateType.snapshot = type := Option.some.inj htype
    exact ⟨_, _, rfl, hload [snapshotRow accepted.1] snapshotEvent (snapshotRow accepted.1)
      (by simp [activeMapping, snapshotRow, snapshotEvent]) rfl rfl rfl rfl⟩

end CortexDis.CreateGate
