import CortexDis.MappingRules

/-!
The canonical tables: their columns, and which columns a mapping produces.
-/

namespace CortexDis.Canonical

open CortexDis.MappingRules

inductive TargetModel
  | storeSkuSaleEvent | storeSkuChangeEvent | storeSkuCurrentPosition
  deriving DecidableEq, Repr

/-- One ACTIVE mapping row, parsed, routed, and completeness-classified. -/
structure LoadedMapping where
  mappingVersionId : ℕ
  source : Rules
  targetModel : TargetModel
  hotComplete : Bool

/-- `resolve_sink(vertical_for_tenant(_), _)`: every tenant is in the retail vertical. -/
def resolveSink : TargetModel → String
  | .storeSkuCurrentPosition => "canonical.store_sku_current_position"
  | .storeSkuSaleEvent => "canonical.store_sku_sale_events"
  | .storeSkuChangeEvent => "canonical.store_sku_change_events"

/-- The model's fields without `last_updated_at`, which is left to its default. -/
def insertColumns : TargetModel → List String
  | .storeSkuSaleEvent =>
    ["id", "event_date", "tenant_id", "store_id", "sku_id", "sku_variant", "sku_lot_batch",
      "event_subtype", "source_sale_timestamp", "transaction_id", "line_item_seq", "quantity",
      "unit_retail_price", "unit_sale_price", "discount_amount", "discount_pct", "unit_cost",
      "promo_identifier", "tax_amount", "tax_treatment", "currency", "payment_method",
      "customer_token", "sale_channel", "store_sku_current_position_id", "related_sale_event_id",
      "source_id", "source_event_id", "mapping_version_id", "trace_id", "dis_channel",
      "ingest_metadata"]
  | .storeSkuChangeEvent =>
    ["id", "event_date", "tenant_id", "store_id", "sku_id", "sku_variant", "sku_lot_batch",
      "store_sku_current_position_id", "event_category", "event_subtype",
      "source_event_timestamp", "effective_from", "effective_until", "attribute_name",
      "value_before", "value_after", "numeric_value_before", "numeric_value_after",
      "numeric_change", "reason_code", "reason_note", "change_context", "source_id",
      "source_event_id", "mapping_version_id", "trace_id", "dis_channel", "ingest_metadata"]
  | .storeSkuCurrentPosition =>
    ["id", "tenant_id", "store_id", "sku_id", "sku_variant", "sku_lot_batch", "barcode",
      "product_name", "product_description", "product_category", "product_sub_category",
      "product_department", "supplier_id", "packaging_type", "sku_size", "unit_of_measure",
      "current_retail_price", "unit_cost", "promo_price", "promo_identifier",
      "yesterday_retail_price", "tax_treatment", "stock_qty", "lead_time_days", "expiry_date",
      "receipt_date", "expiry_source", "expiry_confidence", "regulatory_flag",
      "regulatory_type", "currency", "reorder_point", "sku_status", "velocity_7day",
      "stock_age_days", "unit_cost_trend_30day", "attribute_staleness_map",
      "last_source_event_at", "mapping_version_id", "trace_id", "dis_channel",
      "ingest_metadata"]

/-- `_EVENT_TS_COLUMN`: the event-time column of a routed model. -/
def eventTsColumn : TargetModel → Option String
  | .storeSkuSaleEvent => some "source_sale_timestamp"
  | .storeSkuChangeEvent => some "source_event_timestamp"
  | .storeSkuCurrentPosition => none

/-- `mapping_produced_columns(StoreSkuCurrentPosition)` -/
def currentPositionMappingProduced : List String :=
  ["sku_id", "sku_variant", "sku_lot_batch", "barcode", "product_name", "product_description",
    "product_category", "product_sub_category", "product_department", "supplier_id",
    "packaging_type", "sku_size", "unit_of_measure", "current_retail_price", "unit_cost",
    "promo_price", "promo_identifier", "stock_qty", "lead_time_days", "expiry_date",
    "receipt_date", "expiry_source", "expiry_confidence", "regulatory_flag", "regulatory_type",
    "currency", "reorder_point", "sku_status"]

/-- `mapping_produced_columns` -/
def mappingProducedColumns : TargetModel → List String
  | .storeSkuSaleEvent =>
    ["event_date", "sku_id", "sku_variant", "sku_lot_batch", "event_subtype",
      "source_sale_timestamp", "transaction_id", "line_item_seq", "quantity",
      "unit_retail_price", "unit_sale_price", "discount_amount", "discount_pct", "unit_cost",
      "promo_identifier", "tax_amount", "currency", "payment_method", "customer_token",
      "sale_channel"]
  | .storeSkuChangeEvent =>
    ["event_date", "sku_id", "sku_variant", "sku_lot_batch", "event_category", "event_subtype",
      "source_event_timestamp", "effective_from", "effective_until", "attribute_name",
      "value_before", "value_after", "reason_code", "reason_note", "change_context"]
  | .storeSkuCurrentPosition => currentPositionMappingProduced

/-- The fields of `StoreSkuCurrentPosition` without a default. -/
def currentPositionRequired : List String :=
  ["tenant_id", "store_id", "sku_id", "product_name", "current_retail_price", "tax_treatment",
    "currency", "mapping_version_id", "trace_id", "dis_channel"]

/-- `enrichment_fields(CURRENT_POSITION)` -/
def enrichmentFields : List String := ["currency", "tax_treatment"]

/-- `HOT_REQUIRED_FROM_PROJECTION` -/
def hotRequiredFromProjection : List String :=
  currentPositionRequired.filter fun c =>
    decide (c ∈ currentPositionMappingProduced ∧ c ∉ enrichmentFields)

/-- `SALE_HOT_PROJECTION`: event column to hot column. -/
def saleHotProjection : List (String × String) :=
  [("unit_retail_price", "current_retail_price"), ("unit_cost", "unit_cost"),
    ("promo_identifier", "promo_identifier"), ("currency", "currency")]

/-- `CHANGE_HOT_PROJECTION`: category and attribute to hot column. -/
def changeHotProjection : List ((String × String) × String) :=
  [(("PRICE", "current_retail_price"), "current_retail_price"),
    (("COST", "unit_cost"), "unit_cost"), (("INVENTORY", "stock_qty"), "stock_qty"),
    (("CATALOGUE", "product_name"), "product_name"), (("STATUS", "sku_status"), "sku_status")]

/-- `event_contendable_hot_columns` -/
def eventContendableHotColumns : List String :=
  saleHotProjection.map Prod.snd ++ changeHotProjection.map Prod.snd

/-- `catalogue_staleness_columns` -/
def catalogueStalenessColumns : List String :=
  currentPositionMappingProduced.filter fun c => decide (c ∈ eventContendableHotColumns)

end CortexDis.Canonical
