import CortexDis.Canonical
import CortexDis.Frames

/-!
The canonical-shape gate: a contribution is judged against the columns its mapping owns, by
data type, nullability, length and vocabulary.

Ranges and relations between values are not judged here; they are left to the tables.
-/

namespace CortexDis.CanonicalShape

open CortexDis.PyDict CortexDis.Values CortexDis.Errors CortexDis.Canonical CortexDis.Frames

/-- What the suite derives from a field's annotation. -/
inductive Shape
  | text (maxLength : ℕ)
  | vocab (values : List String)
  | decimal (precision scale : ℕ)
  | integer | boolean | datetime | date
  /-- a JSONB payload, whose type is not checked -/
  | untyped
  deriving DecidableEq, Repr

structure ColumnShape where
  shape : Shape
  nullable : Bool
  deriving DecidableEq, Repr

def required (shape : Shape) : ColumnShape := ⟨shape, false⟩
def optional (shape : Shape) : ColumnShape := ⟨shape, true⟩

def saleShapes : List (String × ColumnShape) :=
  [("event_date", required .date), ("sku_id", required (.text 128)),
    ("sku_variant", optional (.text 128)), ("sku_lot_batch", optional (.text 128)),
    ("event_subtype", required (.vocab ["SALE", "RETURN", "VOID"])),
    ("source_sale_timestamp", required .datetime), ("transaction_id", optional (.text 128)),
    ("line_item_seq", optional .integer), ("quantity", required (.decimal 14 3)),
    ("unit_retail_price", required (.decimal 12 4)), ("unit_sale_price", required (.decimal 12 4)),
    ("discount_amount", optional (.decimal 12 4)), ("discount_pct", optional (.decimal 5 2)),
    ("unit_cost", optional (.decimal 12 4)), ("promo_identifier", optional (.text 128)),
    ("tax_amount", optional (.decimal 12 4)), ("currency", required (.text 3)),
    ("payment_method", optional (.text 64)), ("customer_token", optional (.text 128)),
    ("sale_channel", optional (.text 32))]

def changeShapes : List (String × ColumnShape) :=
  [("event_date", required .date), ("sku_id", required (.text 128)),
    ("sku_variant", optional (.text 128)), ("sku_lot_batch", optional (.text 128)),
    ("event_category", required (.vocab
      ["INVENTORY", "PRICE", "COST", "REGULATORY", "STATUS", "CATALOGUE", "OTHER"])),
    ("event_subtype", required (.text 64)), ("source_event_timestamp", required .datetime),
    ("effective_from", optional .datetime), ("effective_until", optional .datetime),
    ("attribute_name", optional (.text 64)), ("value_before", optional .untyped),
    ("value_after", optional .untyped), ("reason_code", optional (.text 64)),
    ("reason_note", optional (.text 256)), ("change_context", optional .untyped)]

def currentPositionShapes : List (String × ColumnShape) :=
  [("sku_id", required (.text 128)), ("sku_variant", optional (.text 128)),
    ("sku_lot_batch", optional (.text 128)), ("barcode", optional (.text 128)),
    ("product_name", required (.text 128)), ("product_description", optional (.text 128)),
    ("product_category", optional (.text 128)), ("product_sub_category", optional (.text 128)),
    ("product_department", optional (.text 128)), ("supplier_id", optional (.text 128)),
    ("packaging_type", optional (.text 128)), ("sku_size", optional (.decimal 8 3)),
    ("unit_of_measure", optional (.text 64)), ("current_retail_price", required (.decimal 12 4)),
    ("unit_cost", optional (.decimal 12 4)), ("promo_price", optional (.decimal 12 4)),
    ("promo_identifier", optional (.text 128)),
    ("tax_treatment", required (.vocab ["INCLUSIVE", "EXCLUSIVE"])),
    ("stock_qty", optional (.decimal 14 3)), ("lead_time_days", optional .integer),
    ("expiry_date", optional .date), ("receipt_date", optional .date),
    ("expiry_source", optional (.vocab ["PRINTED", "SCANNED", "ESTIMATED", "CV_DETECTED"])),
    ("expiry_confidence", optional (.decimal 3 2)), ("regulatory_flag", optional .boolean),
    ("regulatory_type", optional (.text 128)), ("currency", required (.text 3)),
    ("reorder_point", optional (.decimal 14 3)), ("sku_status", optional (.text 32))]

/-- The source-owned columns of a model, mapping-produced or enrichment-produced, with their
shapes. -/
def columnShapes : TargetModel → List (String × ColumnShape)
  | .storeSkuSaleEvent => saleShapes
  | .storeSkuChangeEvent => changeShapes
  | .storeSkuCurrentPosition => currentPositionShapes

/-- `_column_from_field` -/
def columnShape (model : TargetModel) (c : String) : Option ColumnShape :=
  lookup c (columnShapes model)

/-- The data type a shape demands, if any. -/
def Shape.dtype : Shape → Option DType
  | .text _ | .vocab _ => some .string
  | .decimal precision scale => some (.decimal precision scale)
  | .integer => some .int64
  | .boolean => some .boolean
  | .datetime => some .datetimeUtc
  | .date => some .date
  | .untyped => none

/-- The checks of a value beyond its data type. -/
def Shape.allows : Shape → Value → Bool
  | .text maxLength, .str s => s.length ≤ maxLength
  | .vocab values, .str s => s ∈ values
  | _, _ => true

def ColumnShape.accepts (shape : ColumnShape) (s : Series) : Bool :=
  (shape.shape.dtype.all fun d => d = s.dtype) && s.cells.all fun cell =>
    match cell with
    | none => shape.nullable
    | some v => shape.shape.allows v

/-- The columns the gate judges. -/
def ownedColumns (loaded : LoadedMapping) : List String :=
  match loaded.targetModel with
  | .storeSkuCurrentPosition => (loaded.source.targetColumns ++ enrichmentFields).dedup
  | _ => loaded.source.targetColumns

/-- `run_post_validation`: does the contribution pass? -/
def runPostValidation (loaded : LoadedMapping) (contribution : Frame) : Except Exn Bool :=
  let owned := ownedColumns loaded
  if owned = [] then .error .suiteDefinition
  else if ∃ c ∈ owned, columnShape loaded.targetModel c = none then
    .error (.other "SuiteDriftError")
  else .ok <|
    (contribution.columns.keys.all fun c => c ∈ owned) && owned.all fun c =>
      match columnShape loaded.targetModel c, contribution.columns.get? c with
      | some shape, some s => shape.accepts s
      | _, _ => false

end CortexDis.CanonicalShape
