import CortexDis.ApplyMapping
import CortexDis.Bronze
import CortexDis.Catalogue
import CortexDis.ObjectPath

/-!
Contribution rows to write-ready event rows.

A row's parameters are its payload and what the consumer injects; for a change event also the
typed numbers of its values. Beside them stands the hot contribution: which hot columns the
row asserts, and with what values.
-/

namespace CortexDis.EventRows

open CortexDis.PyDict CortexDis.Values CortexDis.GroupHot CortexDis.Canonical CortexDis.Envelope
open CortexDis.Errors CortexDis.Bronze CortexDis.Frames CortexDis.Catalogue

/-- What row building uses of Python and of packages outside the source. -/
structure RowLibs where
  /-- the value of a decimal digit beyond ASCII -/
  decimalDigit : Char → Option ℕ
  /-- `str` of a value that is neither text nor an integer -/
  strValue : Value → String
  /-- `orjson.dumps(_, option=OPT_SORT_KEYS, default=str).decode()` -/
  dumps : Value → Except Exn String
  /-- `datetime.isoformat` of an aware UTC time -/
  isoformat : Timestamp → String
  canonicalRowHash : Dict String Cell → String
  /-- the ids `new_uuid7` returns, call by call -/
  newUuid7 : ℕ → Uuid

variable (L : RowLibs)

/-- `payload.get(c)` -/
def field (payload : Payload) (c : String) : Cell := (payload.get? c).join

/-- `str(value)` -/
def str : Value → String
  | .str s => s
  | .int n => toString n
  | v => L.strValue v

/-- `derive_source_event_id` -/
def deriveSourceEventId (model : TargetModel) (bronzeRef : Uuid) (payload : Payload)
    (chunkRowIndex : ℕ) : String :=
  match model, field payload "transaction_id", field payload "line_item_seq" with
  | .storeSkuSaleEvent, some transactionId, some lineItemSeq =>
    str L transactionId ++ ":" ++ str L lineItemSeq
  | _, _, _ => bronzeRef.str ++ ":" ++ toString chunkRowIndex

/-- `jsonb_param` -/
def jsonbParam : Cell → Except Exn Cell
  | none => .ok none
  | some v => return some (.str (← L.dumps v))

/-- `jsonb_param({"dis_received_timestamp": _, "csv_row_num": _})`, keys sorted -/
def ingestMetadata (receivedTs : Timestamp) (chunkRowIndex : ℕ) : String :=
  "\x7b\"csv_row_num\":" ++ toString chunkRowIndex ++ ",\"dis_received_timestamp\":\"" ++
    L.isoformat receivedTs ++ "\"\x7d"

/-! ### Typed numbers -/

/-- `_as_decimal`. The text of a truth value, a date, a time, an id or an object is no number:
it has a letter, or a dash inside. -/
def asDecimal : Cell → Cell
  | some (.decimal unscaled scale) => some (.decimal unscaled scale)
  | some (.number d) => some (.number d)
  | some (.int n) => some (.decimal n 0)
  | some (.str s) | some (.float s) =>
    (PyDecimal.ofText ObjectPath.isSpace L.decimalDigit s).map .number
  | _ => none

/-- The `Decimal` a value is. -/
def decimalOf : Value → Option PyDecimal.Number
  | .decimal unscaled scale => some (.finite (unscaled < 0) unscaled.natAbs (-scale))
  | .number d => some d
  | _ => none

/-- `after - before`, where both are there -/
def numericChange (before after : Cell) : Except Exn Cell :=
  match after.bind decimalOf, before.bind decimalOf with
  | some a, some b =>
    match PyDecimal.sub a b with
    | .ok d => .ok (some (.number d))
    | .error .invalidOperation => .error (.other "InvalidOperation")
    | .error .overflow => .error (.other "Overflow")
  | _, _ => .ok none

/-- `_NUMERIC_CATEGORIES` -/
def numericCategories : List String := ["INVENTORY", "PRICE", "COST"]

def isNumeric : Cell → Bool
  | some (.str category) => category ∈ numericCategories
  | _ => false

def jsonbColumns : List String := ["value_before", "value_after", "change_context"]

/-- One payload column, serialized if it is there. -/
def serializeColumn (params : Payload) (c : String) : Except Exn Payload :=
  match params.get? c with
  | none => .ok params
  | some cell => return params.set c (← jsonbParam L cell)

/-- `_populate_change_shortcuts` -/
def populateChangeShortcuts (params payload : Payload) : Except Exn Payload := do
  let category := field payload "event_category"
  let before := if isNumeric category then asDecimal L (field payload "value_before") else none
  let after := if isNumeric category then asDecimal L (field payload "value_after") else none
  let change ← if category = some (.str "INVENTORY") then numericChange before after else .ok none
  jsonbColumns.foldlM (serializeColumn L) (params.update
    [("numeric_value_before", before), ("numeric_value_after", after), ("numeric_change", change)])

/-! ### The hot contribution -/

/-- The sale projection: the mapped event columns that have a value. -/
def saleContributions (payload : Payload) : Dict String Cell :=
  Dict.ofList (saleHotProjection.filterMap fun e =>
    (field payload e.1).map fun v => (e.2, some v))

/-- The change projection: the column of the row's category and attribute, if there is one. -/
def changeContributions (payload : Payload) : Dict String Cell :=
  match field payload "event_category", field payload "attribute_name" with
  | some (.str category), some (.str attributeName) =>
    match lookup (category, attributeName) changeHotProjection with
    | none => Dict.empty
    | some hotColumn =>
      let raw := field payload "value_after"
      let value := if category ∈ numericCategories then asDecimal L raw else raw
      match value with
      | none => Dict.empty
      | some v => Dict.ofList [(hotColumn, some v)]
  | _, _ => Dict.empty

/-- `_hot_contributions` -/
def hotContributions (model : TargetModel) (payload : Payload) : Dict String Cell :=
  if model = .storeSkuSaleEvent then saleContributions payload else changeContributions L payload

/-! ### Row building -/

/-- The event-time column of the rows. -/
def tsColumn (model : TargetModel) : String :=
  if model = .storeSkuSaleEvent then "source_sale_timestamp" else "source_event_timestamp"

/-- The parameters the consumer injects into every row. -/
def injected (event : IngressReadyEvent) (bronze : BronzeMeta) (loaded : LoadedMapping)
    (id : Uuid) (sourceEventId : String) (chunkRowIndex : ℕ) : List (String × Cell) :=
  [("id", some (.uuid id)), ("tenant_id", some (.uuid event.tenantId)),
    ("store_id", some (.uuid event.storeId)), ("source_id", some (.str event.sourceId)),
    ("source_event_id", some (.str sourceEventId)),
    ("mapping_version_id", some (.int loaded.mappingVersionId)),
    ("trace_id", some (.uuid event.traceId)), ("dis_channel", some (.str bronze.disChannel)),
    ("ingest_metadata", some (.str (ingestMetadata L event.receivedTs chunkRowIndex)))]

/-- `payload[event_ts_column]`, which must be a datetime -/
def eventTs (model : TargetModel) (payload : Payload) : Except Exn Timestamp :=
  match payload.get? (tsColumn model) with
  | none => .error (.other "KeyError")
  | some (some (.datetime t)) => .ok t
  | some _ => .error (.other "TypeError")

/-- The bind parameters of a row: its payload, what is injected, and a sale's tax treatment or
a change's typed numbers. -/
def rowParams (model : TargetModel) (taxTreatment : Option String)
    (injected : List (String × Cell)) (payload : Payload) : Except Exn Payload :=
  if model = .storeSkuSaleEvent then
    .ok ((payload.update injected).set "tax_treatment" (taxTreatment.map Value.str))
  else populateChangeShortcuts L (payload.update injected) payload

/-- One iteration of the loop; `i` counts the rows, `chunkRowIndex` is the source row. -/
def buildEventRow (event : IngressReadyEvent) (bronze : BronzeMeta) (loaded : LoadedMapping)
    (taxTreatment : Option String) (i : ℕ) (payload : Payload) (chunkRowIndex : ℕ) :
    Except Exn (EventRow Cell) := do
  let model := loaded.targetModel
  let ts ← eventTs model payload
  let sourceEventId := deriveSourceEventId L model event.bronzeRef payload chunkRowIndex
  let params ← rowParams L model taxTreatment
    (injected L event bronze loaded (L.newUuid7 i) sourceEventId chunkRowIndex) payload
  if "sku_id" ∉ payload.keys then .error (.other "KeyError")
  else return {
    params := params
    sourceEventId := sourceEventId
    eventTs := ts
    naturalKey := (skuText (field payload "sku_id"), segment (field payload "sku_variant"),
      segment (field payload "sku_lot_batch"))
    hotContributions := hotContributions L model payload
    payload := payload
    rowHash := L.canonicalRowHash payload
    chunkRowIndex := chunkRowIndex }

/-- `build_event_rows`; the `zip` is strict, and notices at its end. -/
def buildEventRows (event : IngressReadyEvent) (bronze : BronzeMeta) (loaded : LoadedMapping)
    (result : ApplyMapping.MappingResult) (taxTreatment : Option String) :
    Except Exn (List (EventRow Cell)) := do
  let payloads := result.contribution.toDicts
  let rows ← ((payloads.zip result.sourceRowIndices).zipIdx).mapM fun e =>
    buildEventRow L event bronze loaded taxTreatment e.2 e.1.1 e.1.2
  if payloads.length ≠ result.sourceRowIndices.length then .error (.other "ValueError")
  else return rows

end CortexDis.EventRows
