import CortexDis.Bronze
import CortexDis.Intake
import CortexDis.ObjectPath

/-!
The csv worker: from a `csv.received` event to a bronze row and an `ingress.ready` message.

A delivery can be cut short in any of its calls. The call raises or the process dies, in both
cases before or after the call took effect; nothing behind it is run.
-/

namespace CortexDis.CsvWorker

open CortexDis.Values CortexDis.Envelope CortexDis.Errors CortexDis.Bronze CortexDis.ObjectPath
open CortexDis.Intake CortexDis.PyText CortexDis.PyJson

structure PreflightResult where
  columns : List String
  rowCount : ℕ
  sizeBytes : ℕ
  delimiter : String
  deriving DecidableEq, Repr

/-- What `run_preflight` raises: `PreflightFailedError`, or anything else. -/
inductive PreflightError
  | failed (reason : Option String)
  | raised (e : Exn)
  deriving DecidableEq, Repr

def PreflightError.exn : PreflightError → Exn
  | .failed _ => .other "PreflightFailedError"
  | .raised e => e

/-- The pipeline of one worker process, and the code it calls outside of it. -/
structure IngestPipeline where
  bronzeBucket : String
  /-- `hashlib.sha256(_).hexdigest()` -/
  sha256 : Bytes → String
  runPreflight : Bytes → Except PreflightError PreflightResult
  gateCsvHeaders : List String → Except Exn (List String)

/-- What ends a delivery early. -/
inductive Stop
  | raised (e : Exn)
  | crashed
  deriving DecidableEq, Repr

/-- How a call with an effect ends. -/
inductive Fate
  | completes
  | stops (s : Stop) (landed : Bool)
  deriving DecidableEq, Repr

/-- One delivery of an event, with the outcomes of its calls. -/
structure Delivery where
  event : CsvReceivedEvent
  download : String → Except Stop Bytes
  lookup : Option Stop
  /-- the order in which the lookup meets the rows -/
  scan : List BronzeRow → List BronzeRow
  scan_perm : ∀ rows, (scan rows).Perm rows
  now : Timestamp
  bronzeId : Uuid
  receivedAt : Timestamp
  insert : Fate
  publish : Fate
  publishedAt : Timestamp
  mark : Fate

/-- The bronze table, and the messages on the topic in the order of their publication. -/
@[ext] structure World where
  bronze : BronzeTable
  published : List IngressReadyEvent

inductive Disposition
  | ingested | duplicateNoop | duplicateResumed | preflightFailed
  deriving DecidableEq, Repr

structure IngestOutcome where
  disposition : Disposition
  traceId : Uuid
  bronzeId : Option Uuid
  deriving DecidableEq, Repr

abbrev Ending := World × Except Stop IngestOutcome

def failing (w : World) (e : Exn) : Ending := (w, .error (.raised e))

/-- A call that takes the world from `w` to `w'`, and what comes after it. -/
def Fate.andThen (fate : Fate) (w w' : World) (next : World → Ending) : Ending :=
  match fate with
  | .completes => next w'
  | .stops s landed => (if landed then w' else w, .error s)

/-! ### Checks -/

/-- `_cross_check_path` -/
def crossCheckPath (bronzeBucket : String) (event : CsvReceivedEvent) : Except Exn String := do
  let (bucket, objectKey) ← splitObjectUri event.gcsUri
  let parsed ← parseObjectPath objectKey
  let checks : List (String × String × String) :=
    [("bucket", bucket, bronzeBucket), ("tenant_id", parsed.tenantId.str, event.tenantId.str),
      ("source_id", parsed.sourceId, event.sourceId),
      ("trace_id", parsed.traceId, event.traceId.str), ("ext", parsed.ext, "csv")]
  match checks.find? fun check => check.2.1 ≠ check.2.2 with
  | some check => .error (.eventPathMismatch (some check.1))
  | none => .ok objectKey

/-- `_require_key_component` -/
def requireKeyComponent (event : CsvReceivedEvent) (name value : String) : Except Exn Unit :=
  if strip value.toList = [] then
    .error (.eventContract (some (pyStr name)) (some (pyStr event.tenantId.str))
      (some (pyStr event.traceId.str)))
  else .ok ()

/-- `DEDUP_WINDOW_HOURS`, in microseconds -/
def dedupWindow : ℤ := 24 * 3600 * 1000000

/-- The rows of the dedup key. -/
def sameKey (event : CsvReceivedEvent) (payloadSha256 : String) (cutoff : Timestamp)
    (r : BronzeRow) : Bool :=
  r.tenantId = event.tenantId && r.sourcePayloadId = some event.uploadSessionId &&
    r.payloadSha256 = some payloadSha256 && r.disChannel = "csv_upload" && cutoff ≤ r.receivedAt

/-- The query of `find_prior`: the latest row of the key. -/
def latestPrior (d : Delivery) (payloadSha256 : String) (table : BronzeTable) : Option BronzeRow :=
  (((d.scan table.rows).filter (sameKey d.event payloadSha256 (d.now - dedupWindow))).insertionSort
    fun a b => b.receivedAt ≤ a.receivedAt).head?

/-- `find_prior` -/
def findPrior (d : Delivery) (payloadSha256 : String) (table : BronzeTable) :
    Except Stop (Option BronzeRow) :=
  match requireKeyComponent d.event "upload_session_id" d.event.uploadSessionId,
      requireKeyComponent d.event "payload_sha256" payloadSha256 with
  | .ok (), .ok () =>
    match d.lookup with
    | some s => .error s
    | none => .ok (latestPrior d payloadSha256 table)
  | .error e, _ => .error (.raised e)
  | _, .error e => .error (.raised e)

/-- `is_published` -/
def isPublished (prior : BronzeRow) : Bool :=
  prior.publishedAt.isSome || prior.processingStatus = .published

/-- The row concluded its ingest: a duplicate of it is a no-op. -/
def concluded (prior : BronzeRow) : Bool := prior.processingStatus = .failed || isPublished prior

/-- `build_ingress_ready` -/
def buildIngressReady (event : CsvReceivedEvent) (traceId bronzeRef : Uuid)
    (receivedAt : Timestamp) (delimiter : String) : Except Exn IngressReadyEvent :=
  match nonEmpty event.sourceId, nonEmpty event.gcsUri, oneChar delimiter with
  | some sourceId, some gcsUri, some delimiter => .ok
    { traceId
      tenantId := event.tenantId
      storeId := event.storeId
      sourceId
      templateId := event.templateId
      bronzeRef
      gcsUri
      receivedTs := receivedAt
      delimiter
      tenantDisplayCode := event.tenantDisplayCode
      storeCode := event.storeCode
      replay := false
      parentTraceId := none }
  | _, _, _ => .error (.other "ValidationError")

/-! ### The pipeline -/

section Pipeline

variable (p : IngestPipeline) (d : Delivery)

/-- The row of the delivery's event. -/
def newRow (payloadSha256 : String) (sizeBytes : ℕ) (rowCount : Option ℕ)
    (status : ProcessingStatus) : BronzeRow where
  id := d.bronzeId
  tenantId := d.event.tenantId
  storeId := some d.event.storeId
  sourceId := d.event.sourceId
  disChannel := "csv_upload"
  traceId := d.event.traceId
  gcsUri := d.event.gcsUri
  payloadSizeBytes := some sizeBytes
  payloadSha256 := some payloadSha256
  rowCount := rowCount
  sourcePayloadId := some d.event.uploadSessionId
  templateId := some d.event.templateId
  receivedAt := d.receivedAt
  publishedAt := none
  processingStatus := status

/-- `insert_row` in its session. -/
def insertRow (row : BronzeRow) (w : World) (next : World → Ending) : Ending :=
  match w.bronze.insertRow row with
  | none => failing w (.other "IntegrityError")
  | some bronze => d.insert.andThen w { w with bronze } next

/-- The publication of an envelope, and the mark on its row. -/
def publishAndMark (envelope : IngressReadyEvent) (outcome : IngestOutcome) (w : World) : Ending :=
  d.publish.andThen w { w with published := w.published ++ [envelope] } fun w =>
    d.mark.andThen w
      { w with bronze := w.bronze.markPublished d.event.tenantId envelope.bronzeRef d.publishedAt }
      fun w => (w, .ok outcome)

/-- `_handle_duplicate` -/
def handleDuplicate (prior : BronzeRow) (data : Bytes) (w : World) : Ending :=
  if concluded prior then (w, .ok ⟨.duplicateNoop, prior.traceId, some prior.id⟩)
  else
    match p.runPreflight data with
    | .error e => failing w e.exn
    | .ok preflight =>
      match buildIngressReady d.event prior.traceId prior.id prior.receivedAt
          preflight.delimiter with
      | .error e => failing w e
      | .ok envelope =>
        publishAndMark d envelope ⟨.duplicateResumed, prior.traceId, some prior.id⟩ w

/-- `_handle_preflight_failure` -/
def handlePreflightFailure (payloadSha256 : String) (sizeBytes : ℕ) (w : World) : Ending :=
  insertRow d (newRow d payloadSha256 sizeBytes none .failed) w fun w =>
    (w, .ok ⟨.preflightFailed, d.event.traceId, some d.bronzeId⟩)

/-- The write and the publication of a file that passed the gates. -/
def ingest (payloadSha256 : String) (preflight : PreflightResult) (w : World) : Ending :=
  insertRow d (newRow d payloadSha256 preflight.sizeBytes (some preflight.rowCount) .received) w
    fun w =>
      match buildIngressReady d.event d.event.traceId d.bronzeId d.receivedAt
          preflight.delimiter with
      | .error e => failing w e
      | .ok envelope =>
        publishAndMark d envelope ⟨.ingested, d.event.traceId, some d.bronzeId⟩ w

/-- A file without a prior row. -/
def handleFresh (payloadSha256 : String) (data : Bytes) (w : World) : Ending :=
  match p.runPreflight data with
  | .error (.failed _) => handlePreflightFailure d payloadSha256 data.length w
  | .error (.raised e) => failing w e
  | .ok preflight =>
    match p.gateCsvHeaders preflight.columns with
    | .error e => failing w e
    | .ok _ => ingest d payloadSha256 preflight w

/-- The reads of a delivery: its object, and the prior row of its key. -/
def lookUp (w : World) : Except Stop (Bytes × Option BronzeRow) :=
  match crossCheckPath p.bronzeBucket d.event with
  | .error e => .error (.raised e)
  | .ok objectKey =>
    match d.download objectKey with
    | .error s => .error s
    | .ok data => (findPrior d (p.sha256 data) w.bronze).map fun prior => (data, prior)

/-- `process` -/
def process (w : World) : Ending :=
  match lookUp p d w with
  | .error s => (w, .error s)
  | .ok (data, some prior) => handleDuplicate p d prior data w
  | .ok (data, none) => handleFresh p d (p.sha256 data) data w

end Pipeline

/-- The world after a delivery. -/
def step (p : IngestPipeline) (w : World) (d : Delivery) : World := (process p d w).1

/-- The world after the deliveries. -/
def run (p : IngestPipeline) (ds : List Delivery) (w : World) : World := ds.foldl (step p) w

end CortexDis.CsvWorker
