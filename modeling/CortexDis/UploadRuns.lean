import CortexDis.CsvWorker
import CortexDis.Orchestrate
import CortexDis.PathRoundTrip
import CortexDis.Dashboard

/-!
The upload server, the csv worker and the streaming consumer over one audit table.

An upload that is accepted leaves a message for the worker, and the worker one for the
consumer; each message is delivered any number of times, at any time and in any order. Any
call of a step can fail and any process can die in it. The audit writes succeed.

Of the rows a delivery leaves behind its `RECEIVED` row only that they are of another stage or
outcome is kept.
-/

namespace CortexDis.UploadRuns

open CortexDis.Values CortexDis.Envelope CortexDis.Errors CortexDis.Bronze CortexDis.PyText
open CortexDis.Intake CortexDis.Frames CortexDis.Dashboard CortexDis.Quarantine CortexDis.Patterns

/-! ### The upload server -/

/-- The code the upload server calls outside of the handler. -/
structure UploadServer where
  bucket : String
  /-- `hashlib.sha256(_).hexdigest()` -/
  sha256 : Bytes → String
  decimalDigit : Char → Option ℕ

/-- What the gate sequence resolves. -/
structure Admitted where
  fileBytes : Bytes
  rowCount : ℕ
  templateId : Uuid
  sourceId : String
  storeId : Uuid
  storeCode : String
  tenantDisplayCode : Option String

/-- How the gate sequence of a request ends. -/
inductive Gates
  | admitted (a : Admitted)
  /-- a `DisError`: the request is answered 4xx -/
  | rejected
  /-- any other exception, or the process dies -/
  | broken

/-- One request, with the outcomes of its calls. -/
structure UploadRequest where
  tenantId : Uuid
  traceId : Uuid
  gates : Gates
  receivedTs : PathRoundTrip.Datetime
  storageWrite : CsvWorker.Fate
  publish : CsvWorker.Fate
  /-- the process dies after the publication -/
  dies : Bool
  /-- the time of its audit row -/
  emittedAt : Timestamp

/-- An upload the server accepted. -/
structure Upload where
  tenantId : Uuid
  traceId : Uuid
  templateId : Uuid
  rowCount : ℕ
  acceptedAt : Timestamp
  deriving DecidableEq

/-- `audit.events`, the accepted uploads, and the two topics with the bronze table between. -/
structure System where
  audit : List AuditEvent
  accepted : List Upload
  /-- the messages on `csv.received` -/
  received : List CsvReceivedEvent
  /-- the bronze table and the messages on `ingress.ready` -/
  worker : CsvWorker.World

def System.empty : System := ⟨[], [], [], ⟨.empty, []⟩⟩

/-- `derive_upload_session_id` -/
def deriveUploadSessionId (srv : UploadServer) (tenantId storeId templateId : Uuid)
    (payloadSha256 : String) : String :=
  let identity := ['|'].intercalate
    [tenantId.chars, storeId.chars, templateId.chars, payloadSha256.toList]
  let digest := srv.sha256 (String.ofList identity).toUTF8.data.toList
  String.ofList ('u' :: 's' :: '_' :: digest.toList.take 12)

/-- `build_csv_received` -/
def buildCsvReceived (r : UploadRequest) (a : Admitted) (uploadSessionId gcsUri : String) :
    Except Exn CsvReceivedEvent := do
  let receivedTs ← PathRoundTrip.ensureUtc r.receivedTs
  if a.sourceId = "" ∨ gcsUri = "" ∨
      fullMatch uploadSessionPattern uploadSessionId = false then
    .error (.other "ValidationError")
  else return {
      traceId := r.traceId
      tenantId := r.tenantId
      storeId := a.storeId
      sourceId := a.sourceId
      templateId := a.templateId
      uploadSessionId
      gcsUri
      receivedTs
      delimiter := ','
      tenantDisplayCode := a.tenantDisplayCode
      storeCode := some a.storeCode }

/-- The row of an accepted upload. -/
def acceptedRow (u : Upload) : AuditEvent where
  eventTimestamp := u.acceptedAt
  traceId := u.traceId
  tenantId := u.tenantId
  serviceName := "dis-ui-server"
  stage := .received
  outcome := .success
  rowCount := some u.rowCount
  templateId := some u.templateId.str

/-- The row of `_emit_failure`. -/
def failureRow (r : UploadRequest) (templateId : Option String) : AuditEvent where
  eventTimestamp := r.emittedAt
  traceId := r.traceId
  tenantId := r.tenantId
  serviceName := "dis-ui-server"
  stage := .received
  outcome := .failure
  rowCount := none
  templateId := templateId

/-- The handler behind the gates: the object, the message, the audit row. -/
def acceptUpload (srv : UploadServer) (r : UploadRequest) (a : Admitted) (s : System) : System :=
  let failed := failureRow r (some a.templateId.str)
  let uploadId := deriveUploadSessionId srv r.tenantId a.storeId a.templateId
    (srv.sha256 a.fileBytes)
  match PathRoundTrip.buildObjectPath srv.decimalDigit (.uuid r.tenantId) a.sourceId
      (.uuid r.traceId) r.receivedTs "csv" with
  | .error _ => s
  | .ok objectKey =>
    match r.storageWrite with
    | .stops .crashed _ => s
    | .stops (.raised _) _ => { s with audit := s.audit ++ [failed] }
    | .completes =>
      match buildCsvReceived r a uploadId ("gs://" ++ srv.bucket ++ "/" ++ objectKey) with
      | .error _ => s
      | .ok event =>
        let sent := { s with received := s.received ++ [event] }
        match r.publish with
        | .stops .crashed landed => if landed then sent else s
        | .stops (.raised _) landed =>
          let t := if landed then sent else s
          { t with audit := t.audit ++ [failed] }
        | .completes =>
          if r.dies then sent
          else
            let upload : Upload := ⟨r.tenantId, r.traceId, a.templateId, a.rowCount, r.emittedAt⟩
            { sent with
              audit := sent.audit ++ [acceptedRow upload]
              accepted := sent.accepted ++ [upload] }

/-- `_process_upload` -/
def processUpload (srv : UploadServer) (r : UploadRequest) (s : System) : System :=
  match r.gates with
  | .broken => s
  | .rejected => { s with audit := s.audit ++ [failureRow r none] }
  | .admitted a => acceptUpload srv r a s

/-! ### The csv worker -/

/-- A delivery to the worker, and its rows behind the `RECEIVED` row. -/
structure Ingestion where
  delivery : CsvWorker.Delivery
  emittedAt : Timestamp
  later : List AuditEvent
  later_uncounted : ∀ e ∈ later, e.isIntake = false

/-- A `RECEIVED` row of the worker. -/
def workerRow (i : Ingestion) (outcome : Outcome) (rowCount : Option ℕ) : AuditEvent where
  eventTimestamp := i.emittedAt
  traceId := i.delivery.event.traceId
  tenantId := i.delivery.event.tenantId
  serviceName := "csv-ingest-worker"
  stage := .received
  outcome := outcome
  rowCount := rowCount
  templateId := none

/-- The `RECEIVED` row of a delivery, if it comes to one. -/
def workerReceived (p : CsvWorker.IngestPipeline) (i : Ingestion) (w : CsvWorker.World) :
    List AuditEvent :=
  match CsvWorker.crossCheckPath p.bronzeBucket i.delivery.event with
  | .error (.eventPathMismatch _) => [workerRow i .failure none]
  | .error _ => []
  | .ok _ =>
    match CsvWorker.lookUp p i.delivery w with
    | .error _ => []
    | .ok (_, some prior) =>
      if CsvWorker.concluded prior then [workerRow i .duplicateNoop none] else []
    | .ok (data, none) =>
      match p.runPreflight data with
      | .error (.failed _) =>
        -- behind the insert of the row with status `FAILED`
        if (CsvWorker.process p i.delivery w).2.isOk then [workerRow i .failure none] else []
      | .error (.raised _) => []
      | .ok preflight => [workerRow i .success (some preflight.rowCount)]

/-! ### The streaming consumer -/

/-- An attempt of the consumer at a message, and its rows behind the `RECEIVED` row. -/
structure Attempt where
  calls : Orchestrate.Calls
  /-- what the read of the bronze row raises, if it does -/
  bronzeRead : Option Exn
  /-- the audit rows the redelivery readback finds, or none if it fails -/
  readback : Option ℕ
  /-- the process dies before the `RECEIVED` row -/
  dies : Bool
  emittedAt : Timestamp
  later : List AuditEvent
  later_uncounted : ∀ e ∈ later, e.isIntake = false

/-- A `RECEIVED` row of the consumer. -/
def consumerRow (event : IngressReadyEvent) (a : Attempt) (outcome : Outcome)
    (rowCount : Option ℕ) : AuditEvent where
  eventTimestamp := a.emittedAt
  traceId := event.traceId
  tenantId := event.tenantId
  serviceName := "streaming-consumer"
  stage := .received
  outcome := outcome
  rowCount := rowCount
  templateId := none

/-- `_seen_before`; a failed readback is a first delivery. -/
def seenBefore (event : IngressReadyEvent) (a : Attempt) (audit : List AuditEvent) : Bool :=
  match a.readback with
  | none => false
  | some n => (audit.take n).any fun e => e.tenantId = event.tenantId &&
      e.traceId = event.traceId && e.serviceName = "streaming-consumer" && e.stage = .received

/-- What `fetch_chunk` comes to. -/
def fetched (p : Orchestrate.ConsumerPipeline) (event : IngressReadyEvent) (a : Attempt)
    (s : System) : Except Orchestrate.Raised (Frame × BronzeMeta) :=
  let bronze : Except Exn BronzeTable := match a.bronzeRead with
    | some e => .error e
    | none => .ok s.worker.bronze
  ((Orchestrate.staged .received
    (Orchestrate.fetchChunk p { a.calls with bronze } event)).run.run .initial).1

def consumerReceived (p : Orchestrate.ConsumerPipeline) (event : IngressReadyEvent) (a : Attempt)
    (s : System) : List AuditEvent :=
  if a.dies then []
  else
    match fetched p event a s with
    | .error _ => [consumerRow event a .failure none]
    | .ok (frame, _) =>
      [consumerRow event a (if seenBefore event a s.audit then .retried else .success)
        (some frame.height)]

/-! ### The system -/

/-- The three services. -/
structure Services where
  server : UploadServer
  worker : CsvWorker.IngestPipeline
  consumer : Orchestrate.ConsumerPipeline

inductive Action
  | upload (r : UploadRequest)
  | ingest (i : Ingestion)
  | consume (event : IngressReadyEvent) (a : Attempt)

variable (v : Services)

/-- One step. A message that is on no topic is not delivered. -/
def step (s : System) : Action → System
  | .upload r => processUpload v.server r s
  | .ingest i =>
    if s.received.contains i.delivery.event then
      { s with
        audit := s.audit ++ (workerReceived v.worker i s.worker ++ i.later)
        worker := CsvWorker.step v.worker s.worker i.delivery }
    else s
  | .consume event a =>
    if s.worker.published.contains event then
      { s with audit := s.audit ++ (consumerReceived v.consumer event a s ++ a.later) }
    else s

def run (actions : List Action) (s : System) : System := actions.foldl (step v) s

end CortexDis.UploadRuns
