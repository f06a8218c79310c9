import CortexDis.Envelope
import CortexDis.Errors
import CortexDis.Patterns
import CortexDis.PyJson

/-!
From message bodies to acknowledgements: the two envelope parsers, the routing of one message
and the pull pass, in both services.

The coercions of pydantic are fields of `Pydantic`; the field sets, the constraints, the
order of the checks and the timestamp validator are the models' own. Pydantic collects the
field errors into one `ValidationError`, and an exception of a validator that is neither a
`ValueError` nor an `AssertionError` escapes at once.
-/

namespace CortexDis.Intake

open CortexDis.Values CortexDis.Errors CortexDis.Envelope CortexDis.Patterns
open CortexDis.PyText CortexDis.PyJson

/-- A `datetime` as pydantic makes it: wall time without a zone, or an instant. -/
inductive Datetime
  | naive (wall : ℤ)
  | aware (t : ℤ)
  deriving DecidableEq, Repr

structure Pydantic where
  /-- `Literal[1]` -/
  literalOne : Json → Bool
  uuid : Json → Option Uuid
  str : Json → Option String
  bool : Json → Option Bool
  datetime : Json → Option Datetime

/-- Pydantic on texts, integers and booleans, given what it reads off a text. -/
def plainPydantic (uuid : List Char → Option Uuid) (datetime : PyStr → Option Datetime) :
    Pydantic where
  literalOne
    | .int 1 => true
    | _ => false
  uuid
    | .str s => uuid (s.map Char.ofNat)
    | _ => none
  str
    | .str s => some (String.ofList (s.map Char.ofNat))
    | _ => none
  bool
    | .bool b => some b
    | _ => none
  datetime
    | .str s => datetime s
    | _ => none

abbrev Raw := List (PyStr × Json)

def Raw.get (raw : Raw) (key : String) : Option Json := PyDict.lookup (pyStr key) raw

/-! ### Fields -/

section Fields

variable {α : Type} (raw : Raw)

def required (name : String) (check : Json → Option α) : Option α := (raw.get name).bind check

def optional (name : String) (default : α) (check : Json → Option α) : Option α :=
  match raw.get name with
  | some value => check value
  | none => some default

/-- `T | None` -/
def nullable (check : Json → Option α) : Json → Option (Option α)
  | .null => some none
  | value => (check value).map some

/-- `Field(min_length=1)` -/
def nonEmpty (s : String) : Option String := if s = "" then none else some s

/-- `Field(min_length=1, max_length=1)` -/
def oneChar (s : String) : Option Char :=
  match s.toList with
  | [c] => some c
  | _ => none

/-- The names `exc.errors()` reports: the fields without a value, and the keys no field has. -/
def badFields (fields : List (String × Bool)) : List PyStr :=
  ((fields.filter fun f => !f.2).map fun f => pyStr f.1) ++
    (raw.filter fun e => e.1 ∉ fields.map fun f => pyStr f.1).map Prod.fst

/-- `_identifier_or_none` -/
def identifierOrNone (key : String) : Option PyStr :=
  match raw.get key with
  | some (.str s) => some s
  | _ => none

/-- The event when every field has its value, or the contract error that names the first of
the bad fields. -/
def validated (event : Option α) (fields : List (String × Bool)) : Except Exn α :=
  match event, badFields raw fields with
  | some event, [] => .ok event
  | _, bad => .error (.eventContract (bad.mergeSort fun a b => a ≤ b).head?
      (identifierOrNone raw "tenant_id") (identifierOrNone raw "trace_id"))

end Fields

/-- `datetime.min` and `datetime.max` in UTC -/
def minInstant : ℤ := -62135596800000000
def maxInstant : ℤ := 253402300799999999

/-- `ensure_utc` -/
def ensureUtc : Datetime → Except Exn Timestamp
  | .naive _ => .error (.other "NaiveDatetimeError")
  | .aware t =>
    if t < minInstant ∨ maxInstant < t then .error (.other "OverflowError") else .ok t

variable (P : Pydantic)

/-- The `received_ts` field with its validator. -/
def receivedTs (raw : Raw) : Except Exn (Option Timestamp) :=
  match required raw "received_ts" P.datetime with
  | none => .ok none
  | some value => (ensureUtc value).map some

def schemaVersion (raw : Raw) : Option Unit :=
  required raw "schema_version" fun value => if P.literalOne value then some () else none

def nonEmptyStr (value : Json) : Option String := (P.str value).bind nonEmpty

def charStr (value : Json) : Option Char := (P.str value).bind oneChar

/-! ### The envelopes -/

/-- `IngressReadyEvent.model_validate` and the handler of its `ValidationError` -/
def validateIngressReady (raw : Raw) : Except Exn IngressReadyEvent := do
  let receivedTs ← receivedTs P raw
  let traceId := required raw "trace_id" P.uuid
  let tenantId := required raw "tenant_id" P.uuid
  let storeId := required raw "store_id" P.uuid
  let sourceId := required raw "source_id" (nonEmptyStr P)
  let templateId := required raw "template_id" P.uuid
  let bronzeRef := required raw "bronze_ref" P.uuid
  let gcsUri := required raw "gcs_uri" (nonEmptyStr P)
  let delimiter := optional raw "delimiter" ',' (charStr P)
  let tenantDisplayCode := optional raw "tenant_display_code" none (nullable P.str)
  let storeCode := optional raw "store_code" none (nullable P.str)
  let replay := optional raw "replay" false P.bool
  let parentTraceId := optional raw "parent_trace_id" none (nullable P.uuid)
  let event : Option IngressReadyEvent := do
    return { traceId := ← traceId, tenantId := ← tenantId, storeId := ← storeId
             sourceId := ← sourceId, templateId := ← templateId, bronzeRef := ← bronzeRef
             gcsUri := ← gcsUri, receivedTs := ← receivedTs, delimiter := ← delimiter
             tenantDisplayCode := ← tenantDisplayCode, storeCode := ← storeCode
             replay := ← replay, parentTraceId := ← parentTraceId }
  validated raw event
    [("schema_version", (schemaVersion P raw).isSome), ("trace_id", traceId.isSome),
      ("tenant_id", tenantId.isSome), ("store_id", storeId.isSome),
      ("source_id", sourceId.isSome), ("template_id", templateId.isSome),
      ("bronze_ref", bronzeRef.isSome), ("gcs_uri", gcsUri.isSome),
      ("received_ts", receivedTs.isSome), ("delimiter", delimiter.isSome),
      ("tenant_display_code", tenantDisplayCode.isSome), ("store_code", storeCode.isSome),
      ("replay", replay.isSome), ("parent_trace_id", parentTraceId.isSome)]

/-- `^us_[a-z0-9]{12}$` -/
def uploadSessionPattern : Pattern :=
  seq (chr (· = 'u')) (seq (chr (· = 's')) (seq (chr (· = '_'))
    (times (chr fun c => ('a' ≤ c ∧ c ≤ 'z') ∨ ('0' ≤ c ∧ c ≤ '9')) 12)))

def sessionStr (value : Json) : Option String :=
  (P.str value).bind fun s => if fullMatch uploadSessionPattern s then some s else none

/-- `CsvReceivedEvent.model_validate` and the handler of its `ValidationError` -/
def validateCsvReceived (raw : Raw) : Except Exn CsvReceivedEvent := do
  let receivedTs ← receivedTs P raw
  let traceId := required raw "trace_id" P.uuid
  let tenantId := required raw "tenant_id" P.uuid
  let storeId := required raw "store_id" P.uuid
  let sourceId := required raw "source_id" (nonEmptyStr P)
  let templateId := required raw "template_id" P.uuid
  let uploadSessionId := required raw "upload_session_id" (sessionStr P)
  let gcsUri := required raw "gcs_uri" (nonEmptyStr P)
  let delimiter := optional raw "delimiter" ',' (charStr P)
  let tenantDisplayCode := optional raw "tenant_display_code" none (nullable P.str)
  let storeCode := optional raw "store_code" none (nullable P.str)
  let event : Option CsvReceivedEvent := do
    return { traceId := ← traceId, tenantId := ← tenantId, storeId := ← storeId
             sourceId := ← sourceId, templateId := ← templateId
             uploadSessionId := ← uploadSessionId, gcsUri := ← gcsUri
             receivedTs := ← receivedTs, delimiter := ← delimiter
             tenantDisplayCode := ← tenantDisplayCode, storeCode := ← storeCode }
  validated raw event
    [("schema_version", (schemaVersion P raw).isSome), ("trace_id", traceId.isSome),
      ("tenant_id", tenantId.isSome), ("store_id", storeId.isSome),
      ("source_id", sourceId.isSome), ("template_id", templateId.isSome),
      ("upload_session_id", uploadSessionId.isSome), ("gcs_uri", gcsUri.isSome),
      ("received_ts", receivedTs.isSome), ("delimiter", delimiter.isSome),
      ("tenant_display_code", tenantDisplayCode.isSome), ("store_code", storeCode.isSome)]

/-- A parser around a model: `room` is what `json.loads` has left of the recursion limit. -/
def parseEnvelope {α : Type} (validate : Raw → Except Exn α) (room : ℕ) (data : Bytes) :
    Except Exn α :=
  match loads room data with
  | .error .jsonDecodeError => .error (.eventContract none none none)
  | .error .unicodeDecodeError => .error (.eventContract none none none)
  | .error .recursionError => .error (.other "RecursionError")
  | .error .valueError => .error (.other "ValueError")
  | .ok (.obj raw) => validate raw
  | .ok _ => .error (.eventContract none none none)

/-- `parse_ingress_ready` -/
def parseIngressReady : ℕ → Bytes → Except Exn IngressReadyEvent :=
  parseEnvelope (validateIngressReady P)

/-- `parse_csv_received` -/
def parseCsvReceived : ℕ → Bytes → Except Exn CsvReceivedEvent :=
  parseEnvelope (validateCsvReceived P)

/-! ### Messages -/

inductive Decision
  | ack | nack
  deriving DecidableEq, Repr

/-- What the streaming pipeline made of an event. -/
inductive Disposition
  | written | quarantined | failedPreValidation | failedMapping | failedPostValidation
  deriving DecidableEq, Repr

section Messages

variable {σ : Type} (room : ℕ)

/-- `process_message` of the streaming consumer; the pipeline may change the state `σ`. -/
def processMessage (pipeline : IngressReadyEvent → σ → Except Exn Disposition × σ)
    (data : Bytes) (st : σ) : Except Exn Decision × σ :=
  match parseIngressReady P room data with
  | .error (.eventContract ..) => (.ok .ack, st)
  | .error e => (.error e, st)
  | .ok event =>
    match pipeline event st with
    | (.error _, st) => (.ok .nack, st)
    | (.ok .quarantined, st) => (.ok .ack, st)
    | (.ok .written, st) => (.ok .ack, st)
    | (.ok _, st) => (.ok .nack, st)

/-- `_TERMINAL` -/
def terminal : Exn → Bool
  | .eventContract .. => true
  | .eventPathMismatch _ => true
  | .piiBackendNotConfigured => true
  | _ => false

/-- `process_message` of the csv worker -/
def processCsvMessage {ω : Type} (pipeline : CsvReceivedEvent → σ → Except Exn ω × σ)
    (data : Bytes) (st : σ) : Except Exn Decision × σ :=
  match parseCsvReceived P room data with
  | .error (.eventContract ..) => (.ok .ack, st)
  | .error e => (.error e, st)
  | .ok event =>
    match pipeline event st with
    | (.error e, st) => (.ok (if terminal e then .ack else .nack), st)
    | (.ok _, st) => (.ok .ack, st)

structure Message where
  ackId : String
  data : Bytes
  deriving DecidableEq, Repr

/-- The ids a pass asks to acknowledge and to redeliver at once. -/
structure Requests where
  ackIds : List String
  nackIds : List String
  deriving DecidableEq, Repr

/-- The loop of `poll_once`. -/
def pollLoop (process : Bytes → σ → Except Exn Decision × σ) :
    List Message → Requests → σ → Except Exn Requests × σ
  | [], requests, st => (.ok requests, st)
  | message :: rest, requests, st =>
    match process message.data st with
    | (.ok .ack, st) =>
      pollLoop process rest { requests with ackIds := requests.ackIds ++ [message.ackId] } st
    | (.ok .nack, st) =>
      pollLoop process rest { requests with nackIds := requests.nackIds ++ [message.ackId] } st
    | (.error e, st) => (.error e, st)

/-- `poll_once` over the pulled messages: the requests it sends, or the exception that ends
the pass before it sends any. -/
def pollOnce (process : Bytes → σ → Except Exn Decision × σ) (messages : List Message) (st : σ) :
    Except Exn Requests × σ :=
  pollLoop process messages ⟨[], []⟩ st

end Messages

end CortexDis.Intake
