import CortexDis.ApplyMapping
import CortexDis.Catalogue
import CortexDis.Intake
import CortexDis.LoadMapping
import CortexDis.ObjectPath
import CortexDis.Quarantine

/-!
The consumer's pipeline over one event: fetch, load, gate, map, gate, write, with every
failure turned into a quarantine record or raised.

Everything up to the write only reads. It is `prepare`, which also keeps what it has learned
of the event for the handler of its exceptions.
-/

namespace CortexDis.Orchestrate

open CortexDis.PyDict CortexDis.Values CortexDis.Envelope CortexDis.Errors CortexDis.Frames
open CortexDis.MappingRules CortexDis.Normalize CortexDis.ApplyMapping CortexDis.Canonical
open CortexDis.GroupHot CortexDis.WriteChunk CortexDis.Catalogue CortexDis.Bronze
open CortexDis.LoadMapping CortexDis.ObjectPath CortexDis.Quarantine CortexDis.Intake
open CortexDis.PyText CortexDis.PyJson

structure GateResult where
  passed : Bool
  failures : List GateFailure

/-- The pipeline of one process: its configuration, and the code it calls that is modelled
elsewhere or outside the source. -/
structure ConsumerPipeline where
  bronzeBucket : String
  batchSize : ℕ
  batchSize_pos : 1 ≤ batchSize
  polars : Polars
  driver : Driver
  /-- `pl.read_csv(_, separator=_, infer_schema=False)` -/
  readCsv : Char → Bytes → Except Exn Frame
  /-- `SourceMapping.model_validate` -/
  modelValidate : Json → Except Exn Rules
  runPreValidation : LoadedMapping → Frame → Except Exn GateResult
  runPostValidation : LoadedMapping → Frame → Except Exn GateResult
  buildEventRows : IngressReadyEvent → BronzeMeta → LoadedMapping → ApplyMapping.MappingResult →
    Option String → Except Exn (List (EventRow Cell))
  /-- `str(exc)` -/
  str : Exn → String

/-- How the calls of one attempt end: what a read returns or raises, and the fate of each
transaction. -/
structure Calls where
  bronze : Except Exn BronzeTable
  download : String → Except Exn Bytes
  mappings : Except Exn (List MappingRow)
  stores : Except Exn (List StoreRow)
  txs : ℕ → Tx
  hold : Fate
  now : Timestamp

/-- The state an attempt can change. -/
structure World where
  db : Db
  held : Held

/-! ### Up to the write -/

/-- An exception, with the stage it was tagged with. -/
structure Raised where
  exn : Exn
  stage : Option Stage
  deriving DecidableEq, Repr

abbrev Flow := ExceptT Raised (StateM FlowContext)

def raise {α : Type} (e : Exn) : Flow α := throw ⟨e, none⟩

def call {α : Type} : Except Exn α → Flow α
  | .ok a => pure a
  | .error e => raise e

/-- `_staged` -/
def staged {α : Type} (stage : Stage) (body : Flow α) : Flow α :=
  tryCatch body fun r => throw { r with stage := some stage }

/-- `cross_check_path` of the consumer -/
def crossCheckPath (bronzeBucket : String) (event : IngressReadyEvent) : Except Exn String := do
  let (bucket, objectKey) ← splitObjectUri event.gcsUri
  if bucket ≠ bronzeBucket then .error (.eventPathMismatch none)
  else
    let parsed ← parseObjectPath objectKey
    if parsed.tenantId ≠ event.tenantId ∨ parsed.sourceId ≠ event.sourceId then
      .error (.eventPathMismatch none)
    else .ok objectKey

/-- What a gate that did not pass, or the engine, stopped the event with. -/
inductive Prepared
  | gateFailed (stage : Stage) (failures : List GateFailure) (fallback : Disposition)
  | catalogue (args : WriteArgs Cell) (result : Catalogue.MappingResult)
  | events (args : WriteArgs Cell) (rows : List (EventRow Cell))

section Pipeline

variable (p : ConsumerPipeline) (c : Calls) (event : IngressReadyEvent)

/-- `parse_chunk` -/
def parseChunk (data : Bytes) : Except Exn Frame :=
  match p.readCsv event.delimiter data with
  | .error _ => .error (contractError event none)
  | .ok frame => if frame.height = 0 then .error (contractError event none) else .ok frame

/-- `fetch_chunk`; the bronze row is noted as soon as it is read. -/
def fetchChunk : Flow (Frame × BronzeMeta) := do
  let objectKey ← call (crossCheckPath p.bronzeBucket event)
  let table ← call c.bronze
  let bronze ← call (readBronzeRow table event)
  modify fun ctx => { ctx with bronzeId := bronze.bronzeId, disChannel := bronze.disChannel }
  let data ← call (c.download objectKey)
  let frame ← call (parseChunk p event data)
  return (frame, bronze)

/-- The store facts, where the routed table needs them. -/
def storeFacts (loaded : LoadedMapping) : Flow (Option StoreFacts) :=
  match loaded.targetModel with
  | .storeSkuChangeEvent => return none
  | _ => staged .mappingLookedUp do
    let rows ← call c.stores
    return some (← call (readStoreFacts rows event))

def FailureStage.name : FailureStage → String
  | .normalize => "normalize"
  | .cast => "cast"
  | .derive => "derive"

def gateFailureOf (f : CellNormalizationFailure) : GateFailure :=
  ⟨some f.column, some f.rowIndex, FailureStage.name f.stage ++ ":" ++ f.op, f.reason⟩

/-- `apply_enrichment` on the current-position table: both registered fields, one value each. -/
def applyEnrichment (facts : StoreFacts) (frame : Frame) : Frame :=
  let lit (s : String) : Series := ⟨.string, List.replicate frame.height (some (.str s))⟩
  (frame.withColumn "currency" (lit facts.currency)).withColumn "tax_treatment"
    (lit facts.taxTreatment)

/-- Enrichment, for the current-position table only. -/
def enrich (loaded : LoadedMapping) (facts : Option StoreFacts)
    (result : ApplyMapping.MappingResult) : Flow ApplyMapping.MappingResult :=
  match loaded.targetModel, facts with
  | .storeSkuCurrentPosition, some facts =>
    return { result with contribution := applyEnrichment facts result.contribution }
  | .storeSkuCurrentPosition, none => raise (.other "AssertionError")
  | _, _ => return result

/-- The input of the write. -/
def writeInput (bronze : BronzeMeta) (loaded : LoadedMapping) (facts : Option StoreFacts)
    (result : ApplyMapping.MappingResult) : Flow Prepared := do
  let taxTreatment := facts.map (·.taxTreatment)
  let args : WriteArgs Cell :=
    { event, loaded, disChannel := bronze.disChannel, taxTreatment := taxTreatment.map .str }
  match loaded.targetModel with
  | .storeSkuCurrentPosition =>
    return .catalogue args ⟨result.contribution.toDicts, result.sourceRowIndices⟩
  | _ => return .events args (← call (p.buildEventRows event bronze loaded result taxTreatment))

/-- From the loaded mapping to the write. -/
def validateAndMap (frame : Frame) (bronze : BronzeMeta) (loaded : LoadedMapping)
    (facts : Option StoreFacts) : Flow Prepared := do
  let pre ← call (p.runPreValidation loaded frame)
  if ¬ pre.passed then return .gateFailed .preMappingValidated pre.failures .failedPreValidation
  else
    let result ← call (applyMapping p.polars loaded.source frame)
    if result.failures ≠ [] then
      return .gateFailed .mappingExecuted (result.failures.map gateFailureOf) .failedMapping
    else
      let result ← enrich loaded facts result
      let post ← call (p.runPostValidation loaded result.contribution)
      if ¬ post.passed then
        return .gateFailed .postMappingValidated post.failures .failedPostValidation
      else writeInput p event bronze loaded facts result

/-- `_process` up to the write. -/
def prepare : Flow Prepared := do
  let (frame, bronze) ← staged .received (fetchChunk p c event)
  modify fun ctx => { ctx with rowCount := frame.height }
  let loaded ← staged .mappingLookedUp do
    let rows ← call c.mappings
    call (loadActiveMapping p.modelValidate rows event)
  modify fun ctx => { ctx with mappingVersionId := loaded.mappingVersionId }
  let facts ← storeFacts c event loaded
  validateAndMap p event frame bronze loaded facts

/-! ### Failures -/

/-- `_CHUNK_QUARANTINE_CODES` -/
def chunkQuarantineCodes : List FailureCode :=
  [.mappingConfigInvalid, .suiteRefUnsupported, .contractViolation]

/-- `_quarantinable` -/
def quarantinable (e : Exn) (ctx : FlowContext) : Bool :=
  if failureCodeFor e ∉ chunkQuarantineCodes then false
  else if ctx.disChannel = none then false
  else ¬ (failureCodeFor e = .contractViolation ∧ e.field? = some (pyStr "store_id"))

/-- The handler of `process`: hold the chunk, or raise what was raised. -/
def handleException (ctx : FlowContext) (raised : Raised) (w : World) :
    Except Exn Disposition × World :=
  let message := Quarantine.take 2000 (p.str raised.exn)
  if quarantinable raised.exn ctx then
    match holdChunkFailure c.hold c.now event ctx (raised.stage.getD .received)
        (failureCodeFor raised.exn) message (some raised.exn.className) none w.held with
    | (.ok (), held) => (.ok .quarantined, { w with held })
    | (.error _, held) => (.error raised.exn, { w with held })
  else (.error raised.exn, w)

/-- `_GATE_FAILURE_CODES` -/
def gateFailureCode : Stage → Option FailureCode
  | .preMappingValidated => some .preValidationFailed
  | .mappingExecuted => some .mappingExecutionFailed
  | .postMappingValidated => some .postValidationFailed
  | _ => none

/-- `f"{len(failures)} gate failure(s); row-less shape held at chunk grain"` -/
def rowLessMessage (failures : List GateFailure) : String :=
  toString failures.length ++ " gate failure(s); row-less shape held at chunk grain"

/-- The hold of a gate's failures: by row when every failure has one, else the chunk. -/
def holdGateFailure (ctx : FlowContext) (stage : Stage) (code : FailureCode)
    (failures : List GateFailure) (held : Held) : Except Exn Unit × Held :=
  if failures.all fun f => f.rowIndex.isSome then
    match holdRowFailures c.hold c.now event ctx stage failures held with
    | (.ok _, held) => (.ok (), held)
    | (.error e, held) => (.error e, held)
  else
    holdChunkFailure c.hold c.now event ctx stage code (rowLessMessage failures) none
      (some failures) held

/-- `_quarantine_gate_failure` -/
def quarantineGateFailure (ctx : FlowContext) (stage : Stage) (failures : List GateFailure)
    (fallback : Disposition) (held : Held) : Except Exn Disposition × Held :=
  match gateFailureCode stage with
  | none => (.error (.other "KeyError"), held)
  | some code =>
    match holdGateFailure c event ctx stage code failures held with
    | (.ok (), held) => (.ok .quarantined, held)
    | (.error _, held) => (.ok fallback, held)

/-- `process`: one attempt at an event. -/
def process (w : World) : Except Exn Disposition × World :=
  match (prepare p c event).run.run .initial with
  | (.error raised, ctx) => handleException p c event ctx raised w
  | (.ok (.gateFailed stage failures fallback), ctx) =>
    match quarantineGateFailure c event ctx stage failures fallback w.held with
    | (.ok disposition, held) => (.ok disposition, { w with held })
    | (.error e, held) => handleException p c event ctx ⟨e, none⟩ { w with held }
  | (.ok (.catalogue args result), ctx) =>
    match writeCatalogueChunk args p.batchSize c.txs result w.db with
    | (db, .ok _) => (.ok .written, { w with db })
    | (db, .error e) => handleException p c event ctx ⟨e, some .canonicalWritten⟩ { w with db }
  | (.ok (.events args rows), ctx) =>
    let run := writeChunk p.driver args p.batchSize c.txs rows w.db
    match run.raised with
    | none => (.ok .written, { w with db := run.db })
    | some e => handleException p c event ctx ⟨e, some .canonicalWritten⟩ { w with db := run.db }

end Pipeline

end CortexDis.Orchestrate
