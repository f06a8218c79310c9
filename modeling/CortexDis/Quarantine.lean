import CortexDis.Runs
import CortexDis.WriteChunk

/-!
The quarantine sink: how a failure is held in the two quarantine tables.

A record is built from the envelope and what the flow knows of the event, checked by its
model, and inserted in one transaction; whatever goes wrong on the way is raised.
-/

namespace CortexDis.Quarantine

open CortexDis.PyDict CortexDis.Values CortexDis.Envelope CortexDis.Errors CortexDis.WriteChunk

/-- What the flow knows of a partially processed event. -/
structure FlowContext where
  bronzeId : Option Uuid
  mappingVersionId : Option ℕ
  disChannel : Option String
  rowCount : Option ℕ
  deriving DecidableEq, Repr

def FlowContext.initial : FlowContext := ⟨none, none, none, none⟩

/-- One gate failure: a cell, a row or, without a row index, the chunk. -/
structure GateFailure where
  column : Option String
  rowIndex : Option ℕ
  check : String
  reason : String
  deriving DecidableEq, Repr

/-! ### Records -/

inductive QuarantineFailureStage
  | preIngestPii | bronzeWrite | mappingLookup | identityValidation | preMappingValidation
  | mappingExecution | postMappingValidation | canonicalWrite | other
  deriving DecidableEq, Repr

/-- `failure_stage_for` -/
def failureStageFor : Stage → QuarantineFailureStage
  | .received => .other
  | .piiTokenized => .preIngestPii
  | .bronzeWritten => .bronzeWrite
  | .ingressPublished => .other
  | .mappingLookedUp => .mappingLookup
  | .identityValidated => .identityValidation
  | .preMappingValidated => .preMappingValidation
  | .mappingExecuted => .mappingExecution
  | .postMappingValidated => .postMappingValidation
  | .canonicalWritten => .canonicalWrite
  | .quarantined => .other
  | .signalComputed => .other

/-- `ROW_FAILURE_STAGES` -/
def rowFailureStages : List QuarantineFailureStage :=
  [.preMappingValidation, .mappingExecution, .postMappingValidation, .identityValidation,
    .canonicalWrite, .other]

/-- `_DIS_CHANNELS` -/
def disChannels : List String := ["csv_upload", "api", "csv_erp", "reverse_api"]

/-- The columns both tables have. -/
structure RecordBase where
  tenantId : Uuid
  storeId : Uuid
  dataIngressEventId : Uuid
  traceId : Uuid
  sourceId : String
  disChannel : String
  gcsUri : String
  failureStage : QuarantineFailureStage
  failureReason : FailureCode
  quarantinedAt : Timestamp
  deriving DecidableEq, Repr

/-- The constraints of the record models on the shared columns. -/
def RecordBase.valid (r : RecordBase) : Bool :=
  1 ≤ r.sourceId.length && r.sourceId.length ≤ 128 && r.disChannel.length ≤ 32 &&
    decide (r.disChannel ∈ disChannels) && 1 ≤ r.gcsUri.length && r.gcsUri.length ≤ 1024

/-- The `failure_context` of a chunk. -/
structure ChunkContext where
  failureMessage : String
  exceptionClass : Option String
  failures : Option (List GateFailure)
  deriving DecidableEq, Repr

structure QuarantinedChunk extends RecordBase where
  failureContext : ChunkContext
  mappingVersionId : Option ℕ
  rowCountInChunk : Option ℕ
  valid : toRecordBase.valid = true

/-- One entry of a row's `failure_context`. -/
structure RowFailure where
  column : Option String
  check : String
  reason : String
  deriving DecidableEq, Repr

structure QuarantinedRow extends RecordBase where
  rowOffset : ℕ
  failureContext : List RowFailure
  mappingVersionId : ℕ
  valid : toRecordBase.valid = true
  stage_mem : failureStage ∈ rowFailureStages

/-- The two tables. -/
structure Held where
  chunks : List QuarantinedChunk
  rows : List QuarantinedRow

/-! ### The writer -/

def writeError : Exn := .other "QuarantineWriteError"

/-- An insert in a transaction of its own; what is raised in it is wrapped. -/
def insertHeld (fate : Fate) (held inserted : Held) : Except Exn Unit × Held :=
  match fate with
  | .commits => (.ok (), inserted)
  | .raises _ landed => (.error writeError, if landed then inserted else held)

/-- `hold_chunk` -/
def holdChunk (fate : Fate) (record : QuarantinedChunk) (held : Held) : Except Exn Unit × Held :=
  insertHeld fate held { held with chunks := held.chunks ++ [record] }

/-- `hold_rows` -/
def holdRows (fate : Fate) (records : List QuarantinedRow) (held : Held) :
    Except Exn Unit × Held :=
  match records with
  | [] => (.error writeError, held)
  | first :: _ =>
    if ∃ record ∈ records, record.tenantId ≠ first.tenantId then (.error writeError, held)
    else insertHeld fate held { held with rows := held.rows ++ records }

/-! ### The sink -/

section Sink

variable (fate : Fate) (now : Timestamp) (event : IngressReadyEvent) (ctx : FlowContext)

/-- `s[:n]` -/
def take (n : ℕ) (s : String) : String := String.ofList (s.toList.take n)

def recordBase (disChannel : String) (stage : Stage) (code : FailureCode) : RecordBase where
  tenantId := event.tenantId
  storeId := event.storeId
  dataIngressEventId := ctx.bronzeId.getD event.bronzeRef
  traceId := event.traceId
  sourceId := event.sourceId
  disChannel := disChannel
  gcsUri := event.gcsUri
  failureStage := failureStageFor stage
  failureReason := code
  quarantinedAt := now

/-- `hold_chunk_failure` -/
def holdChunkFailure (stage : Stage) (code : FailureCode) (message : String)
    (exceptionClass : Option String) (failures : Option (List GateFailure)) (held : Held) :
    Except Exn Unit × Held :=
  match ctx.disChannel with
  | none => (.error writeError, held)
  | some disChannel =>
    let base := recordBase now event ctx disChannel stage code
    if h : base.valid = true then
      holdChunk fate
        { base with
          failureContext :=
            { failureMessage := take 2000 message
              exceptionClass
              failures := failures.map fun fs => fs.map fun f =>
                { f with check := take 256 f.check, reason := take 512 f.reason } }
          mappingVersionId := ctx.mappingVersionId
          rowCountInChunk := ctx.rowCount
          valid := h } held
    else (.error validationError, held)

/-- One failure into its row's list. -/
def addFailure (rows : Dict ℕ (List GateFailure)) (failure : GateFailure) :
    Except Exn (Dict ℕ (List GateFailure)) :=
  match failure.rowIndex with
  | none => .error writeError
  | some i => .ok (rows.set i ((rows.get? i).getD [] ++ [failure]))

/-- The record of one row. -/
def rowRecord (disChannel : String) (mappingVersionId : ℕ) (stage : Stage)
    (e : ℕ × List GateFailure) : Except Exn QuarantinedRow :=
  let base := recordBase now event ctx disChannel stage .validationRowFailed
  if h : base.valid = true ∧ base.failureStage ∈ rowFailureStages then .ok
    { base with
      rowOffset := e.1
      failureContext := e.2.map fun f => ⟨f.column, take 256 f.check, take 512 f.reason⟩
      mappingVersionId
      valid := h.1
      stage_mem := h.2 }
  else .error validationError

/-- The records of the failing rows, in the order of the rows. -/
def rowRecords (disChannel : String) (mappingVersionId : ℕ) (stage : Stage)
    (failures : List GateFailure) : Except Exn (List QuarantinedRow) := do
  let rows ← failures.foldlM addFailure Dict.empty
  (rows.entries.insertionSort fun a b => a.1 ≤ b.1).mapM
    (rowRecord now event ctx disChannel mappingVersionId stage)

/-- `hold_row_failures`: the number of rows held. -/
def holdRowFailures (stage : Stage) (failures : List GateFailure) (held : Held) :
    Except Exn ℕ × Held :=
  match ctx.disChannel, ctx.mappingVersionId with
  | some disChannel, some mappingVersionId =>
    match rowRecords now event ctx disChannel mappingVersionId stage failures with
    | .error e => (.error e, held)
    | .ok records =>
      match holdRows fate records held with
      | (.error e, held) => (.error e, held)
      | (.ok (), held) => (.ok records.length, held)
  | _, _ => (.error writeError, held)

end Sink

/-! ### What a successful hold leaves -/

/-- The record names the event. -/
def RecordBase.ForEvent (r : RecordBase) (event : IngressReadyEvent) : Prop :=
  r.tenantId = event.tenantId ∧ r.traceId = event.traceId ∧ r.storeId = event.storeId ∧
    r.sourceId = event.sourceId ∧ r.gcsUri = event.gcsUri

/-- At least one record of the event was added, and nothing else changed. -/
def Holds (event : IngressReadyEvent) (held held' : Held) : Prop :=
  ∃ chunks rows, held'.chunks = held.chunks ++ chunks ∧ held'.rows = held.rows ++ rows ∧
    0 < chunks.length + rows.length ∧ (∀ r ∈ chunks, r.toRecordBase.ForEvent event) ∧
    ∀ r ∈ rows, r.toRecordBase.ForEvent event

lemma recordBase_forEvent (now : Timestamp) (event : IngressReadyEvent) (ctx : FlowContext)
    (disChannel : String) (stage : Stage) (code : FailureCode) :
    (recordBase now event ctx disChannel stage code).ForEvent event :=
  ⟨rfl, rfl, rfl, rfl, rfl⟩

lemma insertHeld_ok {fate : Fate} {held inserted held' : Held}
    (h : insertHeld fate held inserted = (.ok (), held')) : held' = inserted := by
  cases fate with
  | commits => exact (congrArg Prod.snd h).symm
  | raises e landed => cases congrArg Prod.fst h

section Spec

variable {fate : Fate} {now : Timestamp} {event : IngressReadyEvent} {ctx : FlowContext}
  {stage : Stage} {held held' : Held}

lemma holdChunkFailure_ok {code : FailureCode} {message : String} {cls : Option String}
    {failures : Option (List GateFailure)}
    (h : holdChunkFailure fate now event ctx stage code message cls failures held =
      (.ok (), held')) : Holds event held held' := by
  unfold holdChunkFailure at h
  split at h
  · cases congrArg Prod.fst h
  · dsimp only at h
    split at h
    · obtain rfl := insertHeld_ok h
      exact ⟨[_], [], rfl, by simp, by simp,
        by simpa using recordBase_forEvent now event ctx _ stage code, by simp⟩
    · cases congrArg Prod.fst h

lemma rowRecord_forEvent {disChannel : String} {version : ℕ} {e : ℕ × List GateFailure}
    {record : QuarantinedRow}
    (h : rowRecord now event ctx disChannel version stage e = .ok record) :
    record.toRecordBase.ForEvent event := by
  unfold rowRecord at h
  dsimp only at h
  split at h
  · cases h
    exact recordBase_forEvent now event ctx _ stage _
  · cases h

lemma rowRecords_forEvent {disChannel : String} {version : ℕ} {failures : List GateFailure}
    {records : List QuarantinedRow}
    (h : rowRecords now event ctx disChannel version stage failures = .ok records) :
    ∀ r ∈ records, r.toRecordBase.ForEvent event := by
  obtain ⟨rows, -, h⟩ := Runs.of_bind_eq_ok h
  intro r hr
  obtain ⟨e, -, hrecord⟩ := Runs.exists_of_mem_mapM h r hr
  exact rowRecord_forEvent hrecord

lemma holdRows_ok {records : List QuarantinedRow}
    (h : holdRows fate records held = (.ok (), held')) :
    records ≠ [] ∧ held' = { held with rows := held.rows ++ records } := by
  cases records with
  | nil => cases congrArg Prod.fst h
  | cons first rest =>
    simp only [holdRows] at h
    split at h
    · cases congrArg Prod.fst h
    · exact ⟨by simp, insertHeld_ok h⟩

lemma holdRowFailures_ok {failures : List GateFailure} {n : ℕ}
    (h : holdRowFailures fate now event ctx stage failures held = (.ok n, held')) :
    Holds event held held' := by
  unfold holdRowFailures at h
  split at h
  · split at h
    · cases congrArg Prod.fst h
    · rename_i records hrecords
      split at h
      · cases congrArg Prod.fst h
      · rename_i after hhold
        obtain rfl : after = held' := congrArg Prod.snd h
        obtain ⟨hne, rfl⟩ := holdRows_ok hhold
        exact ⟨[], records, by simp, rfl, by simpa using List.length_pos_of_ne_nil hne, by simp,
          rowRecords_forEvent hrecords⟩
  · cases congrArg Prod.fst h

end Spec

end CortexDis.Quarantine
