import CortexDis.HotSink
import CortexDis.Canonical
import CortexDis.Envelope
import CortexDis.Errors

/-!
The writer of the canonical sink: one transaction a batch, the event insert and the hot
merge together, and a loud failure after the first batch in which a natural key had no row.

What a transaction does besides running its statements is the environment's choice: it
commits, or an exception is raised out of it and its writes are rolled back, or the
exception is raised although the commit landed.
-/

namespace CortexDis.WriteChunk

open CortexDis.PyDict CortexDis.Values CortexDis.GroupHot CortexDis.HotSink
open CortexDis.Canonical CortexDis.Envelope CortexDis.Errors

variable {α : Type}

/-! ### Bind parameters -/

/-- The arguments of one write besides its rows. -/
structure WriteArgs (α : Type) where
  event : IngressReadyEvent
  loaded : LoadedMapping
  disChannel : String
  taxTreatment : α

/-- `_hot_params` -/
def hotParams (a : WriteArgs α) (group : HotGroup α) : HotParams α where
  tenantId := a.event.tenantId
  storeId := a.event.storeId
  naturalKey := group.naturalKey
  taxTreatment := a.taxTreatment
  lastSourceEventAt := group.lastSourceEventAt
  lineage :=
    { mappingVersionId := a.loaded.mappingVersionId
      traceId := a.event.traceId
      disChannel := a.disChannel
      ingestMetadata := some
        { sourceId := a.event.sourceId
          sourceEventId := group.sourceEventId
          sourceEventTimestamp := group.lastSourceEventAt
          disReceivedTimestamp := a.event.receivedTs
          csvRowNum := group.chunkRowIndex } }
  projected := group.projected

/-! ### The event tables -/

/-- A stored event row: its columns, and the `last_updated_at` default. -/
structure EventRecord where
  cells : String → Cell
  lastUpdatedAt : Timestamp

/-- The database: the hot table and the event tables. -/
structure Db where
  hot : HotTable Cell
  events : TargetModel → List EventRecord

/-- The row an `INSERT` over the model's columns stores. -/
def EventRecord.ofRow (model : TargetModel) (now : Timestamp) (row : EventRow Cell) :
    EventRecord where
  cells c := if c ∈ insertColumns model then (row.params.get? c).join else none
  lastUpdatedAt := now

/-- The event insert of a batch. -/
def Db.insertEvents (db : Db) (model : TargetModel) (now : Timestamp)
    (batch : List (EventRow Cell)) : Db :=
  { db with
    events := fun m =>
      if m = model then db.events m ++ batch.map (EventRecord.ofRow model now) else db.events m }

/-! ### Duplicate detection -/

inductive DuplicateKind
  | duplicateNoop | duplicateOverwritten
  deriving DecidableEq, Repr

structure DuplicateHit where
  sourceEventId : String
  priorTraceId : Cell
  kind : DuplicateKind
  rowHash : String
  chunkRowIndex : ℕ
  deriving DecidableEq, Repr

/-- What is outside the sink: the collation of text columns, what a `SELECT` returns for a
stored cell, and the canonical row hash. -/
structure Driver where
  collate : String → String → Ordering
  readBack : String → Cell → Cell
  canonicalRowHash : Dict String Cell → String

def textOf : Cell → String
  | some (.str s) => s
  | _ => ""

def datetimeOf : Cell → Option Timestamp
  | some (.datetime t) => some t
  | _ => none

def uuidOf : Cell → Option ℕ
  | some (.uuid u) => some u.bits.toNat
  | _ => none

/-- `DESC`, which puts null first. -/
def compareDesc [Ord β] : Option β → Option β → Ordering
  | none, none => .eq
  | none, some _ => .lt
  | some _, none => .gt
  | some a, some b => compare b a

/-- `ORDER BY source_event_id, <event ts> DESC, last_updated_at DESC, id DESC` -/
def priorOrder (d : Driver) (tsColumn : String) (a b : EventRecord) : Ordering :=
  (d.collate (textOf (a.cells "source_event_id")) (textOf (b.cells "source_event_id"))).then
    ((compareDesc (datetimeOf (a.cells tsColumn)) (datetimeOf (b.cells tsColumn))).then
      ((compare b.lastUpdatedAt a.lastUpdatedAt).then
        (compareDesc (uuidOf (a.cells "id")) (uuidOf (b.cells "id")))))

/-- `DISTINCT ON (source_event_id)`: the first row of each key. -/
def distinctOn : List EventRecord → List EventRecord
  | [] => []
  | r :: rows =>
    r :: (distinctOn rows).filter fun s => s.cells "source_event_id" ≠ r.cells "source_event_id"

/-- The latest prior row of each of the batch's dedup keys. -/
def priorRows (d : Driver) (event : IngressReadyEvent) (tsColumn : String)
    (table : List EventRecord) (batch : List (EventRow Cell)) : List EventRecord :=
  distinctOn <| (table.filter fun r =>
    r.cells "tenant_id" = some (.uuid event.tenantId) ∧
    r.cells "store_id" = some (.uuid event.storeId) ∧
    r.cells "source_id" = some (.str event.sourceId) ∧
    ∃ row ∈ batch, r.cells "source_event_id" = some (.str row.sourceEventId)).insertionSort
      fun a b => priorOrder d tsColumn a b ≠ .gt

/-- `_detect_duplicates`. The hit's `prior_trace_id` is read from `prior`, the last row the
first loop saw. -/
def detectDuplicates (d : Driver) (event : IngressReadyEvent) (payloadColumns : List String)
    (tsColumn : String) (table : List EventRecord) (batch : List (EventRow Cell)) :
    List DuplicateHit :=
  let result := priorRows d event tsColumn table batch
  match result.getLast? with
  | none => []
  | some prior =>
    batch.filterMap fun row =>
      (result.find? fun r => textOf (r.cells "source_event_id") = row.sourceEventId).map
        fun priorRow =>
          let priorPayload : Dict String Cell :=
            Dict.ofList (payloadColumns.map fun c => (c, d.readBack c (priorRow.cells c)))
          { sourceEventId := row.sourceEventId
            priorTraceId := prior.cells "trace_id"
            kind :=
              if d.canonicalRowHash priorPayload = row.rowHash then .duplicateNoop
              else .duplicateOverwritten
            rowHash := row.rowHash
            chunkRowIndex := row.chunkRowIndex }

/-! ### The hot merge of a batch -/

/-- `_upsert_hot` -/
def upsertHot (a : WriteArgs Cell) (group : HotGroup Cell) (t : HotTable Cell) :
    HotTable Cell × HotMergeOutcome :=
  if a.loaded.hotComplete then insertOnConflictHotCompletePath (hotParams a group) t
  else updateHotIncompletePath (hotParams a group) t

abbrev Merge := HotGroup Cell × HotMergeOutcome

/-- The statements of the groups, in order, with their outcomes. -/
def mergeGroups (a : WriteArgs Cell) : List (HotGroup Cell) → HotTable Cell →
    HotTable Cell × List Merge
  | [], t => (t, [])
  | g :: gs, t =>
    let first := upsertHot a g t
    let rest := mergeGroups a gs first.1
    (rest.1, (g, first.2) :: rest.2)

/-! ### The writer -/

/-- How a transaction ends. -/
inductive Fate
  | commits
  /-- `e` is raised out of the transaction; `landed` says whether it took effect all the same -/
  | raises (e : Exn) (landed : Bool)

/-- The environment of one transaction. -/
structure Tx where
  now : Timestamp
  fate : Fate

/-- What a batch transaction did: the duplicates it read and the merges it made. -/
structure BatchLog where
  rows : List (EventRow Cell)
  duplicates : List DuplicateHit
  merges : List Merge

def BatchLog.misses (l : BatchLog) : List Merge := l.merges.filter fun m => m.2 = .missing

/-- The body of a batch transaction. -/
def writeBatch (d : Driver) (a : WriteArgs Cell) (tsColumn : String) (now : Timestamp)
    (batch : List (EventRow Cell)) (db : Db) : Db × BatchLog :=
  let model := a.loaded.targetModel
  let duplicates := detectDuplicates d a.event a.loaded.source.targetColumns tsColumn
    (db.events model) batch
  let inserted := db.insertEvents model now batch
  let merged := mergeGroups a (sortGroups (groupHot batch)) inserted.hot
  ({ inserted with hot := merged.1 }, ⟨batch, duplicates, merged.2⟩)

structure WriteReport where
  eventRowsWritten : ℕ
  hotRowsUpserted : ℕ
  batches : ℕ
  duplicates : List DuplicateHit
  writtenToTable : String
  hotNoops : ℕ
  deriving DecidableEq, Repr

/-- An attempt to write a chunk: the database it leaves, the log of the batches whose
transaction returned, and the exception that ended it, if any. -/
structure ChunkRun where
  db : Db
  log : List BatchLog
  raised : Option Exn

/-- The batch loop; `txs i` is the transaction of the `i`-th batch. -/
def writeBatches (d : Driver) (a : WriteArgs Cell) (tsColumn : String) (txs : ℕ → Tx) :
    List (List (EventRow Cell)) → Db → ChunkRun
  | [], db => ⟨db, [], none⟩
  | batch :: rest, db =>
    let written := writeBatch d a tsColumn (txs 0).now batch db
    match (txs 0).fate with
    | .raises e landed => ⟨if landed then written.1 else db, [], some e⟩
    | .commits =>
      if written.2.misses = [] then
        let run := writeBatches d a tsColumn (fun i => txs (i + 1)) rest written.1
        { run with log := written.2 :: run.log }
      else ⟨written.1, [written.2], some (.hotPositionMissing written.2.misses.length)⟩

/-- `write_chunk` -/
def writeChunk (d : Driver) (a : WriteArgs Cell) (batchSize : ℕ) (txs : ℕ → Tx)
    (rows : List (EventRow Cell)) (db : Db) : ChunkRun :=
  match eventTsColumn a.loaded.targetModel with
  | none => ⟨db, [], some (.other "KeyError")⟩
  | some tsColumn => writeBatches d a tsColumn txs (batches rows batchSize) db

/-- The merges of a run, in order. -/
def ChunkRun.merges (r : ChunkRun) : List Merge := r.log.flatMap (·.merges)

/-- The report of a run that returns. -/
def ChunkRun.report (r : ChunkRun) (a : WriteArgs Cell) (rows : List (EventRow Cell)) :
    WriteReport where
  eventRowsWritten := rows.length
  hotRowsUpserted := r.merges.countP fun m => m.2 = .written
  batches := r.log.length
  duplicates := r.log.flatMap (·.duplicates)
  writtenToTable := resolveSink a.loaded.targetModel
  hotNoops := r.merges.countP fun m => m.2 = .noopOlder

/-! ### Small inputs -/

/-- A row of one sku that asserts the given hot columns. -/
def rowAt (sku : String) (ts : Timestamp) (index : ℕ) (contributions : List (String × α)) :
    EventRow α where
  params := Dict.ofList [("sku_id", some (.str sku)), ("id", some (.int index))]
  sourceEventId := sku
  eventTs := ts
  naturalKey := (sku, none, none)
  hotContributions := Dict.ofList contributions
  payload := Dict.empty
  rowHash := ""
  chunkRowIndex := index

/-- The arguments of a sale chunk whose mapping never creates hot rows. -/
def saleArgs (tax : α) : WriteArgs α where
  event :=
    { traceId := .ofNat 1, tenantId := .ofNat 2, storeId := .ofNat 3, sourceId := "pos"
      templateId := .ofNat 4, bronzeRef := .ofNat 5, gcsUri := "gs://bronze/chunk"
      receivedTs := 100, delimiter := ',', tenantDisplayCode := none, storeCode := none
      replay := false, parentTraceId := none }
  loaded :=
    { mappingVersionId := 1
      source := ⟨1, Dict.empty, Dict.empty, Dict.empty, Dict.empty⟩
      targetModel := .storeSkuSaleEvent, hotComplete := false }
  disChannel := "csv"
  taxTreatment := tax

/-- A table with one row, never written by an event. -/
def tableOf (sku : String) (cell : α) : HotTable α :=
  ⟨[{ tenantId := .ofNat 2, storeId := .ofNat 3, naturalKey := (sku, none, none)
      cells := fun _ => cell, lastSourceEventAt := none
      lineage := ⟨1, .ofNat 1, "csv", none⟩ }], by simp⟩

/-- A driver with code-point collation whose row hash is constant. -/
def plainDriver : Driver := ⟨compare, fun _ cell => cell, fun _ => ""⟩

/-- Transactions that all commit. -/
def committing : ℕ → Tx := fun _ => ⟨0, .commits⟩

end CortexDis.WriteChunk
