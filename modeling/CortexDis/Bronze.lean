import CortexDis.Envelope
import CortexDis.Errors

/-!
The bronze table: one metadata row an ingress event, keyed by its id. The csv worker looks
up, inserts and marks rows; the streaming consumer reads the row its message names.

Row-level security shows a session the rows of one tenant.
-/

namespace CortexDis.Bronze

open CortexDis.Values CortexDis.Envelope CortexDis.Errors CortexDis.PyText

inductive ProcessingStatus
  | received | published | processed | quarantined | failed
  deriving DecidableEq, Repr

structure BronzeRow where
  id : Uuid
  tenantId : Uuid
  storeId : Option Uuid
  sourceId : String
  disChannel : String
  traceId : Uuid
  gcsUri : String
  payloadSizeBytes : Option ℕ
  payloadSha256 : Option String
  rowCount : Option ℕ
  sourcePayloadId : Option String
  templateId : Option Uuid
  receivedAt : Timestamp
  publishedAt : Option Timestamp
  processingStatus : ProcessingStatus
  deriving DecidableEq, Repr

/-- The table, in insertion order; ids are its primary key. -/
@[ext] structure BronzeTable where
  rows : List BronzeRow
  nodup : (rows.map (·.id)).Nodup

def BronzeTable.empty : BronzeTable := ⟨[], by simp⟩

/-- The row an id names to a session of the tenant. -/
def BronzeTable.find? (t : BronzeTable) (tenantId id : Uuid) : Option BronzeRow :=
  t.rows.find? fun r => r.tenantId = tenantId ∧ r.id = id

lemma BronzeTable.eq_of_id {t : BronzeTable} {r s : BronzeRow} (hr : r ∈ t.rows)
    (hs : s ∈ t.rows) (h : r.id = s.id) : r = s :=
  List.inj_on_of_nodup_map t.nodup hr hs h

lemma BronzeTable.find?_eq_some {t : BronzeTable} {tenantId id : Uuid} {r : BronzeRow} :
    t.find? tenantId id = some r ↔ r ∈ t.rows ∧ r.tenantId = tenantId ∧ r.id = id := by
  constructor
  · intro h
    have hr := List.find?_some h
    exact ⟨List.mem_of_find?_eq_some h, by simpa using hr⟩
  · rintro ⟨hr, htenant, hid⟩
    cases h : t.find? tenantId id with
    | none => exact absurd (List.find?_eq_none.mp h r hr) (by simp [htenant, hid])
    | some s =>
      have hs := List.find?_some h
      simp only [decide_eq_true_eq] at hs
      rw [BronzeTable.eq_of_id (List.mem_of_find?_eq_some h) hr (hs.2.trans hid.symm)]

/-! ### The consumer's read -/

structure BronzeMeta where
  bronzeId : Uuid
  sourceId : String
  disChannel : String
  gcsUri : String
  receivedAt : Timestamp
  rowCount : Option ℕ
  deriving DecidableEq, Repr

/-- `EventContractError(_, field=field, tenant_id=_, trace_id=_)` of an event -/
def contractError (event : IngressReadyEvent) (field : Option String) : Exn :=
  .eventContract (field.map pyStr) (some (pyStr event.tenantId.str))
    (some (pyStr event.traceId.str))

/-- `read_bronze_row` -/
def readBronzeRow (t : BronzeTable) (event : IngressReadyEvent) : Except Exn BronzeMeta :=
  match (t.find? event.tenantId event.bronzeRef).filter fun r => r.traceId = event.traceId with
  | none => .error (contractError event "bronze_ref")
  | some row =>
    if row.sourceId ≠ event.sourceId ∨ row.gcsUri ≠ event.gcsUri then
      .error (contractError event "bronze_ref")
    else .ok
      { bronzeId := row.id
        sourceId := row.sourceId
        disChannel := row.disChannel
        gcsUri := row.gcsUri
        receivedAt := row.receivedAt
        rowCount := row.rowCount }

/-- The row the cross-check compares with agrees with the event. -/
def Backs (event : IngressReadyEvent) (r : BronzeRow) : Prop :=
  r.id = event.bronzeRef ∧ r.tenantId = event.tenantId ∧ r.traceId = event.traceId ∧
    r.sourceId = event.sourceId ∧ r.gcsUri = event.gcsUri

lemma readBronzeRow_isOk_iff (t : BronzeTable) (event : IngressReadyEvent) :
    (∃ found, readBronzeRow t event = .ok found) ↔ ∃ r ∈ t.rows, Backs event r := by
  unfold readBronzeRow
  cases hf : t.find? event.tenantId event.bronzeRef with
  | none =>
    refine iff_of_false (by simp) ?_
    rintro ⟨r, hr, hid, htenant, -⟩
    rw [BronzeTable.find?_eq_some.mpr ⟨hr, htenant, hid⟩] at hf
    cases hf
  | some row =>
    obtain ⟨hrow, htenant, hid⟩ := BronzeTable.find?_eq_some.mp hf
    -- ids are unique, so only the row that was found can back the event
    have hback : (∃ r ∈ t.rows, Backs event r) ↔ Backs event row := by
      refine ⟨?_, fun h => ⟨row, hrow, h⟩⟩
      rintro ⟨r, hr, h⟩
      rwa [BronzeTable.eq_of_id hrow hr (hid.trans h.1.symm)]
    rw [hback]
    by_cases htrace : row.traceId = event.traceId
    · simp only [Option.filter, htrace, decide_true, if_true]
      by_cases hagree : row.sourceId ≠ event.sourceId ∨ row.gcsUri ≠ event.gcsUri
      · rw [if_pos hagree]
        refine iff_of_false (by simp) fun h => ?_
        rcases hagree with hs | hg
        · exact hs h.2.2.2.1
        · exact hg h.2.2.2.2
      · rw [if_neg hagree]
        have ⟨hs, hg⟩ := not_or.mp hagree
        exact iff_of_true ⟨_, rfl⟩ ⟨hid, htenant, htrace, not_not.mp hs, not_not.mp hg⟩
    · simp only [Option.filter, htrace, decide_false]
      exact iff_of_false (by simp) fun h => htrace h.2.2.1

/-! ### The worker's writes -/

/-- The `INSERT`, refused by the primary key when the id is taken. -/
def BronzeTable.insertRow (t : BronzeTable) (row : BronzeRow) : Option BronzeTable :=
  if h : row.id ∈ t.rows.map (·.id) then none
  else some ⟨t.rows ++ [row], by simpa [List.nodup_append] using ⟨t.nodup, by simpa using h⟩⟩

/-- The `UPDATE` of the row an id names to a session of the tenant. -/
def BronzeTable.markPublished (t : BronzeTable) (tenantId bronzeId : Uuid)
    (publishedAt : Timestamp) : BronzeTable where
  rows := t.rows.map fun r =>
    if r.tenantId = tenantId ∧ r.id = bronzeId then
      { r with publishedAt := some publishedAt, processingStatus := .published }
    else r
  nodup := by
    have hids : (t.rows.map fun r =>
        if r.tenantId = tenantId ∧ r.id = bronzeId then
          { r with publishedAt := some publishedAt, processingStatus := .published }
        else r).map (·.id) = t.rows.map (·.id) := by
      rw [List.map_map]
      refine List.map_congr_left fun r _ => ?_
      simp only [Function.comp_apply]
      split <;> rfl
    rw [hids]
    exact t.nodup

/-- The bytes `a`, a line feed, `1`. -/
def sampleCsv : Bytes := [97, 10, 49]

end CortexDis.Bronze
