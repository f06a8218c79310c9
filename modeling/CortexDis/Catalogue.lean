import CortexDis.WriteChunk

/-!
The catalogue write: one hot group a snapshot row, each through the creating statement, all
stamped with the time the file was received.
-/

namespace CortexDis.Catalogue

open CortexDis.PyDict CortexDis.Stamped CortexDis.Values CortexDis.GroupHot CortexDis.HotSink
open CortexDis.Canonical CortexDis.Envelope CortexDis.Errors CortexDis.WriteChunk

abbrev Payload := Dict String Cell

/-- The mapping's result as the sinks read it. -/
structure MappingResult where
  contribution : List Payload
  sourceRowIndices : List ℕ

/-- A natural-key segment; the canonical-shape gate lets only text and null through. -/
def segment : Cell → Option String
  | some (.str s) => some s
  | _ => none

/-- `str(payload["sku_id"])` of a column that is text or null. -/
def skuText : Cell → String
  | some (.str s) => s
  | _ => "None"

def hotNaturalKeyCols : List String := ["sku_id", "sku_variant", "sku_lot_batch"]

/-- The columns of a snapshot row the write sets. -/
def catalogueProjection (payload : Payload) : List (String × Cell) :=
  payload.entries.filter fun e =>
    e.1 ∈ currentPositionMappingProduced ++ enrichmentFields ∧ e.1 ∉ hotNaturalKeyCols

/-- One hot group a snapshot row. -/
def catalogueGroup (event : IngressReadyEvent) (payload : Payload) (index : ℕ) : HotGroup Cell :=
  let projected : Dict String Cell := Dict.ofList (catalogueProjection payload)
  let stamp := (projected.keys.filter fun c => c ∈ catalogueStalenessColumns).insertionSort (· ≤ ·)
  { naturalKey := (skuText (payload.get? "sku_id").join,
      segment (payload.get? "sku_variant").join, segment (payload.get? "sku_lot_batch").join)
    projected :=
      if stamp = [] then projected
      else projected.set "attribute_staleness_map"
        (some (.stamps (stamp.map fun c => (c, event.receivedTs))))
    lastSourceEventAt := event.receivedTs
    sourceEventId := event.bronzeRef.str ++ ":" ++ toString index
    chunkRowIndex := index }

/-- `_catalogue_groups` -/
def catalogueGroups (event : IngressReadyEvent) (result : MappingResult) :
    Except Exn (List (HotGroup Cell)) :=
  if result.contribution.length ≠ result.sourceRowIndices.length then .error (.other "ValueError")
  else if ∃ payload ∈ result.contribution, "sku_id" ∉ payload.keys then .error (.other "KeyError")
  else .ok ((result.contribution.zip result.sourceRowIndices).map fun e =>
    catalogueGroup event e.1 e.2)

/-- The parameters of a catalogue statement: no tax treatment beside the projected one. -/
def catalogueParams (a : WriteArgs Cell) (g : HotGroup Cell) : HotParams Cell :=
  hotParams { a with taxTreatment := none } g

/-- The statements of one catalogue batch. -/
def writeCatalogueBatch (a : WriteArgs Cell) (batch : List (HotGroup Cell)) (t : HotTable Cell) :
    HotTable Cell :=
  (sortGroups batch).foldl
    (fun t g => (insertOnConflictHotCompletePath (catalogueParams a g) t).1) t

/-- The catalogue batch loop. -/
def writeCatalogueBatches (a : WriteArgs Cell) (txs : ℕ → Tx) :
    List (List (HotGroup Cell)) → HotTable Cell → HotTable Cell × Option Exn
  | [], t => (t, none)
  | batch :: rest, t =>
    match (txs 0).fate with
    | .raises e landed => (if landed then writeCatalogueBatch a batch t else t, some e)
    | .commits => writeCatalogueBatches a (fun i => txs (i + 1)) rest
      (writeCatalogueBatch a batch t)

/-- `write_catalogue_chunk`: the database it leaves, and its report or exception. -/
def writeCatalogueChunk (a : WriteArgs Cell) (batchSize : ℕ) (txs : ℕ → Tx)
    (result : MappingResult) (db : Db) : Db × Except Exn WriteReport :=
  match catalogueGroups a.event result with
  | .error e => (db, .error e)
  | .ok groups =>
    let run := writeCatalogueBatches a txs (batches groups batchSize) db.hot
    ({ db with hot := run.1 },
      match run.2 with
      | some e => .error e
      | none => .ok
        { eventRowsWritten := 0
          hotRowsUpserted := groups.length
          batches := (batches groups batchSize).length
          duplicates := []
          writtenToTable := resolveSink .storeSkuCurrentPosition
          hotNoops := 0 })

/-! ### The rows a catalogue creates -/

/-- A key that had no row has none, or has one stamped `r`. -/
def NewAt (t₀ : HotTable Cell) (r : Timestamp) (t : HotTable Cell) : Prop :=
  ∀ k, t₀.find? k = none → ∀ row, t.find? k = some row → row.lastSourceEventAt = some r

/-- Rows are never removed. -/
def Keeps (t₀ t : HotTable Cell) : Prop := ∀ k, (t₀.find? k).isSome → (t.find? k).isSome

lemma find?_insert (t : HotTable Cell) (row : HotRow Cell) (h : t.find? row.key = none)
    (k : HotKey) :
    (t.insert row h).find? k = (t.find? k).or (if row.key = k then some row else none) := by
  simp only [HotTable.find?, HotTable.insert, List.find?_append]
  congr 1
  by_cases hk : row.key = k <;> simp [hk]

lemma insertOnConflict_newAt {t₀ : HotTable Cell} {p : HotParams Cell} {t : HotTable Cell}
    (h : NewAt t₀ p.lastSourceEventAt t ∧ Keeps t₀ t) :
    NewAt t₀ p.lastSourceEventAt (insertOnConflictHotCompletePath p t).1 ∧
      Keeps t₀ (insertOnConflictHotCompletePath p t).1 := by
  unfold insertOnConflictHotCompletePath
  split
  · rename_i hnone
    refine ⟨?_, ?_⟩
    · intro k hk row hrow
      rw [find?_insert, Option.or_eq_some_iff] at hrow
      rcases hrow with hrow | ⟨_, hrow⟩
      · exact h.1 k hk row hrow
      · split at hrow
        · cases hrow
          rfl
        · cases hrow
    · intro k hk
      rw [find?_insert, Option.isSome_or]
      simp [h.2 k hk]
  · refine ⟨?_, ?_⟩
    · intro k hk row hrow
      rw [find?_update] at hrow
      obtain ⟨old, hold, rfl⟩ := Option.map_eq_some_iff.mp hrow
      unfold HotParams.updateRow
      split
      · rfl
      · exact h.1 k hk old hold
    · intro k hk
      rw [isSome_find?_update]
      exact h.2 k hk

lemma writeCatalogueBatch_newAt {a : WriteArgs Cell} {r : Timestamp} {t₀ t : HotTable Cell}
    {batch : List (HotGroup Cell)} (hr : ∀ g ∈ batch, g.lastSourceEventAt = r)
    (h : NewAt t₀ r t ∧ Keeps t₀ t) :
    NewAt t₀ r (writeCatalogueBatch a batch t) ∧ Keeps t₀ (writeCatalogueBatch a batch t) := by
  unfold writeCatalogueBatch
  have hmem : ∀ g ∈ sortGroups batch, g.lastSourceEventAt = r :=
    fun g hg => hr g ((List.mem_insertionSort _).mp hg)
  revert hmem
  induction sortGroups batch generalizing t with
  | nil => exact fun _ => h
  | cons g gs ih =>
    intro hmem
    have hg : (catalogueParams a g).lastSourceEventAt = r := hmem g List.mem_cons_self
    refine ih ?_ fun g' hg' => hmem g' (List.mem_cons_of_mem _ hg')
    rw [← hg] at h ⊢
    exact insertOnConflict_newAt h

lemma writeCatalogueBatches_newAt {a : WriteArgs Cell} {r : Timestamp} {t₀ t : HotTable Cell}
    {bs : List (List (HotGroup Cell))} (hr : ∀ b ∈ bs, ∀ g ∈ b, g.lastSourceEventAt = r)
    (txs : ℕ → Tx) (h : NewAt t₀ r t ∧ Keeps t₀ t) :
    NewAt t₀ r (writeCatalogueBatches a txs bs t).1 ∧
      Keeps t₀ (writeCatalogueBatches a txs bs t).1 := by
  induction bs generalizing txs t with
  | nil => exact h
  | cons b bs ih =>
    have hb := writeCatalogueBatch_newAt (a := a) (hr b List.mem_cons_self) h
    rw [writeCatalogueBatches]
    cases (txs 0).fate with
    | raises e landed => cases landed with
      | true => exact hb
      | false => exact h
    | commits => exact ih (fun b' hb' => hr b' (List.mem_cons_of_mem _ hb')) _ hb

/-- **A catalogue write stamps the rows it creates with its receive time**, and removes no
row. -/
lemma writeCatalogueChunk_newAt (a : WriteArgs Cell) {n : ℕ} (hn : 1 ≤ n) (txs : ℕ → Tx)
    (result : MappingResult) (db : Db) :
    NewAt db.hot a.event.receivedTs (writeCatalogueChunk a n txs result db).1.hot ∧
      Keeps db.hot (writeCatalogueChunk a n txs result db).1.hot := by
  have h₀ : NewAt db.hot a.event.receivedTs db.hot ∧ Keeps db.hot db.hot := by
    refine ⟨fun k hk row hrow => ?_, fun _ hk => hk⟩
    rw [hk] at hrow
    cases hrow
  unfold writeCatalogueChunk
  cases hg : catalogueGroups a.event result with
  | error e => exact h₀
  | ok groups =>
    -- each group is stamped with the time the file was received
    have hts : ∀ g ∈ groups, g.lastSourceEventAt = a.event.receivedTs := by
      unfold catalogueGroups at hg
      split at hg
      · cases hg
      · split at hg
        · cases hg
        · cases hg
          intro g hg
          obtain ⟨e, _, rfl⟩ := List.mem_map.mp hg
          rfl
    refine writeCatalogueBatches_newAt ?_ txs h₀
    intro b hb g hgb
    refine hts g ?_
    rw [← flatten_batches groups hn]
    exact List.mem_flatten.mpr ⟨b, hb, hgb⟩

end CortexDis.Catalogue
