import CortexDis.HotWrites

/-!
Redelivery of a chunk.

A failed attempt leaves the updates of some of the chunk's first batches. Each hot row is a
register that refuses older writes and whose writes overwrite, so a prefix offered before the
whole sequence is absorbed by it, whatever stamp the row carried and whichever columns the
groups assert.
-/

namespace CortexDis.Redelivery

open CortexDis.PyDict CortexDis.Stamped CortexDis.Values CortexDis.GroupHot CortexDis.HotSink
open CortexDis.Canonical CortexDis.WriteChunk CortexDis.HotWrites

lemma foldl_update_prefix {ps qs : List (HotParams Cell)} (h : ps <+: qs) (t : HotTable Cell) :
    qs.foldl HotTable.update (ps.foldl HotTable.update t) = qs.foldl HotTable.update t := by
  apply HotTable.ext_rows
  simp only [rows_foldl_update, List.map_map]
  refine List.map_congr_left fun row _ => ?_
  rw [Function.comp_apply, key_run]
  exact overwriting.run_run_of_prefix (h.filter _) row

lemma hotAfter_prefix (a : WriteArgs Cell) {us bs : List (List (EventRow Cell))}
    (h : us <+: bs) (t : HotTable Cell) : hotAfter a bs (hotAfter a us t) = hotAfter a bs t := by
  obtain ⟨vs, rfl⟩ := h
  refine foldl_update_prefix ?_ t
  rw [List.flatMap_append]
  exact List.prefix_append _ _

/-- The database after a sequence of attempts at one chunk. -/
def attempts (d : Driver) (a : WriteArgs Cell) (n : ℕ) (rows : List (EventRow Cell))
    (schedules : List (ℕ → Tx)) (db : Db) : Db :=
  schedules.foldl (fun db txs => (writeChunk d a n txs rows db).db) db

/-- The batches an attempt can write: none when the mapping is not routed to an event model. -/
def chunkBatches (a : WriteArgs Cell) (n : ℕ) (rows : List (EventRow Cell)) :
    List (List (EventRow Cell)) :=
  if eventTsColumn a.loaded.targetModel = none then [] else batches rows n

section

variable (d : Driver) (a : WriteArgs Cell) {n : ℕ} (hn : 1 ≤ n) {rows : List (EventRow Cell)}

include hn

lemma exists_prefix_writeChunk (txs : ℕ → Tx) {db : Db} (h : AllExist a rows db.hot) :
    ∃ us, us <+: chunkBatches a n rows ∧
      (writeChunk d a n txs rows db).db.hot = hotAfter a us db.hot := by
  unfold writeChunk chunkBatches
  cases hc : eventTsColumn a.loaded.targetModel with
  | none => exact ⟨[], List.nil_prefix, rfl⟩
  | some c =>
    exact exists_prefix_writeBatches d a c txs _ db fun b hb => allExist_of_mem_batches h hn hb

lemma hot_writeChunk_of_commits {txs : ℕ → Tx}
    (htx : ∀ i < (batches rows n).length, (txs i).fate = .commits) {db : Db}
    (h : AllExist a rows db.hot) :
    (writeChunk d a n txs rows db).db.hot = hotAfter a (chunkBatches a n rows) db.hot := by
  unfold writeChunk chunkBatches
  cases hc : eventTsColumn a.loaded.targetModel with
  | none => rfl
  | some c =>
    exact (writeBatches_of_commits d a c _ htx db fun b hb => allExist_of_mem_batches h hn hb).1

lemma hotAfter_attempts (schedules : List (ℕ → Tx)) {db : Db} (h : AllExist a rows db.hot) :
    hotAfter a (chunkBatches a n rows) (attempts d a n rows schedules db).hot =
        hotAfter a (chunkBatches a n rows) db.hot ∧
      AllExist a rows (attempts d a n rows schedules db).hot := by
  induction schedules generalizing db with
  | nil => exact ⟨rfl, h⟩
  | cons txs schedules ih =>
    obtain ⟨us, hus, hdb⟩ := exists_prefix_writeChunk d a hn txs h
    have hex : AllExist a rows (writeChunk d a n txs rows db).db.hot := by
      rw [hdb]
      exact h.update _
    obtain ⟨hrest, hexist⟩ := ih hex
    refine ⟨?_, hexist⟩
    change hotAfter a _ (attempts d a n rows schedules (writeChunk d a n txs rows db).db).hot = _
    rw [hrest, hdb, hotAfter_prefix a hus]

/-- **Redelivery converges.** After any attempts, each of which took effect on some first
batches, an attempt that commits every batch leaves the hot table of a single complete run:
the same columns, stamps and lineage. -/
theorem redelivery_converges {db : Db} (h : AllExist a rows db.hot) (failed : List (ℕ → Tx))
    {last single : ℕ → Tx} (hlast : ∀ i < (batches rows n).length, (last i).fate = .commits)
    (hsingle : ∀ i < (batches rows n).length, (single i).fate = .commits) :
    (attempts d a n rows (failed ++ [last]) db).hot = (writeChunk d a n single rows db).db.hot := by
  obtain ⟨habsorb, hexist⟩ := hotAfter_attempts d a hn failed h
  calc (attempts d a n rows (failed ++ [last]) db).hot
      = (writeChunk d a n last rows (attempts d a n rows failed db)).db.hot := by
        unfold attempts
        rw [List.foldl_append]
        rfl
    _ = hotAfter a (chunkBatches a n rows) (attempts d a n rows failed db).hot :=
        hot_writeChunk_of_commits d a hn hlast hexist
    _ = hotAfter a (chunkBatches a n rows) db.hot := habsorb
    _ = (writeChunk d a n single rows db).db.hot :=
        (hot_writeChunk_of_commits d a hn hsingle h).symm

end

/-- A connection lost at the second batch. -/
def losing : ℕ → Tx := fun i =>
  if i = 1 then ⟨0, .raises (.other "OperationalError") false⟩ else ⟨0, .commits⟩

/-- Two costs of one sku, the second of an older event. -/
def twoCosts : List (EventRow Cell) :=
  [rowAt "sku" 10 0 [("unit_cost", some (.int 3))], rowAt "sku" 5 1 [("unit_cost", some (.int 4))]]

/-- One row a batch, and a redelivery after the connection was lost. -/
theorem redelivery_after_lost_connection :
    (attempts plainDriver (saleArgs none) 1 twoCosts ([losing] ++ [committing])
      ⟨tableOf "sku" none, fun _ => []⟩).hot =
    (writeChunk plainDriver (saleArgs none) 1 committing twoCosts
      ⟨tableOf "sku" none, fun _ => []⟩).db.hot :=
  redelivery_converges plainDriver (saleArgs none) (by decide) (by unfold AllExist; decide) [losing]
    (fun _ _ => rfl) (fun _ _ => rfl)

end CortexDis.Redelivery
