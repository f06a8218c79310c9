import CortexDis.HotWrites

/-!
What a chunk leaves when natural keys have no hot row.

The loop raises after the first batch with a miss has committed. That batch and those before
it are kept whole; the batches after it are not written at all.
-/

namespace CortexDis.MissHistory

open CortexDis.PyDict CortexDis.Values CortexDis.GroupHot CortexDis.HotSink
open CortexDis.Canonical CortexDis.Errors CortexDis.WriteChunk CortexDis.HotWrites

/-! ### The update path -/

/-- Without the creating path, every group is offered to the table in order, and is reported
missing when its key has no row. -/
lemma mergeGroups_incomplete {a : WriteArgs Cell} (ha : a.loaded.hotComplete = false)
    (gs : List (HotGroup Cell)) (t : HotTable Cell) :
    (mergeGroups a gs t).1 = (gs.map (hotParams a)).foldl HotTable.update t ∧
    (mergeGroups a gs t).2.map Prod.fst = gs ∧
    ∀ m ∈ (mergeGroups a gs t).2, m.2 = .missing ↔ t.find? (hotParams a m.1).key = none := by
  induction gs generalizing t with
  | nil => simp [mergeGroups]
  | cons g gs ih =>
    have hup : upsertHot a g t = updateHotIncompletePath (hotParams a g) t := by
      simp [upsertHot, ha]
    have hfst : (upsertHot a g t).1 = t.update (hotParams a g) := by
      rw [hup, updateHotIncompletePath_fst]
    obtain ⟨htab, hgs, hmiss⟩ := ih (upsertHot a g t).1
    refine ⟨?_, ?_, ?_⟩
    · rw [mergeGroups, htab, hfst, List.map_cons, List.foldl_cons]
    · rw [mergeGroups, List.map_cons, hgs]
    · intro m hm
      rcases List.mem_cons.mp hm with rfl | hm'
      · dsimp only
        rw [hup, updateHotIncompletePath_snd]
        cases t.find? (hotParams a g).key with
        | none => simp
        | some row =>
          dsimp only
          split <;> simp
      · rw [hmiss m hm', hfst, find?_update, Option.map_eq_none_iff]

lemma mergeGroups_complete {a : WriteArgs Cell} (ha : a.loaded.hotComplete = true)
    (gs : List (HotGroup Cell)) (t : HotTable Cell) :
    ∀ m ∈ (mergeGroups a gs t).2, m.2 = .written := by
  induction gs generalizing t with
  | nil => simp [mergeGroups]
  | cons g gs ih =>
    intro m hm
    rcases List.mem_cons.mp hm with rfl | hm'
    · dsimp only
      rw [upsertHot, if_pos ha, insertOnConflictHotCompletePath]
      split <;> rfl
    · exact ih _ m hm'

/-! ### One batch -/

section

variable (d : Driver) (a : WriteArgs Cell) (c : String)

lemma events_writeBatch (now : Timestamp) (batch : List (EventRow Cell)) (db : Db) :
    (writeBatch d a c now batch db).1.events a.loaded.targetModel =
      db.events a.loaded.targetModel ++
        batch.map (EventRecord.ofRow a.loaded.targetModel now) := by
  simp [writeBatch, Db.insertEvents]

lemma misses_writeBatch {a : WriteArgs Cell} (ha : a.loaded.hotComplete = false) (now : Timestamp)
    (batch : List (EventRow Cell)) (db : Db) :
    (writeBatch d a c now batch db).2.misses = [] ↔ AllExist a batch db.hot := by
  refine ⟨?_, fun h => (writeBatch_of_exists d a c now h).2⟩
  intro h row hrow
  obtain ⟨_, hgs, hmiss⟩ := mergeGroups_incomplete ha (sortGroups (groupHot batch)) db.hot
  rw [BatchLog.misses, List.filter_eq_nil_iff] at h
  -- the row's own group is among those merged
  obtain ⟨g, hg, hk⟩ := exists_group_of_mem hrow
  rw [← hgs] at hg
  obtain ⟨m, hm, rfl⟩ := List.mem_map.mp hg
  have hm2 : ¬ m.2 = .missing := by simpa using h m hm
  rw [hmiss m hm, key_hotParams a hk] at hm2
  exact Option.isSome_iff_ne_none.mpr hm2

/-- What a committed batch of an incomplete mapping leaves in the log. -/
structure Logged (a : WriteArgs Cell) (t : HotTable Cell) (batch : List (EventRow Cell))
    (log : BatchLog) : Prop where
  groups : log.merges.map Prod.fst = sortGroups (groupHot batch)
  missing : ∀ m ∈ log.merges, m.2 = .missing ↔ t.find? (hotParams a m.1).key = none

lemma logged_writeBatch {a : WriteArgs Cell} (ha : a.loaded.hotComplete = false) (now : Timestamp)
    (batch : List (EventRow Cell)) (db : Db) :
    Logged a db.hot batch (writeBatch d a c now batch db).2 := by
  obtain ⟨_, hgs, hmiss⟩ := mergeGroups_incomplete ha (sortGroups (groupHot batch)) db.hot
  exact ⟨hgs, hmiss⟩

lemma find?_writeBatch {a : WriteArgs Cell} (ha : a.loaded.hotComplete = false) (now : Timestamp)
    (batch : List (EventRow Cell)) (db : Db) (k : HotKey) :
    (writeBatch d a c now batch db).1.hot.find? k = none ↔ db.hot.find? k = none := by
  have htab : (writeBatch d a c now batch db).1.hot = _ :=
    (mergeGroups_incomplete ha (sortGroups (groupHot batch)) db.hot).1
  rw [htab, find?_foldl_update, Option.map_eq_none_iff]

lemma allExist_writeBatch {a : WriteArgs Cell} (ha : a.loaded.hotComplete = false)
    (now : Timestamp) (batch rows : List (EventRow Cell)) (db : Db) :
    AllExist a rows (writeBatch d a c now batch db).1.hot ↔ AllExist a rows db.hot := by
  unfold AllExist
  simp only [Option.isSome_iff_ne_none, ne_eq, find?_writeBatch d c ha]

lemma Logged.of_writeBatch {a : WriteArgs Cell} (ha : a.loaded.hotComplete = false)
    {now : Timestamp} {b batch : List (EventRow Cell)} {db : Db} {log : BatchLog}
    (h : Logged a (writeBatch d a c now b db).1.hot batch log) : Logged a db.hot batch log :=
  ⟨h.groups, fun m hm => by rw [h.missing m hm, find?_writeBatch d c ha]⟩

/-! ### The loop -/

/-- No transaction raises the miss itself. -/
def NoForeignMiss (txs : ℕ → Tx) : Prop :=
  ∀ i e landed, (txs i).fate = .raises e landed → ∀ k, e ≠ .hotPositionMissing k

/-- The columns of stored event rows. -/
def columns (rs : List EventRecord) : List (String → Cell) := rs.map EventRecord.cells

/-- The columns a row is inserted with. -/
def rowColumns (model : TargetModel) (row : EventRow Cell) : String → Cell :=
  (EventRecord.ofRow model 0 row).cells

lemma columns_writeBatch (now : Timestamp) (batch : List (EventRow Cell)) (db : Db) :
    columns ((writeBatch d a c now batch db).1.events a.loaded.targetModel) =
      columns (db.events a.loaded.targetModel) ++
        batch.map (rowColumns a.loaded.targetModel) := by
  rw [events_writeBatch, columns, List.map_append, List.map_map]
  rfl

lemma hot_writeBatch {a : WriteArgs Cell} (ha : a.loaded.hotComplete = false) (now : Timestamp)
    (batch : List (EventRow Cell)) (db : Db) :
    (writeBatch d a c now batch db).1.hot = (hotUpdates a batch).foldl HotTable.update db.hot :=
  (mergeGroups_incomplete ha (sortGroups (groupHot batch)) db.hot).1

/-- **A miss stops the loop at the first batch that has one**: that batch and those before it
are logged, their event rows stored and their groups merged, and nothing else is. -/
lemma writeBatches_miss {a : WriteArgs Cell} (ha : a.loaded.hotComplete = false) {txs : ℕ → Tx}
    (htx : NoForeignMiss txs) {bs : List (List (EventRow Cell))} {db : Db} {k : ℕ}
    (h : (writeBatches d a c txs bs db).raised = some (.hotPositionMissing k)) :
    ∃ pre b post, bs = pre ++ b :: post ∧ (∀ p ∈ pre, AllExist a p db.hot) ∧
      ¬ AllExist a b db.hot ∧
      List.Forall₂ (Logged a db.hot) (pre ++ [b]) (writeBatches d a c txs bs db).log ∧
      columns ((writeBatches d a c txs bs db).db.events a.loaded.targetModel) =
        columns (db.events a.loaded.targetModel) ++
          (pre ++ [b]).flatten.map (rowColumns a.loaded.targetModel) ∧
      (writeBatches d a c txs bs db).db.hot = hotAfter a (pre ++ [b]) db.hot := by
  induction bs generalizing txs db with
  | nil => simp [writeBatches] at h
  | cons b bs ih =>
    have hlog := logged_writeBatch d c ha (txs 0).now b db
    have hcol := columns_writeBatch d a c (txs 0).now b db
    have hhot := hot_writeBatch d c ha (txs 0).now b db
    rw [writeBatches] at h ⊢
    cases hf : (txs 0).fate with
    | raises e landed =>
      rw [hf] at h
      simp only [Option.some.injEq] at h
      exact absurd h (htx 0 e landed hf k)
    | commits =>
      rw [hf] at h
      dsimp only at h ⊢
      -- the first batch with a miss ends the loop, and that batch was committed
      by_cases hm : (writeBatch d a c (txs 0).now b db).2.misses = []
      · rw [if_pos hm] at h ⊢
        obtain ⟨pre, b', post, rfl, hpre, hb', hlogs, hcols, hrest⟩ :=
          ih (fun i => htx (i + 1)) h
        simp only [allExist_writeBatch d c ha] at hpre hb'
        refine ⟨b :: pre, b', post, rfl, ?_, hb', ?_, ?_, ?_⟩
        · intro p hp
          rcases List.mem_cons.mp hp with rfl | hp'
          · exact (misses_writeBatch d c ha (txs 0).now p db).mp hm
          · exact hpre p hp'
        · exact List.Forall₂.cons hlog (hlogs.imp fun _ _ hl => hl.of_writeBatch d c ha)
        · rw [hcols, hcol]
          simp
        · rw [List.cons_append, hotAfter_cons, ← hhot]
          exact hrest
      · rw [if_neg hm]
        refine ⟨[], b, bs, rfl, by simp, ?_, ?_, ?_, ?_⟩
        · rwa [← misses_writeBatch d c ha (txs 0).now b db]
        · exact List.Forall₂.cons hlog List.Forall₂.nil
        · rw [hcol]
          simp
        · rw [List.nil_append, hotAfter_cons, ← hhot]
          rfl

end

/-! ### What is retained -/

/-- Every event row of the chunk is stored, and the hot table is what the statements of all its
groups, in order, make of it: a group without a hot row is missed and changes nothing. -/
structure Retained (a : WriteArgs Cell) (n : ℕ) (rows : List (EventRow Cell)) (db : Db)
    (run : ChunkRun) : Prop where
  inserted : columns (run.db.events a.loaded.targetModel) =
    columns (db.events a.loaded.targetModel) ++ rows.map (rowColumns a.loaded.targetModel)
  merged : List.Forall₂ (fun batch log => log.merges.map Prod.fst = sortGroups (groupHot batch) ∧
      ∀ m ∈ log.merges, (db.hot.find? (hotParams a m.1).key).isSome → m.2 ≠ .missing)
    (batches rows n) run.log
  hot : run.db.hot = hotAfter a (batches rows n) db.hot

lemma Logged.merged {a : WriteArgs Cell} {t : HotTable Cell} {batch : List (EventRow Cell)}
    {log : BatchLog} (h : Logged a t batch log) :
    log.merges.map Prod.fst = sortGroups (groupHot batch) ∧
      ∀ m ∈ log.merges, (t.find? (hotParams a m.1).key).isSome → m.2 ≠ .missing := by
  refine ⟨h.groups, ?_⟩
  intro m hm hsome hmiss
  rw [(h.missing m hm).mp hmiss] at hsome
  simp at hsome

lemma hotComplete_of_miss {d : Driver} {a : WriteArgs Cell} {c : String} {txs : ℕ → Tx}
    (htx : NoForeignMiss txs) {bs : List (List (EventRow Cell))} {db : Db} {k : ℕ}
    (h : (writeBatches d a c txs bs db).raised = some (.hotPositionMissing k)) :
    a.loaded.hotComplete = false := by
  by_contra hc
  have ha : a.loaded.hotComplete = true := by simpa using hc
  induction bs generalizing txs db with
  | nil => simp [writeBatches] at h
  | cons b bs ih =>
    have hm : (writeBatch d a c (txs 0).now b db).2.misses = [] := by
      rw [BatchLog.misses, List.filter_eq_nil_iff]
      intro m hm
      simp [mergeGroups_complete ha _ _ m hm]
    rw [writeBatches] at h
    cases hf : (txs 0).fate with
    | raises e landed =>
      rw [hf] at h
      simp only [Option.some.injEq] at h
      exact htx 0 e landed hf k h
    | commits =>
      rw [hf] at h
      dsimp only at h
      rw [if_pos hm] at h
      exact ih (fun i => htx (i + 1)) h

/-- **When a miss retains history.** A chunk that raises for missing positions has stored all
its event rows and merged all its groups with a hot row exactly when no row outside the last
batch lacks a hot row. -/
theorem miss_retains_history_iff (d : Driver) (a : WriteArgs Cell) {n : ℕ} (hn : 1 ≤ n)
    (rows : List (EventRow Cell)) (db : Db) {txs : ℕ → Tx} (htx : NoForeignMiss txs) {k : ℕ}
    (h : (writeChunk d a n txs rows db).raised = some (.hotPositionMissing k)) :
    Retained a n rows db (writeChunk d a n txs rows db) ↔
      ∀ row ∈ rows.take ((rows.length - 1) / n * n), (db.hot.find? (rowKey a row)).isSome := by
  unfold writeChunk at h ⊢
  cases hts : eventTsColumn a.loaded.targetModel with
  | none => simp [hts] at h
  | some c =>
    simp only [hts] at h ⊢
    have ha := hotComplete_of_miss htx h
    obtain ⟨pre, b, post, hbs, hpre, hb, hlogs, hcols, hhot⟩ := writeBatches_miss d c ha htx h
    rw [← flatten_dropLast_batches rows hn]
    constructor
    · intro hret row hrow
      -- as many batches are logged as there are, so the one that missed is the last
      have hlen : (pre ++ [b]).length = (batches rows n).length := by
        rw [hlogs.length_eq, hret.merged.length_eq]
      have hpost : post = [] := by
        rw [hbs] at hlen
        simpa using hlen
      rw [hbs, hpost, List.dropLast_concat] at hrow
      obtain ⟨p, hp, hrow'⟩ := List.mem_flatten.mp hrow
      exact hpre p hp row hrow'
    · intro hall
      have hpost : post = [] := by
        by_contra hne
        have hmem : b ∈ (batches rows n).dropLast := by
          rw [hbs, List.dropLast_append_of_ne_nil (by simp), List.dropLast_cons_of_ne_nil hne]
          simp
        exact hb fun row hrow => hall row (List.mem_flatten.mpr ⟨b, hmem, hrow⟩)
      rw [hpost] at hbs
      refine ⟨?_, ?_, ?_⟩
      · rw [hcols, ← hbs, flatten_batches rows hn]
      · rw [← hbs] at hlogs
        exact hlogs.imp fun _ _ hl => hl.merged
      · rw [hhot, hbs]

/-- A sku without a hot row, then one with a row. -/
def missThenHit : List (EventRow Cell) :=
  [rowAt "new" 10 0 [("unit_cost", some (.int 3))], rowAt "sku" 10 1 [("unit_cost", some (.int 4))]]

/-- With one row a batch, the row after the miss is not stored. -/
theorem miss_drops_later_batches :
    ¬ ∀ (d : Driver) (a : WriteArgs Cell) (n : ℕ) (rows : List (EventRow Cell)) (db : Db) (k : ℕ),
      1 ≤ n → (writeChunk d a n committing rows db).raised = some (.hotPositionMissing k) →
        Retained a n rows db (writeChunk d a n committing rows db) := by
  intro h
  have hret := h plainDriver (saleArgs none) 1 missThenHit ⟨tableOf "sku" none, fun _ => []⟩ 1
    (by decide) (by decide)
  have hlen := congrArg List.length hret.inserted
  revert hlen
  decide

/-- With both rows in one batch, the miss keeps both. -/
theorem miss_in_last_batch_retains :
    Retained (saleArgs none) 2 missThenHit ⟨tableOf "sku" none, fun _ => []⟩
      (writeChunk plainDriver (saleArgs none) 2 committing missThenHit
        ⟨tableOf "sku" none, fun _ => []⟩) :=
  (miss_retains_history_iff plainDriver (saleArgs none) (by decide) missThenHit _
    (fun _ _ _ hf => by simp [committing] at hf) (k := 1) (by decide)).mpr (by decide)

end CortexDis.MissHistory
