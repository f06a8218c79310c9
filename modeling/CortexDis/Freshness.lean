import CortexDis.Catalogue
import CortexDis.RowLocks

/-!
Event and catalogue batches against one hot table, in any interleaving.

The two hot statements are those of a table of stamped rows: the conditional update of an
incomplete mapping, and the creating statement of a complete one and of the catalogue. A batch
is one transaction. Run alone it does what the writers do; run among others it keeps one row a
key, and the row's stamp is the latest it was offered.
-/

namespace CortexDis.Freshness

open CortexDis.PyDict CortexDis.Stamped CortexDis.RowLocks CortexDis.Values CortexDis.GroupHot
open CortexDis.HotSink CortexDis.WriteChunk CortexDis.Catalogue

/-- The hot table as stamped rows with keys. -/
def hotStore : Store Timestamp (HotParams Cell) (HotRow Cell) HotKey where
  toRegister := register
  key := HotRow.key
  target := HotParams.key
  create := HotParams.newRow
  key_write _ _ := rfl
  key_create _ := rfl
  stamp_create _ := rfl

/-- A batch of either writer. -/
inductive Batch
  | events (a : WriteArgs Cell) (rows : List (EventRow Cell))
  | catalogue (a : WriteArgs Cell) (groups : List (HotGroup Cell))

/-- The hot statements of a batch, in the order the writer issues them. -/
def Batch.program : Batch → List (Stmt (HotParams Cell))
  | .events a rows =>
    (sortGroups (groupHot rows)).map fun g => ⟨a.loaded.hotComplete, hotParams a g⟩
  | .catalogue a groups => (sortGroups groups).map fun g => ⟨true, catalogueParams a g⟩

def batchPrograms : Set (List (Stmt (HotParams Cell))) := Set.range Batch.program

/-- The table with no transaction in progress. -/
def quiet (t : HotTable Cell) : State (HotParams Cell) (HotRow Cell) := ⟨t.rows, [], []⟩

/-- States that the batches reach, in some interleaving. -/
def Reaches (s s' : State (HotParams Cell) (HotRow Cell)) : Prop :=
  hotStore.Reaches batchPrograms s s'

/-! ### A batch alone -/

/-- A statement through the function that issues it. -/
def runStmt (t : HotTable Cell) (stmt : Stmt (HotParams Cell)) : HotTable Cell :=
  (if stmt.creates then insertOnConflictHotCompletePath stmt.write t
    else updateHotIncompletePath stmt.write t).1

lemma rows_update_of_find {t : HotTable Cell} {p : HotParams Cell} {row : HotRow Cell}
    (h : t.find? p.key = some row) :
    (t.update p).rows = hotStore.put (register.offer p row) t.rows := by
  have hkey : (register.offer p row).key = p.key := (key_offer p row).trans (key_of_find? h)
  have hsome : hotStore.find (hotStore.key (register.offer p row)) t.rows ≠ none := by
    change t.find? (register.offer p row).key ≠ none
    rw [hkey, h]
    simp
  rw [Store.put, if_neg hsome]
  refine List.map_congr_left fun r hr => ?_
  change p.updateRow r = if r.key = (register.offer p row).key then register.offer p row else r
  rw [updateRow_eq, hkey]
  split
  · rename_i hrk
    have hfind := find?_of_mem hr
    rw [hrk, h] at hfind
    rw [Option.some.inj hfind]
  · rfl

lemma update_of_find_none {t : HotTable Cell} {p : HotParams Cell} (h : t.find? p.key = none) :
    (t.update p).rows = t.rows := by
  have hid : ∀ r ∈ t.rows, p.updateRow r = id r := by
    intro r hr
    have hk : r.key ≠ p.key := fun hk =>
      (find?_eq_none t p.key).mp h (hk ▸ List.mem_map_of_mem hr)
    rw [updateRow_eq, if_neg hk, id]
  change t.rows.map p.updateRow = t.rows
  rw [List.map_congr_left hid, List.map_id]

lemma apply_eq_runStmt (t : HotTable Cell) (stmt : Stmt (HotParams Cell)) :
    hotStore.apply t.rows stmt = (runStmt t stmt).rows := by
  obtain ⟨creates, p⟩ := stmt
  have hfind : hotStore.find (hotStore.target p) t.rows = t.find? p.key := rfl
  rw [Store.apply, hfind]
  cases creates with
  | false =>
    have hrun : runStmt t ⟨false, p⟩ = t.update p := updateHotIncompletePath_fst p t
    rw [hrun]
    cases h : t.find? p.key with
    | none => exact (update_of_find_none h).symm
    | some row => exact (rows_update_of_find h).symm
  | true =>
    have hrun : runStmt t ⟨true, p⟩ = (insertOnConflictHotCompletePath p t).1 := rfl
    have hkey : p.newRow.key = p.key := rfl
    rw [hrun, insertOnConflictHotCompletePath]
    cases h : t.find? p.key with
    | none =>
      rw [dif_pos (hkey ▸ h)]
      rfl
    | some row =>
      rw [dif_neg (by rw [hkey, h]; simp)]
      exact (rows_update_of_find h).symm

/-- The row of the key, if any, after a creating statement. -/
def settle (row? : Option (HotRow Cell)) (p : HotParams Cell) : Option (HotRow Cell) :=
  match row? with
  | none => some p.newRow
  | some row => some (register.offer p row)

lemma find?_runStmt (t : HotTable Cell) (p : HotParams Cell) (k : HotKey) :
    (runStmt t ⟨true, p⟩).find? k =
      if p.key = k then settle (t.find? k) p else t.find? k := by
  change (insertOnConflictHotCompletePath p t).1.find? k = _
  have hkey : p.newRow.key = p.key := rfl
  -- the statement inserts where the key has no row, and updates its row where it has one
  unfold insertOnConflictHotCompletePath
  split
  · rename_i hnone
    rw [find?_insert]
    by_cases hk : p.key = k
    · subst hk
      rw [hkey] at hnone
      rw [if_pos hkey, if_pos rfl, hnone]
      rfl
    · rw [if_neg (hkey ▸ hk), if_neg hk, Option.or_none]
  · rename_i hsome
    rw [find?_update]
    cases hf : t.find? k with
    | none =>
      have hk : p.key ≠ k := by
        rintro rfl
        exact hsome hf
      rw [if_neg hk]
      rfl
    | some row =>
      rw [Option.map_some, updateRow_eq, key_of_find? hf]
      by_cases hk : p.key = k
      · rw [if_pos hk.symm, if_pos hk]
        rfl
      · rw [if_neg (Ne.symm hk), if_neg hk]

lemma foldl_apply (stmts : List (Stmt (HotParams Cell))) (t : HotTable Cell) :
    stmts.foldl hotStore.apply t.rows = (stmts.foldl runStmt t).rows := by
  induction stmts generalizing t with
  | nil => rfl
  | cons stmt stmts ih => rw [List.foldl_cons, List.foldl_cons, apply_eq_runStmt, ih]

lemma mergeGroups_fst (a : WriteArgs Cell) (gs : List (HotGroup Cell)) (t : HotTable Cell) :
    (mergeGroups a gs t).1 =
      (gs.map fun g => (⟨a.loaded.hotComplete, hotParams a g⟩ : Stmt _)).foldl runStmt t := by
  induction gs generalizing t with
  | nil => rfl
  | cons g gs ih =>
    rw [mergeGroups, ih, List.map_cons, List.foldl_cons]
    rfl

/-- **The writers' transactions are runs of this system**: alone, an event batch leaves the
table its merge leaves. -/
lemma events_alone (t : HotTable Cell) (a : WriteArgs Cell) (rows : List (EventRow Cell)) :
    ∃ seen, Reaches (quiet t)
      ⟨(mergeGroups a (sortGroups (groupHot rows)) t).1.rows, [], seen⟩ := by
  rw [mergeGroups_fst, ← foldl_apply]
  exact hotStore.reaches_alone t.uq_sscp_natural_key ⟨.events a rows, rfl⟩

lemma catalogue_alone (t : HotTable Cell) (a : WriteArgs Cell) (groups : List (HotGroup Cell)) :
    ∃ seen, Reaches (quiet t) ⟨(writeCatalogueBatch a groups t).rows, [], seen⟩ := by
  have hwrite : writeCatalogueBatch a groups t =
      ((Batch.catalogue a groups).program).foldl runStmt t := by
    rw [Batch.program, List.foldl_map]
    rfl
  rw [hwrite, ← foldl_apply]
  exact hotStore.reaches_alone t.uq_sscp_natural_key ⟨.catalogue a groups, rfl⟩

/-! ### Any interleaving -/

/-- The stamp the key's row had at first; none without a row. -/
def initialStamp (t : HotTable Cell) (k : HotKey) : WithBot Timestamp :=
  hotStore.stampOf (t.find? k)

lemma good_quiet (t : HotTable Cell) : hotStore.Good (initialStamp t) (quiet t) where
  nodup := t.uq_sscp_natural_key
  stamp _ := (max_bot_right _).symm
  txs _ h := by cases h
  apart := List.Pairwise.nil

/-- **Freshness**: in every state that event and catalogue batches reach in any interleaving,
with any of them rolled back, each key has at most one row; from there on a row stays and its
`last_source_event_at` does not decrease; and that stamp is the greatest of the first one and
of the times of the committed groups whose statement created the row or ran while it existed. -/
theorem hot_rows_fresh (t : HotTable Cell) {s s' : State (HotParams Cell) (HotRow Cell)}
    (hs : Reaches (quiet t) s) (hs' : Reaches s s') :
    ((hotStore.live s).map HotRow.key).Nodup ∧
      (∀ row ∈ s.rows, ∃ row' ∈ s'.rows, row'.key = row.key ∧
        register.stamp row ≤ register.stamp row') ∧
      (∀ tx ∈ s.txs, ∀ v ∈ tx.versions, ∀ row ∈ s.rows, row.key = v.key →
        register.stamp row ≤ register.stamp v) ∧
      ∀ row ∈ s.rows, register.stamp row =
        max (initialStamp t row.key) (hotStore.latest row.key s.seen) := by
  have hg := hotStore.good_reaches (good_quiet t) hs
  refine ⟨hotStore.nodup_live hg, fun row hrow => ?_, fun tx htx v hv row hrow hkey => ?_,
    fun row hrow => ?_⟩
  · obtain ⟨hstays, hle⟩ := hotStore.row_reaches hg hs' row.key
    have hfind : hotStore.find row.key s.rows = some row := hotStore.find_of_mem hg.nodup hrow
    rw [hfind] at hstays hle
    obtain ⟨row', hrow'⟩ := Option.isSome_iff_exists.mp (hstays rfl)
    rw [hrow'] at hle
    exact ⟨row', List.mem_of_find?_eq_some hrow', hotStore.key_of_find hrow', hle⟩
  · have hfind : hotStore.find row.key s.rows = some row := hotStore.find_of_mem hg.nodup hrow
    have hversion : hotStore.find v.key tx.versions = some v :=
      hotStore.find_of_mem (hg.txs tx htx).nodup hv
    -- what a running transaction would commit is at least what it saw
    have hle := hotStore.stamp_le_current (hg.txs tx htx) v.key
    rw [Store.current, hversion, ← hkey, hfind] at hle
    exact hle
  · have hfind : hotStore.find row.key s.rows = some row := hotStore.find_of_mem hg.nodup hrow
    have hstamp := hg.stamp row.key
    rw [hfind] at hstamp
    exact hstamp

/-! ### Two batches at once -/

/-- A batch of one sale of sku `A`. -/
def saleBatch (ts : Timestamp) : Batch := .events (saleArgs none) [rowAt "A" ts 0 []]

/-- Its one write. -/
def saleWrite (ts : Timestamp) : HotParams Cell :=
  hotParams (saleArgs none) (HotGroup.ofRow (rowAt "A" ts 0 []))

/-- The row that the sale at `ts` leaves. -/
def soldRows (ts : Timestamp) : List (HotRow Cell) :=
  (tableOf "A" none).rows.map (saleWrite ts).write

/-- A transaction of the sale that has run. -/
def sold (ts : Timestamp) : Tx (HotParams Cell) (HotRow Cell) :=
  ⟨[], soldRows ts, [saleWrite ts]⟩

/-- The earlier sale's transaction, after it passed over the later row. -/
def passed : Tx (HotParams Cell) (HotRow Cell) := ⟨[], [], [saleWrite 5]⟩

/-- Two sales in progress; the later one holds the row. -/
def racing : State (HotParams Cell) (HotRow Cell) :=
  ⟨(tableOf "A" none).rows, [Tx.start (saleBatch 5).program] ++ sold 10 :: [], []⟩

/-- Both have committed, the later one first. -/
def raced : State (HotParams Cell) (HotRow Cell) :=
  ⟨soldRows 10, [], [saleWrite 10, saleWrite 5]⟩

lemma reaches_racing : Reaches (quiet (tableOf "A" none)) racing := by
  have h₁ : hotStore.Step batchPrograms (quiet (tableOf "A" none))
      ⟨(tableOf "A" none).rows, [Tx.start (saleBatch 5).program], []⟩ :=
    .start ⟨saleBatch 5, rfl⟩
  have h₂ : hotStore.Step batchPrograms
      ⟨(tableOf "A" none).rows, [Tx.start (saleBatch 5).program], []⟩
      ⟨(tableOf "A" none).rows,
        [Tx.start (saleBatch 5).program] ++ Tx.start (saleBatch 10).program :: [], []⟩ :=
    .start ⟨saleBatch 10, rfl⟩
  have h₃ : hotStore.Step batchPrograms
      ⟨(tableOf "A" none).rows,
        [Tx.start (saleBatch 5).program] ++ Tx.start (saleBatch 10).program :: [], []⟩
      racing := .run rfl rfl
  exact .head h₁ (.head h₂ (.single h₃))

lemma racing_reaches_raced : Reaches racing raced := by
  have h₁ : hotStore.Step batchPrograms racing
      ⟨hotStore.overlay (sold 10).versions racing.rows, [Tx.start (saleBatch 5).program] ++ [],
        racing.seen ++ (sold 10).seen⟩ := .commit rfl rfl
  have h₂ : hotStore.Step batchPrograms
      ⟨soldRows 10, [] ++ Tx.start (saleBatch 5).program :: [], [saleWrite 10]⟩
      ⟨soldRows 10, [] ++ passed :: [], [saleWrite 10]⟩ := .run rfl rfl
  have h₃ : hotStore.Step batchPrograms
      ⟨soldRows 10, [] ++ passed :: [], [saleWrite 10]⟩
      ⟨hotStore.overlay passed.versions (soldRows 10), [] ++ [], [saleWrite 10] ++ passed.seen⟩ :=
    .commit rfl rfl
  exact .head h₁ (.head h₂ (.single h₃))

/-- The later sale takes the row while the earlier one is in progress; when both have
committed, its time is the stamp. -/
theorem later_sale_stays :
    (∀ row ∈ racing.rows, ∃ row' ∈ raced.rows, row'.key = row.key ∧
        register.stamp row ≤ register.stamp row') ∧
      (∀ row ∈ raced.rows, register.stamp row =
        max (initialStamp (tableOf "A" none) row.key) (hotStore.latest row.key raced.seen)) ∧
      ∀ row ∈ raced.rows, row.lastSourceEventAt = some 10 := by
  have hraced := reaches_racing.trans racing_reaches_raced
  refine ⟨(hot_rows_fresh _ reaches_racing racing_reaches_raced).2.1,
    (hot_rows_fresh _ hraced .refl).2.2.2, ?_⟩
  intro row hrow
  cases List.mem_singleton.mp hrow
  rfl

end CortexDis.Freshness
