import CortexDis.WriteChunk

/-!
The hot table after a chunk whose natural keys all have a row.

On such a table the two hot statements do the same: the conditional update. So a run leaves
the updates of the batches whose transactions took effect, in order, and those batches are a
prefix of the chunk's.
-/

namespace CortexDis.HotWrites

open CortexDis.PyDict CortexDis.Values CortexDis.GroupHot CortexDis.HotSink
open CortexDis.Canonical CortexDis.WriteChunk

/-- The hot key a row's group is merged under. -/
def rowKey (a : WriteArgs Cell) (row : EventRow Cell) : HotKey :=
  (a.event.tenantId, a.event.storeId, coalesce row.naturalKey)

/-- Every natural key of the rows has a hot row. -/
def AllExist (a : WriteArgs Cell) (rows : List (EventRow Cell)) (t : HotTable Cell) : Prop :=
  ∀ row ∈ rows, (t.find? (rowKey a row)).isSome

instance (a : WriteArgs Cell) (rows : List (EventRow Cell)) (t : HotTable Cell) :
    Decidable (AllExist a rows t) :=
  inferInstanceAs (Decidable (∀ row ∈ rows, (t.find? (rowKey a row)).isSome = true))

/-- The parameters of a batch's hot statements, in order. -/
def hotUpdates (a : WriteArgs Cell) (batch : List (EventRow Cell)) : List (HotParams Cell) :=
  (sortGroups (groupHot batch)).map (hotParams a)

lemma exists_row_of_mem_sortGroups {batch : List (EventRow Cell)} {g : HotGroup Cell}
    (hg : g ∈ sortGroups (groupHot batch)) : ∃ row ∈ batch, row.naturalKey = g.naturalKey := by
  have h := mem_groupHot.mp ((List.mem_insertionSort _).mp hg)
  obtain ⟨row, hrow, _⟩ := exists_eventTs_eq h
  obtain ⟨hmem, hkey⟩ := List.mem_filter.mp hrow
  exact ⟨row, hmem, by simpa using hkey⟩

lemma exists_group_of_mem {batch : List (EventRow Cell)} {row : EventRow Cell}
    (hrow : row ∈ batch) :
    ∃ g ∈ sortGroups (groupHot batch), row.naturalKey = g.naturalKey := by
  have hmem : row ∈ rowsOf row.naturalKey batch := by simp [rowsOf, hrow]
  obtain ⟨g, hg⟩ := exists_groupOf hmem
  have hk : g.naturalKey = row.naturalKey :=
    naturalKey_groupOf (fun r hr => by simpa using (List.mem_filter.mp hr).2) hg
  refine ⟨g, (List.mem_insertionSort _).mpr (mem_groupHot.mpr ?_), hk.symm⟩
  rw [hk]
  exact hg

lemma key_hotParams (a : WriteArgs Cell) {g : HotGroup Cell} {row : EventRow Cell}
    (h : row.naturalKey = g.naturalKey) : (hotParams a g).key = rowKey a row := by
  unfold rowKey HotParams.key hotParams
  rw [h]

/-! ### The statements on existing rows -/

lemma upsertHot_of_exists (a : WriteArgs Cell) (g : HotGroup Cell) {t : HotTable Cell}
    (h : (t.find? (hotParams a g).key).isSome) :
    (upsertHot a g t).1 = t.update (hotParams a g) ∧ (upsertHot a g t).2 ≠ .missing := by
  unfold upsertHot
  split
  · have hne : ¬ t.find? (hotParams a g).newRow.key = none := by
      change ¬ t.find? (hotParams a g).key = none
      intro hn
      simp [hn] at h
    unfold insertOnConflictHotCompletePath
    rw [dif_neg hne]
    exact ⟨rfl, by simp⟩
  · refine ⟨updateHotIncompletePath_fst _ _, ?_⟩
    rw [updateHotIncompletePath_snd]
    obtain ⟨row, hrow⟩ := Option.isSome_iff_exists.mp h
    rw [hrow]
    dsimp only
    split <;> simp

lemma isSome_find?_foldl_update (ps : List (HotParams Cell)) (t : HotTable Cell) (k : HotKey) :
    ((ps.foldl HotTable.update t).find? k).isSome = (t.find? k).isSome := by
  rw [find?_foldl_update, Option.isSome_map]

lemma AllExist.update {a : WriteArgs Cell} {rows : List (EventRow Cell)} {t : HotTable Cell}
    (h : AllExist a rows t) (ps : List (HotParams Cell)) :
    AllExist a rows (ps.foldl HotTable.update t) :=
  fun row hr => by rw [isSome_find?_foldl_update]; exact h row hr

lemma mergeGroups_append (a : WriteArgs Cell) (us vs : List (HotGroup Cell)) (t : HotTable Cell) :
    mergeGroups a (us ++ vs) t = ((mergeGroups a vs (mergeGroups a us t).1).1,
      (mergeGroups a us t).2 ++ (mergeGroups a vs (mergeGroups a us t).1).2) := by
  induction us generalizing t with
  | nil => rfl
  | cons u us ih => simp only [List.cons_append, mergeGroups, ih]

lemma mergeGroups_of_exists (a : WriteArgs Cell) (gs : List (HotGroup Cell)) {t : HotTable Cell}
    (h : ∀ g ∈ gs, (t.find? (hotParams a g).key).isSome) :
    (mergeGroups a gs t).1 = (gs.map (hotParams a)).foldl HotTable.update t ∧
      ∀ m ∈ (mergeGroups a gs t).2, m.2 ≠ .missing := by
  induction gs generalizing t with
  | nil => exact ⟨rfl, by simp [mergeGroups]⟩
  | cons g gs ih =>
    obtain ⟨htab, hout⟩ := upsertHot_of_exists a g (h g List.mem_cons_self)
    have hrest : ∀ g' ∈ gs, ((upsertHot a g t).1.find? (hotParams a g').key).isSome := by
      intro g' hg'
      rw [htab, isSome_find?_update]
      exact h g' (List.mem_cons_of_mem _ hg')
    obtain ⟨ihtab, ihout⟩ := ih hrest
    refine ⟨?_, ?_⟩
    · rw [mergeGroups, ihtab, htab, List.map_cons, List.foldl_cons]
    · intro m hm
      rcases List.mem_cons.mp hm with rfl | hm'
      · exact hout
      · exact ihout m hm'

lemma writeBatch_of_exists (d : Driver) (a : WriteArgs Cell) (c : String) (now : Timestamp)
    {batch : List (EventRow Cell)} {db : Db} (h : AllExist a batch db.hot) :
    (writeBatch d a c now batch db).1.hot = (hotUpdates a batch).foldl HotTable.update db.hot ∧
      (writeBatch d a c now batch db).2.misses = [] := by
  have hg : ∀ g ∈ sortGroups (groupHot batch), (db.hot.find? (hotParams a g).key).isSome := by
    intro g hg
    obtain ⟨row, hrow, hkey⟩ := exists_row_of_mem_sortGroups hg
    rw [key_hotParams a hkey]
    exact h row hrow
  obtain ⟨htab, hout⟩ := mergeGroups_of_exists a _ hg
  refine ⟨htab, ?_⟩
  rw [BatchLog.misses, List.filter_eq_nil_iff]
  intro m hm
  simpa using hout m hm

/-! ### The batch loop -/

/-- The hot table after the batches whose transactions took effect. -/
def hotAfter (a : WriteArgs Cell) (bs : List (List (EventRow Cell))) (t : HotTable Cell) :
    HotTable Cell :=
  (bs.flatMap (hotUpdates a)).foldl HotTable.update t

lemma hotAfter_cons (a : WriteArgs Cell) (b : List (EventRow Cell))
    (bs : List (List (EventRow Cell))) (t : HotTable Cell) :
    hotAfter a (b :: bs) t = hotAfter a bs ((hotUpdates a b).foldl HotTable.update t) := by
  unfold hotAfter
  rw [List.flatMap_cons, List.foldl_append]

lemma exists_prefix_writeBatches (d : Driver) (a : WriteArgs Cell) (c : String) (txs : ℕ → Tx)
    (bs : List (List (EventRow Cell))) (db : Db) (h : ∀ b ∈ bs, AllExist a b db.hot) :
    ∃ us, us <+: bs ∧ (writeBatches d a c txs bs db).db.hot = hotAfter a us db.hot := by
  induction bs generalizing txs db with
  | nil => exact ⟨[], List.prefix_rfl, rfl⟩
  | cons b bs ih =>
    obtain ⟨hhot, hmiss⟩ := writeBatch_of_exists d a c (txs 0).now (h b List.mem_cons_self)
    rw [writeBatches]
    cases hf : (txs 0).fate with
    | raises e landed =>
      -- a commit that was answered by an error may have landed
      cases landed with
      | true =>
        refine ⟨[b], ⟨bs, rfl⟩, ?_⟩
        dsimp only
        rw [if_pos rfl, hhot, hotAfter_cons]
        rfl
      | false => exact ⟨[], List.nil_prefix, by simp [hotAfter]⟩
    | commits =>
      dsimp only
      rw [if_pos hmiss]
      have hrest : ∀ b' ∈ bs, AllExist a b' (writeBatch d a c (txs 0).now b db).1.hot := by
        intro b' hb'
        rw [hhot]
        exact (h b' (List.mem_cons_of_mem _ hb')).update _
      obtain ⟨us, hus, hdb⟩ := ih (fun i => txs (i + 1)) _ hrest
      refine ⟨b :: us, (List.prefix_cons_inj b).mpr hus, ?_⟩
      rw [hotAfter_cons, ← hhot]
      exact hdb

lemma writeBatches_of_commits (d : Driver) (a : WriteArgs Cell) (c : String) {txs : ℕ → Tx}
    (bs : List (List (EventRow Cell))) (htx : ∀ i < bs.length, (txs i).fate = .commits) (db : Db)
    (h : ∀ b ∈ bs, AllExist a b db.hot) :
    (writeBatches d a c txs bs db).db.hot = hotAfter a bs db.hot ∧
      (writeBatches d a c txs bs db).raised = none := by
  induction bs generalizing txs db with
  | nil => exact ⟨rfl, rfl⟩
  | cons b bs ih =>
    obtain ⟨hhot, hmiss⟩ := writeBatch_of_exists d a c (txs 0).now (h b List.mem_cons_self)
    rw [writeBatches, htx 0 (by simp)]
    dsimp only
    rw [if_pos hmiss]
    have hrest : ∀ b' ∈ bs, AllExist a b' (writeBatch d a c (txs 0).now b db).1.hot := by
      intro b' hb'
      rw [hhot]
      exact (h b' (List.mem_cons_of_mem _ hb')).update _
    have htail : ∀ i < bs.length, (txs (i + 1)).fate = .commits := fun i hi =>
      htx (i + 1) (by simpa using hi)
    obtain ⟨hdb, hraised⟩ := ih htail _ hrest
    exact ⟨by rw [hotAfter_cons, ← hhot]; exact hdb, hraised⟩

lemma allExist_of_mem_batches {a : WriteArgs Cell} {rows : List (EventRow Cell)}
    {t : HotTable Cell} (h : AllExist a rows t) {n : ℕ} (hn : 1 ≤ n)
    {b : List (EventRow Cell)} (hb : b ∈ batches rows n) : AllExist a b t := by
  intro row hrow
  refine h row ?_
  rw [← flatten_batches rows hn]
  exact List.mem_flatten.mpr ⟨b, hb, hrow⟩

end CortexDis.HotWrites
