import CortexDis.GroupHot

/-!
The hot table and the two statements that write it.

A table is the list of its rows, no two with one COALESCE'd natural key. The conditional
`UPDATE` rewrites the matching row unless the row already carries a later source event; the
`INSERT … ON CONFLICT` creates the row, or does what the `UPDATE` does. Both are writes
offered to a stamped register, the stamp being `last_source_event_at`.
-/

namespace CortexDis.HotSink

open CortexDis.PyDict CortexDis.Stamped CortexDis.Values CortexDis.GroupHot

variable {α β : Type}

/-- The lineage object a hot write stores. -/
structure IngestMetadata where
  sourceId : String
  sourceEventId : String
  sourceEventTimestamp : Timestamp
  disReceivedTimestamp : Timestamp
  csvRowNum : ℕ
  deriving DecidableEq, Repr

/-- The columns that say where a row's last write came from. -/
structure Lineage where
  mappingVersionId : ℕ
  traceId : Uuid
  disChannel : String
  ingestMetadata : Option IngestMetadata
  deriving DecidableEq, Repr

/-- `(tenant_id, store_id, sku_id, COALESCE(sku_variant, ''), COALESCE(sku_lot_batch, ''))` -/
abbrev HotKey := Uuid × Uuid × String × String × String

/-- One row of `store_sku_current_position`; `cells` are its attribute columns. -/
structure HotRow (α : Type) where
  tenantId : Uuid
  storeId : Uuid
  naturalKey : NaturalKey
  cells : String → α
  lastSourceEventAt : Option Timestamp
  lineage : Lineage

def HotRow.key (row : HotRow α) : HotKey := (row.tenantId, row.storeId, coalesce row.naturalKey)

/-- The hot table under the unique index `uq_sscp_natural_key`. -/
structure HotTable (α : Type) where
  rows : List (HotRow α)
  uq_sscp_natural_key : (rows.map HotRow.key).Nodup

/-- The bind parameters of a hot write, with the projected columns apart. -/
structure HotParams (α : Type) where
  tenantId : Uuid
  storeId : Uuid
  naturalKey : NaturalKey
  taxTreatment : α
  lastSourceEventAt : Timestamp
  lineage : Lineage
  projected : Dict String α

def HotParams.key (p : HotParams α) : HotKey := (p.tenantId, p.storeId, coalesce p.naturalKey)

inductive HotMergeOutcome
  | written | noopOlder | missing
  deriving DecidableEq, Repr

/-- The `SET` list: the projected columns, the stamp and the lineage columns. -/
def HotParams.write (p : HotParams α) (row : HotRow α) : HotRow α :=
  { row with
    cells := fun c => (p.projected.get? c).getD (row.cells c)
    lastSourceEventAt := some p.lastSourceEventAt
    lineage := p.lineage }

/-- `last_source_event_at IS NULL OR :last_source_event_at >= last_source_event_at` -/
def HotParams.notOlder (p : HotParams α) (row : HotRow α) : Prop :=
  row.lastSourceEventAt = none ∨ ∃ t, row.lastSourceEventAt = some t ∧ t ≤ p.lastSourceEventAt

instance (p : HotParams α) (row : HotRow α) : Decidable (p.notOlder row) :=
  decidable_of_iff (∀ t ∈ row.lastSourceEventAt, t ≤ p.lastSourceEventAt) <| by
    unfold HotParams.notOlder
    cases row.lastSourceEventAt <;> simp

/-- `UPDATE … SET … WHERE <key match> AND <not older>`, on one row. -/
def HotParams.updateRow (p : HotParams α) (row : HotRow α) : HotRow α :=
  if row.key = p.key ∧ p.notOlder row then p.write row else row

@[simp] lemma HotParams.key_write (p : HotParams α) (row : HotRow α) :
    (p.write row).key = row.key := rfl

@[simp] lemma HotParams.key_updateRow (p : HotParams α) (row : HotRow α) :
    (p.updateRow row).key = row.key := by
  unfold HotParams.updateRow
  split <;> rfl

/-- The table with a row-wise change that keeps the keys. -/
def HotTable.mapRows (t : HotTable α) (f : HotRow α → HotRow α) (hf : ∀ r, (f r).key = r.key) :
    HotTable α :=
  ⟨t.rows.map f, by
    have h : HotRow.key ∘ f = HotRow.key := funext hf
    rw [List.map_map, h]
    exact t.uq_sscp_natural_key⟩

def HotTable.update (t : HotTable α) (p : HotParams α) : HotTable α :=
  t.mapRows p.updateRow p.key_updateRow

/-- The number of rows the `UPDATE` changes. -/
def HotTable.rowcount (t : HotTable α) (p : HotParams α) : ℕ :=
  t.rows.countP fun row => row.key = p.key ∧ p.notOlder row

def HotTable.find? (t : HotTable α) (k : HotKey) : Option (HotRow α) :=
  t.rows.find? fun row => row.key = k

/-- `_update_hot_incomplete_path`: update or miss. -/
def updateHotIncompletePath (p : HotParams α) (t : HotTable α) : HotTable α × HotMergeOutcome :=
  if 0 < t.rowcount p then (t.update p, .written)
  else (t, if (t.find? p.key).isSome then .noopOlder else .missing)

/-- The value a column takes when an `INSERT` does not list it. -/
def columnDefault (c : String) : Cell :=
  if c = "regulatory_flag" then some (.bool false) else none

/-- The row the `INSERT` arm creates. -/
def HotParams.newRow (p : HotParams Cell) : HotRow Cell where
  tenantId := p.tenantId
  storeId := p.storeId
  naturalKey := p.naturalKey
  cells := fun c =>
    (p.projected.get? c).getD (if c = "tax_treatment" then p.taxTreatment else columnDefault c)
  lastSourceEventAt := some p.lastSourceEventAt
  lineage := p.lineage

lemma find?_eq_none (t : HotTable α) (k : HotKey) :
    t.find? k = none ↔ k ∉ t.rows.map HotRow.key := by
  simp [HotTable.find?, List.find?_eq_none]

def HotTable.insert (t : HotTable α) (row : HotRow α) (h : t.find? row.key = none) : HotTable α :=
  ⟨t.rows ++ [row], by
    rw [List.map_append, List.nodup_append]
    refine ⟨t.uq_sscp_natural_key, by simp, ?_⟩
    intro a ha b hb hab
    simp only [List.map_cons, List.map_nil, List.mem_singleton] at hb
    exact (find?_eq_none t row.key).mp h (hb ▸ hab ▸ ha)⟩

/-- `_insert_on_conflict_hot_complete_path`: insert, or update on conflict. -/
def insertOnConflictHotCompletePath (p : HotParams Cell) (t : HotTable Cell) :
    HotTable Cell × HotMergeOutcome :=
  if h : t.find? p.newRow.key = none then (t.insert p.newRow h, .written)
  else (t.update p, .written)

/-! ### The row as a stamped register -/

/-- A hot row takes writes as a register stamped with `last_source_event_at`. -/
def register : Register Timestamp (HotParams α) (HotRow α) where
  stamp row := row.lastSourceEventAt
  time p := p.lastSourceEventAt
  write := HotParams.write
  stamp_write _ _ := rfl

lemma notOlder_iff (p : HotParams α) (row : HotRow α) :
    p.notOlder row ↔ register.stamp row ≤ ((register.time p : Timestamp) : WithBot Timestamp) := by
  unfold HotParams.notOlder
  cases h : row.lastSourceEventAt with
  | none =>
    have hs : register.stamp row = ⊥ := h
    simp [hs]
  | some t =>
    have hs : register.stamp row = ((t : Timestamp) : WithBot Timestamp) := h
    have ht : register.time p = p.lastSourceEventAt := rfl
    rw [hs, ht, WithBot.coe_le_coe]
    simp

lemma updateRow_eq (p : HotParams α) (row : HotRow α) :
    p.updateRow row = if row.key = p.key then register.offer p row else row := by
  unfold HotParams.updateRow
  by_cases hk : row.key = p.key
  · by_cases h : p.notOlder row
    · rw [if_pos ⟨hk, h⟩, if_pos hk, register.offer_of_le ((notOlder_iff p row).mp h)]
      rfl
    · rw [if_neg fun h' => h h'.2, if_pos hk,
        register.offer_of_lt (not_le.mp fun hle => h ((notOlder_iff p row).mpr hle))]
  · rw [if_neg fun h' => hk h'.1, if_neg hk]

lemma overwriting : (register : Register Timestamp (HotParams α) (HotRow α)).Overwriting where
  idem p row := by
    simp only [register, HotParams.write, HotRow.mk.injEq, true_and, and_true]
    funext c
    cases p.projected.get? c <;> rfl
  hides p q row := by
    simp only [register, HotParams.write, HotRow.mk.injEq, true_and, and_true]
    funext c
    cases p.projected.get? c <;> cases q.projected.get? c <;> rfl

@[simp] lemma key_offer (p : HotParams α) (row : HotRow α) :
    (register.offer p row).key = row.key := by
  unfold Register.offer
  split <;> rfl

@[simp] lemma key_run (ps : List (HotParams α)) (row : HotRow α) :
    (register.run ps row).key = row.key := by
  induction ps generalizing row with
  | nil => rfl
  | cons p ps ih => rw [Register.run_cons, ih, key_offer]

/-! ### The table after a list of updates -/

lemma HotTable.ext_rows {t u : HotTable α} (h : t.rows = u.rows) : t = u := by
  obtain ⟨tr, ht⟩ := t
  obtain ⟨ur, hu⟩ := u
  cases h
  rfl

lemma rows_foldl_update (ps : List (HotParams α)) (t : HotTable α) :
    (ps.foldl HotTable.update t).rows =
      t.rows.map fun row => register.run (ps.filter fun p => row.key = p.key) row := by
  induction ps generalizing t with
  | nil => simp [Register.run]
  | cons p ps ih =>
    rw [List.foldl_cons, ih]
    simp only [HotTable.update, HotTable.mapRows, List.map_map]
    refine List.map_congr_left fun row _ => ?_
    rw [Function.comp_apply, p.key_updateRow, updateRow_eq]
    by_cases h : row.key = p.key <;> simp [h]

lemma find?_map_key (t : HotTable α) (f : HotRow α → HotRow α) (hf : ∀ r, (f r).key = r.key)
    (k : HotKey) : (t.mapRows f hf).find? k = (t.find? k).map f := by
  simp only [HotTable.find?, HotTable.mapRows, List.find?_map, Function.comp_def, hf]

lemma find?_update (t : HotTable α) (p : HotParams α) (k : HotKey) :
    (t.update p).find? k = (t.find? k).map p.updateRow :=
  find?_map_key t p.updateRow p.key_updateRow k

lemma key_of_find? {t : HotTable α} {k : HotKey} {row : HotRow α} (h : t.find? k = some row) :
    row.key = k := by
  simpa using List.find?_some h

lemma find?_of_mem {t : HotTable α} {row : HotRow α} (h : row ∈ t.rows) :
    t.find? row.key = some row := by
  cases hf : t.find? row.key with
  | none => exact absurd (List.mem_map_of_mem h) ((find?_eq_none t row.key).mp hf)
  | some r =>
    have hr : r ∈ t.rows := List.mem_of_find?_eq_some hf
    rw [List.inj_on_of_nodup_map t.uq_sscp_natural_key hr h (key_of_find? hf)]

lemma find?_foldl_update (ps : List (HotParams α)) (t : HotTable α) (k : HotKey) :
    (ps.foldl HotTable.update t).find? k =
      (t.find? k).map (register.run (ps.filter fun p => k = p.key)) := by
  have hmap : ps.foldl HotTable.update t =
      t.mapRows (fun row => register.run (ps.filter fun p => row.key = p.key) row)
        (fun r => key_run _ r) := HotTable.ext_rows (rows_foldl_update ps t)
  rw [hmap, find?_map_key]
  cases h : t.find? k with
  | none => rfl
  | some row => simp [key_of_find? h]

lemma isSome_find?_update (t : HotTable α) (p : HotParams α) (k : HotKey) :
    ((t.update p).find? k).isSome = (t.find? k).isSome := by
  rw [find?_update]
  cases t.find? k <;> rfl

/-! ### What the update path reports -/

lemma rowcount_pos (t : HotTable α) (p : HotParams α) :
    0 < t.rowcount p ↔ ∃ row, t.find? p.key = some row ∧ p.notOlder row := by
  unfold HotTable.rowcount
  rw [List.countP_pos_iff]
  constructor
  · rintro ⟨row, hr, hp⟩
    obtain ⟨hk, hno⟩ := of_decide_eq_true hp
    exact ⟨row, hk ▸ find?_of_mem hr, hno⟩
  · rintro ⟨row, hf, hno⟩
    exact ⟨row, List.mem_of_find?_eq_some hf, decide_eq_true ⟨key_of_find? hf, hno⟩⟩

lemma updateHotIncompletePath_fst (p : HotParams α) (t : HotTable α) :
    (updateHotIncompletePath p t).1 = t.update p := by
  unfold updateHotIncompletePath
  split
  · rfl
  · rename_i h
    refine HotTable.ext_rows (List.ext_getElem (by simp [HotTable.update, HotTable.mapRows]) ?_)
    intro i h1 h2
    simp only [HotTable.update, HotTable.mapRows, List.getElem_map]
    have hno : ¬ ((t.rows[i]).key = p.key ∧ p.notOlder t.rows[i]) := by
      rintro ⟨hk, hno⟩
      exact h ((rowcount_pos t p).mpr ⟨_, hk ▸ find?_of_mem (List.getElem_mem h1), hno⟩)
    rw [HotParams.updateRow, if_neg hno]

/-- **The report of the update path**: `missing` without a row, `written` when the row's
stamp is not later, `noop_older` otherwise. -/
lemma updateHotIncompletePath_snd (p : HotParams α) (t : HotTable α) :
    (updateHotIncompletePath p t).2 =
      match t.find? p.key with
      | none => .missing
      | some row => if p.notOlder row then .written else .noopOlder := by
  unfold updateHotIncompletePath
  by_cases h : 0 < t.rowcount p
  · obtain ⟨row, hf, hno⟩ := (rowcount_pos t p).mp h
    simp [h, hf, hno]
  · cases hf : t.find? p.key with
    | none => simp [h]
    | some row =>
      have hno : ¬ p.notOlder row := fun hno => h ((rowcount_pos t p).mpr ⟨row, hf, hno⟩)
      simp [h, hno]

end CortexDis.HotSink
