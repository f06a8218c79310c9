import CortexDis.WriteChunk
import CortexDis.Runs

/-!
Event time over whole runs of the hot merge.

Every value carries, beside itself, the event time of the row that supplied it. The merge
does not look at what it moves, so the marked run is the real one with marks added. A column
can be overwritten by a value from an older row: the conditional update compares the newest
event time of the group, whichever row supplied the column.
-/

namespace CortexDis.EventTime

open CortexDis.PyDict CortexDis.Stamped CortexDis.Values CortexDis.GroupHot CortexDis.HotSink
open CortexDis.WriteChunk CortexDis.Runs

variable {α β : Type}

/-! ### Runs of batches -/

/-- One batch of some writer. -/
structure Delivery (α : Type) where
  args : WriteArgs α
  batch : List (EventRow α)

/-- One hot statement of a batch, with the rows of the batch that spell its key. -/
structure Update (α : Type) where
  args : WriteArgs α
  rows : List (EventRow α)
  group : HotGroup α

def Update.params (u : Update α) : HotParams α := hotParams u.args u.group

def Update.apply (t : HotTable α) (u : Update α) : HotTable α :=
  (updateHotIncompletePath u.params t).1

/-- The batch applied to the hot table: its groups in sorted order, each by the conditional
update. -/
def deliver (t : HotTable α) (d : Delivery α) : HotTable α :=
  (sortGroups (groupHot d.batch)).foldl
    (fun t group => (updateHotIncompletePath (hotParams d.args group) t).1) t

/-- The statements of a batch, in order. -/
def Delivery.updates (d : Delivery α) : List (Update α) :=
  (sortGroups (groupHot d.batch)).map fun group =>
    ⟨d.args, rowsOf group.naturalKey d.batch, group⟩

lemma deliver_eq (t : HotTable α) (d : Delivery α) :
    deliver t d = d.updates.foldl Update.apply t := by
  rw [Delivery.updates, List.foldl_map]
  rfl

lemma Update.apply_eq (t : HotTable α) (u : Update α) : u.apply t = t.update u.params :=
  updateHotIncompletePath_fst u.params t

lemma groupOf_updates {d : Delivery α} {u : Update α} (h : u ∈ d.updates) :
    groupOf u.rows = some u.group := by
  obtain ⟨group, hg, rfl⟩ := List.mem_map.mp h
  exact mem_groupHot.mp ((List.mem_insertionSort _).mp hg)

/-! ### Marked values -/

/-- A value and the event time of the row that supplied it, if an event did. -/
structure Supplied (α : Type) where
  value : α
  time : WithBot Timestamp

def mapRow (f : α → β) (row : EventRow α) : EventRow β :=
  { row with hotContributions := row.hotContributions.map f }

/-- The row with its contributions marked by its own event time. -/
def marked (row : EventRow α) : EventRow (Supplied α) :=
  mapRow (fun v => ⟨v, (row.eventTs : Timestamp)⟩) row

def mapArgs (f : α → β) (a : WriteArgs α) : WriteArgs β :=
  ⟨a.event, a.loaded, a.disChannel, f a.taxTreatment⟩

/-- The delivery with its rows marked. -/
def Delivery.marked (d : Delivery α) : Delivery (Supplied α) :=
  ⟨mapArgs (fun v => ⟨v, ⊥⟩) d.args, d.batch.map EventTime.marked⟩

/-! ### The merge does not look at the values -/

def mapGroup (f : α → β) (g : HotGroup α) : HotGroup β :=
  { g with projected := g.projected.map f }

def mapHotRow (f : α → β) (row : HotRow α) : HotRow β := { row with cells := f ∘ row.cells }

def mapParams (f : α → β) (p : HotParams α) : HotParams β :=
  { p with taxTreatment := f p.taxTreatment, projected := p.projected.map f }

def mapTable (f : α → β) (t : HotTable α) : HotTable β :=
  ⟨t.rows.map (mapHotRow f), by
    rw [List.map_map]
    exact t.uq_sscp_natural_key⟩

lemma mergeColumns_map (f : α → β) (newer : Bool) (p c : Dict String α) :
    mergeColumns newer (p.map f) (c.map f) = (mergeColumns newer p c).map f := by
  unfold mergeColumns
  change (c.entries.map fun e => (e.1, f e.2)).foldl _ _ = _
  rw [List.foldl_map]
  induction c.entries generalizing p with
  | nil => rfl
  | cons e l ih =>
    rw [List.foldl_cons, List.foldl_cons, ← ih, Dict.get?_map, Option.isNone_map]
    split
    · rw [Dict.map_set]
    · rfl

lemma absorb_map (f : α → β) (g : HotGroup α) (row : EventRow α) :
    (mapGroup f g).absorb (mapRow f row) = mapGroup f (g.absorb row) := by
  unfold HotGroup.absorb mapGroup mapRow
  dsimp only
  rw [mergeColumns_map]
  split <;> rfl

lemma groupStep_map (f : α → β) (groups : Dict NaturalKey (HotGroup α)) (row : EventRow α) :
    groupStep (groups.map (mapGroup f)) (mapRow f row) =
      (groupStep groups row).map (mapGroup f) := by
  have hkey : (mapRow f row).naturalKey = row.naturalKey := rfl
  unfold groupStep
  rw [hkey, Dict.get?_map]
  cases groups.get? row.naturalKey with
  | none => exact (Dict.map_set (mapGroup f) groups row.naturalKey (HotGroup.ofRow row)).symm
  | some g =>
    dsimp only [Option.map_some]
    rw [Dict.map_set, absorb_map]

lemma groupHot_map (f : α → β) (batch : List (EventRow α)) :
    groupHot (batch.map (mapRow f)) = (groupHot batch).map (mapGroup f) := by
  have hfold : ∀ d : Dict NaturalKey (HotGroup α),
      (batch.map (mapRow f)).foldl groupStep (d.map (mapGroup f)) =
        (batch.foldl groupStep d).map (mapGroup f) := by
    induction batch with
    | nil => exact fun _ => rfl
    | cons row batch ih =>
      intro d
      rw [List.map_cons, List.foldl_cons, groupStep_map, ih, List.foldl_cons]
  unfold groupHot
  have h := hfold Dict.empty
  change (batch.map (mapRow f)).foldl groupStep Dict.empty = _ at h
  rw [h]
  simp [Dict.values, Dict.map]

lemma sortGroups_map (f : α → β) (groups : List (HotGroup α)) :
    sortGroups (groups.map (mapGroup f)) = (sortGroups groups).map (mapGroup f) :=
  (List.map_insertionSort (fun a b => keyLe (hotSortKey a) (hotSortKey b))
    (fun a b => keyLe (hotSortKey a) (hotSortKey b)) (mapGroup f) groups
    fun _ _ _ _ => Iff.rfl).symm

lemma update_map (f : α → β) (t : HotTable α) (p : HotParams α) :
    (mapTable f t).update (mapParams f p) = mapTable f (t.update p) := by
  apply HotTable.ext_rows
  simp only [HotTable.update, HotTable.mapRows, mapTable, List.map_map]
  refine List.map_congr_left fun row _ => ?_
  simp only [Function.comp_apply, HotParams.updateRow]
  have hiff : ((mapHotRow f row).key = (mapParams f p).key ∧
      (mapParams f p).notOlder (mapHotRow f row)) ↔ (row.key = p.key ∧ p.notOlder row) := Iff.rfl
  by_cases h : row.key = p.key ∧ p.notOlder row
  · rw [if_pos (hiff.mpr h), if_pos h]
    unfold HotParams.write mapHotRow mapParams
    congr 1
    funext c
    simp only [Dict.get?_map, Function.comp_apply]
    cases p.projected.get? c <;> rfl
  · rw [if_neg fun h' => h (hiff.mp h'), if_neg h]

def Delivery.map (f : α → β) (d : Delivery α) : Delivery β :=
  ⟨mapArgs f d.args, d.batch.map (mapRow f)⟩

lemma deliver_map (f : α → β) (t : HotTable α) (d : Delivery α) :
    deliver (mapTable f t) (d.map f) = mapTable f (deliver t d) := by
  unfold deliver Delivery.map
  simp only [updateHotIncompletePath_fst]
  rw [groupHot_map, sortGroups_map, List.foldl_map]
  induction sortGroups (groupHot d.batch) generalizing t with
  | nil => rfl
  | cons g gs ih =>
    have hp : hotParams (mapArgs f d.args) (mapGroup f g) = mapParams f (hotParams d.args g) := rfl
    rw [List.foldl_cons, List.foldl_cons, hp, update_map, ih]

lemma map_marked (d : Delivery α) : d.marked.map Supplied.value = d := by
  unfold Delivery.map Delivery.marked
  have hrow : mapRow Supplied.value ∘ marked = (id : EventRow α → EventRow α) := by
    funext row
    have hc : (row.hotContributions.map fun v => (⟨v, (row.eventTs : Timestamp)⟩ : Supplied α)).map
        Supplied.value = row.hotContributions := by
      simp [Dict.map, Function.comp_def]
    simp [marked, mapRow, hc]
  simp [List.map_map, hrow, mapArgs]

/-- **The marked run, with the marks forgotten, is the run.** -/
theorem value_foldl_deliver (ds : List (Delivery α)) (t : HotTable (Supplied α)) :
    mapTable Supplied.value ((ds.map Delivery.marked).foldl deliver t) =
      ds.foldl deliver (mapTable Supplied.value t) := by
  induction ds generalizing t with
  | nil => rfl
  | cons d ds ih =>
    rw [List.map_cons, List.foldl_cons, ih, ← deliver_map, map_marked, List.foldl_cons]

/-! ### Event time wins -/

/-- No column of a row is left with a value from an older event than it had. -/
def NeverOlder (t t' : HotTable (Supplied α)) : Prop :=
  ∀ k row, t.find? k = some row →
    ∃ row', t'.find? k = some row' ∧ ∀ c, (row.cells c).time ≤ (row'.cells c).time

/-- What keeps a statement from overwriting a newer value: it finds no row, or all the rows
of its key are older than the row's stamp, or the rows cover each column they assert at the
event time of the value stored there. -/
def Covered (t : HotTable (Supplied α)) (u : Update (Supplied α)) : Prop :=
  ∀ row, t.find? u.params.key = some row →
    (∃ r ∈ u.rows, ∀ l ∈ row.lastSourceEventAt, l ≤ r.eventTs) →
      ∀ c (w : Timestamp), (row.cells c).time = w → (∃ r ∈ u.rows, r.asserts c) →
        Covers w c u.rows

lemma NeverOlder.refl (t : HotTable (Supplied α)) : NeverOlder t t :=
  fun _ row h => ⟨row, h, fun _ => le_rfl⟩

lemma NeverOlder.trans {t t' t'' : HotTable (Supplied α)} (h : NeverOlder t t')
    (h' : NeverOlder t' t'') : NeverOlder t t'' := by
  intro k row hrow
  obtain ⟨row', hrow', hle⟩ := h k row hrow
  obtain ⟨row'', hrow'', hle'⟩ := h' k row' hrow'
  exact ⟨row'', hrow'', fun c => (hle c).trans (hle' c)⟩

lemma notOlder_params_iff {u : Update α} (hu : groupOf u.rows = some u.group) (row : HotRow α) :
    u.params.notOlder row ↔ ∃ r ∈ u.rows, ∀ l ∈ row.lastSourceEventAt, l ≤ r.eventTs := by
  have hstep : u.params.notOlder row ↔
      ∀ l ∈ row.lastSourceEventAt, l ≤ u.group.lastSourceEventAt := by
    unfold HotParams.notOlder
    cases row.lastSourceEventAt <;> simp [Update.params, hotParams]
  rw [hstep]
  constructor
  · intro h
    obtain ⟨r, hr, hts⟩ := exists_eventTs_eq hu
    exact ⟨r, hr, hts ▸ h⟩
  · rintro ⟨r, hr, h⟩ l hl
    exact (h l hl).trans (eventTs_le_lastSourceEventAt hu hr)

/-- Every contribution carries the event time of its own row. -/
def Marked (rows : List (EventRow (Supplied α))) : Prop :=
  ∀ r ∈ rows, ∀ c v, r.hotContributions.get? c = some v → v.time = (r.eventTs : Timestamp)

lemma time_write {u : Update (Supplied α)} (hu : groupOf u.rows = some u.group)
    (hm : Marked u.rows) (row : HotRow (Supplied α)) (c : String) :
    ((u.params.write row).cells c).time =
      match supplier c u.rows with
      | none => (row.cells c).time
      | some s => (s.eventTs : Timestamp) := by
  have hproj : u.params.projected.get? c = _ := get?_projected_groupOf hu c
  simp only [HotParams.write, hproj]
  cases hs : supplier c u.rows with
  | none => rfl
  | some s =>
    obtain ⟨v, hv⟩ := Option.isSome_iff_exists.mp (asserts_supplier hs)
    simp [hv, hm s (mem_of_supplier hs) c v hv]

lemma time_le_updateRow_iff {u : Update (Supplied α)} (hu : groupOf u.rows = some u.group)
    (hm : Marked u.rows) {row : HotRow (Supplied α)} (hk : row.key = u.params.key) :
    (∀ c, (row.cells c).time ≤ ((u.params.updateRow row).cells c).time) ↔
      ((∃ r ∈ u.rows, ∀ l ∈ row.lastSourceEventAt, l ≤ r.eventTs) →
        ∀ c (w : Timestamp), (row.cells c).time = w → (∃ r ∈ u.rows, r.asserts c) →
          Covers w c u.rows) := by
  rw [← notOlder_params_iff hu]
  unfold HotParams.updateRow
  by_cases hno : u.params.notOlder row
  · rw [if_pos ⟨hk, hno⟩]
    simp only [hno, forall_const]
    refine forall_congr' fun c => ?_
    rw [time_write hu hm]
    -- a column that no row of the batch supplies keeps its time
    cases hs : supplier c u.rows with
    | none =>
      have hnone : ¬ ∃ r ∈ u.rows, r.asserts c = true := by
        rw [← exists_supplier_iff]
        simp [hs]
      simp [hnone]
    | some s =>
      have hsome : ∃ r ∈ u.rows, r.asserts c = true := exists_supplier_iff.mp ⟨s, hs⟩
      simp only [hsome, forall_const, covers_iff hs]
      cases (row.cells c).time with
      | bot => simp
      | coe w => simp
  · rw [if_neg fun h => hno h.2]
    simp [hno]

lemma neverOlder_apply_iff {u : Update (Supplied α)} (hu : groupOf u.rows = some u.group)
    (hm : Marked u.rows) (t : HotTable (Supplied α)) :
    NeverOlder t (u.apply t) ↔ Covered t u := by
  unfold NeverOlder Covered
  rw [u.apply_eq]
  simp only [find?_update]
  constructor
  · intro h row hrow
    obtain ⟨row', hrow', hle⟩ := h _ row hrow
    rw [hrow, Option.map_some, Option.some.injEq] at hrow'
    subst hrow'
    exact (time_le_updateRow_iff hu hm (key_of_find? hrow)).mp hle
  · intro h k row hrow
    refine ⟨u.params.updateRow row, by rw [hrow]; rfl, ?_⟩
    by_cases hk : row.key = u.params.key
    · have hfind : t.find? u.params.key = some row := by
        rw [← hk, key_of_find? hrow, hrow]
      exact (time_le_updateRow_iff hu hm hk).mpr (h row hfind)
    · intro c
      rw [HotParams.updateRow, if_neg fun h' => hk h'.1]

lemma marked_updates {ds : List (Delivery α)} {u : Update (Supplied α)}
    (h : u ∈ (ds.map Delivery.marked).flatMap Delivery.updates) :
    groupOf u.rows = some u.group ∧ Marked u.rows := by
  obtain ⟨d', hd', hu⟩ := List.mem_flatMap.mp h
  obtain ⟨d, _, rfl⟩ := List.mem_map.mp hd'
  refine ⟨groupOf_updates hu, ?_⟩
  obtain ⟨g, _, rfl⟩ := List.mem_map.mp hu
  intro r hr c v hv
  obtain ⟨row, _, rfl⟩ := List.mem_map.mp (List.mem_of_mem_filter hr)
  rw [marked, mapRow, Dict.get?_map] at hv
  obtain ⟨x, _, rfl⟩ := Option.map_eq_some_iff.mp hv
  rfl

lemma neverOlder_deliveries {ds : List (Delivery (Supplied α))} {t : HotTable (Supplied α)}
    (h : Along Update.apply (fun t u => NeverOlder t (u.apply t))
      (ds.flatMap Delivery.updates) t) :
    Along deliver (fun t d => NeverOlder t (deliver t d)) ds t := by
  induction ds generalizing t with
  | nil => trivial
  | cons d ds ih =>
    rw [List.flatMap_cons, along_append] at h
    rw [along_cons, deliver_eq]
    exact ⟨Along.chain NeverOlder.refl NeverOlder.trans h.1, ih h.2⟩

/-- **Event time wins as long as every statement is covered.** Over any run of marked
batches from any table: the statements are all covered exactly when none of them leaves a
column with a value from an older event, and then no batch does. -/
theorem event_time_wins_iff_covered (t : HotTable (Supplied α)) (ds : List (Delivery α)) :
    (Along Update.apply Covered ((ds.map Delivery.marked).flatMap Delivery.updates) t ↔
      Along Update.apply (fun t u => NeverOlder t (u.apply t))
        ((ds.map Delivery.marked).flatMap Delivery.updates) t) ∧
    (Along Update.apply Covered ((ds.map Delivery.marked).flatMap Delivery.updates) t →
      Along deliver (fun t d => NeverOlder t (deliver t d)) (ds.map Delivery.marked) t) := by
  have hiff : Along Update.apply Covered ((ds.map Delivery.marked).flatMap Delivery.updates) t ↔
      Along Update.apply (fun t u => NeverOlder t (u.apply t))
        ((ds.map Delivery.marked).flatMap Delivery.updates) t :=
    along_congr _ (fun t u hu =>
      (neverOlder_apply_iff (marked_updates hu).1 (marked_updates hu).2 t).symm) t
  exact ⟨hiff, fun h => neverOlder_deliveries (hiff.mp h)⟩

/-! ### The same in terms of the stamp -/

/-- No value is from a later event than its row's stamp. -/
def Settled (t : HotTable (Supplied α)) : Prop :=
  ∀ k row, t.find? k = some row → ∀ c, (row.cells c).time ≤ register.stamp row

/-- The rows of a statement that is not declined cover each column at the row's stamp. -/
def CoveredAtStamp (t : HotTable (Supplied α)) (u : Update (Supplied α)) : Prop :=
  ∀ row, t.find? u.params.key = some row →
    (∃ r ∈ u.rows, ∀ l ∈ row.lastSourceEventAt, l ≤ r.eventTs) →
      ∀ c, ∀ l ∈ row.lastSourceEventAt, (∃ r ∈ u.rows, r.asserts c) → Covers l c u.rows

lemma settled_apply {u : Update (Supplied α)} (hu : groupOf u.rows = some u.group)
    (hm : Marked u.rows) {t : HotTable (Supplied α)} (ht : Settled t) : Settled (u.apply t) := by
  intro k row' hrow' c
  rw [u.apply_eq, find?_update] at hrow'
  obtain ⟨row, hrow, rfl⟩ := Option.map_eq_some_iff.mp hrow'
  have hold := ht k row hrow c
  rw [updateRow_eq]
  split
  · rcases le_or_gt (register.stamp row)
        ((register.time u.params : Timestamp) : WithBot Timestamp) with h | h
    · rw [register.offer_of_le h, register.stamp_write]
      change ((u.params.write row).cells c).time ≤ _
      rw [time_write hu hm]
      cases hs : supplier c u.rows with
      | none => exact hold.trans h
      | some s =>
        exact WithBot.coe_le_coe.mpr (eventTs_le_lastSourceEventAt hu (mem_of_supplier hs))
    · rwa [register.offer_of_lt h]
  · exact hold

lemma covered_of_coveredAtStamp {u : Update (Supplied α)} {t : HotTable (Supplied α)}
    (ht : Settled t) (h : CoveredAtStamp t u) : Covered t u := by
  intro row hrow hnot c w hw hc
  have hle := ht _ row hrow c
  rw [hw] at hle
  cases hl : row.lastSourceEventAt with
  | none =>
    have hbot : register.stamp row = ⊥ := hl
    rw [hbot] at hle
    exact absurd hle (by simp)
  | some l =>
    have hstamp : register.stamp row = ((l : Timestamp) : WithBot Timestamp) := hl
    rw [hstamp, WithBot.coe_le_coe] at hle
    rcases h row hrow hnot c l hl hc with ⟨r, hr, hrc, hlr⟩ | ⟨f, hf, hlf⟩
    · exact Or.inl ⟨r, hr, hrc, hle.trans hlr⟩
    · exact Or.inr ⟨f, hf, hle.trans hlf⟩

/-- **Covering the stamps is enough.** A run whose statements cover the stamps they meet
never leaves a column with a value from an older event. -/
theorem neverOlder_of_coveredAtStamp {t : HotTable (Supplied α)} (ht : Settled t)
    {ds : List (Delivery α)}
    (h : Along Update.apply CoveredAtStamp
      ((ds.map Delivery.marked).flatMap Delivery.updates) t) :
    Along deliver (fun t d => NeverOlder t (deliver t d)) (ds.map Delivery.marked) t := by
  apply neverOlder_deliveries
  have hus : ∀ u ∈ (ds.map Delivery.marked).flatMap Delivery.updates,
      groupOf u.rows = some u.group ∧ Marked u.rows := fun u hu => marked_updates hu
  revert h hus
  -- along the run the table stays settled, which turns each condition into the exact one
  induction (ds.map Delivery.marked).flatMap Delivery.updates generalizing t with
  | nil => exact fun _ _ => trivial
  | cons u us ih =>
    intro h hus
    obtain ⟨hu, hm⟩ := hus u List.mem_cons_self
    exact ⟨(neverOlder_apply_iff hu hm t).mpr (covered_of_coveredAtStamp ht h.1),
      ih (settled_apply hu hm ht) h.2 fun v hv => hus v (List.mem_cons_of_mem _ hv)⟩

/-! ### A newer price lost -/

/-- The event time of the value a column of a row holds. -/
def timeOf (t : HotTable (Supplied α)) (k : HotKey) (c : String) : Option (WithBot Timestamp) :=
  (t.find? k).map fun row => (row.cells c).time

lemma NeverOlder.timeOf_le {t t' : HotTable (Supplied α)} (h : NeverOlder t t') {k : HotKey}
    {c : String} {a b : WithBot Timestamp} (ha : timeOf t k c = some a)
    (hb : timeOf t' k c = some b) : a ≤ b := by
  obtain ⟨row, hrow, rfl⟩ := Option.map_eq_some_iff.mp ha
  obtain ⟨row', hrow', hle⟩ := h k row hrow
  obtain ⟨row'', hrow'', rfl⟩ := Option.map_eq_some_iff.mp hb
  rw [hrow', Option.some.injEq] at hrow''
  exact hrow'' ▸ hle c

/-- A price of event time 15. -/
def newerPrice : Delivery Cell :=
  ⟨saleArgs none, [rowAt "sku" 15 0 [("current_retail_price", some (.int 9))]]⟩

/-- A price of event time 10 in one batch with a cost of event time 20. -/
def olderPriceRiding : Delivery Cell :=
  ⟨saleArgs none, [rowAt "sku" 10 0 [("current_retail_price", some (.int 5))],
    rowAt "sku" 20 1 [("unit_cost", some (.int 3))]]⟩

/-- An older row's price rides a newer row's event time over a newer price. -/
theorem older_price_overwrites_newer :
    ¬ ∀ (t : HotTable (Supplied Cell)) (ds : List (Delivery Cell)),
      Along deliver (fun t d => NeverOlder t (deliver t d)) (ds.map Delivery.marked) t := by
  intro h
  let t : HotTable (Supplied Cell) := tableOf "sku" ⟨none, ⊥⟩
  let k : HotKey := (.ofNat 2, .ofNat 3, "sku", "", "")
  have hrun := (h t [newerPrice, olderPriceRiding]).2.1
  have hbefore : timeOf (deliver t newerPrice.marked) k "current_retail_price" =
      some ((15 : Timestamp) : WithBot Timestamp) := by decide
  have hafter : timeOf (deliver (deliver t newerPrice.marked) olderPriceRiding.marked) k
      "current_retail_price" = some ((10 : Timestamp) : WithBot Timestamp) := by decide
  have hle := NeverOlder.timeOf_le hrun hbefore hafter
  exact absurd hle (by decide)

end CortexDis.EventTime
