import CortexDis.CanonicalShape
import CortexDis.EventRows
import CortexDis.HotWrites
import CortexDis.Sql

/-!
The `CHECK` constraints of the hot table under event batches.

Each projected column is guarded twice, by its event table and by the hot table, and not by
the same conditions. A sale asserts a promotion without its price, and the hot table pairs
them; a change asserts a number its own table does not look at.
-/

namespace CortexDis.HotChecks

open CortexDis.PyDict CortexDis.Stamped CortexDis.Values CortexDis.GroupHot CortexDis.HotSink
open CortexDis.Canonical CortexDis.WriteChunk CortexDis.HotWrites CortexDis.EventRows
open CortexDis.Bronze CortexDis.Catalogue CortexDis.Sql CortexDis.Frames

/-! ### The constraints -/

/-- A value as a `numeric(_, scale)` column stores it. A value of another type has no number:
the driver refuses it before any `CHECK`. -/
def numericOf (scale : ℕ) : Value → Option Numeric
  | .int n => some (.finite (n * 10 ^ scale))
  | .decimal unscaled s => some (.finite (roundHalfAway (unscaled * 10 ^ scale) (10 ^ s)))
  | .number (.finite negative c e) =>
    some (.finite (roundHalfAway (PyDecimal.signed negative c * 10 ^ (scale + e.toNat))
      (10 ^ (-e).toNat)))
  | .number (.infinity negative) => some (if negative then .negInfinity else .infinity)
  | .number (.nan ..) => some .nan
  | _ => none

def num (scale : ℕ) (cell : Cell) : Option Numeric := cell.bind (numericOf scale)

/-- A number of the constraint, in the column's units. -/
def lit (scale : ℕ) (n : ℤ) : Option Numeric := some (.finite (n * 10 ^ scale))

/-- `x >= 0` -/
def nonNegative (scale : ℕ) (x : Cell) : Truth := Sql.le (lit scale 0) (num scale x)

/-- `x IS NULL OR x >= 0` -/
def nullOrNonNegative (scale : ℕ) (x : Cell) : Truth := (isNull x).or (nonNegative scale x)

/-- `x IS NULL OR (x >= 0 AND x <= n)` -/
def nullOrUpTo (scale : ℕ) (n : ℤ) (x : Cell) : Truth :=
  (isNull x).or ((nonNegative scale x).and (Sql.le (num scale x) (lit scale n)))

/-- The constraints of `store_sku_current_position`, by name. -/
def hotChecks (row : HotRow Cell) : List (String × Truth) :=
  [("ck_sscp_sku_variant_not_empty", Sql.compare (· ≠ ·) row.naturalKey.2.1 (some "")),
    ("ck_sscp_sku_lot_batch_not_empty", Sql.compare (· ≠ ·) row.naturalKey.2.2 (some "")),
    ("ck_sscp_current_retail_price_non_negative", nonNegative 4 (row.cells "current_retail_price")),
    ("ck_sscp_unit_cost_non_negative", nonNegative 4 (row.cells "unit_cost")),
    ("ck_sscp_promo_price_non_negative", nullOrNonNegative 4 (row.cells "promo_price")),
    ("ck_sscp_stock_qty_non_negative", nullOrNonNegative 3 (row.cells "stock_qty")),
    ("ck_sscp_lead_time_non_negative", nullOrNonNegative 0 (row.cells "lead_time_days")),
    ("ck_sscp_reorder_point_non_negative", nullOrNonNegative 3 (row.cells "reorder_point")),
    ("ck_sscp_expiry_confidence_range", nullOrUpTo 2 1 (row.cells "expiry_confidence")),
    ("ck_sscp_expiry_triple_pairing",
      ((isNull (row.cells "expiry_date")).and ((isNull (row.cells "expiry_source")).and
        (isNull (row.cells "expiry_confidence")))).or
      ((isNotNull (row.cells "expiry_date")).and ((isNotNull (row.cells "expiry_source")).and
        (isNotNull (row.cells "expiry_confidence"))))),
    ("ck_sscp_promo_identifier_requires_price",
      (isNull (row.cells "promo_identifier")).or (isNotNull (row.cells "promo_price")))]

/-- The row satisfies every constraint of the hot table. -/
def Satisfies (row : HotRow Cell) : Prop := ∀ check ∈ hotChecks row, check.2.Passes

instance (row : HotRow Cell) : Decidable (Satisfies row) :=
  inferInstanceAs (Decidable (∀ check ∈ hotChecks row, check.2.Passes))

/-- `(ts AT TIME ZONE 'UTC')::date` -/
def utcDate (ts : Cell) : Cell := (datetimeOf ts).map fun t => .date (t / 86400000000)

/-- The constraints of `store_sku_sale_events`. -/
def saleChecks (cells : String → Cell) : List (String × Truth) :=
  [("ck_ssse_event_subtype_vocab",
      isIn (cells "event_subtype") [.str "SALE", .str "RETURN", .str "VOID"]),
    ("ck_ssse_unit_retail_price_non_negative", nonNegative 4 (cells "unit_retail_price")),
    ("ck_ssse_unit_sale_price_non_negative", nonNegative 4 (cells "unit_sale_price")),
    ("ck_ssse_unit_sale_price_le_retail",
      Sql.le (num 4 (cells "unit_sale_price")) (num 4 (cells "unit_retail_price"))),
    ("ck_ssse_unit_cost_non_negative", nullOrNonNegative 4 (cells "unit_cost")),
    ("ck_ssse_discount_amount_non_negative", nullOrNonNegative 4 (cells "discount_amount")),
    ("ck_ssse_discount_pct_range", nullOrUpTo 2 100 (cells "discount_pct")),
    ("ck_ssse_tax_amount_non_negative", nullOrNonNegative 4 (cells "tax_amount")),
    ("ck_ssse_line_item_seq_positive",
      (isNull (cells "line_item_seq")).or (Sql.lt (lit 0 0) (num 0 (cells "line_item_seq")))),
    ("ck_ssse_return_void_quantity_sign",
      ((isIn (cells "event_subtype") [.str "SALE"]).and
        (Sql.lt (lit 3 0) (num 3 (cells "quantity")))).or
      ((isIn (cells "event_subtype") [.str "RETURN", .str "VOID"]).and
        (Sql.lt (num 3 (cells "quantity")) (lit 3 0)))),
    ("ck_ssse_event_date_matches_sale_timestamp",
      Sql.compare (· = ·) (cells "event_date") (utcDate (cells "source_sale_timestamp")))]

/-- The constraints of `store_sku_change_events`. -/
def changeChecks (cells : String → Cell) : List (String × Truth) :=
  [("ck_ssce_event_category_vocab",
      isIn (cells "event_category") [.str "INVENTORY", .str "PRICE", .str "COST",
        .str "REGULATORY", .str "STATUS", .str "CATALOGUE", .str "OTHER"]),
    ("ck_ssce_event_date_matches_source_ts",
      Sql.compare (· = ·) (cells "event_date") (utcDate (cells "source_event_timestamp"))),
    ("ck_ssce_effective_until_after_from",
      (isNull (cells "effective_until")).or ((isNull (cells "effective_from")).or
        (Sql.compare (fun a b => decide (b < a)) (datetimeOf (cells "effective_until"))
          (datetimeOf (cells "effective_from"))))),
    ("ck_ssce_at_least_one_value_present",
      (isNotNull (cells "value_before")).or (isNotNull (cells "value_after")))]

/-- The event row satisfies every constraint of its own table. -/
def EventSatisfies (model : TargetModel) (cells : String → Cell) : Prop :=
  match model with
  | .storeSkuSaleEvent => ∀ check ∈ saleChecks cells, check.2.Passes
  | _ => ∀ check ∈ changeChecks cells, check.2.Passes

instance (model : TargetModel) (cells : String → Cell) : Decidable (EventSatisfies model cells) :=
  match model with
  | .storeSkuSaleEvent => inferInstanceAs (Decidable (∀ check ∈ saleChecks cells, check.2.Passes))
  | .storeSkuChangeEvent =>
    inferInstanceAs (Decidable (∀ check ∈ changeChecks cells, check.2.Passes))
  | .storeSkuCurrentPosition =>
    inferInstanceAs (Decidable (∀ check ∈ changeChecks cells, check.2.Passes))

/-- The row of the event insert. -/
def stored (model : TargetModel) (row : EventRow Cell) : String → Cell :=
  (EventRecord.ofRow model 0 row).cells

/-! ### One write -/

/-- The guarded numbers an event can assert, with the scales of their columns. -/
def guardedColumns : List (String × ℕ) :=
  [("current_retail_price", 4), ("unit_cost", 4), ("stock_qty", 3)]

/-- The guarded numbers of a write pass their constraints. -/
def NumbersPass (p : HotParams Cell) : Prop :=
  ∀ e ∈ guardedColumns, ∀ cell, p.projected.get? e.1 = some cell → (nonNegative e.2 cell).Passes

/-- A write that asserts a promotion goes to a row with a promotion price. -/
def PromoPaired (row : HotRow Cell) (p : HotParams Cell) : Prop :=
  p.projected.get? "promo_identifier" ≠ none → row.cells "promo_price" ≠ none

/-- The write asserts values, and of event columns only. -/
def FromEvents (p : HotParams Cell) : Prop :=
  ∀ c cell, p.projected.get? c = some cell → c ∈ eventContendableHotColumns ∧ cell ≠ none

lemma cells_write_of_not_mem {p : HotParams Cell} (hp : FromEvents p) (row : HotRow Cell)
    {c : String} (hc : c ∉ eventContendableHotColumns) : (p.write row).cells c = row.cells c := by
  cases hget : p.projected.get? c with
  | none => simp [HotParams.write, hget]
  | some cell => exact absurd (hp c cell hget).1 hc

lemma passes_cells_write (check : Cell → Truth) (p : HotParams Cell) {row : HotRow Cell}
    {c : String} (hrow : (check (row.cells c)).Passes) :
    (check ((p.write row).cells c)).Passes ↔
      ∀ cell, p.projected.get? c = some cell → (check cell).Passes := by
  cases hget : p.projected.get? c with
  | none => simp [HotParams.write, hget, hrow]
  | some cell => simp [HotParams.write, hget]

lemma passes_nullOrNonNegative (scale : ℕ) (x : Cell) :
    (nullOrNonNegative scale x).Passes ↔ (nonNegative scale x).Passes := by
  rw [nullOrNonNegative, passes_or, passes_isNull, or_iff_right_iff_imp]
  rintro rfl
  exact passes_compare_null_right Numeric.le (lit scale 0)

lemma passes_promo_write {p : HotParams Cell} (hp : FromEvents p) {row : HotRow Cell}
    (hrow : ((isNull (row.cells "promo_identifier")).or
      (isNotNull (row.cells "promo_price"))).Passes) :
    ((isNull ((p.write row).cells "promo_identifier")).or
      (isNotNull (row.cells "promo_price"))).Passes ↔ PromoPaired row p := by
  simp only [passes_or, passes_isNull, passes_isNotNull, PromoPaired] at hrow ⊢
  cases hget : p.projected.get? "promo_identifier" with
  | none => simpa [HotParams.write, hget] using hrow
  | some cell => simp [HotParams.write, hget, (hp _ _ hget).2]

/-- **What one write does to the constraints**: only the guarded numbers and the promotion
pairing can fail. -/
lemma satisfies_write_iff {p : HotParams Cell} (hp : FromEvents p) {row : HotRow Cell}
    (hrow : Satisfies row) : Satisfies (p.write row) ↔ NumbersPass p ∧ PromoPaired row p := by
  have hkey : (p.write row).naturalKey = row.naturalKey := rfl
  have hpromoPrice := cells_write_of_not_mem hp row (c := "promo_price") (by decide)
  have hleadTime := cells_write_of_not_mem hp row (c := "lead_time_days") (by decide)
  have hreorder := cells_write_of_not_mem hp row (c := "reorder_point") (by decide)
  have hdate := cells_write_of_not_mem hp row (c := "expiry_date") (by decide)
  have hsource := cells_write_of_not_mem hp row (c := "expiry_source") (by decide)
  have hconfidence := cells_write_of_not_mem hp row (c := "expiry_confidence") (by decide)
  simp only [Satisfies, hotChecks, List.forall_mem_cons, List.not_mem_nil, false_imp_iff,
    forall_const, and_true, hkey, hpromoPrice, hleadTime, hreorder, hdate, hsource,
    hconfidence] at hrow ⊢
  obtain ⟨hvariant, hlot, hprice, hcost, hpp, hstock, hlead, hre, hconf, htriple, hpair⟩ := hrow
  rw [passes_cells_write (nonNegative 4) p hprice, passes_cells_write (nonNegative 4) p hcost,
    passes_cells_write (nullOrNonNegative 3) p hstock]
  simp only [passes_nullOrNonNegative] at hpp hlead hre ⊢
  have hpromo := passes_promo_write hp hpair
  rw [hpromo, NumbersPass]
  simp only [guardedColumns, List.forall_mem_cons, List.not_mem_nil, false_imp_iff,
    forall_const, and_true]
  constructor
  · rintro ⟨-, -, h1, h2, -, h3, -, -, -, -, h4⟩
    exact ⟨⟨h1, h2, h3⟩, h4⟩
  · rintro ⟨⟨h1, h2, h3⟩, h4⟩
    exact ⟨hvariant, hlot, h1, h2, hpp, h3, hlead, hre, hconf, htriple, h4⟩

/-! ### What event rows assert -/

lemma of_saleContributions {payload : Payload} {c : String} {cell : Cell}
    (h : (saleContributions payload).get? c = some cell) :
    ∃ e ∈ saleHotProjection, e.2 = c ∧ field payload e.1 = cell ∧ cell ≠ none := by
  obtain ⟨e, he, hmap⟩ := List.mem_filterMap.mp (Dict.mem_of_get?_ofList h)
  obtain ⟨v, hv, hpair⟩ := Option.map_eq_some_iff.mp hmap
  cases hpair
  exact ⟨e, he, rfl, hv, by simp⟩

lemma of_changeContributions {L : RowLibs} {payload : Payload} {c : String} {cell : Cell}
    (h : (changeContributions L payload).get? c = some cell) :
    c ∈ changeHotProjection.map Prod.snd ∧ cell ≠ none := by
  unfold changeContributions at h
  split at h
  · split at h
    · cases h
    · rename_i hotColumn hlookup
      dsimp only at h
      split at h
      · cases h
      · have hmem := Dict.mem_of_get?_ofList h
        cases List.mem_singleton.mp hmem
        exact ⟨List.mem_map.mpr ⟨_, mem_of_lookup hlookup, rfl⟩, by simp⟩
  · cases h

variable {L : RowLibs}

lemma of_hotContributions {model : TargetModel} {payload : Payload} {c : String} {cell : Cell}
    (h : (hotContributions L model payload).get? c = some cell) :
    c ∈ eventContendableHotColumns ∧ cell ≠ none := by
  unfold hotContributions at h
  rw [eventContendableHotColumns, List.mem_append]
  split at h
  · obtain ⟨e, he, hc, -, hcell⟩ := of_saleContributions h
    exact ⟨.inl (List.mem_map.mpr ⟨e, he, hc⟩), hcell⟩
  · exact ⟨.inr (of_changeContributions h).1, (of_changeContributions h).2⟩

lemma exists_row_of_projected {a : WriteArgs Cell} {batch : List (EventRow Cell)}
    {p : HotParams Cell} (hp : p ∈ hotUpdates a batch) {c : String} {cell : Cell}
    (hget : p.projected.get? c = some cell) :
    ∃ row ∈ batch, row.hotContributions.get? c = some cell := by
  obtain ⟨g, hg, rfl⟩ := List.mem_map.mp hp
  have hgroup := mem_groupHot.mp ((List.mem_insertionSort _).mp hg)
  have hproj : g.projected.get? c = some cell := hget
  rw [get?_projected_groupOf hgroup, Option.bind_eq_some_iff] at hproj
  obtain ⟨row, hrow, hcell⟩ := hproj
  exact ⟨row, List.mem_of_mem_filter (mem_of_supplier hrow), hcell⟩

/-- The row's contribution is that of its payload, and a sale's parameters keep the payload's
columns. -/
structure Built (L : RowLibs) (model : TargetModel) (row : EventRow Cell) : Prop where
  contributions : row.hotContributions = hotContributions L model row.payload
  payload : model = .storeSkuSaleEvent → ∀ e ∈ saleHotProjection,
    stored model row e.1 = field row.payload e.1

lemma built_of_buildEventRow {event : Envelope.IngressReadyEvent} {bronze : BronzeMeta}
    {loaded : LoadedMapping} {tax : Option String} {i index : ℕ} {payload : Payload}
    {row : EventRow Cell}
    (h : buildEventRow L event bronze loaded tax i payload index = .ok row) :
    Built L loaded.targetModel row := by
  obtain ⟨ts, hts, h⟩ := Runs.of_bind_eq_ok h
  obtain ⟨params, hparams, h⟩ := Runs.of_bind_eq_ok h
  split at h
  · cases h
  · cases h
    refine ⟨rfl, fun hsale e he => ?_⟩
    rw [rowParams, if_pos hsale] at hparams
    cases hparams
    have hinsert : ∀ e ∈ saleHotProjection, e.1 ∈ insertColumns .storeSkuSaleEvent := by decide
    have hinjected : ∀ e ∈ saleHotProjection, e.1 ∉ ["id", "tenant_id", "store_id", "source_id",
        "source_event_id", "mapping_version_id", "trace_id", "dis_channel", "ingest_metadata"] := by
      decide
    have htax : ∀ e ∈ saleHotProjection, "tax_treatment" ≠ e.1 := by decide
    rw [stored, EventRecord.ofRow, hsale]
    dsimp only
    rw [if_pos (hinsert e he), Dict.get?_set_ne _ _ (htax e he),
      Dict.get?_update_of_not_mem _ (hinjected e he)]
    rfl

lemma built_of_mem {event : Envelope.IngressReadyEvent} {bronze : BronzeMeta}
    {loaded : LoadedMapping} {result : ApplyMapping.MappingResult} {tax : Option String}
    {rows : List (EventRow Cell)}
    (h : buildEventRows L event bronze loaded result tax = .ok rows) {row : EventRow Cell}
    (hrow : row ∈ rows) : Built L loaded.targetModel row := by
  obtain ⟨built, hbuilt, h⟩ := Runs.of_bind_eq_ok h
  split at h
  · cases h
  · cases h
    obtain ⟨e, -, he⟩ := Runs.exists_of_mem_mapM hbuilt row hrow
    exact built_of_buildEventRow he

variable {a : WriteArgs Cell} {batch : List (EventRow Cell)}

lemma fromEvents_of_mem {model : TargetModel} (hbuilt : ∀ row ∈ batch, Built L model row)
    {p : HotParams Cell} (hp : p ∈ hotUpdates a batch) : FromEvents p := by
  intro c cell hget
  obtain ⟨row, hrow, hcell⟩ := exists_row_of_projected hp hget
  rw [(hbuilt row hrow).contributions] at hcell
  exact of_hotContributions hcell

lemma nonNegative_of_sale {cells : String → Cell}
    (h : EventSatisfies .storeSkuSaleEvent cells) {e : String × ℕ} (he : e ∈ guardedColumns)
    {e' : String × String} (he' : e' ∈ saleHotProjection) (hcol : e'.2 = e.1) :
    (nonNegative e.2 (cells e'.1)).Passes := by
  have hprice := h ("ck_ssse_unit_retail_price_non_negative",
    nonNegative 4 (cells "unit_retail_price")) (by simp [saleChecks])
  have hcost := h ("ck_ssse_unit_cost_non_negative", nullOrNonNegative 4 (cells "unit_cost"))
    (by simp [saleChecks])
  rw [passes_nullOrNonNegative] at hcost
  simp only [guardedColumns, saleHotProjection, List.mem_cons, List.not_mem_nil, or_false] at he he'
  rcases he with rfl | rfl | rfl <;> rcases he' with rfl | rfl | rfl | rfl
  all_goals first
    | exact hprice
    | exact hcost
    | exact absurd hcol (by decide)

lemma numbersPass_of_sale (hbuilt : ∀ row ∈ batch, Built L .storeSkuSaleEvent row)
    (hevent : ∀ row ∈ batch,
      EventSatisfies .storeSkuSaleEvent (stored .storeSkuSaleEvent row))
    {p : HotParams Cell} (hp : p ∈ hotUpdates a batch) : NumbersPass p := by
  intro e he cell hget
  obtain ⟨row, hrow, hcell⟩ := exists_row_of_projected hp hget
  rw [(hbuilt row hrow).contributions] at hcell
  obtain ⟨e', he', hcol, hfield, -⟩ := of_saleContributions hcell
  have hpass := nonNegative_of_sale (hevent row hrow) he he' hcol
  rwa [(hbuilt row hrow).payload rfl e' he', hfield] at hpass

lemma promoPaired_of_change {model : TargetModel} (hmodel : model ≠ .storeSkuSaleEvent)
    (hbuilt : ∀ row ∈ batch, Built L model row) {p : HotParams Cell}
    (hp : p ∈ hotUpdates a batch) (row : HotRow Cell) : PromoPaired row p := by
  intro hget
  obtain ⟨cell, hcell⟩ := Option.ne_none_iff_exists'.mp hget
  obtain ⟨event, hevent, hasserts⟩ := exists_row_of_projected hp hcell
  rw [(hbuilt event hevent).contributions, hotContributions, if_neg hmodel] at hasserts
  exact absurd (of_changeContributions hasserts).1 (by decide)

/-! ### A batch -/

/-- The statements of the groups through the update path, in order. -/
def applyGroups (a : WriteArgs Cell) (gs : List (HotGroup Cell)) (t : HotTable Cell) :
    HotTable Cell :=
  gs.foldl (fun t g => (updateHotIncompletePath (hotParams a g) t).1) t

lemma applyGroups_eq (a : WriteArgs Cell) (gs : List (HotGroup Cell)) (t : HotTable Cell) :
    applyGroups a gs t = (gs.map (hotParams a)).foldl HotTable.update t := by
  rw [applyGroups, List.foldl_map]
  simp only [updateHotIncompletePath_fst]

lemma forall_rows_take_iff {I : HotRow Cell → Prop} (ps : List (HotParams Cell))
    (t : HotTable Cell) :
    (∀ n, ∀ row ∈ ((ps.take n).foldl HotTable.update t).rows, I row) ↔
      ∀ row ∈ t.rows, ∀ us, us <+: ps.filter (fun p => row.key = p.key) →
        I (register.run us row) := by
  simp only [rows_foldl_update, List.forall_mem_map]
  constructor
  · intro h row hrow us hus
    obtain ⟨vs, hvs⟩ := hus
    obtain ⟨l₁, l₂, rfl, hl₁, -⟩ := List.filter_eq_append_iff.mp hvs.symm
    have hn := h l₁.length row hrow
    rw [List.take_left] at hn
    rwa [hl₁] at hn
  · intro h n row hrow
    exact h row hrow _ ((List.take_prefix n ps).filter _)

/-- What a write must not do to a row: a sale must not assert a promotion where the row has no
promotion price, and a change must not assert a negative number. -/
def Admits (model : TargetModel) (row : HotRow Cell) (p : HotParams Cell) : Prop :=
  if model = .storeSkuSaleEvent then PromoPaired row p else NumbersPass p

/-- The statements of a batch that rewrite the row: those not older than its stamp and than
the statements of its key before them. -/
def rewrites (a : WriteArgs Cell) (batch : List (EventRow Cell)) (row : HotRow Cell) :
    List (HotParams Cell) :=
  register.accepted (register.stamp row) ((hotUpdates a batch).filter fun p => row.key = p.key)

lemma satisfies_iff_admits {model : TargetModel} (hbuilt : ∀ row ∈ batch, Built L model row)
    (hevent : ∀ row ∈ batch, EventSatisfies model (stored model row)) {t : HotTable Cell}
    (ht : ∀ row ∈ t.rows, Satisfies row) :
    (∀ n, ∀ row ∈ (applyGroups a ((sortGroups (groupHot batch)).take n) t).rows, Satisfies row) ↔
      ∀ row ∈ t.rows, ∀ p ∈ rewrites a batch row, Admits model row p := by
  simp only [applyGroups_eq, List.map_take]
  rw [forall_rows_take_iff]
  refine forall₂_congr fun row hrow => ?_
  -- no event column is a promotion price, so the row keeps the one it has
  refine register.invariant_iff_accepted (J := fun r => r.cells "promo_price" =
    row.cells "promo_price") (fun r p hp hJ hr => ?_) (fun r p hp hJ => ?_) rfl (ht row hrow)
  · have hmem := List.mem_of_mem_filter hp
    have hfrom := fromEvents_of_mem hbuilt hmem
    have hpaired : PromoPaired r p ↔ PromoPaired row p := by
      rw [PromoPaired, PromoPaired, hJ]
    rw [show register.write p r = p.write r from rfl, satisfies_write_iff hfrom hr, hpaired, Admits]
    split
    · rename_i hsale
      subst hsale
      exact and_iff_right (numbersPass_of_sale hbuilt hevent hmem)
    · rename_i hsale
      exact and_iff_left (promoPaired_of_change hsale hbuilt hmem row)
  · have hmem := List.mem_of_mem_filter hp
    exact (cells_write_of_not_mem (fromEvents_of_mem hbuilt hmem) r (by decide)).trans hJ

/-- **The hot constraints hold after every statement of a batch exactly when every statement
that rewrites a row is admitted by it**: for a sale, a promotion only where the row has a
promotion price; for a change, no negative price, cost or stock. -/
theorem hot_checks_hold_iff (L : RowLibs) (a : WriteArgs Cell) (bronze : BronzeMeta)
    (result : ApplyMapping.MappingResult) (tax : Option String) {rows batch : List (EventRow Cell)}
    (hrows : buildEventRows L a.event bronze a.loaded result tax = .ok rows)
    (hbatch : batch ⊆ rows)
    (hevent : ∀ row ∈ batch,
      EventSatisfies a.loaded.targetModel (stored a.loaded.targetModel row))
    {t : HotTable Cell} (ht : ∀ row ∈ t.rows, Satisfies row) :
    (∀ n, ∀ row ∈ (applyGroups a ((sortGroups (groupHot batch)).take n) t).rows, Satisfies row) ↔
      ∀ row ∈ t.rows, ∀ p ∈ rewrites a batch row, Admits a.loaded.targetModel row p :=
  satisfies_iff_admits (fun _ hrow => built_of_mem hrows (hbatch hrow)) hevent ht

/-! ### A sale under a promotion -/

/-- Libraries whose answers the samples do not depend on. -/
def plainLibs : RowLibs where
  decimalDigit _ := none
  strValue _ := ""
  dumps _ := .ok ""
  isoformat _ := ""
  canonicalRowHash _ := ""
  newUuid7 := .ofNat

/-- A column of one cell. -/
def single (dtype : DType) (v : Value) : Series := ⟨dtype, [some v]⟩

/-- One sale, at its list price, under a promotion. -/
def promoColumns : List (String × Series) :=
  [("event_date", single .date (.date 0)), ("sku_id", single .string (.str "A")),
    ("event_subtype", single .string (.str "SALE")),
    ("source_sale_timestamp", single .datetimeUtc (.datetime 0)),
    ("quantity", single (.decimal 14 3) (.decimal 1000 3)),
    ("unit_retail_price", single (.decimal 12 4) (.decimal 20000 4)),
    ("unit_sale_price", single (.decimal 12 4) (.decimal 20000 4)),
    ("currency", single .string (.str "USD")), ("promo_identifier", single .string (.str "P"))]

def promoResult : ApplyMapping.MappingResult := ⟨⟨1, Dict.ofList promoColumns⟩, [0], []⟩

def promoArgs : WriteArgs Cell :=
  let args := saleArgs (some (Value.str "INCLUSIVE"))
  { args with loaded := { args.loaded with source :=
    ⟨1, Dict.ofList (promoColumns.map fun e => (e.1, e.1)), Dict.empty, Dict.empty, Dict.empty⟩ } }

def promoBronze : BronzeMeta := ⟨.ofNat 5, "pos", "csv", "gs://bronze/chunk", 100, none⟩

def promoRows : List (EventRow Cell) :=
  ((buildEventRows plainLibs promoArgs.event promoBronze promoArgs.loaded promoResult
    (some "INCLUSIVE")).toOption).getD []

/-- A table of one row, with the given promotion columns. -/
def promoTable (promotion : List (String × Value)) : HotTable Cell :=
  ⟨[{ tenantId := .ofNat 2, storeId := .ofNat 3, naturalKey := ("A", none, none)
      cells := fun c => lookup c ([("product_name", .str "tea"),
        ("current_retail_price", .decimal 20000 4), ("tax_treatment", .str "INCLUSIVE"),
        ("currency", .str "USD")] ++ promotion)
      lastSourceEventAt := none, lineage := ⟨1, .ofNat 1, "csv", none⟩ }], by simp⟩

lemma promoRows_built : buildEventRows plainLibs promoArgs.event promoBronze promoArgs.loaded
    promoResult (some "INCLUSIVE") = .ok promoRows := rfl

lemma promoRows_satisfy : ∀ row ∈ promoRows,
    EventSatisfies .storeSkuSaleEvent (stored .storeSkuSaleEvent row) := by
  decide +kernel

theorem promoted_sale_keeps_checks :
    promoRows.length = 1 ∧
      ∀ n, ∀ row ∈ (applyGroups promoArgs ((sortGroups (groupHot promoRows)).take n)
        (promoTable [("promo_price", .decimal 15000 4)])).rows, Satisfies row := by
  refine ⟨rfl, (hot_checks_hold_iff plainLibs promoArgs promoBronze promoResult
    (some "INCLUSIVE") promoRows_built (List.Subset.refl _) promoRows_satisfy
    (by decide +kernel)).mpr ?_⟩
  intro row hrow p _ _
  cases List.mem_singleton.mp hrow
  simp [lookup]

/-- A sale that passed the gate and its own table's constraints, on a row without a promotion
price: the hot row it would leave fails its constraint. -/
theorem promoted_sale_breaks_checks :
    ¬ ∀ (L : RowLibs) (a : WriteArgs Cell) (bronze : BronzeMeta)
      (result : ApplyMapping.MappingResult) (tax : Option String)
      (rows batch : List (EventRow Cell)) (t : HotTable Cell),
      CanonicalShape.runPostValidation a.loaded result.contribution = .ok true →
      buildEventRows L a.event bronze a.loaded result tax = .ok rows →
      batch ⊆ rows →
      (∀ row ∈ batch, EventSatisfies a.loaded.targetModel (stored a.loaded.targetModel row)) →
      (∀ row ∈ t.rows, Satisfies row) →
      ∀ row ∈ (applyGroups a (sortGroups (groupHot batch)) t).rows, Satisfies row := by
  intro h
  have hgate : CanonicalShape.runPostValidation promoArgs.loaded promoResult.contribution =
      .ok true := rfl
  have hafter := h plainLibs promoArgs promoBronze promoResult (some "INCLUSIVE") promoRows
    promoRows (promoTable []) hgate promoRows_built (List.Subset.refl _) promoRows_satisfy
    (by decide +kernel)
  revert hafter
  decide +kernel

end CortexDis.HotChecks
