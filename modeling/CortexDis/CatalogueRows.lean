import CortexDis.ReportTruth

/-!
What a catalogue chunk leaves in each hot row.

All statements of a chunk carry the receive time of its file, so a row takes all of its own or
none. The sort inside a batch is stable, so those of one key run in the order of the chunk, and
the last one has the last word on every column it sets. `attribute_staleness_map` is such a
column: the new map takes the place of the old one as a whole.
-/

namespace CortexDis.CatalogueRows

open CortexDis.PyDict CortexDis.Stamped CortexDis.RowLocks CortexDis.Values CortexDis.GroupHot
open CortexDis.HotSink CortexDis.Canonical CortexDis.WriteChunk CortexDis.Catalogue
open CortexDis.Freshness CortexDis.ReportTruth

/-- The snapshot rows of a chunk that have the key. -/
def keyPayloads (a : WriteArgs Cell) (k : HotKey) (result : MappingResult) : List Payload :=
  result.contribution.filter fun payload => catalogueKey a payload = k

/-- What a snapshot row sets. -/
def projectedOf (a : WriteArgs Cell) (payload : Payload) : Dict String Cell :=
  (catalogueGroup a.event payload 0).projected

/-- The parameters of the statements for a key, in the order of the chunk. -/
def keyWrites (a : WriteArgs Cell) (k : HotKey) (groups : List (HotGroup Cell)) :
    List (HotParams Cell) :=
  (groups.map (catalogueParams a)).filter fun p => p.key = k

lemma catalogueGroups_ok {event : Envelope.IngressReadyEvent} {result : MappingResult}
    {groups : List (HotGroup Cell)} (h : catalogueGroups event result = .ok groups) :
    result.contribution.length = result.sourceRowIndices.length ∧
      groups = (result.contribution.zip result.sourceRowIndices).map fun e =>
        catalogueGroup event e.1 e.2 := by
  unfold catalogueGroups at h
  split at h
  · cases h
  · rename_i hlen
    split at h
    · cases h
    · cases h
      exact ⟨not_not.mp hlen, rfl⟩

lemma catalogueGroups_of_ok {a : WriteArgs Cell} {n : ℕ} {txs : ℕ → WriteChunk.Tx}
    {result : MappingResult} {db : Db} {report : WriteReport}
    (h : (writeCatalogueChunk a n txs result db).2 = .ok report) :
    ∃ groups, catalogueGroups a.event result = .ok groups := by
  unfold writeCatalogueChunk at h
  split at h
  · cases h
  · rename_i groups hg
    exact ⟨groups, hg⟩

lemma filter_key_of_find? {t : HotTable Cell} {k : HotKey} {row : HotRow Cell}
    (h : t.find? k = some row) : t.rows.filter (fun r => r.key = k) = [row] := by
  have hmem : ∀ r ∈ t.rows.filter (fun r => r.key = k), r = row := by
    intro r hr
    obtain ⟨hr, hk⟩ := List.mem_filter.mp hr
    have hfind := find?_of_mem hr
    rw [of_decide_eq_true hk, h] at hfind
    exact (Option.some.inj hfind).symm
  have hin : row ∈ t.rows.filter fun r => r.key = k :=
    List.mem_filter.mpr ⟨List.mem_of_find?_eq_some h, decide_eq_true (key_of_find? h)⟩
  exact eq_singleton_of_nodup ((List.Nodup.of_map _ t.uq_sscp_natural_key).filter _) hin hmem

/-! ### The statements of a key -/

lemma find?_foldl_runStmt (ps : List (HotParams Cell)) (t : HotTable Cell) (k : HotKey) :
    ((ps.map fun p => (⟨true, p⟩ : Stmt _)).foldl runStmt t).find? k =
      (ps.filter fun p => p.key = k).foldl settle (t.find? k) := by
  induction ps generalizing t with
  | nil => rfl
  | cons p ps ih =>
    rw [List.map_cons, List.foldl_cons, ih, find?_runStmt]
    by_cases hk : p.key = k
    · rw [if_pos hk, List.filter_cons_of_pos (by simpa using hk), List.foldl_cons]
    · rw [if_neg hk, List.filter_cons_of_neg (by simpa using hk)]

lemma keyWrites_sortGroups (a : WriteArgs Cell) (k : HotKey) (groups : List (HotGroup Cell)) :
    keyWrites a k (sortGroups groups) = keyWrites a k groups := by
  unfold keyWrites
  rw [List.filter_map, List.filter_map]
  congr 1
  by_cases hk : a.event.tenantId = k.1 ∧ a.event.storeId = k.2.1
  · have hkey : ∀ g : HotGroup Cell, (catalogueParams a g).key = k ↔ hotSortKey g = k.2.2 := by
      intro g
      constructor
      · rintro rfl
        rfl
      · intro hs
        exact Prod.ext hk.1 (Prod.ext hk.2 hs)
    simp only [Function.comp_def, hkey]
    exact filter_hotSortKey_sortGroups groups k.2.2
  · have hkey : ∀ g : HotGroup Cell, ¬ (catalogueParams a g).key = k := by
      rintro g rfl
      exact hk ⟨rfl, rfl⟩
    simp [Function.comp_def, hkey]

/-- **A catalogue chunk, key by key**: whatever the batch size, the row of a key sees the
statements for the key in the order of the chunk. -/
lemma find?_writeCatalogueChunk (a : WriteArgs Cell) {n : ℕ} (hn : 1 ≤ n)
    (txs : ℕ → WriteChunk.Tx) {result : MappingResult} {groups : List (HotGroup Cell)}
    (hg : catalogueGroups a.event result = .ok groups) (db : Db) {report : WriteReport}
    (h : (writeCatalogueChunk a n txs result db).2 = .ok report) (k : HotKey) :
    (writeCatalogueChunk a n txs result db).1.hot.find? k =
      (keyWrites a k groups).foldl settle (db.hot.find? k) := by
  have hstmts : catalogueStatements a n groups =
      ((batches groups n).flatMap fun b => (sortGroups b).map (catalogueParams a)).map
        fun p => ⟨true, p⟩ := by
    rw [catalogueStatements, List.map_flatMap]
    refine List.flatMap_congr fun b _ => ?_
    rw [Batch.program, List.map_map]
    rfl
  have hkey : ((batches groups n).flatMap fun b => (sortGroups b).map (catalogueParams a)).filter
      (fun p => p.key = k) = keyWrites a k groups := by
    rw [List.filter_flatMap]
    calc (batches groups n).flatMap (fun b => keyWrites a k (sortGroups b))
        = (batches groups n).flatMap (keyWrites a k) :=
          List.flatMap_congr fun b _ => keyWrites_sortGroups a k b
      _ = keyWrites a k (batches groups n).flatten := by
          unfold keyWrites
          rw [List.map_flatten, List.filter_flatten, List.map_map]
          rfl
      _ = keyWrites a k groups := by rw [flatten_batches groups hn]
  rw [writeCatalogueChunk_hot a n txs hg db h, hstmts, find?_foldl_runStmt, hkey]

lemma map_projected_keyWrites {a : WriteArgs Cell} {result : MappingResult}
    {groups : List (HotGroup Cell)} (hg : catalogueGroups a.event result = .ok groups)
    (k : HotKey) :
    (keyWrites a k groups).map (·.projected) = (keyPayloads a k result).map (projectedOf a) := by
  obtain ⟨hlen, rfl⟩ := catalogueGroups_ok hg
  have hfst := List.map_fst_zip hlen.le
  calc (keyWrites a k ((result.contribution.zip result.sourceRowIndices).map fun e =>
        catalogueGroup a.event e.1 e.2)).map (·.projected)
      = ((result.contribution.zip result.sourceRowIndices).filter
          fun e => catalogueKey a e.1 = k).map fun e => projectedOf a e.1 := by
        rw [keyWrites, List.map_map, List.filter_map, List.map_map]
        rfl
    _ = (((result.contribution.zip result.sourceRowIndices).map Prod.fst).filter
          fun payload => catalogueKey a payload = k).map (projectedOf a) := by
        rw [List.filter_map, List.map_map]
        rfl
    _ = (keyPayloads a k result).map (projectedOf a) := by rw [hfst, keyPayloads]

lemma lastSourceEventAt_keyWrites {a : WriteArgs Cell} {result : MappingResult}
    {groups : List (HotGroup Cell)} (hg : catalogueGroups a.event result = .ok groups)
    {k : HotKey} {p : HotParams Cell} (hp : p ∈ keyWrites a k groups) :
    p.lastSourceEventAt = a.event.receivedTs := by
  obtain ⟨-, rfl⟩ := catalogueGroups_ok hg
  obtain ⟨hp, -⟩ := List.mem_filter.mp hp
  obtain ⟨g, hg, rfl⟩ := List.mem_map.mp hp
  obtain ⟨e, -, rfl⟩ := List.mem_map.mp hg
  rfl

/-! ### Statements that are all taken -/

/-- The row, if any, is not later than the time. -/
def NotAfter (ts : Timestamp) (row? : Option (HotRow Cell)) : Prop :=
  ∀ row ∈ row?, ∀ l ∈ row.lastSourceEventAt, l ≤ ts

lemma offer_of_notAfter {p : HotParams Cell} {row : HotRow Cell}
    (h : ∀ l ∈ row.lastSourceEventAt, l ≤ p.lastSourceEventAt) :
    register.offer p row = p.write row := by
  have hno : p.notOlder row := by
    unfold HotParams.notOlder
    cases hl : row.lastSourceEventAt with
    | none => exact Or.inl rfl
    | some l => exact Or.inr ⟨l, rfl, h l hl⟩
  rw [register.offer_of_le ((notOlder_iff p row).mp hno)]
  rfl

lemma settle_of_notAfter {ts : Timestamp} {row? : Option (HotRow Cell)} (h : NotAfter ts row?)
    {p : HotParams Cell} (hp : p.lastSourceEventAt = ts) :
    ∃ row, settle row? p = some row ∧ row.lastSourceEventAt = some ts ∧
      ∀ c v, p.projected.get? c = some v → row.cells c = v := by
  cases row? with
  | none =>
    refine ⟨p.newRow, rfl, congrArg some hp, fun c v hv => ?_⟩
    change (p.projected.get? c).getD _ = v
    rw [hv]
    rfl
  | some row =>
    refine ⟨p.write row, ?_, congrArg some hp, fun c v hv => ?_⟩
    · rw [settle, offer_of_notAfter (hp ▸ h row rfl)]
    · change (p.projected.get? c).getD _ = v
      rw [hv]
      rfl

lemma notAfter_foldl_settle {ts : Timestamp} {ps : List (HotParams Cell)}
    (hps : ∀ p ∈ ps, p.lastSourceEventAt = ts) {row? : Option (HotRow Cell)}
    (h : NotAfter ts row?) : NotAfter ts (ps.foldl settle row?) := by
  induction ps generalizing row? with
  | nil => exact h
  | cons p ps ih =>
    refine ih (fun q hq => hps q (List.mem_cons_of_mem _ hq)) ?_
    obtain ⟨row, hrow, hlast, -⟩ := settle_of_notAfter h (hps p List.mem_cons_self)
    rw [hrow]
    intro r hr l hl
    cases hr
    rw [hlast] at hl
    cases hl
    exact le_rfl

/-! ### The columns a snapshot row sets -/

/-- The columns that a snapshot row stamps. -/
def stampColumns (payload : Payload) : List String :=
  ((Dict.ofList (catalogueProjection payload)).keys.filter
    fun c => c ∈ catalogueStalenessColumns).insertionSort (· ≤ ·)

lemma projectedOf_eq (a : WriteArgs Cell) (payload : Payload) :
    projectedOf a payload =
      if stampColumns payload = [] then Dict.ofList (catalogueProjection payload)
      else (Dict.ofList (catalogueProjection payload)).set "attribute_staleness_map"
        (some (.stamps ((stampColumns payload).map fun c => (c, a.event.receivedTs)))) := rfl

lemma entries_projection (payload : Payload) :
    (Dict.ofList (catalogueProjection payload)).entries = catalogueProjection payload :=
  Dict.entries_ofList (payload.nodup.sublist (List.filter_sublist.map _))

lemma mem_projection {payload : Payload} {c : String} {v : Cell} :
    (c, v) ∈ catalogueProjection payload ↔ payload.get? c = some v ∧
      c ∈ currentPositionMappingProduced ++ enrichmentFields ∧ c ∉ hotNaturalKeyCols := by
  unfold catalogueProjection
  rw [List.mem_filter, Dict.mem_entries]
  simp

lemma get?_projection {payload : Payload} {c : String} {v : Cell} :
    (Dict.ofList (catalogueProjection payload)).get? c = some v ↔ payload.get? c = some v ∧
      c ∈ currentPositionMappingProduced ++ enrichmentFields ∧ c ∉ hotNaturalKeyCols := by
  rw [← Dict.mem_entries, entries_projection, mem_projection]

lemma get?_projectedOf (a : WriteArgs Cell) {payload : Payload} {c : String} {v : Cell}
    (hc : c ∈ currentPositionMappingProduced ++ enrichmentFields) (hkey : c ∉ hotNaturalKeyCols)
    (hv : payload.get? c = some v) : (projectedOf a payload).get? c = some v := by
  have hmap : ∀ c ∈ currentPositionMappingProduced ++ enrichmentFields,
      "attribute_staleness_map" ≠ c := by decide
  rw [projectedOf_eq]
  split
  · exact get?_projection.mpr ⟨hv, hc, hkey⟩
  · rw [Dict.get?_set_ne _ _ (hmap c hc)]
    exact get?_projection.mpr ⟨hv, hc, hkey⟩

/-- **The last row wins, whatever the batch size**: when no stored row of the chunk's keys is
later than the file, each key has exactly one row after the chunk, and it has in every column
that the write sets the value of the key's last snapshot row. -/
theorem last_row_wins (a : WriteArgs Cell) {n : ℕ} (hn : 1 ≤ n) (txs : ℕ → WriteChunk.Tx)
    {result : MappingResult} {db : Db}
    (hstored : ∀ payload ∈ result.contribution,
      StoredBy db.hot (catalogueKey a payload) a.event.receivedTs)
    {report : WriteReport} (h : (writeCatalogueChunk a n txs result db).2 = .ok report) :
    (∀ us payload vs, result.contribution = us ++ payload :: vs →
      (∀ v ∈ vs, catalogueKey a v ≠ catalogueKey a payload) →
      ∃ row, (writeCatalogueChunk a n txs result db).1.hot.rows.filter
          (fun r => r.key = catalogueKey a payload) = [row] ∧
        row.lastSourceEventAt = some a.event.receivedTs ∧
        (∀ c ∈ currentPositionMappingProduced ++ enrichmentFields, c ∉ hotNaturalKeyCols →
          ∀ v, payload.get? c = some v → row.cells c = v) ∧
        ∀ c v, (projectedOf a payload).get? c = some v → row.cells c = v) ∧
    ∀ m txs' report', 1 ≤ m → (writeCatalogueChunk a m txs' result db).2 = .ok report' →
      ∀ k, (writeCatalogueChunk a m txs' result db).1.hot.find? k =
        (writeCatalogueChunk a n txs result db).1.hot.find? k := by
  obtain ⟨groups, hg⟩ := catalogueGroups_of_ok h
  refine ⟨fun us payload vs hsplit hlast => ?_, fun m txs' report' hm h' k => ?_⟩
  · -- `payload` is the last of its key, so its write is the last that the row of the key sees
    set k := catalogueKey a payload with hk
    have hpayloads : keyPayloads a k result =
        (us.filter fun p => catalogueKey a p = k) ++ [payload] := by
      have hnone : vs.filter (fun p => catalogueKey a p = k) = [] := by
        rw [List.filter_eq_nil_iff]
        intro v hv
        simpa using hlast v hv
      rw [keyPayloads, hsplit, List.filter_append, List.filter_cons_of_pos (by simp [hk]), hnone]
    obtain ⟨before, q, hwrites, hq⟩ : ∃ before q, keyWrites a k groups = before ++ [q] ∧
        q.projected = projectedOf a payload := by
      have hproj := map_projected_keyWrites hg k
      rw [hpayloads, List.map_append, List.map_singleton] at hproj
      obtain ⟨before, last, hsplit', -, hlast'⟩ := List.map_eq_append_iff.mp hproj
      obtain ⟨q, hq, hqp⟩ := List.map_eq_singleton_iff.mp hlast'
      exact ⟨before, q, by rw [hsplit', hq], hqp⟩
    have htime : ∀ p ∈ keyWrites a k groups, p.lastSourceEventAt = a.event.receivedTs :=
      fun p hp => lastSourceEventAt_keyWrites hg hp
    rw [hwrites] at htime
    have hfirst : NotAfter a.event.receivedTs (before.foldl settle (db.hot.find? k)) := by
      refine notAfter_foldl_settle (fun p hp => htime p (List.mem_append_left _ hp)) ?_
      exact hstored payload (by rw [hsplit]; simp)
    obtain ⟨row, hrow, hstamp, hcells⟩ := settle_of_notAfter hfirst (htime q (by simp))
    have hfind := find?_writeCatalogueChunk a hn txs hg db h k
    rw [hwrites, List.foldl_append, List.foldl_cons, List.foldl_nil, hrow] at hfind
    refine ⟨row, filter_key_of_find? hfind, hstamp, fun c hc hkey v hv => ?_, fun c v hv => ?_⟩
    · exact hcells c v (hq ▸ get?_projectedOf a hc hkey hv)
    · exact hcells c v (hq ▸ hv)
  · rw [find?_writeCatalogueChunk a hm txs' hg db h' k,
      find?_writeCatalogueChunk a hn txs hg db h k]

def listed (variant : Cell) (cost : ℤ) : Payload :=
  Dict.ofList [("sku_id", some (.str "A")), ("sku_variant", variant),
    ("unit_cost", some (.int cost))]

/-- An article that the catalogue lists twice, in two spellings of its key. -/
def twice : MappingResult := ⟨[listed none 3, listed (some (.str "")) 4], [0, 1]⟩

/-- The second of the two rows wins, and with one batch of two as with two of one. -/
theorem second_row_wins :
    (∃ row, (writeCatalogueChunk (saleArgs none) 1 committing twice (storedAt 50)).1.hot.rows.filter
        (fun r => r.key = (.ofNat 2, .ofNat 3, "A", "", "")) = [row] ∧
      row.cells "unit_cost" = some (.int 4)) ∧
    (writeCatalogueChunk (saleArgs none) 2 committing twice (storedAt 50)).1.hot.find?
        (.ofNat 2, .ofNat 3, "A", "", "") =
      (writeCatalogueChunk (saleArgs none) 1 committing twice (storedAt 50)).1.hot.find?
        (.ofNat 2, .ofNat 3, "A", "", "") := by
  have hstored : ∀ payload ∈ twice.contribution,
      StoredBy (storedAt 50).hot (catalogueKey (saleArgs none) payload)
        (saleArgs (none : Cell)).event.receivedTs := by
    intro payload hp row hrow l hl
    have hkey : catalogueKey (saleArgs none) payload = (.ofNat 2, .ofNat 3, "A", "", "") := by
      fin_cases hp <;> rfl
    rw [hkey] at hrow
    cases hrow
    cases hl
    decide
  have hreturns : (writeCatalogueChunk (saleArgs none) 1 committing twice (storedAt 50)).2 =
      .ok ⟨0, 2, 2, [], resolveSink .storeSkuCurrentPosition, 0⟩ := rfl
  obtain ⟨hlast, hsize⟩ := last_row_wins (saleArgs none) (by decide) committing hstored hreturns
  refine ⟨?_, hsize 2 committing ⟨0, 2, 1, [], resolveSink .storeSkuCurrentPosition, 0⟩
    (by decide) rfl _⟩
  obtain ⟨row, hrow, -, hcells, -⟩ := hlast [listed none 3] (listed (some (.str "")) 4) [] rfl
    (by simp)
  exact ⟨row, hrow, hcells "unit_cost" (by decide) (by decide) _ rfl⟩

/-! ### The staleness map -/

/-- An entry of `attribute_staleness_map`. -/
def entry (map : Cell) (c : String) : Option Timestamp :=
  match map with
  | some (.stamps members) => lookup c members
  | _ => none

/-- The entry of a hot row's map. -/
def entryOf (row : HotRow Cell) (c : String) : Option Timestamp :=
  entry (row.cells "attribute_staleness_map") c

/-- A catalogue chunk leaves foreign entries alone: in each row that was there, the entries that
no snapshot row of its key stamps; and a snapshot row stamps only columns that it sets, and that
both the catalogue and an event may write. -/
structure LeavesForeign (a : WriteArgs Cell) (result : MappingResult)
    (before after : HotTable Cell) : Prop where
  foreign : ∀ k row, before.find? k = some row → ∃ row', after.find? k = some row' ∧
    ∀ c, (∀ payload ∈ keyPayloads a k result, c ∉ stampColumns payload) →
      entryOf row' c = entryOf row c
  stamped : ∀ payload ∈ result.contribution, ∀ c ts,
    entry ((projectedOf a payload).get? "attribute_staleness_map").join c = some ts →
      c ∈ payload.keys ∧ c ∈ currentPositionMappingProduced ∧ c ∈ eventContendableHotColumns

lemma mem_stampColumns {payload : Payload} {c : String} (h : c ∈ stampColumns payload) :
    c ∈ payload.keys ∧ c ∈ currentPositionMappingProduced ∧ c ∈ eventContendableHotColumns := by
  obtain ⟨hkeys, hstale⟩ := List.mem_filter.mp ((List.mem_insertionSort _).mp h)
  rw [Dict.mem_keys_ofList] at hkeys
  obtain ⟨e, he, rfl⟩ := List.mem_map.mp hkeys
  obtain ⟨he, -⟩ := List.mem_filter.mp he
  obtain ⟨hprod, hevent⟩ := List.mem_filter.mp (of_decide_eq_true hstale)
  exact ⟨List.mem_map_of_mem he, hprod, of_decide_eq_true hevent⟩

lemma get?_projectedOf_map (a : WriteArgs Cell) (payload : Payload) :
    (projectedOf a payload).get? "attribute_staleness_map" =
      if stampColumns payload = [] then none
      else some (some (.stamps
        ((stampColumns payload).map fun c => (c, a.event.receivedTs)))) := by
  have hnone :
      (Dict.ofList (catalogueProjection payload)).get? "attribute_staleness_map" = none := by
    cases hv : (Dict.ofList (catalogueProjection payload)).get? "attribute_staleness_map" with
    | none => rfl
    | some v => exact absurd (get?_projection.mp hv).2.1 (by decide)
  rw [projectedOf_eq]
  split
  · exact hnone
  · exact Dict.get?_set_self _ _ _

lemma lookup_stamps (ts : Timestamp) (cs : List String) (c : String) :
    lookup c (cs.map fun c => (c, ts)) = if c ∈ cs then some ts else none := by
  induction cs with
  | nil => rfl
  | cons x cs ih =>
    rw [List.map_cons, lookup, ih]
    by_cases hx : x = c
    · simp [hx]
    · have hx' : ¬ c = x := fun h => hx h.symm
      simp [hx, hx']

lemma cells_writeAll (ps : List (HotParams Cell)) (row : HotRow Cell) (c : String) :
    (register.writeAll ps row).cells c =
      (((ps.map (·.projected)).reverse.findSome? (·.get? c))).getD (row.cells c) := by
  induction ps generalizing row with
  | nil => rfl
  | cons p ps ih =>
    have hstep : register.writeAll (p :: ps) row = register.writeAll ps (p.write row) := rfl
    rw [hstep, ih, List.map_cons, List.reverse_cons, List.findSome?_append]
    cases (ps.map (·.projected)).reverse.findSome? (·.get? c) with
    | some v => rfl
    | none =>
      change (p.projected.get? c).getD _ = _
      simp

lemma foldl_settle_some (ps : List (HotParams Cell)) (row : HotRow Cell) :
    ps.foldl settle (some row) = some (register.run ps row) := by
  induction ps generalizing row with
  | nil => rfl
  | cons p ps ih => exact ih _

lemma run_eq_writeAll {ts : Timestamp} {ps : List (HotParams Cell)}
    (hps : ∀ p ∈ ps, p.lastSourceEventAt = ts) {row : HotRow Cell}
    (h : ∀ l ∈ row.lastSourceEventAt, l ≤ ts) : register.run ps row = register.writeAll ps row := by
  induction ps generalizing row with
  | nil => rfl
  | cons p ps ih =>
    have hp := hps p List.mem_cons_self
    rw [Register.run_cons, offer_of_notAfter (hp ▸ h)]
    refine ih (fun q hq => hps q (List.mem_cons_of_mem _ hq)) ?_
    intro l hl
    have hl : some p.lastSourceEventAt = some l := hl
    rw [hp] at hl
    cases hl
    exact le_rfl

lemma map_of_taken {a : WriteArgs Cell} {result : MappingResult} {groups : List (HotGroup Cell)}
    (hg : catalogueGroups a.event result = .ok groups) {k : HotKey} {row : HotRow Cell}
    (h : ∀ l ∈ row.lastSourceEventAt, l ≤ a.event.receivedTs) :
    (register.run (keyWrites a k groups) row).cells "attribute_staleness_map" =
      match (keyPayloads a k result).reverse.find? fun payload => stampColumns payload ≠ [] with
      | none => row.cells "attribute_staleness_map"
      | some payload =>
        some (.stamps ((stampColumns payload).map fun c => (c, a.event.receivedTs))) := by
  rw [run_eq_writeAll (fun p hp => lastSourceEventAt_keyWrites hg hp) h, cells_writeAll,
    map_projected_keyWrites hg, ← List.map_reverse]
  induction (keyPayloads a k result).reverse with
  | nil => rfl
  | cons payload payloads ih =>
    rw [List.map_cons, List.findSome?_cons, List.find?_cons, get?_projectedOf_map]
    by_cases hs : stampColumns payload = []
    · simpa [hs] using ih
    · simp [hs]

lemma foreign_iff {a : WriteArgs Cell} {result : MappingResult} {groups : List (HotGroup Cell)}
    (hg : catalogueGroups a.event result = .ok groups) (k : HotKey) (row : HotRow Cell) :
    (∀ c, (∀ payload ∈ keyPayloads a k result, c ∉ stampColumns payload) →
        entryOf (register.run (keyWrites a k groups) row) c = entryOf row c) ↔
      ((∃ l ∈ row.lastSourceEventAt, a.event.receivedTs < l) ∨
        (∀ payload ∈ keyPayloads a k result, stampColumns payload = []) ∨
        ∀ c, entryOf row c ≠ none → ∃ payload ∈ keyPayloads a k result,
          c ∈ stampColumns payload) := by
  -- a row that is later than the file takes none of the writes
  by_cases hlate : ∃ l ∈ row.lastSourceEventAt, a.event.receivedTs < l
  · refine iff_of_true (fun c _ => ?_) (Or.inl hlate)
    obtain ⟨l, hl, hlt⟩ := hlate
    have hstamp : register.stamp row = (l : WithBot Timestamp) := hl
    rw [register.run_of_lt]
    intro p hp
    rw [hstamp]
    have htime : register.time p = a.event.receivedTs := lastSourceEventAt_keyWrites hg hp
    rw [htime]
    exact WithBot.coe_lt_coe.mpr hlt
  · have htaken : ∀ l ∈ row.lastSourceEventAt, l ≤ a.event.receivedTs := fun l hl =>
      not_lt.mp fun hlt => hlate ⟨l, hl, hlt⟩
    have hmap := map_of_taken hg (k := k) htaken
    rw [or_iff_right hlate]
    -- the map that stays is that of the last snapshot row that stamps a column
    cases hfind : (keyPayloads a k result).reverse.find? fun payload =>
      stampColumns payload ≠ [] with
    | none =>
      rw [hfind] at hmap
      have hnone : ∀ payload ∈ keyPayloads a k result, stampColumns payload = [] := by
        intro payload hp
        simpa using List.find?_eq_none.mp hfind payload (List.mem_reverse.mpr hp)
      refine iff_of_true (fun c _ => ?_) (Or.inl hnone)
      rw [entryOf, hmap, entryOf]
    | some last =>
      rw [hfind] at hmap
      have hlast : stampColumns last ≠ [] := by simpa using List.find?_some hfind
      have hmem : last ∈ keyPayloads a k result :=
        List.mem_reverse.mp (List.mem_of_find?_eq_some hfind)
      have hentry : ∀ c, entryOf (register.run (keyWrites a k groups) row) c =
          if c ∈ stampColumns last then some a.event.receivedTs else none := by
        intro c
        rw [entryOf, hmap]
        exact lookup_stamps _ _ c
      constructor
      · intro h
        refine Or.inr fun c hc => ?_
        by_contra hno
        have hforeign : ∀ payload ∈ keyPayloads a k result, c ∉ stampColumns payload :=
          fun payload hp hcp => hno ⟨payload, hp, hcp⟩
        have hkept := h c hforeign
        rw [hentry, if_neg (hforeign last hmem)] at hkept
        exact hc hkept.symm
      · rintro (hall | hall) c hforeign
        · exact absurd (hall last hmem) hlast
        · rw [hentry, if_neg (hforeign last hmem)]
          by_contra hne
          obtain ⟨payload, hp, hc⟩ := hall c (Ne.symm hne)
          exact hforeign payload hp hc

/-- **When a catalogue chunk leaves foreign entries alone**: when each stored row of its keys is
later than the file, or is stamped by no snapshot row, or has no entry but of the columns that the
snapshot rows of its key stamp. -/
theorem leavesForeign_iff (a : WriteArgs Cell) {n : ℕ} (hn : 1 ≤ n) (txs : ℕ → WriteChunk.Tx)
    {result : MappingResult} {db : Db} {report : WriteReport}
    (h : (writeCatalogueChunk a n txs result db).2 = .ok report) :
    LeavesForeign a result db.hot (writeCatalogueChunk a n txs result db).1.hot ↔
      ∀ k row, db.hot.find? k = some row →
        (∃ l ∈ row.lastSourceEventAt, a.event.receivedTs < l) ∨
        (∀ payload ∈ keyPayloads a k result, stampColumns payload = []) ∨
        ∀ c, entryOf row c ≠ none →
          ∃ payload ∈ keyPayloads a k result, c ∈ stampColumns payload := by
  obtain ⟨groups, hg⟩ := catalogueGroups_of_ok h
  have hafter : ∀ k row, db.hot.find? k = some row →
      (writeCatalogueChunk a n txs result db).1.hot.find? k =
        some (register.run (keyWrites a k groups) row) := by
    intro k row hrow
    rw [find?_writeCatalogueChunk a hn txs hg db h k, hrow, foldl_settle_some]
  constructor
  · intro hleaves k row hrow
    obtain ⟨row', hrow', hforeign⟩ := hleaves.foreign k row hrow
    rw [hafter k row hrow] at hrow'
    cases hrow'
    exact (foreign_iff hg k row).mp hforeign
  · intro hall
    refine ⟨fun k row hrow => ⟨_, hafter k row hrow, (foreign_iff hg k row).mpr (hall k row hrow)⟩,
      fun payload _ c ts hc => ?_⟩
    rw [get?_projectedOf_map] at hc
    split at hc
    · cases hc
    · have hlookup : lookup c ((stampColumns payload).map fun c => (c, a.event.receivedTs)) =
          some ts := hc
      rw [lookup_stamps] at hlookup
      split at hlookup
      · exact mem_stampColumns ‹_›
      · cases hlookup

/-- The stored row of sku `A` with the given map. -/
def mapped (members : List (String × Timestamp)) : Db :=
  ⟨⟨[{ tenantId := .ofNat 2, storeId := .ofNat 3, naturalKey := ("A", none, none)
       cells := fun c => if c = "attribute_staleness_map" then some (.stamps members) else none
       lastSourceEventAt := none, lineage := ⟨1, .ofNat 1, "csv", none⟩ }], by simp⟩, fun _ => []⟩

/-- A catalogue that sets a cost removes the entry of a computed attribute. -/
theorem computed_entry_removed :
    ¬ LeavesForeign (saleArgs none) oneArticle (mapped [("velocity_7day", 50)]).hot
      (writeCatalogueChunk (saleArgs none) 1 committing oneArticle
        (mapped [("velocity_7day", 50)])).1.hot := by
  intro hleaves
  obtain ⟨row', hrow', hforeign⟩ := hleaves.foreign (.ofNat 2, .ofNat 3, "A", "", "") _ rfl
  cases hrow'
  have hkept := hforeign "velocity_7day" (by decide)
  revert hkept
  decide

/-- Over a map that has only an entry of the cost, nothing foreign is lost. -/
theorem own_entry_replaced :
    LeavesForeign (saleArgs none) oneArticle (mapped [("unit_cost", 50)]).hot
      (writeCatalogueChunk (saleArgs none) 1 committing oneArticle
        (mapped [("unit_cost", 50)])).1.hot := by
  have hreturns : (writeCatalogueChunk (saleArgs none) 1 committing oneArticle
      (mapped [("unit_cost", 50)])).2 = .ok articleReport := rfl
  refine (leavesForeign_iff (saleArgs none) (by decide) committing hreturns).mpr ?_
  intro k row hrow
  have hmem := List.mem_of_find?_eq_some hrow
  have hk := key_of_find? hrow
  rw [List.mem_singleton.mp hmem] at hk
  subst hk
  refine Or.inr (Or.inr fun c hc => ⟨_, List.mem_singleton.mpr rfl, ?_⟩)
  by_contra hno
  refine hc ?_
  rw [List.mem_singleton.mp hmem]
  have hcost : "unit_cost" ≠ c := by
    rintro rfl
    exact hno (by decide)
  change lookup c [("unit_cost", (50 : Timestamp))] = none
  rw [lookup, if_neg hcost]
  rfl

end CortexDis.CatalogueRows
