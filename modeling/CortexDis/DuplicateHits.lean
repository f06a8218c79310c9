import CortexDis.WriteChunk

/-!
What the duplicate detection of a batch reports.

The query returns the latest prior row of each key of the batch, in the order of the keys. A
first loop files these rows under their keys and a second one looks the batch's rows up; the
second loop takes the hash of the row it looked up, but the trace of the row the first loop
ended with.
-/

namespace CortexDis.DuplicateHits

open CortexDis.PyDict CortexDis.Values CortexDis.GroupHot CortexDis.Envelope CortexDis.WriteChunk

/-! ### The order of the query -/

section Order

variable {α β : Type}

lemma transCmp_comap (cmp : β → β → Ordering) (h : Std.TransCmp cmp) (f : α → β) :
    Std.TransCmp fun a b => cmp (f a) (f b) where
  eq_swap := h.eq_swap
  isLE_trans := h.isLE_trans

lemma transCmp_compareDesc [Ord β] [Std.TransOrd β] :
    Std.TransCmp (compareDesc : Option β → Option β → Ordering) where
  eq_swap := by
    rintro (_ | a) (_ | b)
    · rfl
    · rfl
    · rfl
    · exact Std.OrientedOrd.eq_swap (a := b) (b := a)
  isLE_trans := by
    rintro (_ | a) (_ | b) (_ | c) hab hbc
    case some.some.some => exact Std.TransOrd.isLE_trans (a := c) (b := b) (c := a) hbc hab
    all_goals first | rfl | cases hab | cases hbc

variable (tsColumn : String)

/-- The order of the versions of one key, latest first. -/
def recency (a b : EventRecord) : Ordering :=
  (compareDesc (datetimeOf (a.cells tsColumn)) (datetimeOf (b.cells tsColumn))).then
    ((compare b.lastUpdatedAt a.lastUpdatedAt).then
      (compareDesc (uuidOf (a.cells "id")) (uuidOf (b.cells "id"))))

lemma transCmp_recency : Std.TransCmp (recency tsColumn) := by
  have hts : Std.TransCmp fun a b : EventRecord =>
      compareDesc (datetimeOf (a.cells tsColumn)) (datetimeOf (b.cells tsColumn)) :=
    transCmp_comap _ transCmp_compareDesc fun r : EventRecord => datetimeOf (r.cells tsColumn)
  have hupdated : Std.TransCmp fun a b : EventRecord =>
      compare b.lastUpdatedAt a.lastUpdatedAt :=
    transCmp_comap (fun a b : ℤ => compare b a) inferInstance EventRecord.lastUpdatedAt
  have hid : Std.TransCmp fun a b : EventRecord =>
      compareDesc (uuidOf (a.cells "id")) (uuidOf (b.cells "id")) :=
    transCmp_comap _ transCmp_compareDesc fun r : EventRecord => uuidOf (r.cells "id")
  exact inferInstanceAs (Std.TransCmp (compareLex _ (compareLex _ _)))

variable {d : Driver}

lemma transCmp_priorOrder (hcollate : Std.TransCmp d.collate) :
    Std.TransCmp (priorOrder d tsColumn) := by
  have hkey : Std.TransCmp fun a b : EventRecord =>
      d.collate (textOf (a.cells "source_event_id")) (textOf (b.cells "source_event_id")) :=
    transCmp_comap _ hcollate fun r : EventRecord => textOf (r.cells "source_event_id")
  have hrecency := transCmp_recency tsColumn
  exact inferInstanceAs (Std.TransCmp (compareLex _ (recency tsColumn)))

lemma pairwise_sorted (hcollate : Std.TransCmp d.collate) (rows : List EventRecord) :
    (rows.insertionSort fun a b => priorOrder d tsColumn a b ≠ .gt).Pairwise
      fun a b => priorOrder d tsColumn a b ≠ .gt := by
  have horder := transCmp_priorOrder tsColumn hcollate
  have htotal : Std.Total fun a b : EventRecord => priorOrder d tsColumn a b ≠ .gt := by
    refine ⟨fun a b => ?_⟩
    rw [horder.eq_swap (a := b)]
    cases priorOrder d tsColumn a b <;> simp [Ordering.swap]
  have htrans : IsTrans EventRecord fun a b => priorOrder d tsColumn a b ≠ .gt := by
    refine ⟨fun a b c hab hbc => ?_⟩
    rw [Ne, Ordering.ne_gt_iff_isLE] at hab hbc ⊢
    exact horder.isLE_trans hab hbc
  exact List.pairwise_insertionSort _ rows

end Order

/-! ### The first row of each key -/

lemma mem_distinctOn {rows : List EventRecord} {r : EventRecord} (h : r ∈ distinctOn rows) :
    ∃ us vs, rows = us ++ r :: vs ∧
      ∀ u ∈ us, u.cells "source_event_id" ≠ r.cells "source_event_id" := by
  induction rows with
  | nil => cases h
  | cons s rows ih =>
    rcases List.mem_cons.mp h with rfl | h
    · exact ⟨[], rows, rfl, by simp⟩
    · obtain ⟨h, hne⟩ := List.mem_filter.mp h
      obtain ⟨us, vs, rfl, hus⟩ := ih h
      refine ⟨s :: us, vs, rfl, fun u hu => ?_⟩
      rcases List.mem_cons.mp hu with rfl | hu
      · exact (of_decide_eq_true hne).symm
      · exact hus u hu

lemma exists_mem_distinctOn {rows : List EventRecord} {r : EventRecord} (h : r ∈ rows) :
    ∃ s ∈ distinctOn rows, s.cells "source_event_id" = r.cells "source_event_id" := by
  induction rows with
  | nil => cases h
  | cons s rows ih =>
    by_cases hs : s.cells "source_event_id" = r.cells "source_event_id"
    · exact ⟨s, List.mem_cons_self, hs⟩
    · rcases List.mem_cons.mp h with rfl | h
      · exact absurd rfl hs
      · obtain ⟨t, ht, hkey⟩ := ih h
        have hne : t.cells "source_event_id" ≠ s.cells "source_event_id" := fun heq =>
          hs (heq.symm.trans hkey)
        exact ⟨t, List.mem_cons_of_mem _ (List.mem_filter.mpr ⟨ht, decide_eq_true hne⟩), hkey⟩

/-! ### Prior rows -/

section Prior

variable (event : IngressReadyEvent) (tsColumn : String) (table : List EventRecord)

/-- A row of the key, under the event's tenant, store and source. -/
def IsPrior (key : String) (r : EventRecord) : Prop :=
  r ∈ table ∧ r.cells "tenant_id" = some (.uuid event.tenantId) ∧
    r.cells "store_id" = some (.uuid event.storeId) ∧
    r.cells "source_id" = some (.str event.sourceId) ∧
    r.cells "source_event_id" = some (.str key)

/-- The latest of them, by event time, then `last_updated_at`, then id. -/
def IsLatestPrior (key : String) (r : EventRecord) : Prop :=
  IsPrior event table key r ∧ ∀ s, IsPrior event table key s → recency tsColumn r s ≠ .gt

variable {event tsColumn table} {d : Driver} {batch : List (EventRow Cell)}

lemma mem_priorRows (hcollate : Std.TransCmp d.collate) {r : EventRecord}
    (h : r ∈ priorRows d event tsColumn table batch) :
    ∃ row ∈ batch, IsLatestPrior event tsColumn table row.sourceEventId r := by
  obtain ⟨us, vs, hsplit, hus⟩ := mem_distinctOn h
  have hsorted := pairwise_sorted tsColumn hcollate (table.filter fun r =>
    r.cells "tenant_id" = some (.uuid event.tenantId) ∧
    r.cells "store_id" = some (.uuid event.storeId) ∧
    r.cells "source_id" = some (.str event.sourceId) ∧
    ∃ row ∈ batch, r.cells "source_event_id" = some (.str row.sourceEventId))
  have hmem : ∀ s, s ∈ us ++ r :: vs ↔ s ∈ table ∧
      s.cells "tenant_id" = some (.uuid event.tenantId) ∧
      s.cells "store_id" = some (.uuid event.storeId) ∧
      s.cells "source_id" = some (.str event.sourceId) ∧
      ∃ row ∈ batch, s.cells "source_event_id" = some (.str row.sourceEventId) := by
    intro s
    rw [← hsplit, List.mem_insertionSort, List.mem_filter, decide_eq_true_eq]
  rw [hsplit] at hsorted
  obtain ⟨hr, htenant, hstore, hsource, row, hrow, hkey⟩ := (hmem r).mp (by simp)
  refine ⟨row, hrow, ⟨hr, htenant, hstore, hsource, hkey⟩, ?_⟩
  rintro s ⟨hs, hstenant, hsstore, hssource, hskey⟩
  have hrecency := transCmp_recency tsColumn
  rcases List.mem_append.mp ((hmem s).mpr ⟨hs, hstenant, hsstore, hssource, row, hrow, hskey⟩)
    with hs | hs
  · exact absurd (hskey.trans hkey.symm) (hus s hs)
  · rcases List.mem_cons.mp hs with rfl | hs
    · have hself : recency tsColumn s s = .eq := Std.ReflCmp.compare_self
      rw [hself]
      decide
    · -- rows of one key are equal for the collation
      have hle := (List.pairwise_cons.mp (List.pairwise_append.mp hsorted).2.1).1 s hs
      have hself : d.collate row.sourceEventId row.sourceEventId = .eq :=
        Std.ReflCmp.compare_self
      simp only [priorOrder, hkey, hskey, textOf, hself] at hle
      exact hle

lemma exists_mem_priorRows {row : EventRow Cell} (hrow : row ∈ batch) {s : EventRecord}
    (hs : IsPrior event table row.sourceEventId s) :
    ∃ r ∈ priorRows d event tsColumn table batch,
      r.cells "source_event_id" = some (.str row.sourceEventId) := by
  obtain ⟨hmem, htenant, hstore, hsource, hkey⟩ := hs
  have hsorted : s ∈ (table.filter fun r =>
      r.cells "tenant_id" = some (.uuid event.tenantId) ∧
      r.cells "store_id" = some (.uuid event.storeId) ∧
      r.cells "source_id" = some (.str event.sourceId) ∧
      ∃ row ∈ batch, r.cells "source_event_id" = some (.str row.sourceEventId)).insertionSort
        fun a b => priorOrder d tsColumn a b ≠ .gt := by
    rw [List.mem_insertionSort, List.mem_filter, decide_eq_true_eq]
    exact ⟨hmem, htenant, hstore, hsource, row, hrow, hkey⟩
  obtain ⟨r, hr, hrkey⟩ := exists_mem_distinctOn hsorted
  exact ⟨r, hr, hrkey.trans hkey⟩

lemma find?_priorRows (hcollate : Std.TransCmp d.collate) {row : EventRow Cell} {r : EventRecord}
    (h : (priorRows d event tsColumn table batch).find?
      (fun r => textOf (r.cells "source_event_id") = row.sourceEventId) = some r) :
    IsLatestPrior event tsColumn table row.sourceEventId r := by
  obtain ⟨row', hrow', hlatest⟩ := mem_priorRows hcollate (List.mem_of_find?_eq_some h)
  have hkey : textOf (r.cells "source_event_id") = row.sourceEventId := by
    simpa using List.find?_some h
  rw [hlatest.1.2.2.2.2] at hkey
  rw [← hkey]
  exact hlatest

lemma find?_priorRows_isSome (hcollate : Std.TransCmp d.collate) {row : EventRow Cell}
    (hrow : row ∈ batch) :
    ((priorRows d event tsColumn table batch).find?
      fun r => textOf (r.cells "source_event_id") = row.sourceEventId).isSome ↔
        ∃ s, IsPrior event table row.sourceEventId s := by
  constructor
  · intro h
    obtain ⟨r, hr⟩ := Option.isSome_iff_exists.mp h
    exact ⟨r, (find?_priorRows hcollate hr).1⟩
  · rintro ⟨s, hs⟩
    obtain ⟨r, hr, hkey⟩ := exists_mem_priorRows (d := d) hrow hs
    exact List.find?_isSome.mpr ⟨r, hr, by simp [hkey, textOf]⟩

/-- `id` is the primary key of an event table. -/
def PrimaryKey (table : List EventRecord) : Prop :=
  (∀ r ∈ table, ∃ u, r.cells "id" = some (.uuid u)) ∧
    (table.map fun r => r.cells "id").Nodup

lemma IsLatestPrior.unique (hid : PrimaryKey table) {key : String} {r s : EventRecord}
    (hr : IsLatestPrior event tsColumn table key r)
    (hs : IsLatestPrior event tsColumn table key s) : r = s := by
  have hrecency := transCmp_recency tsColumn
  have hrs := hr.2 s hs.1
  have hsr := hs.2 r hr.1
  rw [hrecency.eq_swap (a := s) (b := r)] at hsr
  have heq : recency tsColumn r s = .eq := by
    cases h : recency tsColumn r s <;> simp_all
  obtain ⟨u, hu⟩ := hid.1 r hr.1.1
  obtain ⟨v, hv⟩ := hid.1 s hs.1.1
  have hids : compare v.bits.toNat u.bits.toNat = .eq := by
    simp only [recency, Ordering.then_eq_eq] at heq
    simpa [hu, hv, uuidOf, compareDesc] using heq.2.2
  have huv : u = v := by
    have hbits : v.bits = u.bits := BitVec.eq_of_toNat_eq (Nat.compare_eq_eq.mp hids)
    cases u
    cases v
    simp_all
  exact List.inj_on_of_nodup_map hid.2 hr.1.1 hs.1.1 (by rw [hu, hv, huv])

end Prior

/-! ### Exact hits -/

section Hits

variable (d : Driver) (event : IngressReadyEvent) (payloadColumns : List String)
  (tsColumn : String) (table : List EventRecord)

/-- The canonical payload of a stored row. -/
def payloadOf (prior : EventRecord) : Dict String Cell :=
  Dict.ofList (payloadColumns.map fun c => (c, d.readBack c (prior.cells c)))

/-- The hit of a row: its own id, hash and index, the trace of the latest prior row of its own
key, and the kind by that row's hash. -/
def IsHit (row : EventRow Cell) (hit : DuplicateHit) : Prop :=
  hit.sourceEventId = row.sourceEventId ∧ hit.rowHash = row.rowHash ∧
    hit.chunkRowIndex = row.chunkRowIndex ∧
    ∃ prior, IsLatestPrior event tsColumn table row.sourceEventId prior ∧
      hit.priorTraceId = prior.cells "trace_id" ∧
      (hit.kind = .duplicateNoop ↔
        d.canonicalRowHash (payloadOf d payloadColumns prior) = row.rowHash)

/-- The row has a prior row. -/
def hasPrior (row : EventRow Cell) : Bool :=
  table.any fun r => r.cells "tenant_id" = some (.uuid event.tenantId) &&
    r.cells "store_id" = some (.uuid event.storeId) &&
    r.cells "source_id" = some (.str event.sourceId) &&
    r.cells "source_event_id" = some (.str row.sourceEventId)

/-- **Exactness**: one hit for each row of the batch that has a prior row, in batch order. -/
def Exact (batch : List (EventRow Cell)) (hits : List DuplicateHit) : Prop :=
  List.Forall₂ (IsHit d event payloadColumns tsColumn table)
    (batch.filter (hasPrior event table)) hits

/-- The latest prior rows of the batch's keys carry one trace. -/
def OneTrace (batch : List (EventRow Cell)) : Prop :=
  ∀ row ∈ batch, ∀ row' ∈ batch, ∀ r r',
    IsLatestPrior event tsColumn table row.sourceEventId r →
    IsLatestPrior event tsColumn table row'.sourceEventId r' →
      r.cells "trace_id" = r'.cells "trace_id"

variable {d event payloadColumns tsColumn table}

lemma hasPrior_iff {row : EventRow Cell} :
    hasPrior event table row ↔ ∃ s, IsPrior event table row.sourceEventId s := by
  simp [hasPrior, IsPrior, and_assoc]

lemma forall₂_filterMap {α β : Type} {R : α → β → Prop} {p : α → Bool} {f : α → Option β}
    {l : List α} (h : ∀ a ∈ l, (f a).isSome ↔ p a) :
    List.Forall₂ R (l.filter p) (l.filterMap f) ↔ ∀ a ∈ l, ∀ b, f a = some b → R a b := by
  induction l with
  | nil => simp
  | cons a l ih =>
    have ih := ih fun b hb => h b (List.mem_cons_of_mem _ hb)
    have ha := h a List.mem_cons_self
    cases hf : f a with
    | none =>
      have hp : ¬ p a := fun hp => by simpa [hf] using ha.mpr hp
      rw [List.filter_cons_of_neg hp, List.filterMap_cons_none hf, ih]
      simp [hf]
    | some b =>
      have hp : p a := ha.mp (by simp [hf])
      rw [List.filter_cons_of_pos hp, List.filterMap_cons_some hf, List.forall₂_cons, ih]
      simp [hf]

/-- The hit that the second loop makes of a row and the row it looked up, when the first loop
ended with `last`. -/
def hitOf (d : Driver) (payloadColumns : List String) (last : EventRecord) (row : EventRow Cell)
    (prior : EventRecord) : DuplicateHit where
  sourceEventId := row.sourceEventId
  priorTraceId := last.cells "trace_id"
  kind :=
    if d.canonicalRowHash (payloadOf d payloadColumns prior) = row.rowHash then .duplicateNoop
    else .duplicateOverwritten
  rowHash := row.rowHash
  chunkRowIndex := row.chunkRowIndex

lemma detectDuplicates_of_getLast? {batch : List (EventRow Cell)} {last : EventRecord}
    (h : (priorRows d event tsColumn table batch).getLast? = some last) :
    detectDuplicates d event payloadColumns tsColumn table batch =
      batch.filterMap fun row => ((priorRows d event tsColumn table batch).find? fun r =>
        textOf (r.cells "source_event_id") = row.sourceEventId).map
          (hitOf d payloadColumns last row) := by
  simp only [detectDuplicates, h]
  rfl

lemma isHit_hitOf_iff (hid : PrimaryKey table) {last prior : EventRecord} {row : EventRow Cell}
    (hprior : IsLatestPrior event tsColumn table row.sourceEventId prior) :
    IsHit d event payloadColumns tsColumn table row (hitOf d payloadColumns last row prior) ↔
      last.cells "trace_id" = prior.cells "trace_id" := by
  constructor
  · rintro ⟨-, -, -, prior', hprior', htrace, -⟩
    rw [hprior.unique hid hprior']
    exact htrace
  · intro htrace
    refine ⟨rfl, rfl, rfl, prior, hprior, htrace, ?_⟩
    simp only [hitOf]
    split <;> simp_all

/-- **When duplicate detection is exact**: when the latest prior rows of the batch's keys all
carry the same trace. -/
theorem detectDuplicates_exact_iff (hcollate : Std.TransCmp d.collate) (hid : PrimaryKey table)
    (batch : List (EventRow Cell)) :
    Exact d event payloadColumns tsColumn table batch
        (detectDuplicates d event payloadColumns tsColumn table batch) ↔
      OneTrace event tsColumn table batch := by
  have hsome : ∀ row ∈ batch, ((priorRows d event tsColumn table batch).find? fun r =>
      textOf (r.cells "source_event_id") = row.sourceEventId).isSome ↔
        hasPrior event table row := fun row hrow => by
    rw [hasPrior_iff, find?_priorRows_isSome hcollate hrow]
  cases hlast : (priorRows d event tsColumn table batch).getLast? with
  | none =>
    have hnil := List.getLast?_eq_none_iff.mp hlast
    have hnone : ∀ row ∈ batch, ¬ hasPrior event table row := fun row hrow => by
      rw [← hsome row hrow, hnil]
      simp
    have hfilter : batch.filter (hasPrior event table) = [] := List.filter_eq_nil_iff.mpr hnone
    have hhits : detectDuplicates d event payloadColumns tsColumn table batch = [] := by
      simp [detectDuplicates, hlast]
    rw [Exact, hfilter, hhits]
    refine iff_of_true .nil fun row hrow row' _ r r' hr _ => ?_
    exact absurd (hasPrior_iff.mpr ⟨r, hr.1⟩) (hnone row hrow)
  | some last =>
    obtain ⟨row₀, hrow₀, hlatest₀⟩ := mem_priorRows hcollate (List.mem_of_getLast? hlast)
    rw [Exact, detectDuplicates_of_getLast? hlast,
      forall₂_filterMap fun row hrow => by rw [Option.isSome_map, hsome row hrow]]
    constructor
    · intro hhits
      -- every hit carries the trace of `last`
      have htrace : ∀ row ∈ batch, ∀ r, IsLatestPrior event tsColumn table row.sourceEventId r →
          last.cells "trace_id" = r.cells "trace_id" := by
        intro row hrow r hr
        obtain ⟨prior, hfind⟩ := Option.isSome_iff_exists.mp
          ((hsome row hrow).mpr (hasPrior_iff.mpr ⟨r, hr.1⟩))
        have hprior := find?_priorRows hcollate hfind
        have hhit := hhits row hrow (hitOf d payloadColumns last row prior) (by rw [hfind]; rfl)
        rw [isHit_hitOf_iff hid hprior] at hhit
        rw [hr.unique hid hprior]
        exact hhit
      intro row hrow row' hrow' r r' hr hr'
      rw [← htrace row hrow r hr, ← htrace row' hrow' r' hr']
    · intro hone row hrow hit hmade
      obtain ⟨prior, hfind, rfl⟩ := Option.map_eq_some_iff.mp hmade
      have hprior := find?_priorRows hcollate hfind
      rw [isHit_hitOf_iff hid hprior]
      exact hone row₀ hrow₀ row hrow last prior hlatest₀ hprior

end Hits

/-! ### Two keys with prior rows -/

/-- A stored sale of the given id, key and trace. -/
def storedSale (id : ℕ) (key : String) (traceId : ℕ) : EventRecord where
  cells c := ((Dict.ofList [("id", some (.uuid (.ofNat id))),
    ("tenant_id", some (.uuid (.ofNat 1))), ("store_id", some (.uuid (.ofNat 2))),
    ("source_id", some (.str "pos")), ("source_event_id", some (.str key)),
    ("trace_id", some (.uuid (.ofNat traceId))), ("source_sale_timestamp", some (.datetime 1000)),
    ("sku_id", some (.str "A"))]).get? c).join
  lastUpdatedAt := 2000

/-- A row of a new chunk with the given key, and the payload and hash of a stored sale. -/
def repeatedSale (key : String) (index : ℕ) : EventRow Cell where
  params := .empty
  sourceEventId := key
  eventTs := 1000
  naturalKey := ("A", none, none)
  hotContributions := .empty
  payload := .ofList [("sku_id", some (.str "A"))]
  rowHash := "085abba087de1a3c68951cdc0ea4796dab19ed8f07e63ba8fbf0c2c34d8751b1"
  chunkRowIndex := index

/-- `canonical_row_hash` of that payload -/
def saleDriver : Driver where
  collate := compare
  readBack _ cell := cell
  canonicalRowHash payload :=
    if payload = .ofList [("sku_id", some (.str "A"))] then
      "085abba087de1a3c68951cdc0ea4796dab19ed8f07e63ba8fbf0c2c34d8751b1"
    else ""

def saleEvent : IngressReadyEvent where
  traceId := .ofNat 9
  tenantId := .ofNat 1
  storeId := .ofNat 2
  sourceId := "pos"
  templateId := .ofNat 3
  bronzeRef := .ofNat 4
  gcsUri := "gs://b/k"
  receivedTs := 3000
  delimiter := ','
  tenantDisplayCode := none
  storeCode := none
  replay := false
  parentTraceId := none

def repeatedSales : List (EventRow Cell) := [repeatedSale "T1:1" 0, repeatedSale "T2:1" 1]

theorem one_trace_exact :
    Exact saleDriver saleEvent ["sku_id"] "source_sale_timestamp"
      [storedSale 1 "T1:1" 7, storedSale 2 "T2:1" 7] repeatedSales
      (detectDuplicates saleDriver saleEvent ["sku_id"] "source_sale_timestamp"
        [storedSale 1 "T1:1" 7, storedSale 2 "T2:1" 7] repeatedSales) := by
  have hid : PrimaryKey [storedSale 1 "T1:1" 7, storedSale 2 "T2:1" 7] := by
    refine ⟨fun r hr => ?_, by decide⟩
    simp only [List.mem_cons, List.not_mem_nil, or_false] at hr
    rcases hr with rfl | rfl
    · exact ⟨_, rfl⟩
    · exact ⟨_, rfl⟩
  have hcollate : Std.TransCmp saleDriver.collate := inferInstanceAs (Std.TransOrd String)
  refine (detectDuplicates_exact_iff hcollate hid repeatedSales).mpr ?_
  intro row _ row' _ r r' hr hr'
  have htrace : ∀ s ∈ [storedSale 1 "T1:1" 7, storedSale 2 "T2:1" 7],
      s.cells "trace_id" = some (.uuid (.ofNat 7)) := by
    intro s hs
    simp only [List.mem_cons, List.not_mem_nil, or_false] at hs
    rcases hs with rfl | rfl <;> rfl
  rw [htrace r hr.1.1, htrace r' hr'.1.1]

/-- The hit of the first sale names the trace of the second one's prior row. -/
theorem foreign_trace_reported :
    ¬ Exact saleDriver saleEvent ["sku_id"] "source_sale_timestamp"
      [storedSale 1 "T1:1" 7, storedSale 2 "T2:1" 8] repeatedSales
      (detectDuplicates saleDriver saleEvent ["sku_id"] "source_sale_timestamp"
        [storedSale 1 "T1:1" 7, storedSale 2 "T2:1" 8] repeatedSales) := by
  intro hexact
  have hhits : detectDuplicates saleDriver saleEvent ["sku_id"] "source_sale_timestamp"
      [storedSale 1 "T1:1" 7, storedSale 2 "T2:1" 8] repeatedSales =
        [⟨"T1:1", some (.uuid (.ofNat 8)), .duplicateNoop, (repeatedSale "T1:1" 0).rowHash, 0⟩,
          ⟨"T2:1", some (.uuid (.ofNat 8)), .duplicateNoop, (repeatedSale "T1:1" 0).rowHash,
            1⟩] := by
    decide +kernel
  have hrows : repeatedSales.filter (hasPrior saleEvent
      [storedSale 1 "T1:1" 7, storedSale 2 "T2:1" 8]) = repeatedSales := by
    refine List.filter_eq_self.mpr ?_
    decide +kernel
  rw [Exact, hhits, hrows] at hexact
  cases hexact with
  | cons hfirst _ =>
    obtain ⟨-, -, -, prior, ⟨⟨hmem, -, -, -, hkey⟩, -⟩, htrace, -⟩ := hfirst
    simp only [List.mem_cons, List.not_mem_nil, or_false] at hmem
    rcases hmem with rfl | rfl
    · revert htrace
      decide
    · revert hkey
      decide

end CortexDis.DuplicateHits
