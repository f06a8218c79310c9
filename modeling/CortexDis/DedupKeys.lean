import CortexDis.ExactRows
import CortexDis.UuidText

/-!
When two event rows have one dedup key.

A key is a text and a number with a colon between them. The number has no colon, so the key
determines both. A native key takes its text from the tenant, and that text may be the id of
an upload, which is what the fallback keys of the upload start with.
-/

namespace CortexDis.DedupKeys

open CortexDis.PyDict CortexDis.Values CortexDis.GroupHot CortexDis.Canonical CortexDis.Envelope
open CortexDis.Bronze CortexDis.Frames CortexDis.EventRows CortexDis.CanonicalShape
open CortexDis.Catalogue CortexDis.Runs CortexDis.ExactRows

/-! ### Texts of keys -/

lemma append_cons_inj {α : Type*} {c : α} {a b s t : List α} (hs : c ∉ s) (ht : c ∉ t)
    (h : a ++ c :: s = b ++ c :: t) : a = b ∧ s = t := by
  rcases List.append_eq_append_iff.mp h with ⟨d, rfl, hd⟩ | ⟨d, rfl, hd⟩
  · cases d with
    | nil => simpa using hd
    | cons x d =>
      obtain ⟨rfl, rfl⟩ := List.cons.inj hd
      exact absurd (by simp) hs
  · cases d with
    | nil => simpa [eq_comm] using hd
    | cons x d =>
      obtain ⟨rfl, rfl⟩ := List.cons.inj hd
      exact absurd (by simp) ht

/-- A key of either kind. -/
def key (head : String) (line : ℤ) : String := head ++ ":" ++ toString line

lemma colon_not_mem_nat (n : ℕ) : ':' ∉ (toString n).toList := by
  intro h
  rw [Nat.toString_eq_repr, Nat.toList_repr] at h
  exact absurd (Nat.isDigit_of_mem_toDigits (by decide) (by decide) h) (by decide)

lemma colon_not_mem (n : ℤ) : ':' ∉ (toString n).toList := by
  cases n with
  | ofNat n => exact colon_not_mem_nat n
  | negSucc n =>
    have htext : toString (Int.negSucc n) = "-" ++ toString (n + 1) := rfl
    rw [htext, String.toList_append, String.toList_ofList, List.singleton_append, List.mem_cons,
      not_or]
    exact ⟨by decide, colon_not_mem_nat (n + 1)⟩

lemma toList_key (head : String) (line : ℤ) :
    (key head line).toList = head.toList ++ ':' :: (toString line).toList := by
  simp [key]

lemma key_inj {a b : String} {m n : ℤ} : key a m = key b n ↔ a = b ∧ m = n := by
  constructor
  · intro h
    have hlist :
        a.toList ++ ':' :: (toString m).toList = b.toList ++ ':' :: (toString n).toList := by
      rw [← toList_key, ← toList_key, h]
    obtain ⟨hhead, hline⟩ := append_cons_inj (colon_not_mem m) (colon_not_mem n) hlist
    have hrepr : m.repr = n.repr := by
      rw [← Int.toString_eq_repr, ← Int.toString_eq_repr, String.toList_injective hline]
    exact ⟨String.toList_injective hhead, Int.repr_injective hrepr⟩
  · rintro ⟨rfl, rfl⟩
    rfl

/-! ### Rows -/

/-- A row as the consumer builds it, from a contribution that passed the gate. -/
structure BuiltRow where
  L : RowLibs
  event : IngressReadyEvent
  bronze : BronzeMeta
  loaded : LoadedMapping
  result : ApplyMapping.MappingResult
  tax : Option String
  rows : List (EventRow Cell)
  row : EventRow Cell
  gate : runPostValidation loaded result.contribution = .ok true
  conforms : Conforms result.contribution
  built : buildEventRows L event bronze loaded result tax = .ok rows
  mem : row ∈ rows

namespace BuiltRow

/-- The row is a sale with both parts of the native key. -/
def Native (r : BuiltRow) (transactionId lineItemSeq : Value) : Prop :=
  r.loaded.targetModel = .storeSkuSaleEvent ∧
    field r.row.payload "transaction_id" = some transactionId ∧
    field r.row.payload "line_item_seq" = some lineItemSeq

/-- The row uses the fallback. -/
def Fallback (r : BuiltRow) : Prop :=
  ∀ transactionId lineItemSeq, ¬ r.Native transactionId lineItemSeq

end BuiltRow

/-- Both rows carry one native key, or both use the fallback for one row of one upload. -/
def SameEvent (r r' : BuiltRow) : Prop :=
  (∃ transactionId lineItemSeq,
    r.Native transactionId lineItemSeq ∧ r'.Native transactionId lineItemSeq) ∨
  (r.Fallback ∧ r'.Fallback ∧ r.event.bronzeRef = r'.event.bronzeRef ∧
    r.row.chunkRowIndex = r'.row.chunkRowIndex)

/-- The keys of two rows are those of their events. -/
structure Injective (r r' : BuiltRow) : Prop where
  same : r.row.sourceEventId = r'.row.sourceEventId ↔ SameEvent r r'
  native : ∀ transactionId lineItemSeq, r.Native transactionId lineItemSeq → r'.Fallback →
    r.row.sourceEventId ≠ r'.row.sourceEventId
  fallback : ∀ transactionId lineItemSeq, r.Fallback → r'.Native transactionId lineItemSeq →
    r.row.sourceEventId ≠ r'.row.sourceEventId
  /-- a later delivery of the event gives a row the key it had -/
  redelivered : r.event = r'.event → r.Fallback → r'.Fallback →
    r.row.chunkRowIndex = r'.row.chunkRowIndex → r.row.sourceEventId = r'.row.sourceEventId

/-- The first row's transaction id is the id of the second row's upload, and its line number is
the second row's index, which the second row falls back to. -/
def Spells (r r' : BuiltRow) : Prop :=
  r.Native (.str r'.event.bronzeRef.str) (.int r'.row.chunkRowIndex) ∧ r'.Fallback

namespace BuiltRow

variable (r : BuiltRow)

lemma payload_mem : r.row.payload ∈ r.result.contribution.toDicts ∧
    r.row.sourceEventId = deriveSourceEventId r.L r.loaded.targetModel r.event.bronzeRef
      r.row.payload r.row.chunkRowIndex := by
  obtain ⟨rows, hrows, h⟩ := of_bind_eq_ok r.built
  split at h
  · cases h
  · cases h
    obtain ⟨e, he, hrow⟩ := exists_of_mem_mapM hrows r.row r.mem
    obtain ⟨ts, -, hrow⟩ := of_bind_eq_ok hrow
    obtain ⟨params, -, hrow⟩ := of_bind_eq_ok hrow
    split at hrow
    · cases hrow
    · have hzip := List.fst_mem_of_mem_zipIdx he
      have hmem := (List.of_mem_zip hzip).1
      rw [← Except.ok.inj hrow]
      exact ⟨hmem, rfl⟩

lemma Native.typed {r : BuiltRow} {transactionId lineItemSeq : Value}
    (h : r.Native transactionId lineItemSeq) :
    ∃ text n, transactionId = .str text ∧ lineItemSeq = .int n := by
  obtain ⟨hmodel, htransaction, hline⟩ := h
  -- the gate has checked the columns against the types of the model
  have hvalue : ∀ (c : String) {v : Value} (shape : ColumnShape),
      columnShape r.loaded.targetModel c = some shape → field r.row.payload c = some v →
      ∀ d, shape.shape.dtype = some d → DTypeHolds d v := by
    intro c v shape hshape hv d hd
    rw [field, Option.join_eq_some_iff] at hv
    have hkey : c ∈ r.row.payload.keys := by
      by_contra hnot
      rw [(Dict.get?_eq_none _ _).mpr hnot] at hv
      cases hv
    obtain ⟨cell, hcell, -, hholds⟩ :=
      cell_of_gate r.gate r.conforms r.payload_mem.1 hkey hshape
    rw [hcell, Option.some.injEq] at hv
    exact hholds v hv d hd
  have htext := hvalue "transaction_id" (optional (.text 128))
    (by rw [hmodel]; decide) htransaction .string rfl
  have hint := hvalue "line_item_seq" (optional .integer)
    (by rw [hmodel]; decide) hline .int64 rfl
  cases transactionId with
  | str text =>
    cases lineItemSeq with
    | int n => exact ⟨text, n, rfl, rfl⟩
    | _ => exact hint.elim
  | _ => exact htext.elim

lemma Native.sourceEventId {r : BuiltRow} {text : String} {n : ℤ}
    (h : r.Native (.str text) (.int n)) : r.row.sourceEventId = key text n := by
  obtain ⟨hmodel, htransaction, hline⟩ := h
  rw [r.payload_mem.2, hmodel]
  unfold deriveSourceEventId
  rw [htransaction, hline]
  rfl

lemma Fallback.sourceEventId {r : BuiltRow} (h : r.Fallback) :
    r.row.sourceEventId = key r.event.bronzeRef.str r.row.chunkRowIndex := by
  rw [r.payload_mem.2]
  unfold deriveSourceEventId
  split
  · next hmodel htransaction hline => exact absurd ⟨hmodel, htransaction, hline⟩ (h _ _)
  · rfl

lemma native_or_fallback : (∃ text n, r.Native (.str text) (.int n)) ∨ r.Fallback := by
  by_cases h : ∃ transactionId lineItemSeq, r.Native transactionId lineItemSeq
  · obtain ⟨_, _, h⟩ := h
    obtain ⟨text, n, rfl, rfl⟩ := h.typed
    exact Or.inl ⟨text, n, h⟩
  · exact Or.inr (by simpa [Fallback] using h)

end BuiltRow

variable {r r' : BuiltRow}

lemma sameEvent_of_native {text text' : String} {n n' : ℤ} (h : r.Native (.str text) (.int n))
    (h' : r'.Native (.str text') (.int n')) : SameEvent r r' ↔ text = text' ∧ n = n' := by
  constructor
  · rintro (⟨t, l, hr, hr'⟩ | ⟨hfallback, -⟩)
    · have ht : Value.str text = .str text' :=
        Option.some.inj (h.2.1.symm.trans (hr.2.1.trans (hr'.2.1.symm.trans h'.2.1)))
      have hn : Value.int n = .int n' :=
        Option.some.inj (h.2.2.symm.trans (hr.2.2.trans (hr'.2.2.symm.trans h'.2.2)))
      exact ⟨Value.str.inj ht, Value.int.inj hn⟩
    · exact absurd h (hfallback _ _)
  · rintro ⟨rfl, rfl⟩
    exact Or.inl ⟨_, _, h, h'⟩

lemma sameEvent_of_fallback (h : r.Fallback) (h' : r'.Fallback) : SameEvent r r' ↔
    r.event.bronzeRef = r'.event.bronzeRef ∧ r.row.chunkRowIndex = r'.row.chunkRowIndex := by
  constructor
  · rintro (⟨t, l, hr, -⟩ | ⟨-, -, hsame⟩)
    · exact absurd hr (h _ _)
    · exact hsame
  · exact fun hsame => Or.inr ⟨h, h', hsame⟩

lemma not_sameEvent {t l : Value} (h : r.Native t l) (h' : r'.Fallback) :
    ¬ SameEvent r r' ∧ ¬ SameEvent r' r := by
  constructor
  · rintro (⟨_, _, -, hr'⟩ | ⟨hr, -⟩)
    · exact h' _ _ hr'
    · exact hr _ _ h
  · rintro (⟨_, _, hr', -⟩ | ⟨-, hr, -⟩)
    · exact h' _ _ hr'
    · exact hr _ _ h

lemma fallback_key_iff (h : r.Fallback) (h' : r'.Fallback) :
    r.row.sourceEventId = r'.row.sourceEventId ↔ SameEvent r r' := by
  rw [h.sourceEventId, h'.sourceEventId, key_inj, sameEvent_of_fallback h h',
    UuidText.str_injective.eq_iff, Nat.cast_inj]

lemma native_key_iff {text : String} {n : ℤ} (h : r.Native (.str text) (.int n))
    (h' : r'.Fallback) : r.row.sourceEventId = r'.row.sourceEventId ↔ Spells r r' := by
  rw [h.sourceEventId, h'.sourceEventId, key_inj]
  constructor
  · rintro ⟨rfl, rfl⟩
    exact ⟨h, h'⟩
  · rintro ⟨hspells, -⟩
    have ht : Value.str text = .str r'.event.bronzeRef.str :=
      Option.some.inj (h.2.1.symm.trans hspells.2.1)
    have hn : Value.int n = .int r'.row.chunkRowIndex :=
      Option.some.inj (h.2.2.symm.trans hspells.2.2)
    exact ⟨Value.str.inj ht, Value.int.inj hn⟩

lemma sourceEventId_of_spells (h : Spells r r') : r.row.sourceEventId = r'.row.sourceEventId :=
  (native_key_iff h.1 h.2).mpr h

/-- **When dedup keys are injective.** The keys of two rows are those of their events exactly
when neither row's native key spells the other row's fallback key. -/
theorem dedup_keys_injective_iff (r r' : BuiltRow) :
    Injective r r' ↔ ¬ Spells r r' ∧ ¬ Spells r' r := by
  constructor
  · intro h
    refine ⟨fun hspells => ?_, fun hspells => ?_⟩
    · exact h.native _ _ hspells.1 hspells.2 (sourceEventId_of_spells hspells)
    · exact h.fallback _ _ hspells.2 hspells.1 (sourceEventId_of_spells hspells).symm
  · rintro ⟨hspells, hspells'⟩
    have hnative : ∀ t l, r.Native t l → r'.Fallback →
        r.row.sourceEventId ≠ r'.row.sourceEventId := by
      intro t l h h' heq
      obtain ⟨text, n, rfl, rfl⟩ := h.typed
      exact hspells ((native_key_iff h h').mp heq)
    have hfallback : ∀ t l, r.Fallback → r'.Native t l →
        r.row.sourceEventId ≠ r'.row.sourceEventId := by
      intro t l h h' heq
      obtain ⟨text, n, rfl, rfl⟩ := h'.typed
      exact hspells' ((native_key_iff h' h).mp heq.symm)
    refine ⟨?_, hnative, hfallback, fun hevent h h' hindex => ?_⟩
    · rcases r.native_or_fallback with ⟨text, n, h⟩ | h
      · rcases r'.native_or_fallback with ⟨text', n', h'⟩ | h'
        · rw [h.sourceEventId, h'.sourceEventId, key_inj, sameEvent_of_native h h']
        · exact iff_of_false (hnative _ _ h h') (not_sameEvent h h').1
      · rcases r'.native_or_fallback with ⟨text', n', h'⟩ | h'
        · exact iff_of_false (hfallback _ _ h h') (not_sameEvent h' h).2
        · exact fallback_key_iff h h'
    · rw [h.sourceEventId, h'.sourceEventId, hevent, hindex]

/-! ### A sale that is taken for another -/

def saleRules : MappingRules.Rules where
  version := 1
  rename := Dict.ofList [("Artikel", "sku_id"), ("Zeit", "source_sale_timestamp"),
    ("Bon", "transaction_id"), ("Zeile", "line_item_seq")]
  normalize := Dict.empty
  cast := Dict.ofList [("source_sale_timestamp", .datetime), ("line_item_seq", .integer)]
  derive := Dict.empty

def saleLoaded : LoadedMapping where
  mappingVersionId := 1
  source := saleRules
  targetModel := .storeSkuSaleEvent
  hotComplete := false

/-- A chunk of two sales at one time, of the given receipts and lines. -/
def saleChunk (receipts lines : List (Option String)) : Frame where
  height := 2
  columns := Dict.ofList [("Artikel", Series.ofTexts [some "A1", some "A2"]),
    ("Zeit", Series.ofTexts [some "1970-01-01T00:00:00+00:00", some "1970-01-01T00:00:00+00:00"]),
    ("Bon", Series.ofTexts receipts), ("Zeile", Series.ofTexts lines)]

def saleResult (receipts : List (Option String)) (lines : List Cell) :
    ApplyMapping.MappingResult where
  contribution := ⟨2, Dict.ofList [("sku_id", Series.ofTexts [some "A1", some "A2"]),
    ("source_sale_timestamp", ⟨.datetimeUtc, [some (.datetime 0), some (.datetime 0)]⟩),
    ("transaction_id", Series.ofTexts receipts), ("line_item_seq", ⟨.int64, lines⟩)]⟩
  sourceRowIndices := [0, 1]
  failures := []

lemma sale_conforms {receipts : List (Option String)} {lines : List Cell}
    (hreceipts : receipts.length = 2) (hlines : lines.length = 2)
    (hints : ∀ v, some v ∈ lines → DTypeHolds .int64 v) :
    Conforms (saleResult receipts lines).contribution := by
  rw [conforms_iff, saleResult, Dict.entries_ofList (by simp)]
  simp only [List.forall_mem_cons]
  refine ⟨⟨rfl, holds_ofTexts _⟩, ⟨rfl, ?_⟩, ⟨?_, holds_ofTexts _⟩, ⟨hlines, hints⟩, by simp⟩
  · simp [DTypeHolds]
  · rw [Series.ofTexts, List.length_map, hreceipts]

/-- An upload of the source. -/
def uploaded (bronzeRef : Uuid) : IngressReadyEvent :=
  { AckSafety.sampleEvent with bronzeRef := bronzeRef }

/-- What the mapping makes of sales without receipts. -/
def plainResult : ApplyMapping.MappingResult := saleResult [none, none] [none, none]

def plainRows : List (EventRow Cell) := ((buildEventRows exactLibs (uploaded (.ofNat 5))
  HotChecks.promoBronze saleLoaded plainResult none).toOption).getD []

/-- The second sale of the upload. -/
def plainSale : BuiltRow where
  L := exactLibs
  event := uploaded (.ofNat 5)
  bronze := HotChecks.promoBronze
  loaded := saleLoaded
  result := plainResult
  tax := none
  rows := plainRows
  row := plainRows.get ⟨1, by decide +kernel⟩
  gate := by decide +kernel
  conforms := sale_conforms rfl rfl (by simp)
  built := rfl
  mem := List.get_mem _ _

/-- The id of the first upload, where a receipt number belongs. -/
def exportedReceipts : List (Option String) := [some (Uuid.ofNat 5).str, some (Uuid.ofNat 5).str]

def exportedResult : ApplyMapping.MappingResult :=
  saleResult exportedReceipts [some (.int 1), some (.int 2)]

def exportedRows : List (EventRow Cell) := ((buildEventRows exactLibs (uploaded (.ofNat 6))
  HotChecks.promoBronze saleLoaded exportedResult none).toOption).getD []

/-- The first sale of another upload. -/
def exportedSale : BuiltRow where
  L := exactLibs
  event := uploaded (.ofNat 6)
  bronze := HotChecks.promoBronze
  loaded := saleLoaded
  result := exportedResult
  tax := none
  rows := exportedRows
  row := exportedRows.get ⟨0, by decide +kernel⟩
  gate := by decide +kernel
  conforms := sale_conforms rfl rfl (by simp [DTypeHolds])
  built := rfl
  mem := List.get_mem _ _

/-- Two sales of one source, with one key: the receipt number of one is the id of the other's
upload, and its line is the other's row. -/
theorem exported_sale_collides :
    ApplyMapping.applyMapping clockPolars saleRules (saleChunk [none, none] [none, none]) =
        .ok plainResult ∧
      ApplyMapping.applyMapping clockPolars saleRules
        (saleChunk exportedReceipts [some "1", some "2"]) = .ok exportedResult ∧
      (exportedSale.event.tenantId, exportedSale.event.storeId, exportedSale.event.sourceId) =
        (plainSale.event.tenantId, plainSale.event.storeId, plainSale.event.sourceId) ∧
      exportedSale.Native (.str (Uuid.ofNat 5).str) (.int 1) ∧ plainSale.Fallback ∧
      exportedSale.row.sourceEventId = plainSale.row.sourceEventId ∧
      ¬ Injective exportedSale plainSale := by
  have hnative : exportedSale.Native (.str (Uuid.ofNat 5).str) (.int 1) := ⟨rfl, rfl, rfl⟩
  have hfallback : plainSale.Fallback := by
    rintro t l ⟨-, htransaction, -⟩
    have hnone : field plainSale.row.payload "transaction_id" = none := rfl
    rw [hnone] at htransaction
    cases htransaction
  have hkey : exportedSale.row.sourceEventId = plainSale.row.sourceEventId :=
    sourceEventId_of_spells ⟨hnative, hfallback⟩
  exact ⟨rfl, rfl, rfl, hnative, hfallback, hkey, fun h => h.native _ _ hnative hfallback hkey⟩

end CortexDis.DedupKeys
