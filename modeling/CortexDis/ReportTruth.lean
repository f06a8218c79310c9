import CortexDis.Freshness
import CortexDis.HotWrites

/-!
What a write reports against what its statements did.

The update path reads the row count of its statement. The creating statement of a complete
mapping and of the catalogue has the same predicate in its conflict arm, and can change nothing
as well; nobody looks at its row count, and it is always reported as written.
-/

namespace CortexDis.ReportTruth

open CortexDis.PyDict CortexDis.Stamped CortexDis.RowLocks CortexDis.Values CortexDis.GroupHot
open CortexDis.HotSink CortexDis.WriteChunk CortexDis.HotWrites CortexDis.Catalogue
open CortexDis.Canonical CortexDis.Freshness

abbrev Turn := Stmt (HotParams Cell) × HotTable Cell

/-- The turns of a list of statements. -/
def turns : List (Stmt (HotParams Cell)) → HotTable Cell → List Turn
  | [], _ => []
  | stmt :: stmts, t => (stmt, t) :: turns stmts (runStmt t stmt)

/-- The statement inserts a row, or updates one. -/
def tookEffect (turn : Turn) : Bool :=
  turn.1.creates && (turn.2.find? turn.1.write.key).isNone || 0 < turn.2.rowcount turn.1.write

/-- The row is there, and the event-time predicate keeps the statement from changing it. -/
def declined (turn : Turn) : Bool :=
  (turn.2.find? turn.1.write.key).isSome && turn.2.rowcount turn.1.write = 0

/-- The report counts the statements that took effect and those that were declined. -/
def TellsTruth (report : WriteReport) (log : List Turn) : Prop :=
  report.hotRowsUpserted = log.countP tookEffect ∧ report.hotNoops = log.countP declined

instance (report : WriteReport) (log : List Turn) : Decidable (TellsTruth report log) :=
  inferInstanceAs (Decidable (_ ∧ _))

/-- The hot statements of an event chunk, batch by batch. -/
def chunkStatements (a : WriteArgs Cell) (n : ℕ) (rows : List (EventRow Cell)) :
    List (Stmt (HotParams Cell)) :=
  (batches rows n).flatMap fun b => (Batch.events a b).program

/-- The statements of a catalogue chunk. -/
def catalogueStatements (a : WriteArgs Cell) (n : ℕ) (groups : List (HotGroup Cell)) :
    List (Stmt (HotParams Cell)) :=
  (batches groups n).flatMap fun b => (Batch.catalogue a b).program

/-- The stored row of the key, if any, is not later than the time. -/
def StoredBy (t : HotTable Cell) (k : HotKey) (ts : Timestamp) : Prop :=
  ∀ row, t.find? k = some row → ∀ l ∈ row.lastSourceEventAt, l ≤ ts

/-- No group comes late: of the rows that a batch has for one spelling of a key, some row is
not older than the stored row, nor than the rows that earlier batches have for the key, nor
than those of a spelling of the key that the batch spells first. -/
structure InTime (a : WriteArgs Cell) (bs : List (List (EventRow Cell))) (t : HotTable Cell) :
    Prop where
  stored : ∀ b ∈ bs, ∀ row ∈ b, ∃ r ∈ b, r.naturalKey = row.naturalKey ∧
    StoredBy t (rowKey a row) r.eventTs
  earlier : bs.Pairwise fun b b' => ∀ row ∈ b, ∀ row' ∈ b', rowKey a row = rowKey a row' →
    ∃ r ∈ b', r.naturalKey = row'.naturalKey ∧ row.eventTs ≤ r.eventTs
  spelled : ∀ b ∈ bs, ∀ us row vs, b = us ++ row :: vs →
    (∀ u ∈ us, u.naturalKey ≠ row.naturalKey) → ∀ u ∈ us, rowKey a u = rowKey a row →
    ∃ r ∈ b, r.naturalKey = row.naturalKey ∧
      ∀ x ∈ b, x.naturalKey = u.naturalKey → x.eventTs ≤ r.eventTs

/-- The hot key of a snapshot row. -/
def catalogueKey (a : WriteArgs Cell) (payload : Payload) : HotKey :=
  (a.event.tenantId, a.event.storeId, coalesce (catalogueGroup a.event payload 0).naturalKey)

/-! ### One statement -/

lemma turns_append (ss ss' : List (Stmt (HotParams Cell))) (t : HotTable Cell) :
    turns (ss ++ ss') t = turns ss t ++ turns ss' (ss.foldl runStmt t) := by
  induction ss generalizing t with
  | nil => rfl
  | cons s ss ih => rw [List.cons_append, turns, turns, ih, List.foldl_cons, List.cons_append]

lemma length_turns (ss : List (Stmt (HotParams Cell))) (t : HotTable Cell) :
    (turns ss t).length = ss.length := by
  induction ss generalizing t with
  | nil => rfl
  | cons s ss ih => rw [turns, List.length_cons, ih, List.length_cons]

lemma map_fst_turns (ss : List (Stmt (HotParams Cell))) (t : HotTable Cell) :
    (turns ss t).map Prod.fst = ss := by
  induction ss generalizing t with
  | nil => rfl
  | cons s ss ih => rw [turns, List.map_cons, ih]

lemma tookEffect_eq_not_declined {turn : Turn} (h : turn.1.creates = true) :
    tookEffect turn = !declined turn := by
  unfold tookEffect declined
  rw [h]
  cases hf : turn.2.find? turn.1.write.key with
  | none => rfl
  | some row => simp [Nat.pos_iff_ne_zero]

lemma updateHotIncompletePath_truthful (p : HotParams Cell) (t : HotTable Cell) :
    ((updateHotIncompletePath p t).2 = .written ↔ tookEffect (⟨false, p⟩, t) = true) ∧
      ((updateHotIncompletePath p t).2 = .noopOlder ↔ declined (⟨false, p⟩, t) = true) := by
  unfold updateHotIncompletePath tookEffect declined
  by_cases h : 0 < t.rowcount p
  · simp [h, h.ne']
  · have hzero : t.rowcount p = 0 := by omega
    cases hf : t.find? p.key <;> simp [hzero]

lemma insertOnConflict_snd (p : HotParams Cell) (t : HotTable Cell) :
    (insertOnConflictHotCompletePath p t).2 = .written := by
  unfold insertOnConflictHotCompletePath
  split <;> rfl

lemma initialStamp_runStmt (p : HotParams Cell) (t : HotTable Cell) (k : HotKey) :
    initialStamp (runStmt t ⟨true, p⟩) k =
      if p.key = k then max (initialStamp t k) (p.lastSourceEventAt : WithBot Timestamp)
      else initialStamp t k := by
  rw [initialStamp, find?_runStmt, initialStamp]
  by_cases hk : p.key = k
  · rw [if_pos hk, if_pos hk]
    cases t.find? k with
    | none => exact (max_eq_right bot_le).symm
    | some row => exact register.stamp_offer p row
  · rw [if_neg hk, if_neg hk]

lemma declined_iff {p : HotParams Cell} {t : HotTable Cell} {creates : Bool} :
    declined (⟨creates, p⟩, t) = false ↔
      initialStamp t p.key ≤ (p.lastSourceEventAt : WithBot Timestamp) := by
  unfold declined initialStamp
  cases hf : t.find? p.key with
  | none => exact iff_of_true rfl bot_le
  | some row =>
    have hcount := rowcount_pos t p
    rw [hf] at hcount
    have hno : 0 < t.rowcount p ↔ p.notOlder row := by simpa using hcount
    have hstamp : p.notOlder row ↔ register.stamp row ≤ (p.lastSourceEventAt : WithBot Timestamp) :=
      notOlder_iff p row
    change _ ↔ register.stamp row ≤ _
    rw [← hstamp, ← hno]
    simp [Nat.pos_iff_ne_zero]

/-! ### A list of creating statements -/

lemma not_declined_iff {ss : List (Stmt (HotParams Cell))} (hss : ∀ s ∈ ss, s.creates = true)
    (t : HotTable Cell) :
    (∀ turn ∈ turns ss t, declined turn = false) ↔
      (∀ s ∈ ss, initialStamp t s.write.key ≤ (s.write.lastSourceEventAt : WithBot Timestamp)) ∧
        ss.Pairwise fun s s' => s.write.key = s'.write.key →
          s.write.lastSourceEventAt ≤ s'.write.lastSourceEventAt := by
  induction ss generalizing t with
  | nil => exact iff_of_true (by simp [turns]) ⟨by simp, List.Pairwise.nil⟩
  | cons s ss ih =>
    obtain ⟨creates, p⟩ := s
    have hcreates : creates = true := hss _ List.mem_cons_self
    subst hcreates
    have ih := ih (fun s hs => hss s (List.mem_cons_of_mem _ hs)) (runStmt t ⟨true, p⟩)
    rw [turns, List.forall_mem_cons, List.forall_mem_cons, List.pairwise_cons, declined_iff, ih]
    have hstep : ∀ q : HotParams Cell, (initialStamp (runStmt t ⟨true, p⟩) q.key ≤
        (q.lastSourceEventAt : WithBot Timestamp) ↔
        initialStamp t q.key ≤ (q.lastSourceEventAt : WithBot Timestamp) ∧
          (p.key = q.key → p.lastSourceEventAt ≤ q.lastSourceEventAt)) := by
      intro q
      rw [initialStamp_runStmt]
      by_cases hk : p.key = q.key
      · rw [if_pos hk, max_le_iff, WithBot.coe_le_coe]
        simp [hk]
      · rw [if_neg hk]
        simp [hk]
    simp only [hstep]
    constructor
    · rintro ⟨hp, hall, hpair⟩
      exact ⟨⟨hp, fun s hs => (hall s hs).1⟩, fun s hs => (hall s hs).2, hpair⟩
    · rintro ⟨⟨hp, hstored⟩, hlater, hpair⟩
      exact ⟨hp, fun s hs => ⟨hstored s hs, hlater s hs⟩, hpair⟩

lemma tellsTruth_iff {ss : List (Stmt (HotParams Cell))} (hss : ∀ s ∈ ss, s.creates = true)
    (t : HotTable Cell) {report : WriteReport} (hup : report.hotRowsUpserted = ss.length)
    (hnoop : report.hotNoops = 0) :
    TellsTruth report (turns ss t) ↔ ∀ turn ∈ turns ss t, declined turn = false := by
  have hcreates : ∀ turn ∈ turns ss t, turn.1.creates = true := fun turn hturn =>
    hss _ (map_fst_turns ss t ▸ List.mem_map_of_mem hturn)
  unfold TellsTruth
  rw [hup, hnoop, ← length_turns ss t, eq_comm, List.countP_eq_length, eq_comm, List.countP_eq_zero]
  constructor
  · rintro ⟨-, hno⟩ turn hturn
    simpa using hno turn hturn
  · intro hno
    refine ⟨fun turn hturn => ?_, fun turn hturn => by simp [hno turn hturn]⟩
    rw [tookEffect_eq_not_declined (hcreates turn hturn), hno turn hturn]
    rfl

/-! ### The rows behind the groups -/

lemma storedBy_iff {t : HotTable Cell} {k : HotKey} {ts : Timestamp} :
    StoredBy t k ts ↔ initialStamp t k ≤ (ts : WithBot Timestamp) := by
  unfold StoredBy initialStamp
  cases t.find? k with
  | none => exact iff_of_true (by simp) bot_le
  | some row =>
    change _ ↔ register.stamp row ≤ _
    cases hl : row.lastSourceEventAt with
    | none =>
      have hbot : register.stamp row = ⊥ := hl
      simp [hl, hbot]
    | some l =>
      have hcoe : register.stamp row = (l : WithBot Timestamp) := hl
      rw [hcoe, WithBot.coe_le_coe]
      simp [hl]

lemma exists_row_iff {b : List (EventRow Cell)} {g : HotGroup Cell} (hg : g ∈ groupHot b)
    {Q : Timestamp → Prop} (hQ : ∀ s s', s ≤ s' → Q s → Q s') :
    (∃ r ∈ b, r.naturalKey = g.naturalKey ∧ Q r.eventTs) ↔ Q g.lastSourceEventAt := by
  constructor
  · rintro ⟨r, hr, hk, hq⟩
    refine hQ _ _ ?_ hq
    exact eventTs_le_lastSourceEventAt (mem_groupHot.mp hg)
      (List.mem_filter.mpr ⟨hr, decide_eq_true hk⟩)
  · intro hq
    obtain ⟨r, hr, hts⟩ := exists_eventTs_eq (mem_groupHot.mp hg)
    obtain ⟨hr, hk⟩ := List.mem_filter.mp hr
    exact ⟨r, hr, of_decide_eq_true hk, hts ▸ hq⟩

lemma lastSourceEventAt_le_iff {b : List (EventRow Cell)} {g : HotGroup Cell}
    (hg : g ∈ groupHot b) {ts : Timestamp} :
    g.lastSourceEventAt ≤ ts ↔ ∀ x ∈ b, x.naturalKey = g.naturalKey → x.eventTs ≤ ts := by
  constructor
  · intro hle x hx hk
    exact (eventTs_le_lastSourceEventAt (mem_groupHot.mp hg)
      (List.mem_filter.mpr ⟨hx, decide_eq_true hk⟩)).trans hle
  · intro hall
    obtain ⟨r, hr, hts⟩ := exists_eventTs_eq (mem_groupHot.mp hg)
    obtain ⟨hr, hk⟩ := List.mem_filter.mp hr
    exact hts ▸ hall r hr (of_decide_eq_true hk)

lemma exists_groupHot_of_mem {b : List (EventRow Cell)} {row : EventRow Cell} (hrow : row ∈ b) :
    ∃ g ∈ groupHot b, row.naturalKey = g.naturalKey := by
  obtain ⟨g, hg, hk⟩ := exists_group_of_mem hrow
  exact ⟨g, (List.mem_insertionSort _).mp hg, hk⟩

lemma exists_row_of_mem_groupHot {b : List (EventRow Cell)} {g : HotGroup Cell}
    (hg : g ∈ groupHot b) : ∃ row ∈ b, row.naturalKey = g.naturalKey :=
  exists_row_of_mem_sortGroups ((List.mem_insertionSort _).mpr hg)

section Condition

variable (a : WriteArgs Cell)

lemma stored_iff (b : List (EventRow Cell)) (t : HotTable Cell) :
    (∀ g ∈ groupHot b, initialStamp t (hotParams a g).key ≤
        (g.lastSourceEventAt : WithBot Timestamp)) ↔
      ∀ row ∈ b, ∃ r ∈ b, r.naturalKey = row.naturalKey ∧
        StoredBy t (rowKey a row) r.eventTs := by
  have hup : ∀ k s s', s ≤ s' → StoredBy t k s → StoredBy t k s' :=
    fun k s s' hle h row hrow l hl =>
    (h row hrow l hl).trans hle
  constructor
  · intro h row hrow
    obtain ⟨g, hg, hk⟩ := exists_groupHot_of_mem hrow
    rw [hk, exists_row_iff hg (hup _), storedBy_iff, ← key_hotParams a hk]
    exact h g hg
  · intro h g hg
    obtain ⟨row, hrow, hk⟩ := exists_row_of_mem_groupHot hg
    have hrow := h row hrow
    rw [hk, exists_row_iff hg (hup _), storedBy_iff, ← key_hotParams a hk] at hrow
    exact hrow

lemma earlier_iff (b b' : List (EventRow Cell)) :
    (∀ g ∈ groupHot b, ∀ g' ∈ groupHot b', (hotParams a g).key = (hotParams a g').key →
        g.lastSourceEventAt ≤ g'.lastSourceEventAt) ↔
      ∀ row ∈ b, ∀ row' ∈ b', rowKey a row = rowKey a row' →
        ∃ r ∈ b', r.naturalKey = row'.naturalKey ∧ row.eventTs ≤ r.eventTs := by
  constructor
  · intro h row hrow row' hrow' hkey
    obtain ⟨g, hg, hk⟩ := exists_groupHot_of_mem hrow
    obtain ⟨g', hg', hk'⟩ := exists_groupHot_of_mem hrow'
    rw [← key_hotParams a hk, ← key_hotParams a hk'] at hkey
    rw [hk', exists_row_iff hg' fun s s' hle h => h.trans hle]
    exact (lastSourceEventAt_le_iff hg).mp (h g hg g' hg' hkey) row hrow hk
  · intro h g hg g' hg' hkey
    obtain ⟨row', hrow', hk'⟩ := exists_row_of_mem_groupHot hg'
    refine (lastSourceEventAt_le_iff hg).mpr fun row hrow hk => ?_
    rw [key_hotParams a hk, key_hotParams a hk'] at hkey
    have hr := h row hrow row' hrow' hkey
    rw [hk', exists_row_iff hg' fun s s' hle h => h.trans hle] at hr
    exact hr

lemma pairwise_key_iff {β γ : Type} [DecidableEq γ] (f : β → γ) (S : β → β → Prop) (l : List β) :
    l.Pairwise (fun x y => f x = f y → S x y) ↔ ∀ k, (l.filter fun x => f x = k).Pairwise S := by
  induction l with
  | nil => simp
  | cons x l ih =>
    rw [List.pairwise_cons, ih]
    constructor
    · rintro ⟨hx, hl⟩ k
      by_cases hk : f x = k
      · rw [List.filter_cons_of_pos (by simpa using hk), List.pairwise_cons]
        refine ⟨fun y hy => ?_, hl k⟩
        obtain ⟨hy, hky⟩ := List.mem_filter.mp hy
        exact hx y hy (hk.trans (of_decide_eq_true hky).symm)
      · rw [List.filter_cons_of_neg (by simpa using hk)]
        exact hl k
    · intro h
      refine ⟨fun y hy hxy => ?_, fun k => ?_⟩
      · have hpair := h (f x)
        rw [List.filter_cons_of_pos (by simp), List.pairwise_cons] at hpair
        exact hpair.1 y (List.mem_filter.mpr ⟨hy, decide_eq_true hxy.symm⟩)
      · exact (h k).sublist ((List.sublist_cons_self x l).filter _)

lemma key_eq_iff (g g' : HotGroup Cell) :
    (hotParams a g).key = (hotParams a g').key ↔ hotSortKey g = hotSortKey g' := by
  simp [HotParams.key, hotParams, hotSortKey]

lemma spelled_iff (b : List (EventRow Cell)) :
    (sortGroups (groupHot b)).Pairwise (fun g g' => (hotParams a g).key = (hotParams a g').key →
        g.lastSourceEventAt ≤ g'.lastSourceEventAt) ↔
      ∀ us row vs, b = us ++ row :: vs → (∀ u ∈ us, u.naturalKey ≠ row.naturalKey) →
        ∀ u ∈ us, rowKey a u = rowKey a row → ∃ r ∈ b, r.naturalKey = row.naturalKey ∧
          ∀ x ∈ b, x.naturalKey = u.naturalKey → x.eventTs ≤ r.eventTs := by
  let late (k k' : NaturalKey) : Prop := coalesce k = coalesce k' →
    ∃ r ∈ b, r.naturalKey = k' ∧ ∀ x ∈ b, x.naturalKey = k → x.eventTs ≤ r.eventTs
  -- sorting by key keeps the groups of one key in the order of the batch
  have hgroups : (sortGroups (groupHot b)).Pairwise (fun g g' =>
      (hotParams a g).key = (hotParams a g').key → g.lastSourceEventAt ≤ g'.lastSourceEventAt) ↔
      ((groupHot b).map HotGroup.naturalKey).Pairwise late := by
    simp only [key_eq_iff]
    rw [pairwise_key_iff]
    simp only [filter_hotSortKey_sortGroups]
    rw [← pairwise_key_iff, List.pairwise_map]
    refine List.Pairwise.iff_of_mem fun {g g'} hg hg' => ?_
    refine imp_congr_right fun _ => ?_
    rw [lastSourceEventAt_le_iff hg]
    exact (exists_row_iff hg' (Q := fun ts => ∀ x ∈ b, x.naturalKey = g.naturalKey → x.eventTs ≤ ts)
      fun s s' hle h x hx hk => (h x hx hk).trans hle).symm
  rw [hgroups, map_naturalKey_groupHot_eq_firsts, pairwise_firsts]
  have hkeys : ∀ u row : EventRow Cell,
      rowKey a u = rowKey a row ↔ coalesce u.naturalKey = coalesce row.naturalKey := by
    intro u row
    simp [rowKey]
  constructor
  · intro h us row vs hsplit hnew u hu hkey
    refine h (us.map EventRow.naturalKey) row.naturalKey (vs.map EventRow.naturalKey)
      (by rw [hsplit, List.map_append, List.map_cons]) ?_ u.naturalKey (List.mem_map_of_mem hu)
      ((hkeys u row).mp hkey)
    intro hmem
    obtain ⟨u', hu', hk⟩ := List.mem_map.mp hmem
    exact hnew u' hu' hk
  · intro h ks k ks' hsplit hnew k₀ hk₀ hkey
    obtain ⟨us, rest, hb, rfl, hrest⟩ := List.map_eq_append_iff.mp hsplit
    obtain ⟨row, vs, rfl, rfl, rfl⟩ := List.map_eq_cons_iff.mp hrest
    obtain ⟨u, hu, rfl⟩ := List.mem_map.mp hk₀
    refine h us row vs hb (fun u' hu' hk => hnew ?_) u hu ((hkeys u row).mpr hkey)
    exact List.mem_map.mpr ⟨u', hu', hk⟩

lemma inTime_iff (bs : List (List (EventRow Cell))) (t : HotTable Cell) :
    ((∀ s ∈ bs.flatMap fun b => (Batch.events a b).program,
        initialStamp t s.write.key ≤ (s.write.lastSourceEventAt : WithBot Timestamp)) ∧
      (bs.flatMap fun b => (Batch.events a b).program).Pairwise fun s s' =>
        s.write.key = s'.write.key → s.write.lastSourceEventAt ≤ s'.write.lastSourceEventAt) ↔
      InTime a bs t := by
  have hstmt : ∀ (b : List (EventRow Cell)) (P : Stmt (HotParams Cell) → Prop),
      (∀ s ∈ (Batch.events a b).program, P s) ↔
        ∀ g ∈ groupHot b, P ⟨a.loaded.hotComplete, hotParams a g⟩ := by
    intro b P
    simp [Batch.program, sortGroups]
  have hpair : ∀ b : List (EventRow Cell), (Batch.events a b).program.Pairwise (fun s s' =>
        s.write.key = s'.write.key → s.write.lastSourceEventAt ≤ s'.write.lastSourceEventAt) ↔
      (sortGroups (groupHot b)).Pairwise fun g g' =>
        (hotParams a g).key = (hotParams a g').key →
          g.lastSourceEventAt ≤ g'.lastSourceEventAt := fun b => List.pairwise_map
  have hstored : (∀ s ∈ bs.flatMap fun b => (Batch.events a b).program,
      initialStamp t s.write.key ≤ (s.write.lastSourceEventAt : WithBot Timestamp)) ↔
      ∀ b ∈ bs, ∀ s ∈ (Batch.events a b).program,
        initialStamp t s.write.key ≤ (s.write.lastSourceEventAt : WithBot Timestamp) := by
    simp only [List.mem_flatMap, forall_exists_index, and_imp]
    exact ⟨fun h b hb s hs => h s b hb hs, fun h s b hb hs => h b hb s hs⟩
  rw [hstored, List.pairwise_flatMap]
  simp only [hpair, hstmt, spelled_iff]
  constructor
  · rintro ⟨hs, hspelled, hearlier⟩
    refine ⟨fun b hb => (stored_iff a b t).mp (hs b hb), ?_, hspelled⟩
    exact hearlier.imp fun {b b'} h => (earlier_iff a b b').mp h
  · rintro ⟨hs, hearlier, hspelled⟩
    refine ⟨fun b hb => (stored_iff a b t).mpr (hs b hb), hspelled, ?_⟩
    exact hearlier.imp fun {b b'} h => (earlier_iff a b b').mpr h

end Condition

/-! ### The reports -/

/-- The outcome that the code files a turn under. -/
def reported (turn : Turn) : HotMergeOutcome :=
  (if turn.1.creates then insertOnConflictHotCompletePath turn.1.write turn.2
    else updateHotIncompletePath turn.1.write turn.2).2

lemma mergeGroups_turns (a : WriteArgs Cell) (gs : List (HotGroup Cell)) (t : HotTable Cell) :
    (mergeGroups a gs t).2.map Prod.snd =
      (turns (gs.map fun g => ⟨a.loaded.hotComplete, hotParams a g⟩) t).map reported := by
  induction gs generalizing t with
  | nil => rfl
  | cons g gs ih =>
    rw [mergeGroups, List.map_cons, ih]
    rfl

lemma writeBatches_turns (d : Driver) (a : WriteArgs Cell) (c : String) (txs : ℕ → WriteChunk.Tx)
    (bs : List (List (EventRow Cell))) (db : Db)
    (h : (writeBatches d a c txs bs db).raised = none) :
    (writeBatches d a c txs bs db).db.hot =
        (bs.flatMap fun b => (Batch.events a b).program).foldl runStmt db.hot ∧
      (writeBatches d a c txs bs db).merges.map Prod.snd =
        (turns (bs.flatMap fun b => (Batch.events a b).program) db.hot).map reported := by
  induction bs generalizing txs db with
  | nil => exact ⟨rfl, rfl⟩
  | cons b bs ih =>
    have hlog := mergeGroups_turns a (sortGroups (groupHot b)) db.hot
    have hhot : (writeBatch d a c (txs 0).now b db).1.hot =
        (Batch.events a b).program.foldl runStmt db.hot := mergeGroups_fst a _ db.hot
    rw [writeBatches] at h ⊢
    dsimp only at h ⊢
    cases hf : (txs 0).fate with
    | raises e landed =>
      rw [hf] at h
      cases h
    | commits =>
      rw [hf] at h
      dsimp only at h ⊢
      split at h
      · rename_i hmiss
        rw [if_pos hmiss]
        obtain ⟨hdb, hrest⟩ := ih _ _ h
        rw [hhot] at hdb hrest
        refine ⟨?_, ?_⟩
        · rw [List.flatMap_cons, List.foldl_append]
          exact hdb
        · rw [ChunkRun.merges, List.flatMap_cons, List.map_append, List.flatMap_cons, turns_append,
            List.map_append]
          congr 1
      · cases h

lemma countP_merges {r : ChunkRun} {log : List Turn}
    (h : r.merges.map Prod.snd = log.map reported) (o : HotMergeOutcome) :
    r.merges.countP (fun m => m.2 = o) = log.countP fun turn => reported turn = o := by
  have hcount := congrArg (List.countP fun x => x = o) h
  rw [List.countP_map, List.countP_map] at hcount
  exact hcount

lemma writeChunk_turns (d : Driver) (a : WriteArgs Cell) (n : ℕ) (txs : ℕ → WriteChunk.Tx)
    (rows : List (EventRow Cell)) (db : Db) (h : (writeChunk d a n txs rows db).raised = none) :
    (writeChunk d a n txs rows db).db.hot = (chunkStatements a n rows).foldl runStmt db.hot ∧
      (writeChunk d a n txs rows db).merges.map Prod.snd =
        (turns (chunkStatements a n rows) db.hot).map reported := by
  unfold writeChunk at h ⊢
  split at h
  · cases h
  · exact writeBatches_turns d a _ txs _ db h

lemma chunk_truthful_iff (d : Driver) (a : WriteArgs Cell) (n : ℕ) (txs : ℕ → WriteChunk.Tx)
    (rows : List (EventRow Cell)) (db : Db) (h : (writeChunk d a n txs rows db).raised = none) :
    TellsTruth ((writeChunk d a n txs rows db).report a rows)
        (turns (chunkStatements a n rows) db.hot) ↔
      (a.loaded.hotComplete = false ∨ InTime a (batches rows n) db.hot) := by
  obtain ⟨-, hlog⟩ := writeChunk_turns d a n txs rows db h
  have hcreates : ∀ s ∈ chunkStatements a n rows, s.creates = a.loaded.hotComplete := by
    intro s hs
    obtain ⟨b, -, hs⟩ := List.mem_flatMap.mp hs
    obtain ⟨g, -, rfl⟩ := List.mem_map.mp hs
    rfl
  have hturn : ∀ turn ∈ turns (chunkStatements a n rows) db.hot,
      turn.1.creates = a.loaded.hotComplete := fun turn hturn =>
    hcreates _ (map_fst_turns (chunkStatements a n rows) db.hot ▸ List.mem_map_of_mem hturn)
  have hup : ((writeChunk d a n txs rows db).report a rows).hotRowsUpserted =
      (turns (chunkStatements a n rows) db.hot).countP fun turn => reported turn = .written :=
    countP_merges hlog .written
  have hnoop : ((writeChunk d a n txs rows db).report a rows).hotNoops =
      (turns (chunkStatements a n rows) db.hot).countP fun turn => reported turn = .noopOlder :=
    countP_merges hlog .noopOlder
  cases hc : a.loaded.hotComplete with
  | false =>
    refine iff_of_true ?_ (Or.inl rfl)
    rw [hc] at hturn
    -- the update path reports what its statement did
    have hpath : ∀ turn ∈ turns (chunkStatements a n rows) db.hot,
        (reported turn = .written ↔ tookEffect turn = true) ∧
          (reported turn = .noopOlder ↔ declined turn = true) := by
      rintro ⟨⟨creates, p⟩, t⟩ hmem
      have hfalse : creates = false := hturn _ hmem
      subst hfalse
      exact updateHotIncompletePath_truthful p t
    refine ⟨hup.trans (List.countP_congr fun turn hmem => ?_),
      hnoop.trans (List.countP_congr fun turn hmem => ?_)⟩
    · rw [decide_eq_true_iff]
      exact (hpath turn hmem).1
    · rw [decide_eq_true_iff]
      exact (hpath turn hmem).2
  | true =>
    rw [hc] at hturn hcreates
    -- the insert path says written whatever its statement did
    have hwritten : ∀ turn ∈ turns (chunkStatements a n rows) db.hot,
        reported turn = .written := by
      rintro ⟨⟨creates, p⟩, t⟩ hmem
      have htrue : creates = true := hturn _ hmem
      subst htrue
      exact insertOnConflict_snd p t
    have hall : (turns (chunkStatements a n rows) db.hot).countP
        (fun turn => reported turn = .written) = (chunkStatements a n rows).length := by
      rw [← length_turns _ db.hot, List.countP_eq_length]
      exact fun turn hmem => decide_eq_true (hwritten turn hmem)
    have hzero : (turns (chunkStatements a n rows) db.hot).countP
        (fun turn => reported turn = .noopOlder) = 0 := by
      rw [List.countP_eq_zero]
      intro turn hmem
      rw [hwritten turn hmem]
      decide
    rw [tellsTruth_iff hcreates db.hot (hup.trans hall) (hnoop.trans hzero),
      not_declined_iff hcreates, chunkStatements, inTime_iff]
    simp

lemma writeCatalogueBatches_fst (a : WriteArgs Cell) (txs : ℕ → WriteChunk.Tx)
    (bs : List (List (HotGroup Cell))) (t : HotTable Cell)
    (h : (writeCatalogueBatches a txs bs t).2 = none) :
    (writeCatalogueBatches a txs bs t).1 =
      (bs.flatMap fun b => (Batch.catalogue a b).program).foldl runStmt t := by
  induction bs generalizing txs t with
  | nil => rfl
  | cons b bs ih =>
    rw [writeCatalogueBatches] at h ⊢
    cases hf : (txs 0).fate with
    | raises e landed =>
      rw [hf] at h
      cases h
    | commits =>
      rw [hf] at h
      dsimp only at h ⊢
      rw [ih _ _ h, List.flatMap_cons, List.foldl_append, writeCatalogueBatch, Batch.program,
        List.foldl_map]
      rfl

lemma writeCatalogueChunk_hot (a : WriteArgs Cell) (n : ℕ) (txs : ℕ → WriteChunk.Tx)
    {result : MappingResult} {groups : List (HotGroup Cell)}
    (hg : catalogueGroups a.event result = .ok groups) (db : Db) {report : WriteReport}
    (h : (writeCatalogueChunk a n txs result db).2 = .ok report) :
    (writeCatalogueChunk a n txs result db).1.hot =
      (catalogueStatements a n groups).foldl runStmt db.hot := by
  rw [writeCatalogueChunk, hg] at h ⊢
  refine writeCatalogueBatches_fst a txs _ db.hot ?_
  dsimp only at h
  split at h
  · cases h
  · assumption

lemma mem_catalogueStatements {a : WriteArgs Cell} {n : ℕ} (hn : 1 ≤ n)
    {groups : List (HotGroup Cell)} {s : Stmt (HotParams Cell)} :
    s ∈ catalogueStatements a n groups ↔ ∃ g ∈ groups, s = ⟨true, catalogueParams a g⟩ := by
  have hflat : ∀ g, g ∈ groups ↔ ∃ b ∈ batches groups n, g ∈ b := by
    intro g
    rw [← List.mem_flatten, flatten_batches groups hn]
  simp only [catalogueStatements, List.mem_flatMap, Batch.program, List.mem_map, sortGroups,
    List.mem_insertionSort, hflat]
  constructor
  · rintro ⟨b, hb, g, hg, rfl⟩
    exact ⟨g, ⟨b, hb, hg⟩, rfl⟩
  · rintro ⟨g, ⟨b, hb, hg⟩, rfl⟩
    exact ⟨b, hb, g, hg, rfl⟩

lemma length_catalogueStatements (a : WriteArgs Cell) {n : ℕ} (hn : 1 ≤ n)
    (groups : List (HotGroup Cell)) :
    (catalogueStatements a n groups).length = groups.length := by
  have hflat := congrArg List.length (flatten_batches groups hn)
  rw [List.length_flatten] at hflat
  rw [catalogueStatements, List.length_flatMap, ← hflat]
  congr 1
  refine List.map_congr_left fun b _ => ?_
  simp [Batch.program, sortGroups]

/-- A catalogue chunk that returns tells the truth when no stored row of its keys is later than
the file. -/
lemma catalogue_truthful_iff (a : WriteArgs Cell) {n : ℕ} (hn : 1 ≤ n) (txs : ℕ → WriteChunk.Tx)
    {result : MappingResult} {groups : List (HotGroup Cell)}
    (hg : catalogueGroups a.event result = .ok groups) (db : Db) {report : WriteReport}
    (h : (writeCatalogueChunk a n txs result db).2 = .ok report) :
    TellsTruth report (turns (catalogueStatements a n groups) db.hot) ↔
      ∀ payload ∈ result.contribution, StoredBy db.hot (catalogueKey a payload)
        a.event.receivedTs := by
  have hreport : report.hotRowsUpserted = groups.length ∧ report.hotNoops = 0 := by
    rw [writeCatalogueChunk, hg] at h
    dsimp only at h
    split at h
    · cases h
    · cases h
      exact ⟨rfl, rfl⟩
  have hcreates : ∀ s ∈ catalogueStatements a n groups, s.creates = true := by
    intro s hs
    obtain ⟨g, -, rfl⟩ := (mem_catalogueStatements hn).mp hs
    rfl
  obtain ⟨hlen, rfl⟩ : result.contribution.length = result.sourceRowIndices.length ∧
      groups = (result.contribution.zip result.sourceRowIndices).map fun e =>
        catalogueGroup a.event e.1 e.2 := by
    unfold catalogueGroups at hg
    split at hg
    · cases hg
    · rename_i hlen
      split at hg
      · cases hg
      · cases hg
        exact ⟨not_not.mp hlen, rfl⟩
  have hpairs : ∀ P : Payload → Prop,
      (∀ e ∈ result.contribution.zip result.sourceRowIndices, P e.1) ↔
        ∀ payload ∈ result.contribution, P payload := by
    intro P
    have hfst := List.map_fst_zip hlen.le
    constructor
    · intro hall payload hp
      rw [← hfst] at hp
      obtain ⟨e, he, rfl⟩ := List.mem_map.mp hp
      exact hall e he
    · intro hall e he
      exact hall e.1 (hfst ▸ List.mem_map_of_mem he)
  rw [tellsTruth_iff hcreates db.hot (hreport.1.trans (length_catalogueStatements a hn _).symm)
    hreport.2, not_declined_iff hcreates, ← hpairs]
  -- every group of the file carries the time the file was received
  have htime : ∀ s ∈ catalogueStatements a n ((result.contribution.zip
      result.sourceRowIndices).map fun e => catalogueGroup a.event e.1 e.2),
      s.write.lastSourceEventAt = a.event.receivedTs := by
    intro s hs
    obtain ⟨g, hg, rfl⟩ := (mem_catalogueStatements hn).mp hs
    obtain ⟨e, -, rfl⟩ := List.mem_map.mp hg
    rfl
  constructor
  · rintro ⟨hstored, -⟩ e he
    have hs := hstored ⟨true, catalogueParams a (catalogueGroup a.event e.1 e.2)⟩
      ((mem_catalogueStatements hn).mpr ⟨_, List.mem_map_of_mem he, rfl⟩)
    exact storedBy_iff.mpr hs
  · intro hall
    refine ⟨fun s hs => ?_, ?_⟩
    · obtain ⟨g, hg, rfl⟩ := (mem_catalogueStatements hn).mp hs
      obtain ⟨e, he, rfl⟩ := List.mem_map.mp hg
      exact storedBy_iff.mp (hall e he)
    · refine List.pairwise_of_forall_mem_list fun s hs s' hs' _ => ?_
      rw [htime s hs, htime s' hs']

/-- **When a write reports the truth**: an event chunk when its mapping is incomplete or no group
of it comes late, a catalogue chunk when no stored row of its keys is later than the file. -/
theorem report_truthful_iff (a : WriteArgs Cell) (n : ℕ) (hn : 1 ≤ n) (txs : ℕ → WriteChunk.Tx)
    (db : Db) :
    (∀ d rows, (writeChunk d a n txs rows db).raised = none →
      (writeChunk d a n txs rows db).db.hot =
          (chunkStatements a n rows).foldl runStmt db.hot ∧
        (TellsTruth ((writeChunk d a n txs rows db).report a rows)
            (turns (chunkStatements a n rows) db.hot) ↔
          (a.loaded.hotComplete = false ∨ InTime a (batches rows n) db.hot))) ∧
    ∀ result groups report, catalogueGroups a.event result = .ok groups →
      (writeCatalogueChunk a n txs result db).2 = .ok report →
      (writeCatalogueChunk a n txs result db).1.hot =
          (catalogueStatements a n groups).foldl runStmt db.hot ∧
        (TellsTruth report (turns (catalogueStatements a n groups) db.hot) ↔
          ∀ payload ∈ result.contribution,
            StoredBy db.hot (catalogueKey a payload) a.event.receivedTs) := by
  refine ⟨fun d rows h => ⟨?_, chunk_truthful_iff d a n txs rows db h⟩,
    fun result groups report hg h => ⟨?_, catalogue_truthful_iff a hn txs hg db h⟩⟩
  · exact (writeChunk_turns d a n txs rows db h).1
  · exact writeCatalogueChunk_hot a n txs hg db h

/-- The stored row of sku `A`, last written at the given time. -/
def storedAt (ts : Timestamp) : Db :=
  ⟨⟨[{ tenantId := .ofNat 2, storeId := .ofNat 3, naturalKey := ("A", none, none)
       cells := fun _ => none, lastSourceEventAt := some ts
       lineage := ⟨1, .ofNat 1, "csv", none⟩ }], by simp⟩, fun _ => []⟩

/-- A catalogue of one article. -/
def oneArticle : MappingResult :=
  ⟨[Dict.ofList [("sku_id", some (.str "A")), ("unit_cost", some (.int 3))]], [0]⟩

def articleGroup : HotGroup Cell :=
  catalogueGroup (saleArgs (none : Cell)).event
    (Dict.ofList [("sku_id", some (.str "A")), ("unit_cost", some (.int 3))]) 0

/-- What the writer reports of the catalogue. -/
def articleReport : WriteReport := ⟨0, 1, 1, [], resolveSink .storeSkuCurrentPosition, 0⟩

/-- A catalogue received at 100 meets a row written at 200: it changes nothing and is reported as
one row written. -/
theorem stale_catalogue_reported :
    (writeCatalogueChunk (saleArgs none) 1 committing oneArticle (storedAt 200)).2 =
        .ok articleReport ∧
      ¬ TellsTruth articleReport
        (turns (catalogueStatements (saleArgs none) 1 [articleGroup]) (storedAt 200).hot) := by
  decide

/-- Over a row written at 50 the same report is true. -/
theorem fresh_catalogue_reported :
    TellsTruth articleReport
      (turns (catalogueStatements (saleArgs none) 1 [articleGroup]) (storedAt 50).hot) := by
  refine ((report_truthful_iff (saleArgs none) 1 (by decide) committing (storedAt 50)).2 oneArticle
    [articleGroup] articleReport rfl rfl).2.mpr ?_
  intro payload hp row hrow l hl
  rw [List.mem_singleton.mp hp] at hrow
  cases hrow
  cases hl
  decide

end CortexDis.ReportTruth
