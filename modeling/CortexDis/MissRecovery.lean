import CortexDis.Catalogue
import CortexDis.MissHistory

/-!
Recovery of a miss: a catalogue creates the missing rows, and the event chunk is delivered
again.

The catalogue stamps the rows it creates with its own receive time. The redelivered groups
are then offered to rows that carry that stamp, and an event older than the catalogue file is
declined.
-/

namespace CortexDis.MissRecovery

open CortexDis.PyDict CortexDis.Stamped CortexDis.Values CortexDis.GroupHot CortexDis.HotSink
open CortexDis.Canonical CortexDis.Errors CortexDis.WriteChunk CortexDis.HotWrites
open CortexDis.Catalogue CortexDis.MissHistory

/-! ### The merges of a batch, one by one -/

lemma length_mergeGroups (a : WriteArgs Cell) (gs : List (HotGroup Cell)) (t : HotTable Cell) :
    (mergeGroups a gs t).2.length = gs.length := by
  induction gs generalizing t with
  | nil => rfl
  | cons g gs ih => simp [mergeGroups, ih]

lemma getElem?_mergeGroups (a : WriteArgs Cell) (us : List (HotGroup Cell)) (g : HotGroup Cell)
    (vs : List (HotGroup Cell)) (t : HotTable Cell) :
    (mergeGroups a (us ++ g :: vs) t).2[us.length]? =
      some (g, (upsertHot a g (mergeGroups a us t).1).2) := by
  rw [mergeGroups_append, List.getElem?_append_right (by rw [length_mergeGroups])]
  simp [length_mergeGroups, mergeGroups]

/-- On the update path a group is written exactly when its row, after the groups before it,
has a stamp that is not later. -/
lemma written_iff {a : WriteArgs Cell} (ha : a.loaded.hotComplete = false)
    (us : List (HotGroup Cell)) (g : HotGroup Cell) {t : HotTable Cell} {row : HotRow Cell}
    (hrow : t.find? (hotParams a g).key = some row) :
    (upsertHot a g (mergeGroups a us t).1).2 = .written ↔
      register.stamp (register.run ((us.map (hotParams a)).filter
        fun p => (hotParams a g).key = p.key) row) ≤ (g.lastSourceEventAt : WithBot Timestamp) := by
  have hup : upsertHot a g (mergeGroups a us t).1 =
      updateHotIncompletePath (hotParams a g) (mergeGroups a us t).1 := by simp [upsertHot, ha]
  rw [hup, updateHotIncompletePath_snd, (mergeGroups_incomplete ha us t).1, find?_foldl_update,
    hrow]
  dsimp only [Option.map_some]
  rw [← show ((register.time (hotParams a g) : Timestamp) : WithBot Timestamp) =
    g.lastSourceEventAt from rfl, ← notOlder_iff]
  split <;> simp_all

/-! ### A batch offered to created rows -/

/-- The event times of the batch's groups of a missing key, in the order they are merged, are
not below the stamp `r` of its new row nor below one another. -/
def Onboarded (a : WriteArgs Cell) (r : Timestamp) (t₀ : HotTable Cell)
    (batch : List (EventRow Cell)) : Prop :=
  ∀ k, t₀.find? k = none →
    (r :: ((sortGroups (groupHot batch)).filter fun g => k = (hotParams a g).key).map
      (·.lastSourceEventAt)).Pairwise (· ≤ ·)

lemma pairwise_coe (l : List Timestamp) :
    (l.map fun t : Timestamp => (t : WithBot Timestamp)).Pairwise (· ≤ ·) ↔ l.Pairwise (· ≤ ·) := by
  rw [List.pairwise_map]
  simp only [WithBot.coe_le_coe]

/-- All the groups of one key are written exactly when their times do not decrease from the
row's stamp on. -/
lemma written_all_iff {a : WriteArgs Cell} (ha : a.loaded.hotComplete = false)
    {r : Timestamp} {t : HotTable Cell} {k : HotKey} {row : HotRow Cell}
    (hrow : t.find? k = some row) (hr : row.lastSourceEventAt = some r)
    (gs : List (HotGroup Cell)) :
    (∀ us g vs, gs = us ++ g :: vs → k = (hotParams a g).key →
      (upsertHot a g (mergeGroups a us t).1).2 = .written) ↔
    (r :: (gs.filter fun g => k = (hotParams a g).key).map (·.lastSourceEventAt)).Pairwise
      (· ≤ ·) := by
  have hstamp : register.stamp row = (r : WithBot Timestamp) := hr
  -- the groups of the key, as writes to its register
  have htimes : register.stamp row :: ((gs.map (hotParams a)).filter fun p => k = p.key).map
      (fun p => ((register.time p : Timestamp) : WithBot Timestamp)) =
      (r :: (gs.filter fun g => k = (hotParams a g).key).map (·.lastSourceEventAt)).map
        fun t : Timestamp => (t : WithBot Timestamp) := by
    rw [hstamp, List.filter_map, List.map_map, List.map_cons, List.map_map]
    rfl
  rw [← pairwise_coe, ← htimes, ← register.takes_all_iff]
  constructor
  · intro h us p vs hsplit hp
    obtain ⟨us', vs', rfl, rfl, hvs⟩ := List.map_eq_append_iff.mp hsplit
    obtain ⟨g, vs'', rfl, rfl, _⟩ := List.map_eq_cons_iff.mp hvs
    have hk : k = (hotParams a g).key := by simpa using hp
    subst hk
    exact (written_iff ha us' g hrow).mp (h us' g vs'' rfl rfl)
  · intro h us g vs hsplit hk
    subst hk hsplit
    exact (written_iff ha us g hrow).mpr
      (h (us.map (hotParams a)) (hotParams a g) (vs.map (hotParams a)) (by simp) (by simp))

lemma batch_recovered_iff {a : WriteArgs Cell} (ha : a.loaded.hotComplete = false)
    {r : Timestamp} {t₀ t : HotTable Cell} {batch : List (EventRow Cell)}
    (hnew : ∀ g ∈ sortGroups (groupHot batch), t₀.find? (hotParams a g).key = none →
      ∃ row, t.find? (hotParams a g).key = some row ∧ row.lastSourceEventAt = some r) :
    (∀ us g vs, sortGroups (groupHot batch) = us ++ g :: vs →
      t₀.find? (hotParams a g).key = none →
        (upsertHot a g (mergeGroups a us t).1).2 = .written) ↔ Onboarded a r t₀ batch := by
  unfold Onboarded
  constructor
  · intro h k hk
    by_cases hex : ∃ g ∈ sortGroups (groupHot batch), k = (hotParams a g).key
    · obtain ⟨g, hg, rfl⟩ := hex
      obtain ⟨row, hrow, hr⟩ := hnew g hg hk
      refine (written_all_iff ha hrow hr _).mp fun us g' vs hsplit hk' => h us g' vs hsplit ?_
      rw [← hk']
      exact hk
    · have hnil : (sortGroups (groupHot batch)).filter
          (fun g => k = (hotParams a g).key) = [] := by
        rw [List.filter_eq_nil_iff]
        intro g hg
        simpa using fun heq => hex ⟨g, hg, heq⟩
      rw [hnil]
      simp
  · intro h us g vs hsplit hk
    obtain ⟨row, hrow, hr⟩ := hnew g (by simp [hsplit]) hk
    exact (written_all_iff ha hrow hr _).mpr (h _ hk) us g vs hsplit rfl

/-! ### The two runs side by side -/

section

variable (d : Driver) {a : WriteArgs Cell} (c : String) (ha : a.loaded.hotComplete = false)

include ha

lemma find?_writeBatches (txs : ℕ → Tx) (bs : List (List (EventRow Cell))) (db : Db)
    (k : HotKey) :
    (writeBatches d a c txs bs db).db.hot.find? k = none ↔ db.hot.find? k = none := by
  induction bs generalizing txs db with
  | nil => exact Iff.rfl
  | cons b bs ih =>
    have hb := find?_writeBatch d c ha (txs 0).now b db k
    rw [writeBatches]
    cases (txs 0).fate with
    | raises e landed => cases landed with
      | true => exact hb
      | false => exact Iff.rfl
    | commits =>
      dsimp only
      split
      · exact (ih _ _).trans hb
      · exact hb

lemma writeBatches_append {txs : ℕ → Tx} {pre : List (List (EventRow Cell))}
    (htx : ∀ i < pre.length, (txs i).fate = .commits) {db : Db}
    (hpre : ∀ p ∈ pre, AllExist a p db.hot) (bs : List (List (EventRow Cell))) :
    ∃ logs db', List.Forall₂ (Logged a db.hot) pre logs ∧ db'.hot = hotAfter a pre db.hot ∧
      (writeBatches d a c txs (pre ++ bs) db).log =
        logs ++ (writeBatches d a c (fun i => txs (i + pre.length)) bs db').log := by
  induction pre generalizing txs db with
  | nil => exact ⟨[], db, List.Forall₂.nil, rfl, rfl⟩
  | cons b pre ih =>
    obtain ⟨hhot, hmiss⟩ := writeBatch_of_exists d a c (txs 0).now (hpre b List.mem_cons_self)
    have hlog := logged_writeBatch d c ha (txs 0).now b db
    have hrest : ∀ p ∈ pre, AllExist a p (writeBatch d a c (txs 0).now b db).1.hot := by
      intro p hp
      rw [hhot]
      exact (hpre p (List.mem_cons_of_mem _ hp)).update _
    have htail : ∀ i < pre.length, (txs (i + 1)).fate = .commits := fun i hi =>
      htx (i + 1) (by simpa using hi)
    obtain ⟨logs, db', hlogs, hdb', hrun⟩ := ih htail hrest
    refine ⟨_ :: logs, db',
      List.Forall₂.cons hlog (hlogs.imp fun _ _ hl => hl.of_writeBatch d c ha),
      ?_, ?_⟩
    · rw [hdb', hhot, hotAfter_cons]
    · rw [List.cons_append, writeBatches, htx 0 (by simp)]
      dsimp only
      rw [if_pos hmiss]
      dsimp only
      rw [hrun, List.cons_append]
      simp only [List.length_cons, Nat.add_comm, Nat.add_left_comm]

omit ha

lemma map_fst_merges {t : HotTable Cell} {bs : List (List (EventRow Cell))}
    {logs : List BatchLog} (h : List.Forall₂ (Logged a t) bs logs) :
    (logs.flatMap (·.merges)).map Prod.fst = bs.flatMap fun b => sortGroups (groupHot b) := by
  induction h with
  | nil => rfl
  | cons hl _ ih => rw [List.flatMap_cons, List.map_append, ih, hl.groups, List.flatMap_cons]

lemma not_missing_of_allExist {t : HotTable Cell} {bs : List (List (EventRow Cell))}
    {logs : List BatchLog} (h : List.Forall₂ (Logged a t) bs logs)
    (hex : ∀ b ∈ bs, AllExist a b t) : ∀ m ∈ logs.flatMap (·.merges), m.2 ≠ .missing := by
  induction h with
  | nil => simp
  | @cons b log bs logs hl _ ih =>
    intro m hm
    rcases List.mem_append.mp hm with hm' | hm'
    · have hg : m.1 ∈ sortGroups (groupHot b) := by
        rw [← hl.groups]
        exact List.mem_map_of_mem hm'
      obtain ⟨row, hrow, hk⟩ := exists_row_of_mem_sortGroups hg
      refine hl.merged.2 m hm' ?_
      rw [key_hotParams a hk]
      exact hex b List.mem_cons_self row hrow
    · exact ih (fun b' hb' => hex b' (List.mem_cons_of_mem _ hb')) m hm'

lemma find?_hotAfter_of_absent {t₀ : HotTable Cell} {bs : List (List (EventRow Cell))}
    (hex : ∀ b ∈ bs, AllExist a b t₀) {k : HotKey} (hk : t₀.find? k = none)
    (t : HotTable Cell) : (hotAfter a bs t).find? k = t.find? k := by
  have hnil : (bs.flatMap (hotUpdates a)).filter (fun p => k = p.key) = [] := by
    rw [List.filter_eq_nil_iff]
    intro p hp
    obtain ⟨b, hb, hp'⟩ := List.mem_flatMap.mp hp
    obtain ⟨g, hg, rfl⟩ := List.mem_map.mp hp'
    obtain ⟨row, hrow, hkey⟩ := exists_row_of_mem_sortGroups hg
    have hsome := hex b hb row hrow
    rw [← key_hotParams a hkey] at hsome
    intro heq
    rw [← of_decide_eq_true heq, hk] at hsome
    cases hsome
  rw [hotAfter, find?_foldl_update, hnil]
  cases t.find? k <;> rfl

end

lemma forall₂_snoc {α β : Type*} {r : α → β → Prop} {l : List α} {x : α} {m : List β}
    (h : List.Forall₂ r (l ++ [x]) m) : ∃ m' y, m = m' ++ [y] ∧ List.Forall₂ r l m' ∧ r x y := by
  induction l generalizing m with
  | nil =>
    obtain ⟨y, m', hr, hnil, rfl⟩ := List.forall₂_cons_left_iff.mp h
    cases hnil
    exact ⟨[], y, rfl, List.Forall₂.nil, hr⟩
  | cons z l ih =>
    obtain ⟨w, m', hr, htail, rfl⟩ := List.forall₂_cons_left_iff.mp h
    obtain ⟨m'', y, rfl, hl, hy⟩ := ih htail
    exact ⟨w :: m'', y, rfl, List.Forall₂.cons hr hl, hy⟩

/-- The statements of the merges of a key, in order. -/
def statementsOf (a : WriteArgs Cell) (k : HotKey) (ms : List Merge) : List (HotParams Cell) :=
  (ms.map fun m => hotParams a m.1).filter fun p => k = p.key

/-- The merge `i` of the run is that of the group, and its columns and its stamp are written on
its row: what the table holds in the end is the row so written, and then offered the statements
that follow. -/
structure Lands (a : WriteArgs Cell) (created : HotTable Cell) (run : ChunkRun) (i : ℕ)
    (g : HotGroup Cell) : Prop where
  written : run.merges[i]? = some (g, .written)
  row : ∃ row, created.find? (hotParams a g).key = some row ∧
    run.db.hot.find? (hotParams a g).key = some (register.run
      (statementsOf a (hotParams a g).key (run.merges.drop (i + 1))) ((hotParams a g).write
        (register.run (statementsOf a (hotParams a g).key (run.merges.take i)) row)))

/-- Every group the first run missed lands, at the same place, in the second, which starts on the
table `created`. -/
def Recovered (a : WriteArgs Cell) (created : HotTable Cell) (first second : ChunkRun) : Prop :=
  ∀ (i : ℕ) (g : HotGroup Cell), first.merges[i]? = some (g, .missing) →
    Lands a created second i g

lemma merges_eq_mergeGroups (d : Driver) (a : WriteArgs Cell) (c : String) {txs : ℕ → Tx}
    {bs : List (List (EventRow Cell))} (htx : ∀ i < bs.length, (txs i).fate = .commits) (db : Db) :
    ∃ gs, (writeBatches d a c txs bs db).merges = (mergeGroups a gs db.hot).2 ∧
      (writeBatches d a c txs bs db).db.hot = (mergeGroups a gs db.hot).1 := by
  induction bs generalizing txs db with
  | nil => exact ⟨[], rfl, rfl⟩
  | cons b bs ih =>
    obtain ⟨gs, hmerges, hhot⟩ := ih
      (fun i hi => htx (i + 1) (by simpa using hi)) (writeBatch d a c (txs 0).now b db).1
    rw [writeBatches, htx 0 (by simp)]
    dsimp only
    split
    · refine ⟨sortGroups (groupHot b) ++ gs, ?_, ?_⟩
      · rw [mergeGroups_append, ChunkRun.merges, List.flatMap_cons]
        exact congrArg _ hmerges
      · rw [mergeGroups_append]
        exact hhot
    · refine ⟨sortGroups (groupHot b), ?_, rfl⟩
      rw [ChunkRun.merges, List.flatMap_singleton]
      rfl

lemma statementsOf_eq (a : WriteArgs Cell) (k : HotKey) (ms : List Merge) :
    statementsOf a k ms = ((ms.map Prod.fst).map (hotParams a)).filter fun p => k = p.key := by
  rw [statementsOf, List.map_map]
  rfl

lemma lands_of_written (d : Driver) {a : WriteArgs Cell} (c : String)
    (ha : a.loaded.hotComplete = false) {txs : ℕ → Tx} {bs : List (List (EventRow Cell))}
    (htx : ∀ i < bs.length, (txs i).fate = .commits) (db : Db) {i : ℕ} {g : HotGroup Cell}
    (h : (writeBatches d a c txs bs db).merges[i]? = some (g, .written)) :
    Lands a db.hot (writeBatches d a c txs bs db) i g := by
  obtain ⟨gs, hmerges, hhot⟩ := merges_eq_mergeGroups d a c htx db
  obtain ⟨htable, hgroups, hmissing⟩ := mergeGroups_incomplete ha gs db.hot
  refine ⟨h, ?_⟩
  rw [hhot, htable, hmerges]
  rw [hmerges] at h
  -- the groups before it, and those that follow
  obtain ⟨us, vs, rfl, rfl⟩ : ∃ us vs, gs = us ++ g :: vs ∧ us.length = i := by
    have hg : gs[i]? = some g := by
      rw [← hgroups, List.getElem?_map, h]
      rfl
    obtain ⟨hi, rfl⟩ := List.getElem?_eq_some_iff.mp hg
    refine ⟨gs.take i, gs.drop (i + 1), ?_, List.length_take_of_le hi.le⟩
    rw [← List.drop_eq_getElem_cons hi, List.take_append_drop]
  have hwritten : (upsertHot a g (mergeGroups a us db.hot).1).2 = .written := by
    rw [getElem?_mergeGroups] at h
    exact (Prod.mk.inj (Option.some.inj h)).2
  cases hrow : db.hot.find? (hotParams a g).key with
  | none =>
    have hmiss := (hmissing _ (List.mem_of_getElem? h)).mpr hrow
    cases hmiss
  | some row =>
    have htaken : register.stamp (register.run ((us.map (hotParams a)).filter
        fun p => (hotParams a g).key = p.key) row) ≤
          ((register.time (hotParams a g) : Timestamp) : WithBot Timestamp) :=
      (written_iff ha us g hrow).mp hwritten
    have hbefore : (((mergeGroups a (us ++ g :: vs) db.hot).2.take us.length).map Prod.fst) =
        us := by
      rw [List.map_take, hgroups, List.take_left]
    have hafter : (((mergeGroups a (us ++ g :: vs) db.hot).2.drop (us.length + 1)).map
        Prod.fst) = vs := by
      rw [List.map_drop, hgroups, List.drop_append, List.drop_eq_nil_of_le (by omega)]
      simp
    refine ⟨row, rfl, ?_⟩
    rw [find?_foldl_update, hrow, statementsOf_eq, statementsOf_eq, hbefore, hafter]
    simp only [List.map_append, List.map_cons, List.filter_append, List.filter_cons, decide_true,
      if_true, Option.map_some, Register.run_append, Register.run_cons, register.offer_of_le htaken]
    rfl

lemma writtenAgain_iff {a : WriteArgs Cell} {t₀ t : HotTable Cell} {b : List (EventRow Cell)}
    {pre pre' : List BatchLog} {lb : BatchLog} {rest : List Merge} {first second : ChunkRun}
    (hfirst : first.merges = pre.flatMap (·.merges) ++ lb.merges)
    (hsecond : second.merges =
      pre'.flatMap (·.merges) ++ ((mergeGroups a (sortGroups (groupHot b)) t).2 ++ rest))
    (hlen : (pre.flatMap (·.merges)).length = (pre'.flatMap (·.merges)).length)
    (hpre : ∀ m ∈ pre.flatMap (·.merges), m.2 ≠ .missing) (hlb : Logged a t₀ b lb) :
    (∀ (i : ℕ) (g : HotGroup Cell), first.merges[i]? = some (g, .missing) →
        second.merges[i]? = some (g, .written)) ↔
      ∀ us g vs, sortGroups (groupHot b) = us ++ g :: vs → t₀.find? (hotParams a g).key = none →
        (upsertHot a g (mergeGroups a us t).1).2 = .written := by
  rw [hfirst, hsecond]
  -- a group of this batch stands behind the merges of the batches before it
  have hmerge : ∀ us g vs, sortGroups (groupHot b) = us ++ g :: vs →
      (pre'.flatMap (·.merges) ++ ((mergeGroups a (sortGroups (groupHot b)) t).2 ++ rest))[
        (pre.flatMap (·.merges)).length + us.length]? =
      some (g, (upsertHot a g (mergeGroups a us t).1).2) := by
    intro us g vs hsplit
    rw [hlen, List.getElem?_append_right (by omega), Nat.add_sub_cancel_left,
      List.getElem?_append_left, hsplit, getElem?_mergeGroups]
    rw [hsplit, length_mergeGroups]
    simp
  constructor
  · intro h us g vs hsplit hk
    have hlb' : lb.merges[us.length]? = some (g, .missing) := by
      have hg : (lb.merges.map Prod.fst)[us.length]? = some g := by
        rw [hlb.groups, hsplit]
        simp
      rw [List.getElem?_map] at hg
      obtain ⟨m, hm, rfl⟩ := Option.map_eq_some_iff.mp hg
      rw [hm, ← (hlb.missing m (List.mem_of_getElem? hm)).mpr hk]
    have hwritten := h ((pre.flatMap (·.merges)).length + us.length) g (by
      rw [List.getElem?_append_right (by omega), Nat.add_sub_cancel_left]
      exact hlb')
    rw [hmerge us g vs hsplit] at hwritten
    simpa using hwritten
  · intro h i g hi
    rcases Nat.lt_or_ge i (pre.flatMap (·.merges)).length with hlt | hge
    · rw [List.getElem?_append_left hlt] at hi
      exact absurd rfl (hpre _ (List.mem_of_getElem? hi))
    · rw [List.getElem?_append_right hge] at hi
      have hk := (hlb.missing _ (List.mem_of_getElem? hi)).mp rfl
      have hg : (sortGroups (groupHot b))[i - (pre.flatMap (·.merges)).length]? = some g := by
        rw [← hlb.groups, List.getElem?_map, hi]
        rfl
      obtain ⟨hj, rfl⟩ := List.getElem?_eq_some_iff.mp hg
      have hsplit := List.take_append_drop (i - (pre.flatMap (·.merges)).length)
        (sortGroups (groupHot b))
      rw [List.drop_eq_getElem_cons hj] at hsplit
      have hwritten := hmerge _ _ _ hsplit.symm
      rw [h _ _ _ hsplit.symm hk, List.length_take_of_le hj.le, Nat.add_sub_cancel' hge]
        at hwritten
      exact hwritten

lemma merges_writeBatches (d : Driver) {a : WriteArgs Cell} (c : String)
    (ha : a.loaded.hotComplete = false) {pre post : List (List (EventRow Cell))}
    {b : List (EventRow Cell)} {txs : ℕ → Tx}
    (htx : ∀ i < (pre ++ b :: post).length, (txs i).fate = .commits) {db : Db}
    (hpre : ∀ p ∈ pre, AllExist a p db.hot) (hb : AllExist a b db.hot) :
    ∃ logs rest, List.Forall₂ (Logged a db.hot) pre logs ∧
      (writeBatches d a c txs (pre ++ b :: post) db).merges =
        logs.flatMap (·.merges) ++
          ((mergeGroups a (sortGroups (groupHot b)) (hotAfter a pre db.hot)).2 ++ rest) := by
  simp only [List.length_append, List.length_cons] at htx
  obtain ⟨logs, db', hlogs, hdb', hrun⟩ := writeBatches_append d c ha
    (fun i hi => htx i (by omega)) hpre (b :: post)
  have hb' : AllExist a b db'.hot := by
    rw [hdb']
    exact hb.update _
  have hnow := (writeBatch_of_exists d a c (txs (0 + pre.length)).now hb').2
  refine ⟨logs, (writeBatches d a c (fun i => txs (i + 1 + pre.length)) post
    (writeBatch d a c (txs (0 + pre.length)).now b db').1).merges, hlogs, ?_⟩
  rw [ChunkRun.merges, hrun, List.flatMap_append, writeBatches,
    htx (0 + pre.length) (by omega)]
  dsimp only
  rw [if_pos hnow]
  dsimp only
  rw [List.flatMap_cons, ← hdb']
  rfl

/-- **When a miss recovers.** After a chunk raised for missing positions and a catalogue
created their rows, every group that was missed lands on its row in the redelivered chunk
exactly when, in the batch that missed, the event times of each missing key are not below the
catalogue's receive time (nor decrease, where two spellings share the key). -/
theorem miss_recovered_iff (d : Driver) (a : WriteArgs Cell) (n : ℕ)
    (rows : List (EventRow Cell)) (db : Db) {txs : ℕ → Tx} (htx : NoForeignMiss txs) {k : ℕ}
    (hmiss : (writeChunk d a n txs rows db).raised = some (.hotPositionMissing k))
    (cat : WriteArgs Cell) {m : ℕ} (hm : 1 ≤ m) (ctxs : ℕ → Tx) (result : MappingResult)
    (hcreated : ∀ e ∈ (writeChunk d a n txs rows db).merges, e.2 = .missing →
      ((writeCatalogueChunk cat m ctxs result (writeChunk d a n txs rows db).db).1.hot.find?
        (hotParams a e.1).key).isSome)
    {txs' : ℕ → Tx} (htx' : ∀ i < (batches rows n).length, (txs' i).fate = .commits) :
    Recovered a
        (writeCatalogueChunk cat m ctxs result (writeChunk d a n txs rows db).db).1.hot
        (writeChunk d a n txs rows db) (writeChunk d a n txs' rows
          (writeCatalogueChunk cat m ctxs result (writeChunk d a n txs rows db).db).1) ↔
      ∀ b ∈ (batches rows n).find? (fun b => ¬ AllExist a b db.hot),
        Onboarded a cat.event.receivedTs db.hot b := by
  obtain ⟨hnew, hkeeps⟩ := writeCatalogueChunk_newAt cat hm ctxs result
    (writeChunk d a n txs rows db).db
  generalize hcat : (writeCatalogueChunk cat m ctxs result
    (writeChunk d a n txs rows db).db).1 = db₂ at *
  unfold writeChunk at *
  cases hts : eventTsColumn a.loaded.targetModel with
  | none => simp [hts] at hmiss
  | some c =>
    simp only [hts] at *
    have ha := hotComplete_of_miss htx hmiss
    obtain ⟨pre, b, post, hbs, hpre, hb, hlogs, -⟩ := writeBatches_miss d c ha htx hmiss
    obtain ⟨logs, lb, hlog, hlogs, hlb⟩ := forall₂_snoc hlogs
    have hfind : (batches rows n).find? (fun b => ¬ AllExist a b db.hot) = some b := by
      rw [hbs, List.find?_append, List.find?_eq_none.mpr]
      · simp [hb]
      · intro p hp
        simp [hpre p hp]
    simp only [hfind, Option.mem_some_iff, forall_eq']
    have habsent : ∀ k, (writeBatches d a c txs (batches rows n) db).db.hot.find? k = none ↔
        db.hot.find? k = none := find?_writeBatches d c ha txs _ db
    have hsome : ∀ k, (db.hot.find? k).isSome → (db₂.hot.find? k).isSome := fun k hk => by
      refine hkeeps k ?_
      rw [Option.isSome_iff_ne_none] at hk ⊢
      exact fun h => hk ((habsent k).mp h)
    have hpre₂ : ∀ p ∈ pre, AllExist a p db₂.hot := fun p hp row hrow =>
      hsome _ (hpre p hp row hrow)
    -- the groups of `b` without a row were missed, so the catalogue created their rows
    have hgroups : ∀ g ∈ sortGroups (groupHot b), db.hot.find? (hotParams a g).key = none →
        (db₂.hot.find? (hotParams a g).key).isSome := by
      intro g hg hk
      rw [← hlb.groups] at hg
      obtain ⟨e, he, rfl⟩ := List.mem_map.mp hg
      refine hcreated e ?_ ((hlb.missing e he).mpr hk)
      rw [ChunkRun.merges, hlog]
      simp [he]
    have hb₂ : AllExist a b db₂.hot := by
      intro row hrow
      obtain ⟨g, hg, hk⟩ := exists_group_of_mem hrow
      rw [← key_hotParams a hk]
      cases hex : db.hot.find? (hotParams a g).key with
      | none => exact hgroups g hg hex
      | some r => exact hsome _ (by rw [hex]; rfl)
    have hlands : Recovered a db₂.hot (writeBatches d a c txs (batches rows n) db)
        (writeBatches d a c txs' (batches rows n) db₂) ↔
        ∀ (i : ℕ) (g : HotGroup Cell),
          (writeBatches d a c txs (batches rows n) db).merges[i]? = some (g, .missing) →
          (writeBatches d a c txs' (batches rows n) db₂).merges[i]? = some (g, .written) :=
      ⟨fun h i g hg => (h i g hg).written, fun h i g hg => lands_of_written d c ha htx' db₂
        (h i g hg)⟩
    rw [hlands, hbs]
    rw [hbs] at htx'
    obtain ⟨logs', rest, hlogs', hmerges⟩ := merges_writeBatches d c ha htx' hpre₂ hb₂
    have hfirst : (writeBatches d a c txs (pre ++ b :: post) db).merges =
        logs.flatMap (·.merges) ++ lb.merges := by
      rw [ChunkRun.merges, ← hbs, hlog]
      simp
    have hlen : (logs.flatMap (·.merges)).length = (logs'.flatMap (·.merges)).length := by
      rw [← List.length_map Prod.fst, map_fst_merges hlogs, ← map_fst_merges hlogs',
        List.length_map]
    rw [writtenAgain_iff hfirst hmerges hlen (not_missing_of_allExist hlogs hpre) hlb]
    refine batch_recovered_iff ha fun g hg hk => ?_
    rw [find?_hotAfter_of_absent hpre hk]
    obtain ⟨row, hrow⟩ := Option.isSome_iff_exists.mp (hgroups g hg hk)
    exact ⟨row, hrow, hnew _ ((habsent _).mpr hk) row hrow⟩

/-! ### An event older than the catalogue -/

/-- A sale of a sku that has no position, at event time `ts`. -/
def unseenSale (ts : Timestamp) : List (EventRow Cell) :=
  [rowAt "new" ts 0 [("unit_cost", some (.int 3))]]

/-- A catalogue file received at `r` that holds the sku. -/
def catalogueArgs (r : Timestamp) : WriteArgs Cell :=
  { saleArgs (none : Cell) with
    event := { (saleArgs (none : Cell)).event with receivedTs := r, traceId := .ofNat 9 } }

def catalogueOfNew : MappingResult where
  contribution := [Dict.ofList [("sku_id", some (.str "new")), ("product_name", some (.str "New")),
    ("current_retail_price", some (.int 7)), ("currency", some (.str "EUR")),
    ("tax_treatment", some (.str "INCLUSIVE"))]]
  sourceRowIndices := [0]

/-- The sale happened before the catalogue file was received, and stays off the row. -/
theorem older_sale_never_lands :
    ¬ ∀ (d : Driver) (a cat : WriteArgs Cell) (n m k : ℕ) (rows : List (EventRow Cell)) (db : Db)
        (result : MappingResult), 1 ≤ n → 1 ≤ m →
      (writeChunk d a n committing rows db).raised = some (.hotPositionMissing k) →
      a.event.receivedTs < cat.event.receivedTs →
      (∀ e ∈ (writeChunk d a n committing rows db).merges, e.2 = .missing →
        ((writeCatalogueChunk cat m committing result
          (writeChunk d a n committing rows db).db).1.hot.find? (hotParams a e.1).key).isSome) →
      Recovered a (writeCatalogueChunk cat m committing result
          (writeChunk d a n committing rows db).db).1.hot
        (writeChunk d a n committing rows db) (writeChunk d a n committing rows
          (writeCatalogueChunk cat m committing result
            (writeChunk d a n committing rows db).db).1) := by
  intro h
  have hrec := h plainDriver (saleArgs none) (catalogueArgs 200) 1 1 1 (unseenSale 10)
    ⟨tableOf "sku" none, fun _ => []⟩ catalogueOfNew (by decide) (by decide) (by decide) (by decide)
    (by decide)
  have hnoop : ((writeChunk plainDriver (saleArgs none) 1 committing (unseenSale 10)
      (writeCatalogueChunk (catalogueArgs 200) 1 committing catalogueOfNew
        (writeChunk plainDriver (saleArgs none) 1 committing (unseenSale 10)
          ⟨tableOf "sku" none, fun _ => []⟩).db).1).merges.map Prod.snd)[0]? =
      some .noopOlder := by decide
  have hmissed : (writeChunk plainDriver (saleArgs none) 1 committing (unseenSale 10)
      ⟨tableOf "sku" none, fun _ => []⟩).merges[0]? =
      some (HotGroup.ofRow (rowAt "new" 10 0 [("unit_cost", some (.int 3))]), .missing) := by rfl
  rw [List.getElem?_map, (hrec 0 _ hmissed).written] at hnoop
  cases hnoop

/-- The event chunk delivered again, after the catalogue file. -/
def saleAgain : ChunkRun :=
  writeChunk plainDriver (saleArgs none) 1 committing (unseenSale 300)
    (writeCatalogueChunk (catalogueArgs 200) 1 committing catalogueOfNew
      (writeChunk plainDriver (saleArgs none) 1 committing (unseenSale 300)
        ⟨tableOf "sku" none, fun _ => []⟩).db).1

/-- A sale dated after the catalogue file lands on the created row. -/
theorem later_sale_lands :
    Recovered (saleArgs none)
      (writeCatalogueChunk (catalogueArgs 200) 1 committing catalogueOfNew
        (writeChunk plainDriver (saleArgs none) 1 committing (unseenSale 300)
          ⟨tableOf "sku" none, fun _ => []⟩).db).1.hot
      (writeChunk plainDriver (saleArgs none) 1 committing (unseenSale 300)
        ⟨tableOf "sku" none, fun _ => []⟩) saleAgain ∧
    (saleAgain.db.hot.find? (.ofNat 2, .ofNat 3, "new", "", "")).map (fun row =>
      (row.cells "unit_cost", row.lastSourceEventAt)) = some (some (.int 3), some 300) := by
  refine ⟨(miss_recovered_iff plainDriver (saleArgs none) 1 (unseenSale 300) _
    (fun _ _ _ hf => by simp [committing] at hf) (k := 1) (by decide) (catalogueArgs 200)
    (by decide) committing catalogueOfNew (by decide) fun _ _ => rfl).mpr ?_, by decide⟩
  intro b hb
  have hb' : b = unseenSale 300 := by
    have hfind : (batches (unseenSale 300) 1).find? (fun b => ¬ AllExist (saleArgs none) b
        (tableOf "sku" none)) = some (unseenSale 300) := by rfl
    rw [Option.mem_def, hfind] at hb
    exact (Option.some.inj hb).symm
  subst hb'
  intro k _
  have hgroups : sortGroups (groupHot (unseenSale 300)) =
      [HotGroup.ofRow (rowAt "new" 300 0 [("unit_cost", some (.int 3))])] := by rfl
  rw [hgroups]
  have htimes : ([200, 300] : List Timestamp).Pairwise (· ≤ ·) := by decide
  exact htimes.sublist ((List.filter_sublist.map _).cons_cons _)

end CortexDis.MissRecovery
