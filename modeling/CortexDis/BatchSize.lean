import CortexDis.Redelivery

/-!
The hot merge under different batch sizes.

Inside a batch an older row still fills the columns its group lacks; across batches it
changes nothing. So a column can depend on where the batches are cut: it holds what the last
group that is in time supplies. The stamp cannot, and neither can a column whose last row, among the
rows of its key, is not late, nor one that the last of the newest rows asserts.
-/

namespace CortexDis.BatchSize

open CortexDis.PyDict CortexDis.Stamped CortexDis.Values CortexDis.GroupHot CortexDis.HotSink
open CortexDis.Canonical CortexDis.WriteChunk CortexDis.HotWrites CortexDis.Redelivery

/-- The statements of the batches that match a key, in order. -/
def updatesOf (a : WriteArgs Cell) (k : HotKey) (bs : List (List (EventRow Cell))) :
    List (HotParams Cell) :=
  (bs.flatMap (hotUpdates a)).filter fun p => k = p.key

lemma find?_hotAfter (a : WriteArgs Cell) (bs : List (List (EventRow Cell))) (t : HotTable Cell)
    (k : HotKey) : (hotAfter a bs t).find? k = (t.find? k).map (register.run (updatesOf a k bs)) :=
  find?_foldl_update _ t k

/-! ### The stamp -/

lemma exists_row_of_update {a : WriteArgs Cell} {k : HotKey} {bs : List (List (EventRow Cell))}
    {p : HotParams Cell} (hp : p ∈ updatesOf a k bs) :
    ∃ row ∈ bs.flatten, rowKey a row = k ∧ row.eventTs = p.lastSourceEventAt := by
  obtain ⟨hp, hk⟩ := List.mem_filter.mp hp
  obtain ⟨b, hb, hp⟩ := List.mem_flatMap.mp hp
  obtain ⟨g, hg, rfl⟩ := List.mem_map.mp hp
  obtain ⟨row, hrow, hts⟩ := exists_eventTs_eq
    (mem_groupHot.mp ((List.mem_insertionSort _).mp hg))
  obtain ⟨hmem, hkey⟩ := List.mem_filter.mp hrow
  refine ⟨row, List.mem_flatten.mpr ⟨b, hb, hmem⟩, ?_, hts⟩
  rw [← key_hotParams a (of_decide_eq_true hkey), of_decide_eq_true hk]

lemma exists_update_of_row {a : WriteArgs Cell} {bs : List (List (EventRow Cell))}
    {row : EventRow Cell} (hrow : row ∈ bs.flatten) :
    ∃ p ∈ updatesOf a (rowKey a row) bs, row.eventTs ≤ p.lastSourceEventAt := by
  obtain ⟨b, hb, hrow⟩ := List.mem_flatten.mp hrow
  obtain ⟨g, hg, hk⟩ := exists_group_of_mem hrow
  refine ⟨hotParams a g, List.mem_filter.mpr ⟨List.mem_flatMap.mpr ⟨b, hb,
    List.mem_map_of_mem hg⟩, decide_eq_true (key_hotParams a hk).symm⟩, ?_⟩
  refine eventTs_le_lastSourceEventAt (mem_groupHot.mp ((List.mem_insertionSort _).mp hg)) ?_
  exact List.mem_filter.mpr ⟨hrow, decide_eq_true hk⟩

lemma stamp_le_of_flatten {a : WriteArgs Cell} {k : HotKey} {bs bs' : List (List (EventRow Cell))}
    (h : bs.flatten = bs'.flatten) (row : HotRow Cell) :
    register.stamp (register.run (updatesOf a k bs) row) ≤
      register.stamp (register.run (updatesOf a k bs') row) := by
  refine register.stamp_run_le (register.le_stamp_run _ row) fun p hp => ?_
  obtain ⟨r, hr, rfl, hts⟩ := exists_row_of_update hp
  obtain ⟨q, hq, hle⟩ := exists_update_of_row (a := a) (h ▸ hr)
  calc ((register.time p : Timestamp) : WithBot Timestamp)
      ≤ ((register.time q : Timestamp) : WithBot Timestamp) := by
        rw [hts] at hle
        exact WithBot.coe_le_coe.mpr hle
    _ ≤ _ := register.time_le_stamp_run hq row

/-! ### A column -/

/-- The rows of the chunk that are merged under a key. -/
def keyRows (a : WriteArgs Cell) (k : HotKey) (rows : List (EventRow Cell)) :
    List (EventRow Cell) :=
  rows.filter fun row => rowKey a row = k

/-- What keeps a column of a key from depending on the cuts. -/
inductive NotLate (c : String) (stored : Option Timestamp) (rows : List (EventRow Cell)) : Prop
  /-- all the rows are older than the stored stamp -/
  | old (l : Timestamp) (hl : stored = some l) (hrows : ∀ r ∈ rows, r.eventTs < l)
  | silent (hrows : ∀ r ∈ rows, r.asserts c = false)
  /-- the key is spelled one way, and the last row asserting `c` is older neither than the stamp
  nor than a row before it -/
  | last (us : List (EventRow Cell)) (s : EventRow Cell) (vs : List (EventRow Cell))
    (hrows : rows = us ++ s :: vs) (hs : s.asserts c = true)
    (hvs : ∀ v ∈ vs, v.asserts c = false) (hus : ∀ u ∈ us, u.eventTs ≤ s.eventTs)
    (hstored : ∀ l ∈ stored, l ≤ s.eventTs)
    (hone : ∀ r ∈ rows, r.naturalKey = s.naturalKey)
  /-- the last of the newest rows asserts `c` and is not older than the stamp, and the newest
  rows spell the key one way -/
  | newest (us : List (EventRow Cell)) (s : EventRow Cell) (vs : List (EventRow Cell))
    (hrows : rows = us ++ s :: vs) (hs : s.asserts c = true)
    (hvs : ∀ v ∈ vs, v.eventTs < s.eventTs) (hus : ∀ u ∈ us, u.eventTs ≤ s.eventTs)
    (hstored : ∀ l ∈ stored, l ≤ s.eventTs)
    (hone : ∀ r ∈ rows, r.eventTs = s.eventTs → r.naturalKey = s.naturalKey)

lemma cells_run_of_none {c : String} {ps : List (HotParams Cell)}
    (h : ∀ p ∈ ps, p.projected.get? c = none) (row : HotRow Cell) :
    (register.run ps row).cells c = row.cells c := by
  induction ps generalizing row with
  | nil => rfl
  | cons p ps ih =>
    rw [Register.run_cons, ih fun q hq => h q (List.mem_cons_of_mem _ hq)]
    unfold Register.offer
    split
    · change (p.projected.get? c).getD _ = _
      rw [h p List.mem_cons_self]
      rfl
    · rfl

section

variable {a : WriteArgs Cell} {k : HotKey} {nk : NaturalKey}
  (hk : (a.event.tenantId, a.event.storeId, coalesce nk) = k)

include hk

lemma updatesOf_eq {bs : List (List (EventRow Cell))}
    (hone : ∀ row ∈ bs.flatten, rowKey a row = k → row.naturalKey = nk) :
    updatesOf a k bs =
      bs.flatMap fun b => ((groupOf (rowsOf nk b)).toList).map (hotParams a) := by
  unfold updatesOf
  rw [List.filter_flatMap]
  refine List.flatMap_congr fun b hb => ?_
  unfold hotUpdates
  rw [List.filter_map, ← filter_sortGroups]
  congr 1
  refine List.filter_congr fun g hg => ?_
  obtain ⟨row, hrow, hkey⟩ := exists_row_of_mem_sortGroups hg
  have hiff : k = (hotParams a g).key ↔ g.naturalKey = nk := by
    rw [key_hotParams a hkey, ← hkey]
    constructor
    · exact fun h => hone row (List.mem_flatten.mpr ⟨b, hb, hrow⟩) h.symm
    · intro h
      rw [rowKey, h, hk]
  simp [hiff]

lemma keyRows_eq {rows : List (EventRow Cell)}
    (hone : ∀ row ∈ rows, rowKey a row = k → row.naturalKey = nk) :
    keyRows a k rows = rowsOf nk rows := by
  refine List.filter_congr fun row hrow => ?_
  have hiff : rowKey a row = k ↔ row.naturalKey = nk :=
    ⟨hone row hrow, fun h => by rw [rowKey, h, hk]⟩
  simp [hiff]

end

lemma projected_updatesOf_eq_none {a : WriteArgs Cell} {k : HotKey} {c : String}
    {bs : List (List (EventRow Cell))} (hc : ∀ r ∈ keyRows a k bs.flatten, r.asserts c = false) :
    ∀ p ∈ updatesOf a k bs, p.projected.get? c = none := by
  intro p hp
  obtain ⟨hp, hk⟩ := List.mem_filter.mp hp
  obtain ⟨b, hb, hp⟩ := List.mem_flatMap.mp hp
  obtain ⟨g, hg, rfl⟩ := List.mem_map.mp hp
  have hproj := get?_projected_groupOf (mem_groupHot.mp ((List.mem_insertionSort _).mp hg)) c
  cases hs : supplier c (rowsOf g.naturalKey b) with
  | none =>
    rw [hs] at hproj
    exact hproj
  | some s =>
    obtain ⟨hsb, hnk⟩ := List.mem_filter.mp (mem_of_supplier hs)
    have hmem : s ∈ keyRows a k bs.flatten := by
      refine List.mem_filter.mpr ⟨List.mem_flatten.mpr ⟨b, hb, hsb⟩, decide_eq_true ?_⟩
      rw [← key_hotParams a (of_decide_eq_true hnk), of_decide_eq_true hk]
    exact absurd (asserts_supplier hs) (by simp [hc s hmem])

lemma flatten_split {β : Type*} {l : List (List β)} {us vs : List β} {s : β}
    (h : l.flatten = us ++ s :: vs) : ∃ l₁ us' vs' l₂,
      l = l₁ ++ (us' ++ s :: vs') :: l₂ ∧ us = l₁.flatten ++ us' ∧ vs = vs' ++ l₂.flatten := by
  rcases List.flatten_eq_append_iff.mp h with ⟨as, bs, rfl, rfl, hbs⟩ |
    ⟨as, bs, c, cs, ds, rfl, rfl, hc⟩
  · obtain ⟨as', bs', cs, rfl, hnil, rfl⟩ := List.flatten_eq_cons_iff.mp hbs.symm
    have hflat : as'.flatten = [] := List.flatten_eq_nil_iff.mpr hnil
    exact ⟨as ++ as', [], bs', cs, by simp, by simp [hflat], rfl⟩
  · simp only [List.cons_append, List.cons.injEq] at hc
    obtain ⟨rfl, rfl⟩ := hc
    exact ⟨as, bs, cs, ds, rfl, rfl, rfl⟩

lemma exists_batch {a : WriteArgs Cell} {k : HotKey} {bs : List (List (EventRow Cell))}
    {us vs : List (EventRow Cell)} {s : EventRow Cell}
    (h : keyRows a k bs.flatten = us ++ s :: vs) : ∃ bs₁ b bs₂ us' vs', bs = bs₁ ++ b :: bs₂ ∧
      keyRows a k b = us' ++ s :: vs' ∧ us = keyRows a k bs₁.flatten ++ us' ∧
      vs = vs' ++ keyRows a k bs₂.flatten := by
  have hkeyRows : ∀ bs : List (List (EventRow Cell)),
      keyRows a k bs.flatten = (bs.map (keyRows a k)).flatten := fun bs => List.filter_flatten
  obtain ⟨l₁, us', vs', l₂, hmap, rfl, rfl⟩ := flatten_split ((hkeyRows bs).symm.trans h)
  obtain ⟨bs₁, tail, rfl, rfl, htail⟩ := List.map_eq_append_iff.mp hmap
  obtain ⟨b, bs₂, rfl, hb, rfl⟩ := List.map_eq_cons_iff.mp htail
  exact ⟨bs₁, b, bs₂, us', vs', rfl, hb, by rw [hkeyRows], by rw [hkeyRows]⟩

lemma stamp_le_iff {row : HotRow Cell} {t : Timestamp} :
    register.stamp row ≤ (t : WithBot Timestamp) ↔ ∀ l ∈ row.lastSourceEventAt, l ≤ t := by
  cases hl : row.lastSourceEventAt with
  | none =>
    have hbot : register.stamp row = ⊥ := hl
    simp [hbot]
  | some l =>
    have hstamp : register.stamp row = ((l : Timestamp) : WithBot Timestamp) := hl
    simp [hstamp]

lemma stamp_run_le {ps : List (HotParams Cell)} {row : HotRow Cell} {t : Timestamp}
    (hrow : ∀ l ∈ row.lastSourceEventAt, l ≤ t) (hps : ∀ p ∈ ps, p.lastSourceEventAt ≤ t) :
    register.stamp (register.run ps row) ≤ ((t : Timestamp) : WithBot Timestamp) :=
  register.stamp_run_le (stamp_le_iff.mpr hrow) fun p hp => WithBot.coe_le_coe.mpr (hps p hp)

lemma exists_keyRow_of_update {a : WriteArgs Cell} {k : HotKey}
    {bs : List (List (EventRow Cell))} {p : HotParams Cell} (hp : p ∈ updatesOf a k bs) :
    ∃ r ∈ keyRows a k bs.flatten, r.eventTs = p.lastSourceEventAt := by
  obtain ⟨r, hr, hkr, hts⟩ := exists_row_of_update hp
  exact ⟨r, List.mem_filter.mpr ⟨hr, decide_eq_true hkr⟩, hts⟩

lemma updatesOf_append (a : WriteArgs Cell) (k : HotKey) (bs bs' : List (List (EventRow Cell))) :
    updatesOf a k (bs ++ bs') = updatesOf a k bs ++ updatesOf a k bs' := by
  rw [updatesOf, List.flatMap_append, List.filter_append]
  rfl

lemma some_cells_write {p : HotParams Cell} {c : String} (hp : (p.projected.get? c).isSome)
    (row : HotRow Cell) : some ((register.write p row).cells c) = p.projected.get? c := by
  obtain ⟨v, hv⟩ := Option.isSome_iff_exists.mp hp
  change some ((p.projected.get? c).getD _) = _
  rw [hv]
  rfl

lemma rowKey_eq {a : WriteArgs Cell} {k : HotKey} {rows : List (EventRow Cell)}
    {r : EventRow Cell} (hr : r ∈ keyRows a k rows) :
    (a.event.tenantId, a.event.storeId, coalesce r.naturalKey) = k :=
  of_decide_eq_true (List.mem_filter.mp hr).2

/-- **The last row asserting a column settles it**, when it is not late, wherever the batches
are cut. -/
lemma cells_of_last {a : WriteArgs Cell} {k : HotKey} {bs : List (List (EventRow Cell))}
    {c : String} {us vs : List (EventRow Cell)} {s : EventRow Cell}
    (hrows : keyRows a k bs.flatten = us ++ s :: vs) (hs : s.asserts c = true)
    (hvs : ∀ v ∈ vs, v.asserts c = false) (hus : ∀ u ∈ us, u.eventTs ≤ s.eventTs)
    {row : HotRow Cell} (hstored : ∀ l ∈ row.lastSourceEventAt, l ≤ s.eventTs)
    (hone : ∀ r ∈ keyRows a k bs.flatten, r.naturalKey = s.naturalKey) :
    some ((register.run (updatesOf a k bs) row).cells c) = s.hotContributions.get? c := by
  have hk := rowKey_eq (hrows ▸ List.mem_append_right us List.mem_cons_self)
  obtain ⟨bs₁, b, bs₂, us', vs', rfl, hb, rfl, rfl⟩ := exists_batch hrows
  have honeb : ∀ r ∈ b, rowKey a r = k → r.naturalKey = s.naturalKey := fun r hr hkr =>
    hone r (List.mem_filter.mpr ⟨by simp [hr], decide_eq_true hkr⟩)
  have hbrows : rowsOf s.naturalKey b = us' ++ s :: vs' := by rw [← hb, keyRows_eq hk honeb]
  -- the batch of `s` has one statement, and `s` supplies its value of `c`
  have hsr : s ∈ rowsOf s.naturalKey b := hbrows ▸ List.mem_append_right us' List.mem_cons_self
  obtain ⟨g, hg⟩ := exists_groupOf hsr
  have hsplit : updatesOf a k (bs₁ ++ b :: bs₂) =
      updatesOf a k bs₁ ++ hotParams a g :: updatesOf a k bs₂ := by
    have hstatement : updatesOf a k [b] = [hotParams a g] := by
      rw [updatesOf_eq hk (by simpa using honeb), List.flatMap_singleton, hg]
      rfl
    rw [updatesOf_append, ← List.singleton_append, updatesOf_append, hstatement,
      List.singleton_append]
  have hvalue : (hotParams a g).projected.get? c = s.hotContributions.get? c := by
    have hproj := get?_projected_groupOf hg c
    rw [hbrows, supplier_append hs (fun u hu => hus u (List.mem_append_right _ hu))
      (fun v hv hc => absurd hc (by simp [hvs v (List.mem_append_left _ hv)]))] at hproj
    exact hproj
  -- it is taken: nothing before it, nor the stored stamp, is newer than `s`
  have htaken : register.stamp (register.run (updatesOf a k bs₁) row) ≤
      ((register.time (hotParams a g) : Timestamp) : WithBot Timestamp) := by
    refine (stamp_run_le hstored fun p hp => ?_).trans (WithBot.coe_le_coe.mpr
      (eventTs_le_lastSourceEventAt hg hsr))
    obtain ⟨r, hr, hts⟩ := exists_keyRow_of_update hp
    rw [← hts]
    exact hus r (List.mem_append_left _ hr)
  have hlater : ∀ p ∈ updatesOf a k bs₂, p.projected.get? c = none :=
    projected_updatesOf_eq_none fun r hr => hvs r (List.mem_append_right _ hr)
  rw [hsplit, Register.run_append, Register.run_cons, register.offer_of_le htaken,
    cells_run_of_none hlater]
  exact (some_cells_write (hvalue.symm ▸ hs) _).trans hvalue

lemma exists_newest_group {a : WriteArgs Cell} {k : HotKey} {b : List (EventRow Cell)}
    {us vs : List (EventRow Cell)} {s : EventRow Cell} (hb : keyRows a k b = us ++ s :: vs)
    (hus : ∀ u ∈ us, u.eventTs ≤ s.eventTs) (hvs : ∀ v ∈ vs, v.eventTs < s.eventTs)
    (hone : ∀ r ∈ keyRows a k b, r.eventTs = s.eventTs → r.naturalKey = s.naturalKey) :
    ∃ ps g qs, updatesOf a k [b] = ps ++ hotParams a g :: qs ∧
      groupOf (rowsOf s.naturalKey b) = some g ∧ g.lastSourceEventAt = s.eventTs ∧
      ∀ q ∈ qs, q.lastSourceEventAt < s.eventTs := by
  have hsb : s ∈ keyRows a k b := hb ▸ List.mem_append_right us List.mem_cons_self
  have hle : ∀ r ∈ keyRows a k b, r.eventTs ≤ s.eventTs := by
    intro r hr
    rw [hb, List.mem_append, List.mem_cons] at hr
    rcases hr with hr | rfl | hr
    · exact hus r hr
    · exact le_rfl
    · exact (hvs r hr).le
  have hsr : s ∈ rowsOf s.naturalKey b :=
    List.mem_filter.mpr ⟨(List.mem_filter.mp hsb).1, decide_eq_true rfl⟩
  obtain ⟨g, hg⟩ := exists_groupOf hsr
  have hsorted := filter_sortGroups s.naturalKey b
  rw [hg] at hsorted
  obtain ⟨gs, gs', hgs, -, hgkey, hgs'⟩ := List.filter_eq_cons_iff.mp hsorted
  have hkey : k = (hotParams a g).key := by
    rw [key_hotParams a (of_decide_eq_true hgkey).symm]
    exact (rowKey_eq hsb).symm
  refine ⟨(gs.map (hotParams a)).filter fun p => k = p.key, g,
    (gs'.map (hotParams a)).filter fun p => k = p.key, ?_, hg, ?_, fun q hq => ?_⟩
  · simp only [updatesOf, List.flatMap_singleton, hotUpdates, hgs, List.map_append, List.map_cons,
      List.filter_append, List.filter_cons, decide_eq_true hkey, if_true]
  · obtain ⟨r, hr, hts⟩ := exists_eventTs_eq hg
    refine le_antisymm ?_ (eventTs_le_lastSourceEventAt hg hsr)
    rw [← hts]
    obtain ⟨hrb, hrk⟩ := List.mem_filter.mp hr
    refine hle r (List.mem_filter.mpr ⟨hrb, decide_eq_true ?_⟩)
    rw [rowKey, of_decide_eq_true hrk]
    exact rowKey_eq hsb
  · -- a group after it is spelled another way, so that its rows are older
    obtain ⟨hq, hqk⟩ := List.mem_filter.mp hq
    obtain ⟨g', hg', rfl⟩ := List.mem_map.mp hq
    have hne : g'.naturalKey ≠ s.naturalKey := by
      simpa using List.filter_eq_nil_iff.mp hgs' g' hg'
    have hmem : g' ∈ sortGroups (groupHot b) := by
      rw [hgs]
      exact List.mem_append_right _ (List.mem_cons_of_mem _ hg')
    obtain ⟨r, hr, hts⟩ := exists_eventTs_eq (mem_groupHot.mp ((List.mem_insertionSort _).mp hmem))
    obtain ⟨hrb, hrk⟩ := List.mem_filter.mp hr
    have hrkey : r ∈ keyRows a k b := by
      refine List.mem_filter.mpr ⟨hrb, decide_eq_true ?_⟩
      rw [← key_hotParams a (of_decide_eq_true hrk), of_decide_eq_true hqk]
    have hlater : g'.lastSourceEventAt ≤ s.eventTs := hts ▸ hle r hrkey
    refine lt_of_le_of_ne hlater fun heq => hne ?_
    rw [← of_decide_eq_true hrk]
    exact hone r hrkey (hts.trans heq)

/-- **The last of the newest rows keeps its columns**, wherever the batches are cut. -/
lemma cells_of_newest {a : WriteArgs Cell} {k : HotKey} {bs : List (List (EventRow Cell))}
    {c : String} {us vs : List (EventRow Cell)} {s : EventRow Cell}
    (hrows : keyRows a k bs.flatten = us ++ s :: vs) (hs : s.asserts c = true)
    (hvs : ∀ v ∈ vs, v.eventTs < s.eventTs) (hus : ∀ u ∈ us, u.eventTs ≤ s.eventTs)
    {row : HotRow Cell} (hstored : ∀ l ∈ row.lastSourceEventAt, l ≤ s.eventTs)
    (hone : ∀ r ∈ keyRows a k bs.flatten, r.eventTs = s.eventTs →
      r.naturalKey = s.naturalKey) :
    some ((register.run (updatesOf a k bs) row).cells c) = s.hotContributions.get? c := by
  obtain ⟨bs₁, b, bs₂, us', vs', rfl, hb, rfl, rfl⟩ := exists_batch hrows
  have hsub : ∀ r ∈ keyRows a k b, r ∈ keyRows a k (bs₁ ++ b :: bs₂).flatten := fun r hr => by
    obtain ⟨hrb, hrk⟩ := List.mem_filter.mp hr
    exact List.mem_filter.mpr ⟨by simp [hrb], hrk⟩
  obtain ⟨ps, g, qs, hupdates, hg, hts, hqs⟩ := exists_newest_group hb
    (fun u hu => hus u (List.mem_append_right _ hu))
    (fun v hv => hvs v (List.mem_append_left _ hv)) fun r hr => hone r (hsub r hr)
  have hvalue : (hotParams a g).projected.get? c = s.hotContributions.get? c := by
    have hproj := get?_projected_groupOf hg c
    have hspelled : rowsOf s.naturalKey b = (keyRows a k b).filter
        fun r => r.naturalKey = s.naturalKey := by
      rw [keyRows, List.filter_filter]
      refine List.filter_congr fun r _ => ?_
      by_cases hr : r.naturalKey = s.naturalKey
      · have hk := rowKey_eq (hb ▸ List.mem_append_right us' List.mem_cons_self)
        simp [hr, rowKey, hk]
      · simp [hr]
    have hfirst : (us' ++ s :: vs').filter (fun r => r.naturalKey = s.naturalKey) =
        us'.filter (fun r => r.naturalKey = s.naturalKey) ++
          s :: vs'.filter fun r => r.naturalKey = s.naturalKey := by
      simp only [List.filter_append, List.filter_cons, decide_true, if_true]
    rw [hspelled, hb, hfirst, supplier_append hs
      (fun u hu => hus u (List.mem_append_right _ (List.mem_filter.mp hu).1))
      (fun v hv _ => hvs v (List.mem_append_left _ (List.mem_filter.mp hv).1))] at hproj
    exact hproj
  -- nothing before it is newer, and what comes after it is older
  have htaken : register.stamp (register.run (updatesOf a k bs₁ ++ ps) row) ≤
      ((register.time (hotParams a g) : Timestamp) : WithBot Timestamp) := by
    change _ ≤ ((g.lastSourceEventAt : Timestamp) : WithBot Timestamp)
    rw [hts]
    refine stamp_run_le hstored fun p hp => ?_
    have hp' : p ∈ updatesOf a k (bs₁ ++ [b]) := by
      rw [updatesOf_append, hupdates]
      rcases List.mem_append.mp hp with hp | hp
      · exact List.mem_append_left _ hp
      · exact List.mem_append_right _ (List.mem_append_left _ hp)
    obtain ⟨r, hr, hts'⟩ := exists_keyRow_of_update hp'
    rw [← hts']
    rw [List.flatten_append, keyRows, List.filter_append, List.mem_append] at hr
    rcases hr with hr | hr
    · exact hus r (List.mem_append_left _ hr)
    · rw [List.flatten_singleton] at hr
      have hr' : r ∈ us' ++ s :: vs' := hb ▸ hr
      rw [List.mem_append, List.mem_cons] at hr'
      rcases hr' with hr' | rfl | hr'
      · exact hus r (List.mem_append_right _ hr')
      · exact le_rfl
      · exact (hvs r (List.mem_append_left _ hr')).le
  have hlater : ∀ q ∈ qs ++ updatesOf a k bs₂, (register.time q : WithBot Timestamp) <
      register.stamp (register.write (hotParams a g)
        (register.run (updatesOf a k bs₁ ++ ps) row)) := by
    intro q hq
    rw [register.stamp_write]
    refine WithBot.coe_lt_coe.mpr ?_
    change q.lastSourceEventAt < g.lastSourceEventAt
    rw [hts]
    rcases List.mem_append.mp hq with hq | hq
    · exact hqs q hq
    · obtain ⟨r, hr, hts'⟩ := exists_keyRow_of_update hq
      rw [← hts']
      exact hvs r (List.mem_append_right _ hr)
  have hsplit : updatesOf a k (bs₁ ++ b :: bs₂) =
      (updatesOf a k bs₁ ++ ps) ++ hotParams a g :: (qs ++ updatesOf a k bs₂) := by
    rw [updatesOf_append, ← List.singleton_append, updatesOf_append, hupdates]
    simp only [List.append_assoc, List.cons_append]
  rw [hsplit, Register.run_append, Register.run_cons, register.offer_of_le htaken,
    register.run_of_lt hlater]
  exact (some_cells_write (hvalue.symm ▸ hs) _).trans hvalue

lemma cells_eq_of_notLate {a : WriteArgs Cell} {k : HotKey} {bs bs' : List (List (EventRow Cell))}
    (hflat : bs.flatten = bs'.flatten) {c : String} {row : HotRow Cell}
    (h : NotLate c row.lastSourceEventAt (keyRows a k bs.flatten)) :
    (register.run (updatesOf a k bs) row).cells c =
      (register.run (updatesOf a k bs') row).cells c := by
  cases h with
  | old l hl hrows =>
    -- all the groups of the key are older than its row, however the batches are cut
    have hkept : ∀ bs : List (List (EventRow Cell)),
        (∀ r ∈ keyRows a k bs.flatten, r.eventTs < l) →
        register.run (updatesOf a k bs) row = row := by
      intro bs hrows
      have hstamp : register.stamp row = ((l : Timestamp) : WithBot Timestamp) := hl
      refine register.run_of_lt fun p hp => ?_
      obtain ⟨r, hr, hts⟩ := exists_keyRow_of_update hp
      rw [hstamp]
      refine WithBot.coe_lt_coe.mpr ?_
      change p.lastSourceEventAt < l
      rw [← hts]
      exact hrows r hr
    rw [hkept bs hrows, hkept bs' (hflat ▸ hrows)]
  | silent hrows =>
    rw [cells_run_of_none (projected_updatesOf_eq_none hrows),
      cells_run_of_none (projected_updatesOf_eq_none (hflat ▸ hrows))]
  | last us s vs hrows hs hvs hus hstored hone =>
    exact Option.some.inj ((cells_of_last hrows hs hvs hus hstored hone).trans
      (cells_of_last (hflat ▸ hrows) hs hvs hus hstored (hflat ▸ hone)).symm)
  | newest us s vs hrows hs hvs hus hstored hone =>
    exact Option.some.inj ((cells_of_newest hrows hs hvs hus hstored hone).trans
      (cells_of_newest (hflat ▸ hrows) hs hvs hus hstored (hflat ▸ hone)).symm)

/-! ### Which row a column is taken from -/

/-- The rows merged under a key in merge order: batch by batch, and within a batch one group for
each spelling. -/
def keyGroups (a : WriteArgs Cell) (k : HotKey) (bs : List (List (EventRow Cell))) :
    List (List (EventRow Cell)) :=
  bs.flatMap fun b => ((sortGroups (groupHot b)).filter fun g => k = (hotParams a g).key).map
    fun g => rowsOf g.naturalKey b

/-- One of the rows is older neither than the stored stamp nor than any row merged before. -/
def Timely (stored : Option Timestamp) (before rows : List (EventRow Cell)) : Prop :=
  ∃ r ∈ rows, (∀ l ∈ stored, l ≤ r.eventTs) ∧ ∀ u ∈ before, u.eventTs ≤ r.eventTs

instance (stored : Option Timestamp) (before rows : List (EventRow Cell)) :
    Decidable (Timely stored before rows) :=
  inferInstanceAs (Decidable (∃ r ∈ rows, (∀ l ∈ stored, l ≤ r.eventTs) ∧
    ∀ u ∈ before, u.eventTs ≤ r.eventTs))

/-- The row that the last timely group asserting a column supplies. -/
def takenFrom (c : String) (stored : Option Timestamp) :
    List (EventRow Cell) → List (List (EventRow Cell)) → Option (EventRow Cell)
  | _, [] => none
  | before, rows :: groups => (takenFrom c stored (before ++ rows) groups).or
      (if Timely stored before rows then supplier c rows else none)

/-- The value of that row, or else the stored one. -/
def settled (c : String) (row : HotRow Cell) (groups : List (List (EventRow Cell))) : Cell :=
  ((takenFrom c row.lastSourceEventAt [] groups).bind (·.hotContributions.get? c)).getD
    (row.cells c)

/-- The statement of a group. -/
def Makes (a : WriteArgs Cell) (rows : List (EventRow Cell)) (p : HotParams Cell) : Prop :=
  ∃ g, groupOf rows = some g ∧ p = hotParams a g

lemma makes_updatesOf (a : WriteArgs Cell) (k : HotKey) (bs : List (List (EventRow Cell))) :
    List.Forall₂ (Makes a) (keyGroups a k bs) (updatesOf a k bs) := by
  induction bs with
  | nil => exact .nil
  | cons b bs ih =>
    have hbatch : updatesOf a k [b] =
        ((sortGroups (groupHot b)).filter fun g => k = (hotParams a g).key).map (hotParams a) := by
      rw [updatesOf, List.flatMap_singleton, hotUpdates, List.filter_map]
      rfl
    rw [← List.singleton_append, updatesOf_append, hbatch]
    refine List.rel_append ?_ ih
    dsimp only
    rw [List.forall₂_map_left_iff, List.forall₂_map_right_iff, List.forall₂_same]
    intro g hg
    exact ⟨g, mem_groupHot.mp ((List.mem_insertionSort _).mp (List.mem_filter.mp hg).1), rfl⟩

/-- The stamp of a row is the latest of the stored stamp and of the rows merged so far. -/
def Stands (stored : Option Timestamp) (before : List (EventRow Cell)) (row : HotRow Cell) : Prop :=
  ∀ t : Timestamp, register.stamp row ≤ (t : WithBot Timestamp) ↔
    (∀ l ∈ stored, l ≤ t) ∧ ∀ u ∈ before, u.eventTs ≤ t

lemma stands_nil (row : HotRow Cell) : Stands row.lastSourceEventAt [] row := by
  intro t
  rw [stamp_le_iff]
  simp

section

variable {a : WriteArgs Cell} {stored : Option Timestamp} {before rows : List (EventRow Cell)}
  {row : HotRow Cell} {g : HotGroup Cell}

lemma timely_iff (h : Stands stored before row) (hg : groupOf rows = some g) :
    register.stamp row ≤ ((register.time (hotParams a g) : Timestamp) : WithBot Timestamp) ↔
      Timely stored before rows := by
  constructor
  · intro hle
    obtain ⟨r, hr, hts⟩ := exists_eventTs_eq hg
    exact ⟨r, hr, (h r.eventTs).mp (hts ▸ hle)⟩
  · rintro ⟨r, hr, hlate⟩
    exact ((h r.eventTs).mpr hlate).trans
      (WithBot.coe_le_coe.mpr (eventTs_le_lastSourceEventAt hg hr))

lemma Stands.offer (h : Stands stored before row) (hg : groupOf rows = some g) :
    Stands stored (before ++ rows) (register.offer (hotParams a g) row) := by
  intro t
  have htime : ((register.time (hotParams a g) : Timestamp) : WithBot Timestamp) ≤ t ↔
      ∀ u ∈ rows, u.eventTs ≤ t := by
    rw [WithBot.coe_le_coe]
    constructor
    · exact fun hle u hu => (eventTs_le_lastSourceEventAt hg hu).trans hle
    · intro hall
      obtain ⟨r, hr, hts⟩ := exists_eventTs_eq hg
      exact hts.symm.le.trans (hall r hr)
  rw [register.stamp_offer, max_le_iff, h t, htime, and_assoc, List.forall_mem_append]

lemma cells_offer (h : Stands stored before row) (hg : groupOf rows = some g) (c : String) :
    (register.offer (hotParams a g) row).cells c =
      ((if Timely stored before rows then supplier c rows else none).bind
        (·.hotContributions.get? c)).getD (row.cells c) := by
  by_cases htimely : Timely stored before rows
  · rw [if_pos htimely, register.offer_of_le ((timely_iff h hg).mpr htimely)]
    change ((hotParams a g).projected.get? c).getD _ = _
    rw [← get?_projected_groupOf hg c]
    rfl
  · rw [if_neg htimely, register.offer_of_lt (not_le.mp fun hle =>
      htimely ((timely_iff h hg).mp hle))]
    rfl

lemma asserts_takenFrom {c : String} {groups : List (List (EventRow Cell))} {s : EventRow Cell}
    (h : takenFrom c stored before groups = some s) : s.asserts c = true := by
  induction groups generalizing before with
  | nil => cases h
  | cons rows groups ih =>
    rcases Option.or_eq_some_iff.mp h with h | ⟨-, h⟩
    · exact ih h
    · exact asserts_supplier (Option.ite_none_right_eq_some.mp h).2

lemma cells_run {groups : List (List (EventRow Cell))} {ps : List (HotParams Cell)}
    (hmakes : List.Forall₂ (Makes a) groups ps) (h : Stands stored before row) (c : String) :
    (register.run ps row).cells c =
      ((takenFrom c stored before groups).bind (·.hotContributions.get? c)).getD
        (row.cells c) := by
  induction hmakes generalizing before row with
  | nil => rfl
  | @cons rows p groups ps hp _ ih =>
    obtain ⟨g, hg, rfl⟩ := hp
    rw [Register.run_cons, ih (h.offer hg), cells_offer h hg, takenFrom]
    cases htail : takenFrom c stored (before ++ rows) groups with
    | none => rfl
    | some s =>
      -- a later group supplies the column, so that this one does not count
      obtain ⟨v, hv⟩ := Option.isSome_iff_exists.mp (asserts_takenFrom htail)
      simp [hv]

end

/-! ### Two batch sizes -/

lemma chunkBatches_flatten_eq (a : WriteArgs Cell) {m n : ℕ} (hm : 1 ≤ m) (hn : 1 ≤ n)
    (rows : List (EventRow Cell)) :
    (chunkBatches a m rows).flatten = (chunkBatches a n rows).flatten ∧
      ((chunkBatches a m rows).flatten = rows ∨
        chunkBatches a m rows = [] ∧ chunkBatches a n rows = []) := by
  unfold chunkBatches
  split
  · exact ⟨rfl, Or.inr ⟨rfl, rfl⟩⟩
  · rw [flatten_batches rows hm, flatten_batches rows hn]
    exact ⟨rfl, Or.inl rfl⟩

/-- **Batch size and the hot merge.** Committed with any two batch sizes, a chunk leaves each
row with the same stamp. A column holds what the last timely group asserting it supplies under the
cuts of its size, which is the same in each column that is not late. -/
theorem hot_merge_batch_size (d : Driver) (a : WriteArgs Cell) (rows : List (EventRow Cell))
    (db : Db) (h : AllExist a rows db.hot) (m n : ℕ) (hm : 1 ≤ m) (hn : 1 ≤ n)
    (txs txs' : ℕ → Tx) (htx : ∀ i < (batches rows m).length, (txs i).fate = .commits)
    (htx' : ∀ i < (batches rows n).length, (txs' i).fate = .commits)
    (k : HotKey) (row : HotRow Cell) (hrow : db.hot.find? k = some row) :
    ∃ rm rn, (writeChunk d a m txs rows db).db.hot.find? k = some rm ∧
      (writeChunk d a n txs' rows db).db.hot.find? k = some rn ∧
      rm.lastSourceEventAt = rn.lastSourceEventAt ∧
      ∀ c, rm.cells c = settled c row (keyGroups a k (chunkBatches a m rows)) ∧
        rn.cells c = settled c row (keyGroups a k (chunkBatches a n rows)) ∧
        (NotLate c row.lastSourceEventAt (keyRows a k rows) → rm.cells c = rn.cells c) := by
  obtain ⟨hflat, hcases⟩ := chunkBatches_flatten_eq a hm hn rows
  rw [hot_writeChunk_of_commits d a hm htx h, hot_writeChunk_of_commits d a hn htx' h,
    find?_hotAfter, find?_hotAfter, hrow]
  refine ⟨_, _, rfl, rfl, ?_, ?_⟩
  · have hstamp : register.stamp (register.run (updatesOf a k (chunkBatches a m rows)) row) =
        register.stamp (register.run (updatesOf a k (chunkBatches a n rows)) row) :=
      le_antisymm (stamp_le_of_flatten hflat row) (stamp_le_of_flatten hflat.symm row)
    exact hstamp
  · intro c
    refine ⟨cells_run (makes_updatesOf a k _) (stands_nil row) c,
      cells_run (makes_updatesOf a k _) (stands_nil row) c, fun hlate => ?_⟩
    rcases hcases with hrows | ⟨hnil, hnil'⟩
    · exact cells_eq_of_notLate hflat (by rwa [hrows])
    · rw [hnil, hnil']

/-- A price at event time 20, then a cost at 10. -/
def lateCost : List (EventRow Cell) :=
  [rowAt "sku" 20 0 [("current_retail_price", some (.int 9))],
    rowAt "sku" 10 1 [("unit_cost", some (.int 3))]]

/-- Two spellings of one key, taking turns. -/
def twoSpellings : List (EventRow Cell) :=
  [rowAt "sku" 5 0 [("currency", some (.str "EUR"))],
    { rowAt "sku" 6 1 [("unit_cost", some (.int 7))] with naturalKey := ("sku", some "", none) },
    rowAt "sku" 7 2 [("unit_cost", some (.int 8))],
    { rowAt "sku" 7 3 [("promo_identifier", some (.str "x"))] with
      naturalKey := ("sku", some "", none) }]

/-- The cell a column of the sku holds after a chunk is written with a batch size. -/
def costAfter (n : ℕ) (rows : List (EventRow Cell)) : Option Cell :=
  ((writeChunk plainDriver (saleArgs none) n committing rows
    ⟨tableOf "sku" none, fun _ => []⟩).db.hot.find? (.ofNat 2, .ofNat 3, "sku", "", "")).map
      fun row => row.cells "unit_cost"

/-- The late cost is kept by one batch of two and lost by two of one; and where two spellings
share a row, the older of two costs wins in one batch of four. -/
theorem batch_size_changes_hot_table :
    AllExist (saleArgs none) lateCost (tableOf "sku" none) ∧
    costAfter 1 lateCost = some none ∧ costAfter 2 lateCost = some (some (.int 3)) ∧
    AllExist (saleArgs none) twoSpellings (tableOf "sku" none) ∧
    costAfter 1 twoSpellings = some (some (.int 8)) ∧
    costAfter 4 twoSpellings = some (some (.int 7)) := by
  decide

/-- A cost at event time 20, then an older one. -/
def lateSecondCost : List (EventRow Cell) :=
  [rowAt "sku" 20 0 [("unit_cost", some (.int 9))],
    rowAt "sku" 10 1 [("unit_cost", some (.int 5))]]

/-- The newest row keeps its cost, though the last row asserting it is late. -/
theorem batch_size_keeps_newest :
    ∃ rm rn, (writeChunk plainDriver (saleArgs none) 1 committing lateSecondCost
        ⟨tableOf "sku" none, fun _ => []⟩).db.hot.find?
          (.ofNat 2, .ofNat 3, "sku", "", "") = some rm ∧
      (writeChunk plainDriver (saleArgs none) 2 committing lateSecondCost
        ⟨tableOf "sku" none, fun _ => []⟩).db.hot.find?
          (.ofNat 2, .ofNat 3, "sku", "", "") = some rn ∧
      rm.lastSourceEventAt = rn.lastSourceEventAt ∧
      rm.cells "unit_cost" = some (.int 9) ∧ rm.cells "unit_cost" = rn.cells "unit_cost" := by
  obtain ⟨rm, rn, hrm, hrn, hstamp, hcells⟩ := hot_merge_batch_size plainDriver (saleArgs none)
    lateSecondCost ⟨tableOf "sku" none, fun _ => []⟩ (by decide) 1 2 (by decide) (by decide)
    committing committing (fun _ _ => rfl) (fun _ _ => rfl)
    (.ofNat 2, .ofNat 3, "sku", "", "") _ rfl
  have hrows : keyRows (saleArgs none) (.ofNat 2, .ofNat 3, "sku", "", "") lateSecondCost =
      [] ++ rowAt "sku" 20 0 [("unit_cost", some (.int 9))] ::
        [rowAt "sku" 10 1 [("unit_cost", some (.int 5))]] := rfl
  obtain ⟨hsettled, -, hsame⟩ := hcells "unit_cost"
  refine ⟨rm, rn, hrm, hrn, hstamp, hsettled, hsame (.newest _ _ _ hrows ?_ ?_ ?_ ?_ ?_)⟩
  · decide
  · decide
  · decide
  · intro l hl
    cases hl
  · decide

end CortexDis.BatchSize
