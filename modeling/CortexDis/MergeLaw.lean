import CortexDis.GroupHot

/-!
The merge of a batch against the rule it is named after: per column, the latest event time wins.

The merge compares a row with the latest time of its group, not with the time at which a column
was last set. A row that is older than an earlier row of its key fills the columns that nobody
set before; a column that was set by a still older row it should replace, and does not.
-/

namespace CortexDis.MergeLaw

open CortexDis.PyDict CortexDis.Values CortexDis.GroupHot

variable {α : Type}

/-- The row with the greatest event time, the later one of a tie. -/
def latest (rows : List (EventRow α)) : Option (EventRow α) :=
  rows.foldl (fun best row =>
    match best with
    | none => some row
    | some b => if b.eventTs ≤ row.eventTs then some row else some b) none

/-- The value that a row asserts of a column. -/
def valueAt (c : String) (row : EventRow α) : Option α := row.hotContributions.get? c

/-- **The rule**: one group for each key; each of its columns has the value of the latest row
asserting it; its time, event id and index are those of the key's latest row. -/
structure LatestWins (batch : List (EventRow α)) : Prop where
  nodup : ((groupHot batch).map HotGroup.naturalKey).Nodup
  keys : ∀ k, k ∈ (groupHot batch).map HotGroup.naturalKey ↔ k ∈ batch.map EventRow.naturalKey
  column : ∀ group ∈ groupHot batch, ∀ c, group.projected.get? c =
    (latest ((rowsOf group.naturalKey batch).filter (·.asserts c))).bind (valueAt c)
  position : ∀ group ∈ groupHot batch, ∃ row, latest (rowsOf group.naturalKey batch) = some row ∧
    group.lastSourceEventAt = row.eventTs ∧ group.sourceEventId = row.sourceEventId ∧
    group.chunkRowIndex = row.chunkRowIndex

/-- The row `row`, between `before` and `after`, is the latest that asserts `c`. -/
structure IsLatest (c : String) (before : List (EventRow α)) (row : EventRow α)
    (after : List (EventRow α)) : Prop where
  asserts : row.asserts c
  before : ∀ r ∈ before, r.asserts c → r.eventTs ≤ row.eventTs
  after : ∀ r ∈ after, r.asserts c → r.eventTs < row.eventTs

/-- The row comes after a later row of its key, and it is not the first to assert `c`. -/
def Overtaken (c : String) (before : List (EventRow α)) (row : EventRow α) : Prop :=
  (∃ r ∈ before, row.eventTs < r.eventTs) ∧ ∃ r ∈ before, r.asserts c

/-! ### The latest row -/

lemma latest_snoc (rows : List (EventRow α)) (row : EventRow α) :
    latest (rows ++ [row]) =
      match latest rows with
      | none => some row
      | some b => if b.eventTs ≤ row.eventTs then some row else some b := by
  rw [latest, List.foldl_append]
  rfl

lemma latest_eq_none {rows : List (EventRow α)} : latest rows = none ↔ rows = [] := by
  cases rows using List.reverseRecOn with
  | nil => exact iff_of_true rfl rfl
  | append_singleton rows row =>
    refine iff_of_false (fun h => ?_) (by simp)
    rw [latest_snoc] at h
    split at h
    · cases h
    · split at h <;> cases h

/-- Where the latest row stands. -/
lemma latest_eq_some {rows : List (EventRow α)} {row : EventRow α} (h : latest rows = some row) :
    ∃ us vs, rows = us ++ row :: vs ∧ (∀ u ∈ us, u.eventTs ≤ row.eventTs) ∧
      ∀ v ∈ vs, v.eventTs < row.eventTs := by
  induction rows using List.reverseRecOn generalizing row with
  | nil => cases h
  | append_singleton rows r ih =>
    rw [latest_snoc] at h
    cases hbest : latest rows with
    | none =>
      rw [hbest] at h
      cases h
      exact ⟨[], [], by rw [latest_eq_none.mp hbest], by simp, by simp⟩
    | some b =>
      rw [hbest] at h
      obtain ⟨us, vs, hrows, hus, hvs⟩ := ih hbest
      dsimp only at h
      split at h
      -- at equal times the later row is kept
      next hle =>
        cases h
        refine ⟨rows, [], rfl, ?_, by simp⟩
        intro u hu
        rw [hrows] at hu
        rcases List.mem_append.mp hu with hu | hu
        · exact (hus u hu).trans hle
        · rcases List.mem_cons.mp hu with rfl | hu
          · exact hle
          · exact (hvs u hu).le.trans hle
      next hlt =>
        cases h
        refine ⟨us, vs ++ [r], by rw [hrows]; simp, hus, ?_⟩
        intro v hv
        rcases List.mem_append.mp hv with hv | hv
        · exact hvs v hv
        · rw [List.mem_singleton.mp hv]
          exact not_le.mp hlt

lemma latest_append {us vs : List (EventRow α)} {row : EventRow α}
    (hus : ∀ u ∈ us, u.eventTs ≤ row.eventTs) (hvs : ∀ v ∈ vs, v.eventTs < row.eventTs) :
    latest (us ++ row :: vs) = some row := by
  induction vs using List.reverseRecOn with
  | nil =>
    rw [latest_snoc]
    cases hbest : latest us with
    | none => rfl
    | some b =>
      obtain ⟨us', vs', rfl, -, -⟩ := latest_eq_some hbest
      simp only [if_pos (hus b (by simp))]
  | append_singleton vs v ih =>
    have hlast := ih fun v' hv' => hvs v' (List.mem_append_left _ hv')
    rw [← List.cons_append, ← List.append_assoc, latest_snoc, hlast]
    simp only [if_neg (not_le.mpr (hvs v (by simp)))]

lemma IsLatest.latest_filter {c : String} {us vs : List (EventRow α)} {row : EventRow α}
    (h : IsLatest c us row vs) : latest ((us ++ row :: vs).filter (·.asserts c)) = some row := by
  have hrow : (row :: vs).filter (·.asserts c) = row :: vs.filter (·.asserts c) := by
    simp [h.asserts]
  rw [List.filter_append, hrow]
  refine latest_append (fun u hu => ?_) fun v hv => ?_
  · obtain ⟨hu, hc⟩ := List.mem_filter.mp hu
    exact h.before u hu hc
  · obtain ⟨hv, hc⟩ := List.mem_filter.mp hv
    exact h.after v hv hc

lemma exists_isLatest {c : String} {rows : List (EventRow α)} {row : EventRow α}
    (h : latest (rows.filter (·.asserts c)) = some row) :
    ∃ us vs, rows = us ++ row :: vs ∧ IsLatest c us row vs := by
  obtain ⟨us', vs', hfilter, hus, hvs⟩ := latest_eq_some h
  obtain ⟨us₁, rest, rfl, hus₁, hrest⟩ := List.filter_eq_append_iff.mp hfilter
  obtain ⟨us₂, vs, rfl, hus₂, hrow, hvs₁⟩ := List.filter_eq_cons_iff.mp hrest
  refine ⟨us₁ ++ us₂, vs, by simp, hrow, ?_, ?_⟩
  · intro u hu hc
    rcases List.mem_append.mp hu with hu | hu
    · exact hus u (hus₁ ▸ List.mem_filter.mpr ⟨hu, hc⟩)
    · exact absurd hc (hus₂ u hu)
  · intro v hv hc
    exact hvs v (hvs₁ ▸ List.mem_filter.mpr ⟨hv, hc⟩)

/-! ### Which row supplies a column -/

section Supplier

variable {c : String} {us vs : List (EventRow α)} {row : EventRow α}

/-- From a later row on, rows that assert the column but are not later than `row` are no
records. -/
lemma find?_records_append (h : IsLatest c us row vs) (hlater : ∃ r ∈ us, row.eventTs < r.eventTs) :
    (records (us ++ row :: vs)).reverse.find? (·.asserts c) =
      (records us).reverse.find? (·.asserts c) := by
  obtain ⟨r, hr, hlt⟩ := hlater
  have happend := clock.accepted_append us (row :: vs) ⊥
  change records _ = records us ++ _ at happend
  rw [happend, List.reverse_append, List.find?_append, List.find?_eq_none.mpr, Option.none_or]
  intro w hw hc
  obtain ⟨as, bs, hsplit, hstamp, -⟩ := clock.mem_accepted (List.mem_reverse.mp hw)
  have hw : w ∈ row :: vs := by rw [hsplit]; simp
  have hle : w.eventTs ≤ row.eventTs := by
    rcases List.mem_cons.mp hw with rfl | hw
    · exact le_rfl
    · exact (h.after w hw hc).le
  have hr' : (r.eventTs : WithBot Timestamp) ≤ w.eventTs :=
    (clock.time_le_stamp_run hr ⊥).trans hstamp
  exact absurd (hlt.trans_le (WithBot.coe_le_coe.mp hr')) (not_lt.mpr hle)

/-- An overtaken row changes nothing: the rows before it supply the column. -/
lemma supplier_of_overtaken (h : IsLatest c us row vs) (hover : Overtaken c us row) :
    supplier c (us ++ row :: vs) = supplier c us := by
  obtain ⟨f, hf⟩ := Option.isSome_iff_exists.mp
    (List.find?_isSome.mpr hover.2 : (us.find? (·.asserts c)).isSome)
  rw [supplier, find?_records_append h hover.1, List.find?_append, hf, Option.some_or, supplier, hf]

/-- A row that nobody overtakes supplies the column it is the latest to assert. -/
lemma supplier_of_not_overtaken (h : IsLatest c us row vs) (hover : ¬ Overtaken c us row) :
    supplier c (us ++ row :: vs) = some row := by
  by_cases hlater : ∃ r ∈ us, row.eventTs < r.eventTs
  · -- then it is the first to assert the column, and no record does
    have hfirst : ∀ u ∈ us, ¬ u.asserts c := fun u hu hc => hover ⟨hlater, u, hu, hc⟩
    have hrecords : (records us).reverse.find? (·.asserts c) = none := by
      rw [List.find?_eq_none]
      intro w hw
      obtain ⟨as, bs, hsplit, -, -⟩ := clock.mem_accepted (List.mem_reverse.mp hw)
      exact hfirst w (by rw [hsplit]; simp)
    have hnone : us.find? (·.asserts c) = none := List.find?_eq_none.mpr hfirst
    rw [supplier, find?_records_append h hlater, hrecords, Option.none_or, List.find?_append,
      hnone, Option.none_or]
    simp [h.asserts]
  · have hbefore : ∀ u ∈ us, u.eventTs ≤ row.eventTs := fun u hu =>
      not_lt.mp fun hlt => hlater ⟨u, hu, hlt⟩
    exact supplier_append h.asserts hbefore h.after

end Supplier

/-! ### The rule and the merge -/

lemma mem_keys_groupHot (batch : List (EventRow α)) (k : NaturalKey) :
    k ∈ (groupHot batch).map HotGroup.naturalKey ↔ k ∈ batch.map EventRow.naturalKey := by
  constructor
  · intro hk
    obtain ⟨group, hgroup, rfl⟩ := List.mem_map.mp hk
    have hrows : rowsOf group.naturalKey batch ≠ [] := fun hnil => by
      have hof := mem_groupHot.mp hgroup
      rw [groupOf_eq_none.mpr hnil] at hof
      cases hof
    obtain ⟨row, hrow⟩ := List.exists_mem_of_ne_nil _ hrows
    obtain ⟨hmem, hkey⟩ := List.mem_filter.mp hrow
    exact List.mem_map.mpr ⟨row, hmem, of_decide_eq_true hkey⟩
  · intro hk
    obtain ⟨row, hrow, rfl⟩ := List.mem_map.mp hk
    have hmem : row ∈ rowsOf row.naturalKey batch := List.mem_filter.mpr ⟨hrow, by simp⟩
    obtain ⟨group, hof⟩ := exists_groupOf hmem
    have hkey : group.naturalKey = row.naturalKey :=
      naturalKey_groupOf (fun r hr => of_decide_eq_true (List.mem_filter.mp hr).2) hof
    exact List.mem_map.mpr ⟨group, mem_groupHot.mpr (hkey ▸ hof), hkey⟩

/-- The position of a group is the one of its latest row. -/
lemma position_groupOf {rows : List (EventRow α)} {group : HotGroup α}
    (h : groupOf rows = some group) :
    ∃ row, latest rows = some row ∧ group.lastSourceEventAt = row.eventTs ∧
      group.sourceEventId = row.sourceEventId ∧ group.chunkRowIndex = row.chunkRowIndex := by
  induction rows using List.reverseRecOn generalizing group with
  | nil => cases h
  | append_singleton rows row ih =>
    rw [groupOf_snoc, Option.some.injEq] at h
    subst h
    rw [latest_snoc]
    cases hg : groupOf rows with
    | none =>
      rw [groupOf_eq_none.mp hg]
      exact ⟨row, rfl, rfl, rfl, rfl⟩
    | some g =>
      obtain ⟨b, hb, hts, hid, hindex⟩ := ih hg
      rw [hb]
      by_cases hle : b.eventTs ≤ row.eventTs
      · have hnewer : g.lastSourceEventAt ≤ row.eventTs := hts ▸ hle
        exact ⟨row, if_pos hle, by simp [HotGroup.absorb, hnewer]⟩
      · exact ⟨b, if_neg hle, by simp [HotGroup.absorb, hts, hid, hindex, hle]⟩

/-- The merge keeps the rule at the column: its latest row is not overtaken, or asserts what
the rows before it assert already. -/
def Settled (c : String) (rows : List (EventRow α)) : Prop :=
  ∀ us row vs, rows = us ++ row :: vs → IsLatest c us row vs → Overtaken c us row →
    (supplier c us).bind (valueAt c) = valueAt c row

lemma projected_eq_iff {rows : List (EventRow α)} {group : HotGroup α}
    (h : groupOf rows = some group) (c : String) :
    group.projected.get? c = (latest (rows.filter (·.asserts c))).bind (valueAt c) ↔
      Settled c rows := by
  rw [get?_projected_groupOf h]
  constructor
  · rintro hlaw us row vs rfl hlatest hover
    rw [hlatest.latest_filter, supplier_of_overtaken hlatest hover] at hlaw
    exact hlaw
  · intro hsettled
    cases hl : latest (rows.filter (·.asserts c)) with
    | none =>
      have hnone : rows.filter (·.asserts c) = [] := latest_eq_none.mp hl
      cases hs : supplier c rows with
      | none => rfl
      | some s =>
        have hmem : s ∈ rows.filter (·.asserts c) :=
          List.mem_filter.mpr ⟨mem_of_supplier hs, asserts_supplier hs⟩
        rw [hnone] at hmem
        cases hmem
    | some row =>
      obtain ⟨us, vs, rfl, hlatest⟩ := exists_isLatest hl
      -- the running maximum passed the latest asserting row over, or it did not
      by_cases hover : Overtaken c us row
      · rw [supplier_of_overtaken hlatest hover]
        exact hsettled us row vs rfl hlatest hover
      · rw [supplier_of_not_overtaken hlatest hover]
        rfl

/-- **When the latest event time wins**: exactly when, for every key and column, the latest row
asserting the column is not overtaken or changes nothing. -/
theorem latestWins_iff (batch : List (EventRow α)) :
    LatestWins batch ↔ ∀ k c, Settled c (rowsOf k batch) := by
  constructor
  · intro hlaw k c
    cases hof : groupOf (rowsOf k batch) with
    | none =>
      rw [groupOf_eq_none.mp hof]
      intro us row vs hsplit
      simp at hsplit
    | some group =>
      have hkey : group.naturalKey = k :=
        naturalKey_groupOf (fun r hr => of_decide_eq_true (List.mem_filter.mp hr).2) hof
      subst hkey
      exact (projected_eq_iff hof c).mp (hlaw.column group (mem_groupHot.mpr hof) c)
  · intro hsettled
    refine ⟨nodup_naturalKey_groupHot batch, mem_keys_groupHot batch, ?_, ?_⟩
    · intro group hgroup c
      exact (projected_eq_iff (mem_groupHot.mp hgroup) c).mpr (hsettled _ c)
    · intro group hgroup
      exact position_groupOf (mem_groupHot.mp hgroup)

/-- A row of one key at the given minute. -/
def rowAt (minute : ℕ) (contributions : List (String × Cell)) : EventRow Cell where
  params := .empty
  sourceEventId := "k-" ++ toString minute
  eventTs := 1780653600000000 + 60000000 * minute
  naturalKey := ("SKU", none, none)
  hotContributions := .ofList contributions
  payload := .empty
  rowHash := "h"
  chunkRowIndex := minute

/-- A price at minute 0, a stock count at minute 2, and a price of minute 1 that comes last. -/
def latePrice : List (EventRow Cell) :=
  [rowAt 0 [("current_retail_price", some (.decimal 900 2))],
    rowAt 2 [("stock_qty", some (.decimal 5 0))],
    rowAt 1 [("current_retail_price", some (.decimal 1000 2))]]

/-- The group keeps the price of minute 0. -/
theorem late_price_lost :
    ¬ LatestWins latePrice ∧
      (groupHot latePrice).map (fun g => g.projected.get? "current_retail_price") =
        [some (some (.decimal 900 2))] := by
  refine ⟨fun hlaw => ?_, by decide⟩
  have hcolumn := fun group hgroup => hlaw.column group hgroup "current_retail_price"
  revert hcolumn
  decide

end CortexDis.MergeLaw
