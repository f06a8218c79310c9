import CortexDis.Stamped
import CortexDis.Values

/-!
The hot side of one batch: what the rows of a batch assert of each natural key, merged in
memory into one group a key.

The asserted values are of any type `α`. The sink uses cells; the same merge over values
that carry the row they came from says which row supplied what.
-/

namespace CortexDis.GroupHot

open CortexDis.PyDict CortexDis.Stamped CortexDis.Values

variable {α β : Type}

/-- `(sku_id, sku_variant, sku_lot_batch)` as the row spells it. -/
abbrev NaturalKey := String × Option String × Option String

/-- The natural key with null segments read as the empty string. -/
def coalesce (k : NaturalKey) : String × String × String :=
  (k.1, k.2.1.getD "", k.2.2.getD "")

/-- One write-ready event-table row plus its hot contribution. -/
structure EventRow (α : Type) where
  params : Dict String Cell
  sourceEventId : String
  eventTs : Timestamp
  naturalKey : NaturalKey
  hotContributions : Dict String α
  payload : Dict String Cell
  rowHash : String
  chunkRowIndex : ℕ

/-- One batch-local natural-key group. -/
structure HotGroup (α : Type) where
  naturalKey : NaturalKey
  projected : Dict String α
  lastSourceEventAt : Timestamp
  sourceEventId : String
  chunkRowIndex : ℕ

/-- The group a key's first row opens. -/
def HotGroup.ofRow (row : EventRow α) : HotGroup α where
  naturalKey := row.naturalKey
  projected := row.hotContributions
  lastSourceEventAt := row.eventTs
  sourceEventId := row.sourceEventId
  chunkRowIndex := row.chunkRowIndex

/-- The columns of a row that is `newer` replace those of the group; those of an older row
only fill the columns the group lacks. -/
def mergeColumns (newer : Bool) (projected contributions : Dict String α) : Dict String α :=
  contributions.entries.foldl
    (fun d e => if newer || (d.get? e.1).isNone then d.set e.1 e.2 else d) projected

/-- The group after a further row of its key. -/
def HotGroup.absorb (group : HotGroup α) (row : EventRow α) : HotGroup α :=
  let newer := decide (group.lastSourceEventAt ≤ row.eventTs)
  let projected := mergeColumns newer group.projected row.hotContributions
  if newer then
    { group with
      projected := projected
      lastSourceEventAt := row.eventTs
      sourceEventId := row.sourceEventId
      chunkRowIndex := row.chunkRowIndex }
  else { group with projected := projected }

def groupStep (groups : Dict NaturalKey (HotGroup α)) (row : EventRow α) :
    Dict NaturalKey (HotGroup α) :=
  match groups.get? row.naturalKey with
  | none => groups.set row.naturalKey (HotGroup.ofRow row)
  | some group => groups.set row.naturalKey (group.absorb row)

/-- `_group_hot`: column-scoped merge within the batch, in chunk order. -/
def groupHot (batch : List (EventRow α)) : List (HotGroup α) :=
  (batch.foldl groupStep Dict.empty).values

/-- `hot_sort_key` -/
def hotSortKey (group : HotGroup α) : String × String × String := coalesce group.naturalKey

/-- The order `sorted` compares the keys in. -/
def keyLe (a b : String × String × String) : Prop :=
  a.1 < b.1 ∨ a.1 = b.1 ∧ (a.2.1 < b.2.1 ∨ a.2.1 = b.2.1 ∧ a.2.2 ≤ b.2.2)

instance (a b : String × String × String) : Decidable (keyLe a b) :=
  inferInstanceAs (Decidable (_ ∨ _))

/-- `sorted(groups, key=hot_sort_key)`, which is stable. -/
def sortGroups (groups : List (HotGroup α)) : List (HotGroup α) :=
  groups.insertionSort fun a b => keyLe (hotSortKey a) (hotSortKey b)

/-- `_batches`: consecutive slices of at most `size` rows. -/
def batches (rows : List α) (size : ℕ) : List (List α) :=
  (List.range ((rows.length + size - 1) / size)).map fun i => (rows.drop (i * size)).take size

/-! ### Batches -/

lemma batches_nil (size : ℕ) (h : 1 ≤ size) : batches ([] : List α) size = [] := by
  have hdiv : (([] : List α).length + size - 1) / size = 0 :=
    Nat.div_eq_of_lt (by simp only [List.length_nil]; omega)
  rw [batches, hdiv]
  rfl

lemma batches_of_ne_nil {rows : List α} (hr : rows ≠ []) {size : ℕ} (h : 1 ≤ size) :
    batches rows size = rows.take size :: batches (rows.drop size) size := by
  have hlen : 1 ≤ rows.length := List.length_pos_iff.mpr hr
  have hcount : (rows.length + size - 1) / size =
      ((rows.drop size).length + size - 1) / size + 1 := by
    rw [List.length_drop]
    rcases le_or_gt size rows.length with hle | hlt
    · have hadd : rows.length + size - 1 = rows.length - size + size - 1 + size := by omega
      rw [hadd, Nat.add_div_right _ (by omega)]
    · have h1 : (rows.length + size - 1) / size = 1 :=
        Nat.div_eq_of_lt_le (by omega) (by omega)
      have h2 : (rows.length - size + size - 1) / size = 0 := Nat.div_eq_of_lt (by omega)
      rw [h1, h2]
  unfold batches
  rw [hcount, List.range_succ_eq_map]
  simp [List.map_map, Function.comp_def, List.drop_drop, Nat.succ_mul, Nat.add_comm]

lemma flatten_batches (rows : List α) {size : ℕ} (h : 1 ≤ size) :
    (batches rows size).flatten = rows := by
  induction hn : rows.length using Nat.strong_induction_on generalizing rows with
  | _ n ih =>
    by_cases hr : rows = []
    · subst hr
      rw [batches_nil size h, List.flatten_nil]
    · have hlen : (rows.drop size).length < n := by
        have := List.length_pos_iff.mpr hr
        rw [List.length_drop]
        omega
      rw [batches_of_ne_nil hr h, List.flatten_cons, ih _ hlen _ rfl, List.take_append_drop]

lemma flatten_dropLast_batches (rows : List α) {size : ℕ} (h : 1 ≤ size) :
    (batches rows size).dropLast.flatten = rows.take ((rows.length - 1) / size * size) := by
  induction hn : rows.length using Nat.strong_induction_on generalizing rows with
  | _ n ih =>
    by_cases hr : rows = []
    · subst hr
      rw [batches_nil size h]
      simp
    · have hpos := List.length_pos_iff.mpr hr
      rw [batches_of_ne_nil hr h]
      rcases le_or_gt rows.length size with hle | hlt
      · have hdiv : (n - 1) / size = 0 := Nat.div_eq_of_lt (by omega)
        rw [List.drop_of_length_le hle, batches_nil size h, hdiv]
        simp
      · have hne : rows.drop size ≠ [] := by
          intro hd
          have := List.drop_eq_nil_iff.mp hd
          omega
        have hdiv : (n - 1) / size = (n - size - 1) / size + 1 := by
          have hadd : n - 1 = n - size - 1 + size := by omega
          rw [hadd, Nat.add_div_right _ (by omega)]
        have hlen : (rows.drop size).length = n - size := by rw [List.length_drop, hn]
        have hrest := ih (n - size) (by omega) (rows.drop size) hlen
        rw [List.dropLast_cons_of_ne_nil (by rw [batches_of_ne_nil hne h]; simp),
          List.flatten_cons, hrest, hdiv, Nat.succ_mul, Nat.add_comm, List.take_add]

/-! ### Columns of a merged group -/

lemma get?_fold_merge (newer : Bool) (c : String) (l : List (String × α))
    (hl : (l.map Prod.fst).Nodup) (d : Dict String α) :
    (l.foldl (fun d e => if newer || (d.get? e.1).isNone then d.set e.1 e.2 else d) d).get? c =
      if newer then (lookup c l).or (d.get? c) else (d.get? c).or (lookup c l) := by
  induction l generalizing d with
  | nil => cases newer <;> simp [lookup]
  | cons e l ih =>
    simp only [List.map_cons, List.nodup_cons] at hl
    rw [List.foldl_cons, ih hl.2]
    -- a later entry has another key, so the head entry decides its own column alone
    by_cases hc : e.1 = c
    · have hnone : lookup c l = none := (lookup_eq_none c l).mpr (hc ▸ hl.1)
      subst hc
      cases newer with
      | true => simp [lookup, hnone]
      | false => cases hp : d.get? e.1 <;> simp [lookup, hp]
    · have hd : (if newer || (d.get? e.1).isNone then d.set e.1 e.2 else d).get? c = d.get? c := by
        split
        · exact d.get?_set_ne e.2 hc
        · rfl
      simp only [hd, lookup, hc, if_false]

lemma get?_mergeColumns (newer : Bool) (projected contributions : Dict String α) (c : String) :
    (mergeColumns newer projected contributions).get? c =
      if newer then (contributions.get? c).or (projected.get? c)
      else (projected.get? c).or (contributions.get? c) :=
  get?_fold_merge newer c contributions.entries contributions.nodup projected

/-! ### The group of one key -/

/-- The group that the rows of one key make, in order. -/
def groupOf : List (EventRow α) → Option (HotGroup α)
  | [] => none
  | row :: rows => some (rows.foldl HotGroup.absorb (HotGroup.ofRow row))

/-- The rows of a batch that spell the key `k`. -/
def rowsOf (k : NaturalKey) (batch : List (EventRow α)) : List (EventRow α) :=
  batch.filter fun row => row.naturalKey = k

lemma groupOf_snoc (rows : List (EventRow α)) (row : EventRow α) :
    groupOf (rows ++ [row]) =
      some (match groupOf rows with
        | none => HotGroup.ofRow row
        | some group => group.absorb row) := by
  cases rows with
  | nil => rfl
  | cons r rows => simp [groupOf]

lemma get?_groupStep (groups : Dict NaturalKey (HotGroup α)) (row : EventRow α) (k : NaturalKey) :
    (groupStep groups row).get? k =
      if row.naturalKey = k then
        some (match groups.get? k with
          | none => HotGroup.ofRow row
          | some group => group.absorb row)
      else groups.get? k := by
  unfold groupStep
  by_cases h : row.naturalKey = k
  · subst h
    cases hg : groups.get? row.naturalKey <;> simp
  · cases hg : groups.get? row.naturalKey <;> simp [Dict.get?_set, h]

lemma get?_groups (batch : List (EventRow α)) (k : NaturalKey) :
    (batch.foldl groupStep Dict.empty).get? k = groupOf (rowsOf k batch) := by
  induction batch using List.reverseRecOn with
  | nil => rfl
  | append_singleton batch row ih =>
    rw [List.foldl_append, List.foldl_cons, List.foldl_nil, get?_groupStep, ih]
    by_cases h : row.naturalKey = k
    · have hr : rowsOf k (batch ++ [row]) = rowsOf k batch ++ [row] := by simp [rowsOf, h]
      rw [hr, groupOf_snoc, if_pos h]
    · have hr : rowsOf k (batch ++ [row]) = rowsOf k batch := by simp [rowsOf, h]
      rw [hr, if_neg h]

lemma naturalKey_absorb (group : HotGroup α) (row : EventRow α) :
    (group.absorb row).naturalKey = group.naturalKey := by
  unfold HotGroup.absorb
  dsimp only
  split <;> rfl

lemma naturalKey_groupOf {rows : List (EventRow α)} {group : HotGroup α} {k : NaturalKey}
    (hk : ∀ row ∈ rows, row.naturalKey = k) (h : groupOf rows = some group) :
    group.naturalKey = k := by
  cases rows with
  | nil => simp [groupOf] at h
  | cons row rows =>
    have hfold : ∀ (l : List (EventRow α)) (g : HotGroup α),
        (l.foldl HotGroup.absorb g).naturalKey = g.naturalKey := by
      intro l
      induction l with
      | nil => intro g; rfl
      | cons r l ih => intro g; rw [List.foldl_cons, ih, naturalKey_absorb]
    simp only [groupOf, Option.some.injEq] at h
    rw [← h, hfold]
    exact hk row List.mem_cons_self

/-- **A batch has one group for each natural key its rows spell.** -/
lemma mem_groupHot {batch : List (EventRow α)} {group : HotGroup α} :
    group ∈ groupHot batch ↔ groupOf (rowsOf group.naturalKey batch) = some group := by
  have hrows : ∀ k, ∀ row ∈ rowsOf k batch, row.naturalKey = k := fun k row hr => by
    simpa using (List.mem_filter.mp hr).2
  constructor
  · intro h
    obtain ⟨⟨k, g⟩, he, rfl⟩ := List.mem_map.mp h
    have hg := (Dict.mem_entries _).mp he
    rw [get?_groups] at hg
    rw [naturalKey_groupOf (hrows k) hg]
    exact hg
  · intro h
    rw [← get?_groups] at h
    exact List.mem_map.mpr ⟨_, (Dict.mem_entries _).mpr h, rfl⟩

lemma map_naturalKey_groupHot (batch : List (EventRow α)) :
    (groupHot batch).map HotGroup.naturalKey = (batch.foldl groupStep Dict.empty).keys := by
  unfold groupHot Dict.values Dict.keys
  rw [List.map_map]
  refine List.map_congr_left fun e he => ?_
  have hg := (Dict.mem_entries _).mp (show (e.1, e.2) ∈ _ from he)
  rw [get?_groups] at hg
  exact naturalKey_groupOf (fun row hr => by simpa using (List.mem_filter.mp hr).2) hg

lemma nodup_naturalKey_groupHot (batch : List (EventRow α)) :
    ((groupHot batch).map HotGroup.naturalKey).Nodup := by
  rw [map_naturalKey_groupHot]
  exact (batch.foldl groupStep Dict.empty).nodup

lemma eq_singleton_of_nodup {l : List α} (hn : l.Nodup) {a : α} (ha : a ∈ l)
    (h : ∀ x ∈ l, x = a) : l = [a] := by
  rw [List.eq_replicate_of_mem h] at hn ha ⊢
  have hle := List.nodup_replicate.mp hn
  have hne : l.length ≠ 0 := by
    intro h0
    simp [h0] at ha
  have hone : l.length = 1 := by omega
  rw [hone]
  rfl

lemma filter_sortGroups (k : NaturalKey) (batch : List (EventRow α)) :
    (sortGroups (groupHot batch)).filter (fun g => g.naturalKey = k) =
      (groupOf (rowsOf k batch)).toList := by
  have hmem : ∀ g ∈ (sortGroups (groupHot batch)).filter (fun g => g.naturalKey = k),
      groupOf (rowsOf k batch) = some g := by
    intro g hg
    obtain ⟨hg, hk⟩ := List.mem_filter.mp hg
    have hk' : g.naturalKey = k := by simpa using hk
    rw [← hk']
    exact mem_groupHot.mp ((List.mem_insertionSort _).mp hg)
  cases hg : groupOf (rowsOf k batch) with
  | none =>
    refine List.eq_nil_iff_forall_not_mem.mpr fun g h => ?_
    rw [hmem g h] at hg
    cases hg
  | some g =>
    have hk : g.naturalKey = k :=
      naturalKey_groupOf (fun row hr => by simpa using (List.mem_filter.mp hr).2) hg
    have hin : g ∈ (sortGroups (groupHot batch)).filter (fun g => g.naturalKey = k) := by
      refine List.mem_filter.mpr
        ⟨(List.mem_insertionSort _).mpr (mem_groupHot.mpr ?_), by simp [hk]⟩
      rw [hk]
      exact hg
    have hall : ∀ x ∈ (sortGroups (groupHot batch)).filter (fun g => g.naturalKey = k), x = g := by
      intro x hx
      have := hmem x hx
      rw [hg] at this
      exact (Option.some.inj this).symm
    -- one group for each spelling, so the filter keeps it once
    have hnodup : ((sortGroups (groupHot batch)).filter (fun g => g.naturalKey = k)).Nodup := by
      refine List.Nodup.filter _ (List.Nodup.of_map HotGroup.naturalKey ?_)
      exact ((List.perm_insertionSort _ _).map _).nodup_iff.mpr (nodup_naturalKey_groupHot batch)
    exact eq_singleton_of_nodup hnodup hin hall

/-! ### The order of the groups -/

lemma filter_hotSortKey_sortGroups (groups : List (HotGroup α)) (k : String × String × String) :
    (sortGroups groups).filter (fun g => hotSortKey g = k) =
      groups.filter fun g => hotSortKey g = k := by
  have hpair : (groups.filter fun g => hotSortKey g = k).Pairwise
      fun g g' => keyLe (hotSortKey g) (hotSortKey g') := by
    refine List.pairwise_of_forall_mem_list fun g hg g' hg' => ?_
    rw [of_decide_eq_true (List.mem_filter.mp hg).2, of_decide_eq_true (List.mem_filter.mp hg').2]
    exact Or.inr ⟨rfl, Or.inr ⟨rfl, le_rfl⟩⟩
  have hsub := (List.sublist_insertionSort hpair List.filter_sublist).filter
    fun g => hotSortKey g = k
  simp only [List.filter_filter, Bool.and_self] at hsub
  refine (hsub.eq_of_length ?_).symm
  exact ((List.perm_insertionSort _ groups).symm.filter _).length_eq

/-- The distinct keys of a list, each at its first place. -/
def firsts (keys : List NaturalKey) : List NaturalKey :=
  keys.foldl (fun ks k => if ks.contains k then ks else ks ++ [k]) []

lemma firsts_snoc (keys : List NaturalKey) (k : NaturalKey) :
    firsts (keys ++ [k]) = if k ∈ firsts keys then firsts keys else firsts keys ++ [k] := by
  rw [firsts, List.foldl_append, List.foldl_cons, List.foldl_nil, ← firsts]
  simp only [List.contains_iff_mem]

lemma mem_firsts {keys : List NaturalKey} {k : NaturalKey} : k ∈ firsts keys ↔ k ∈ keys := by
  induction keys using List.reverseRecOn with
  | nil => rfl
  | append_singleton keys k' ih =>
    rw [firsts_snoc]
    split
    · rename_i hmem
      rw [ih, List.mem_append, List.mem_singleton]
      refine ⟨Or.inl, ?_⟩
      rintro (h | rfl)
      · exact h
      · exact ih.mp hmem
    · rw [List.mem_append, List.mem_append, ih]

lemma map_naturalKey_groupHot_eq_firsts (batch : List (EventRow α)) :
    (groupHot batch).map HotGroup.naturalKey = firsts (batch.map EventRow.naturalKey) := by
  rw [map_naturalKey_groupHot]
  induction batch using List.reverseRecOn with
  | nil => rfl
  | append_singleton batch row ih =>
    rw [List.foldl_append, List.foldl_cons, List.foldl_nil, List.map_append, List.map_singleton,
      firsts_snoc, ← ih]
    unfold groupStep
    split <;> rw [Dict.keys_set] <;> congr

lemma pairwise_firsts {P : NaturalKey → NaturalKey → Prop} {keys : List NaturalKey} :
    (firsts keys).Pairwise P ↔
      ∀ us k vs, keys = us ++ k :: vs → k ∉ us → ∀ u ∈ us, P u k := by
  induction keys using List.reverseRecOn with
  | nil => exact iff_of_true List.Pairwise.nil fun us k vs h => by simp at h
  | append_singleton keys k ih =>
    -- a split of the longer list is one of the shorter, or its last place
    have hsplit : (∀ us k' vs, keys ++ [k] = us ++ k' :: vs → k' ∉ us → ∀ u ∈ us, P u k') ↔
        (firsts keys).Pairwise P ∧ (k ∉ keys → ∀ u ∈ keys, P u k) := by
      rw [ih]
      constructor
      · intro h
        refine ⟨?_, h keys k [] rfl⟩
        rintro us k' vs rfl
        exact h us k' (vs ++ [k]) (by simp)
      · rintro ⟨hinit, hlast⟩ us k' vs heq
        rcases List.eq_nil_or_concat vs with rfl | ⟨vs', v, rfl⟩
        · obtain ⟨rfl, hk⟩ := List.append_inj' heq rfl
          cases hk
          exact hlast
        · rw [List.concat_eq_append, ← List.cons_append, ← List.append_assoc] at heq
          exact hinit us k' vs' (List.append_inj' heq rfl).1
    rw [hsplit, firsts_snoc]
    split
    · rename_i hmem
      exact ⟨fun h => ⟨h, fun hk => absurd (mem_firsts.mp hmem) hk⟩, fun h => h.1⟩
    · rename_i hmem
      rw [List.pairwise_append]
      have hk : k ∉ keys := fun hk => hmem (mem_firsts.mpr hk)
      simp only [List.pairwise_singleton, List.mem_singleton, true_and]
      refine and_congr_right fun _ => ⟨fun h _ u hu => h u (mem_firsts.mpr hu) k rfl, ?_⟩
      rintro h u hu _ rfl
      exact h hk u (mem_firsts.mp hu)

/-! ### Which row supplies a column -/

/-- The latest event time seen so far, as a register of its own. -/
def clock : Register Timestamp (EventRow α) (WithBot Timestamp) where
  stamp := id
  time row := row.eventTs
  write row _ := row.eventTs
  stamp_write _ _ := rfl

/-- The rows that are not older than any row before them. -/
def records (rows : List (EventRow α)) : List (EventRow α) := clock.accepted ⊥ rows

/-- The row asserts the hot column `c`. -/
def EventRow.asserts (row : EventRow α) (c : String) : Bool := (row.hotContributions.get? c).isSome

/-- The row whose value a group projects for `c`: the last record asserting it, or else the
first row asserting it. -/
def supplier (c : String) (rows : List (EventRow α)) : Option (EventRow α) :=
  ((records rows).reverse.find? (·.asserts c)).or (rows.find? (·.asserts c))

lemma clock_run_snoc (rows : List (EventRow α)) (row : EventRow α) :
    clock.run (rows ++ [row]) ⊥ = max (clock.run rows ⊥) (row.eventTs : WithBot Timestamp) := by
  rw [Register.run_append]
  exact clock.stamp_offer row (clock.run rows ⊥)

lemma lastSourceEventAt_absorb (group : HotGroup α) (row : EventRow α) :
    (group.absorb row).lastSourceEventAt = max group.lastSourceEventAt row.eventTs := by
  by_cases h : group.lastSourceEventAt ≤ row.eventTs
  · simp [HotGroup.absorb, h]
  · simp [HotGroup.absorb, h, (not_le.mp h).le]

lemma groupOf_eq_none {rows : List (EventRow α)} : groupOf rows = none ↔ rows = [] := by
  cases rows <;> simp [groupOf]

lemma exists_groupOf {rows : List (EventRow α)} {row : EventRow α} (hrow : row ∈ rows) :
    ∃ group, groupOf rows = some group :=
  Option.ne_none_iff_exists'.mp fun hnone => List.ne_nil_of_mem hrow (groupOf_eq_none.mp hnone)

lemma lastSourceEventAt_groupOf {rows : List (EventRow α)} {group : HotGroup α}
    (h : groupOf rows = some group) :
    (group.lastSourceEventAt : WithBot Timestamp) = clock.run rows ⊥ := by
  induction rows using List.reverseRecOn generalizing group with
  | nil => simp [groupOf] at h
  | append_singleton rows row ih =>
    rw [groupOf_snoc, Option.some.injEq] at h
    subst h
    rw [clock_run_snoc]
    cases hg : groupOf rows with
    | none =>
      rw [groupOf_eq_none.mp hg]
      exact (max_eq_right bot_le).symm
    | some g =>
      rw [← ih hg, ← WithBot.coe_max]
      exact congrArg _ (lastSourceEventAt_absorb g row)

lemma eventTs_le_lastSourceEventAt {rows : List (EventRow α)} {group : HotGroup α}
    (h : groupOf rows = some group) {row : EventRow α} (hr : row ∈ rows) :
    row.eventTs ≤ group.lastSourceEventAt := by
  have hle := clock.time_le_stamp_run hr ⊥
  change (row.eventTs : WithBot Timestamp) ≤ clock.run rows ⊥ at hle
  rw [← lastSourceEventAt_groupOf h] at hle
  exact WithBot.coe_le_coe.mp hle

lemma exists_eventTs_eq {rows : List (EventRow α)} {group : HotGroup α}
    (h : groupOf rows = some group) : ∃ row ∈ rows, row.eventTs = group.lastSourceEventAt := by
  induction rows using List.reverseRecOn generalizing group with
  | nil => simp [groupOf] at h
  | append_singleton rows row ih =>
    rw [groupOf_snoc, Option.some.injEq] at h
    subst h
    cases hg : groupOf rows with
    | none => exact ⟨row, by simp, rfl⟩
    | some g =>
      obtain ⟨r, hr, hts⟩ := ih hg
      dsimp only
      rw [lastSourceEventAt_absorb]
      rcases max_choice g.lastSourceEventAt row.eventTs with hm | hm <;> rw [hm]
      · exact ⟨r, List.mem_append_left _ hr, hts⟩
      · exact ⟨row, by simp, rfl⟩

lemma records_snoc (rows : List (EventRow α)) (row : EventRow α) :
    records (rows ++ [row]) =
      records rows ++ if clock.run rows ⊥ ≤ (row.eventTs : WithBot Timestamp) then [row] else [] :=
  clock.accepted_append rows [row] ⊥

lemma asserts_supplier {c : String} {rows : List (EventRow α)} {s : EventRow α}
    (h : supplier c rows = some s) : s.asserts c = true := by
  unfold supplier at h
  rcases Option.or_eq_some_iff.mp h with h | ⟨_, h⟩ <;>
    exact List.find?_some (p := fun row : EventRow α => row.asserts c) h

lemma mem_of_supplier {c : String} {rows : List (EventRow α)} {s : EventRow α}
    (h : supplier c rows = some s) : s ∈ rows := by
  unfold supplier at h
  rcases Option.or_eq_some_iff.mp h with h | ⟨_, h⟩
  · obtain ⟨as, bs, rfl, _, _⟩ :=
      clock.mem_accepted (List.mem_reverse.mp (List.mem_of_find?_eq_some h))
    simp
  · exact List.mem_of_find?_eq_some h

lemma exists_supplier_iff {c : String} {rows : List (EventRow α)} :
    (∃ s, supplier c rows = some s) ↔ ∃ r ∈ rows, r.asserts c := by
  constructor
  · rintro ⟨s, hs⟩
    exact ⟨s, mem_of_supplier hs, asserts_supplier hs⟩
  · rintro ⟨r, hr, hc⟩
    have hsome : (rows.find? (·.asserts c)).isSome := List.find?_isSome.mpr ⟨r, hr, hc⟩
    obtain ⟨f, hf⟩ := Option.isSome_iff_exists.mp hsome
    unfold supplier
    cases (records rows).reverse.find? (·.asserts c) with
    | none => exact ⟨f, hf⟩
    | some s => exact ⟨s, rfl⟩

/-- A row asserting `c` that is not older than the rows before it supplies `c` when the rows
after it that assert it are older. -/
lemma supplier_append {c : String} {us vs : List (EventRow α)} {s : EventRow α}
    (hs : s.asserts c = true) (hus : ∀ u ∈ us, u.eventTs ≤ s.eventTs)
    (hvs : ∀ v ∈ vs, v.asserts c = true → v.eventTs < s.eventTs) :
    supplier c (us ++ s :: vs) = some s := by
  have hclock : clock.stamp (clock.run us ⊥) ≤ ((clock.time s : Timestamp) : WithBot Timestamp) :=
    clock.stamp_run_le bot_le fun u hu => WithBot.coe_le_coe.mpr (hus u hu)
  have hrecords : records (us ++ s :: vs) =
      records us ++ s :: clock.accepted ((clock.time s : Timestamp) : WithBot Timestamp) vs := by
    have happend := clock.accepted_append us (s :: vs) ⊥
    change records _ = records us ++ _ at happend
    rw [happend, Register.accepted, if_pos hclock]
  have hnone : (clock.accepted ((clock.time s : Timestamp) : WithBot Timestamp) vs).reverse.find?
      (·.asserts c) = none := by
    rw [List.find?_eq_none]
    intro v hv hc
    obtain ⟨as, bs, rfl, hstamp, _⟩ := clock.mem_accepted (List.mem_reverse.mp hv)
    exact absurd (WithBot.coe_le_coe.mp hstamp) (not_le.mpr (hvs v (by simp) hc))
  unfold supplier
  rw [hrecords]
  simp [List.find?_append, hnone, hs]

lemma get?_projected_absorb (group : HotGroup α) (row : EventRow α) (c : String) :
    (group.absorb row).projected.get? c =
      if group.lastSourceEventAt ≤ row.eventTs then
        (row.hotContributions.get? c).or (group.projected.get? c)
      else (group.projected.get? c).or (row.hotContributions.get? c) := by
  by_cases h : group.lastSourceEventAt ≤ row.eventTs <;>
    simp [HotGroup.absorb, h, get?_mergeColumns]

/-- **The column law of a group**: its value for `c` is the one its supplier asserts. -/
lemma get?_projected_groupOf {rows : List (EventRow α)} {group : HotGroup α}
    (h : groupOf rows = some group) (c : String) :
    group.projected.get? c = (supplier c rows).bind (·.hotContributions.get? c) := by
  induction rows using List.reverseRecOn generalizing group with
  | nil => simp [groupOf] at h
  | append_singleton rows row ih =>
    rw [groupOf_snoc, Option.some.injEq] at h
    subst h
    unfold supplier
    rw [records_snoc]
    cases hg : groupOf rows with
    | none =>
      rw [groupOf_eq_none.mp hg]
      cases hc : row.hotContributions.get? c <;>
        simp [HotGroup.ofRow, records, Register.accepted, EventRow.asserts, hc]
    | some g =>
      have hlast := lastSourceEventAt_groupOf hg
      have hproj := ih hg
      dsimp only
      rw [get?_projected_absorb, ← hlast, hproj, List.find?_append]
      -- a record asserting `c` takes it over; any other row counts only if nobody asserted `c`
      by_cases hle : g.lastSourceEventAt ≤ row.eventTs
      · cases hc : row.hotContributions.get? c <;>
          simp [hle, EventRow.asserts, hc, supplier]
      · have hle' : ¬ (g.lastSourceEventAt : WithBot Timestamp) ≤ row.eventTs := by
          simpa using not_le.mp hle
        rw [if_neg hle, if_neg hle', List.append_nil, ← Option.or_assoc]
        change _ = ((supplier c rows).or _).bind _
        cases hs : supplier c rows with
        | none =>
          cases hc : row.hotContributions.get? c <;> simp [EventRow.asserts, hc]
        | some s =>
          obtain ⟨v, hv⟩ := Option.isSome_iff_exists.mp (asserts_supplier hs)
          simp [hv]

/-- Some row that decides the value of `c` is not older than `u`: a record asserting `c`, or
the first row asserting it. -/
def Covers (u : Timestamp) (c : String) (rows : List (EventRow α)) : Prop :=
  (∃ r ∈ records rows, r.asserts c ∧ u ≤ r.eventTs) ∨
    ∃ f ∈ rows.find? (·.asserts c), u ≤ f.eventTs

lemma eventTs_le_of_record {rows : List (EventRow α)} {c : String} {r s : EventRow α}
    (hr : r ∈ records rows) (hc : r.asserts c = true)
    (hs : (records rows).reverse.find? (·.asserts c) = some s) : r.eventTs ≤ s.eventTs := by
  obtain ⟨_, as, bs, hsplit, has⟩ := List.find?_eq_some_iff_append.mp hs
  have hsorted : (as ++ s :: bs).Pairwise fun x y : EventRow α => y.eventTs ≤ x.eventTs := by
    rw [← hsplit, List.pairwise_reverse]
    exact clock.pairwise_accepted ⊥ rows
  have hmem : r ∈ as ++ s :: bs := hsplit ▸ List.mem_reverse.mpr hr
  rcases List.mem_append.mp hmem with h | h
  · have hnot := has r h
    simp [hc] at hnot
  · rcases List.mem_cons.mp h with rfl | h'
    · exact le_rfl
    · exact (List.pairwise_cons.mp (List.pairwise_append.mp hsorted).2.1).1 r h'

lemma covers_iff {rows : List (EventRow α)} {c : String} {s : EventRow α}
    (hs : supplier c rows = some s) (u : Timestamp) :
    Covers u c rows ↔ u ≤ s.eventTs := by
  unfold supplier at hs
  cases hrec : (records rows).reverse.find? (·.asserts c) with
  | none =>
    rw [hrec, Option.none_or] at hs
    constructor
    · rintro (⟨r, hr, hc, _⟩ | ⟨f, hf, hu⟩)
      · have := List.find?_eq_none.mp hrec r (List.mem_reverse.mpr hr)
        simp [hc] at this
      · rw [hs] at hf
        cases hf
        exact hu
    · exact fun hu => Or.inr ⟨s, hs, hu⟩
  | some s' =>
    rw [hrec, Option.some_or, Option.some.injEq] at hs
    subst hs
    have hmem : s' ∈ records rows := List.mem_reverse.mp (List.mem_of_find?_eq_some hrec)
    have hc : s'.asserts c = true :=
      List.find?_some (p := fun row : EventRow α => row.asserts c) hrec
    constructor
    · rintro (⟨r, hr, hrc, hu⟩ | ⟨f, hf, hu⟩)
      · exact hu.trans (eventTs_le_of_record hr hrc hrec)
      · -- the first row asserting `c` is the record itself or stands before it
        obtain ⟨as, bs, rfl, _, has⟩ := clock.mem_accepted hmem
        rw [List.find?_append] at hf
        cases hfa : as.find? (·.asserts c) with
        | none =>
          simp only [hfa, List.find?_cons, hc] at hf
          cases hf
          exact hu
        | some f' =>
          simp only [hfa, Option.some_or] at hf
          cases hf
          exact hu.trans (has f (List.mem_of_find?_eq_some hfa))
    · exact fun hu => Or.inl ⟨s', hmem, hc, hu⟩

end CortexDis.GroupHot
