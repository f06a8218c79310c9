import CortexDis.PyDict

/-!
A list grouped by a key.

Every element lies in the group of its key, each group keeps the order of the list, and the
groups stand in the order of their keys. These three determine the groups, and together the
groups hold the list.
-/

namespace CortexDis.Grouping

open CortexDis.PyDict

variable {κ α β : Type*} [LinearOrder κ]

/-- The groups of a list. -/
structure Groups (key : α → κ) (l : List α) (groups : List (κ × List α)) : Prop where
  increasing : groups.Pairwise fun a b => a.1 < b.1
  keys : ∀ k, k ∈ groups.map Prod.fst ↔ ∃ a ∈ l, key a = k
  group : ∀ e ∈ groups, e.2 = l.filter fun a => key a = e.1

variable {key : α → κ} {l : List α} {groups groups' : List (κ × List α)}

lemma Groups.keys_increasing (h : Groups key l groups) :
    (groups.map Prod.fst).Pairwise (· < ·) := by
  rw [List.pairwise_map]
  exact h.increasing

lemma eq_of_increasing {ks ks' : List κ} (h : ks.Pairwise (· < ·)) (h' : ks'.Pairwise (· < ·))
    (hmem : ∀ k, k ∈ ks ↔ k ∈ ks') : ks = ks' := by
  refine List.Perm.eq_of_pairwise (fun a b _ _ hab hba => absurd hab hba.asymm) h h' ?_
  rw [List.perm_ext_iff_of_nodup h.nodup h'.nodup]
  exact hmem

omit [LinearOrder κ] in
lemma eq_map_fst {items : List (κ × β)} {value : κ → β} (h : ∀ e ∈ items, e.2 = value e.1) :
    items = (items.map Prod.fst).map fun k => (k, value k) := by
  rw [List.map_map]
  conv_lhs => rw [← List.map_id items]
  exact List.map_congr_left fun e he => Prod.ext rfl (h e he)

lemma Groups.eq_map (h : Groups key l groups) :
    groups = (groups.map Prod.fst).map fun k => (k, l.filter fun a => key a = k) :=
  eq_map_fst h.group

lemma Groups.unique (h : Groups key l groups) (h' : Groups key l groups') : groups = groups' := by
  have hkeys : groups.map Prod.fst = groups'.map Prod.fst :=
    eq_of_increasing h.keys_increasing h'.keys_increasing fun k => by rw [h.keys, h'.keys]
  rw [h.eq_map, h'.eq_map, hkeys]

lemma filter_perm (ks : List κ) (hn : ks.Nodup) (l : List α) (hall : ∀ a ∈ l, key a ∈ ks) :
    (ks.flatMap fun k => l.filter fun a => key a = k).Perm l := by
  induction ks generalizing l with
  | nil =>
    cases l with
    | nil => simp
    | cons a l => exact absurd (hall a (by simp)) (by simp)
  | cons k ks ih =>
    obtain ⟨hk, hn⟩ := List.nodup_cons.mp hn
    have hrest := ih hn (l.filter fun a => ¬ key a = k) fun a ha => by
      obtain ⟨hmem, hne⟩ := List.mem_filter.mp ha
      exact (List.mem_cons.mp (hall a hmem)).resolve_left (of_decide_eq_true hne)
    have hsame : ks.flatMap (fun k' => (l.filter fun a => ¬ key a = k).filter fun a => key a = k') =
        ks.flatMap fun k' => l.filter fun a => key a = k' := by
      refine List.flatMap_congr fun k' hk' => ?_
      rw [List.filter_filter]
      refine List.filter_congr fun a _ => ?_
      have hne : k' ≠ k := fun h => hk (h ▸ hk')
      by_cases ha : key a = k' <;> simp [ha, hne]
    rw [hsame] at hrest
    have hsplit := List.filter_append_perm (fun a => decide (key a = k)) l
    refine List.Perm.trans ?_ hsplit
    rw [List.flatMap_cons]
    refine (List.Perm.append_left _ hrest).trans ?_
    simp

lemma Groups.perm (h : Groups key l groups) : (groups.flatMap Prod.snd).Perm l := by
  rw [h.eq_map, List.map_map, List.flatMap_map]
  have hkeys := filter_perm (groups.map Prod.fst) h.keys_increasing.nodup l
    fun a ha => (h.keys _).mpr ⟨a, ha, rfl⟩
  rw [List.flatMap_map] at hkeys
  exact hkeys

/-! ### Groups in a dictionary -/

/-- `d.setdefault(k, []).append(a)` -/
def add (d : Dict κ (List α)) (k : κ) (a : α) : Dict κ (List α) :=
  d.set k ((d.get? k).getD [] ++ [a])

lemma get?_add (d : Dict κ (List α)) (k k' : κ) (a : α) :
    (add d k a).get? k' = if k = k' then some ((d.get? k').getD [] ++ [a]) else d.get? k' := by
  rw [add, Dict.get?_set]
  by_cases h : k = k'
  · rw [if_pos h, if_pos h, h]
  · rw [if_neg h, if_neg h]

lemma get?_foldl_add (key : α → κ) (l : List α) (k : κ) :
    (l.foldl (fun d a => add d (key a) a) Dict.empty).get? k =
      if (l.filter fun a => key a = k) = [] then none else some (l.filter fun a => key a = k) := by
  induction l using List.reverseRecOn with
  | nil => rfl
  | append_singleton l a ih =>
    rw [List.foldl_append, List.foldl_cons, List.foldl_nil, get?_add, ih, List.filter_append]
    by_cases h : key a = k
    · by_cases hnil : (l.filter fun a => key a = k) = []
      · simp [h, hnil]
      · simp [h, hnil]
    · simp [h]

/-- `sorted(d.items())`, of distinct keys -/
def sortedItems (d : Dict κ β) : List (κ × β) := d.entries.insertionSort fun a b => a.1 ≤ b.1

lemma mem_sortedItems {d : Dict κ β} {e : κ × β} :
    e ∈ sortedItems d ↔ d.get? e.1 = some e.2 := by
  rw [sortedItems, List.mem_insertionSort, Dict.mem_entries]

lemma sortedItems_increasing (d : Dict κ β) :
    (sortedItems d).Pairwise fun a b => a.1 < b.1 := by
  have hle : (sortedItems d).Pairwise fun a b => a.1 ≤ b.1 := by
    have : Std.Total fun a b : κ × β => a.1 ≤ b.1 := ⟨fun a b => le_total a.1 b.1⟩
    have : IsTrans (κ × β) fun a b => a.1 ≤ b.1 := ⟨fun a b c => le_trans⟩
    exact List.pairwise_insertionSort _ _
  have hne : (sortedItems d).Pairwise fun a b => a.1 ≠ b.1 := by
    have hnodup : (d.entries.map Prod.fst).Nodup := d.nodup
    rw [← List.pairwise_map (f := Prod.fst) (R := (· ≠ ·))]
    exact ((List.perm_insertionSort _ d.entries).map _).nodup_iff.mpr hnodup
  exact (hle.and hne).imp fun h => lt_of_le_of_ne h.1 h.2

/-- **The sorted items of the dictionary are the groups.** -/
theorem groups_sortedItems (key : α → κ) (l : List α) :
    Groups key l (sortedItems (l.foldl (fun d a => add d (key a) a) Dict.empty)) where
  increasing := sortedItems_increasing _
  keys k := by
    constructor
    · intro hk
      obtain ⟨e, he, rfl⟩ := List.mem_map.mp hk
      rw [mem_sortedItems, get?_foldl_add] at he
      split_ifs at he with hnil
      obtain ⟨a, ha⟩ := List.exists_mem_of_ne_nil _ hnil
      obtain ⟨hmem, hkey⟩ := List.mem_filter.mp ha
      exact ⟨a, hmem, of_decide_eq_true hkey⟩
    · rintro ⟨a, ha, rfl⟩
      have hmem : a ∈ l.filter fun b => key b = key a :=
        List.mem_filter.mpr ⟨ha, decide_eq_true rfl⟩
      refine List.mem_map.mpr ⟨(key a, l.filter fun b => key b = key a), ?_, rfl⟩
      rw [mem_sortedItems, get?_foldl_add, if_neg (List.ne_nil_of_mem hmem)]
  group e he := by
    rw [mem_sortedItems, get?_foldl_add] at he
    split_ifs at he with hnil
    exact (Option.some.inj he).symm

end CortexDis.Grouping
