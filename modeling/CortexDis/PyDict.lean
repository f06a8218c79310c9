import Mathlib

/-!
Insertion-ordered dictionaries.

A dictionary is the list of its entries in the order their keys were first set. Setting a
key that is present replaces the value where the key stands; setting a new key appends an
entry. No key occurs twice.
-/

namespace CortexDis.PyDict

variable {κ α β : Type*} [DecidableEq κ]

/-- The value stored under a key in a list of entries. -/
def lookup (k : κ) : List (κ × α) → Option α
  | [] => none
  | e :: l => if e.1 = k then some e.2 else lookup k l

/-- Replace the value where the key stands, or append a new entry. -/
def put (k : κ) (v : α) : List (κ × α) → List (κ × α)
  | [] => [(k, v)]
  | e :: l => if e.1 = k then (e.1, v) :: l else e :: put k v l

lemma keys_put (k : κ) (v : α) (l : List (κ × α)) :
    (put k v l).map Prod.fst =
      if k ∈ l.map Prod.fst then l.map Prod.fst else l.map Prod.fst ++ [k] := by
  induction l with
  | nil => simp [put]
  | cons e l ih =>
    by_cases h : e.1 = k
    · simp [put, h]
    · have h' : k ≠ e.1 := fun hk => h hk.symm
      simp only [put, h, if_false, List.map_cons, ih, List.mem_cons, h', false_or]
      split <;> simp

lemma lookup_put (k k' : κ) (v : α) (l : List (κ × α)) :
    lookup k' (put k v l) = if k = k' then some v else lookup k' l := by
  induction l with
  | nil => simp [put, lookup]
  | cons e l ih =>
    by_cases h : e.1 = k
    · subst h
      by_cases h' : e.1 = k' <;> simp [put, lookup, h']
    · by_cases h' : e.1 = k'
      · subst h'
        have hk : k ≠ e.1 := fun hk => h hk.symm
        simp [put, lookup, h, hk]
      · simp [put, lookup, h, h', ih]

lemma lookup_eq_none (k : κ) (l : List (κ × α)) :
    lookup k l = none ↔ k ∉ l.map Prod.fst := by
  induction l with
  | nil => simp [lookup]
  | cons e l ih =>
    by_cases h : e.1 = k
    · simp [lookup, h]
    · have h' : k ≠ e.1 := fun hk => h hk.symm
      simp only [lookup, h, if_false, ih, List.map_cons, List.mem_cons, h', false_or]

lemma mem_of_lookup {k : κ} {v : α} {l : List (κ × α)} (h : lookup k l = some v) :
    (k, v) ∈ l := by
  induction l with
  | nil => simp [lookup] at h
  | cons e l ih =>
    by_cases he : e.1 = k
    · simp only [lookup, he, if_true, Option.some.injEq] at h
      subst he; subst h
      exact List.mem_cons_self
    · simp only [lookup, he, if_false] at h
      exact List.mem_cons_of_mem _ (ih h)

lemma lookup_of_mem {k : κ} {v : α} {l : List (κ × α)} (hn : (l.map Prod.fst).Nodup)
    (h : (k, v) ∈ l) : lookup k l = some v := by
  induction l with
  | nil => simp at h
  | cons e l ih =>
    simp only [List.map_cons, List.nodup_cons] at hn
    rcases List.mem_cons.mp h with rfl | h'
    · simp [lookup]
    · have hk : k ∈ l.map Prod.fst := List.mem_map_of_mem (f := Prod.fst) h'
      have he : e.1 ≠ k := fun he => hn.1 (he ▸ hk)
      simp only [lookup, he, if_false]
      exact ih hn.2 h'

lemma put_of_not_mem {k : κ} {l : List (κ × α)} (v : α) (h : k ∉ l.map Prod.fst) :
    put k v l = l ++ [(k, v)] := by
  induction l with
  | nil => rfl
  | cons e l ih =>
    simp only [List.map_cons, List.mem_cons, not_or] at h
    have he : e.1 ≠ k := fun he => h.1 he.symm
    simp [put, he, ih h.2]

/-- Updating a function entry by entry, where each update reads its own key and keys that no
entry has. -/
lemma foldl_update {γ : Type*} (G : κ → α → (κ → γ) → γ) (l : List (κ × α))
    (hn : (l.map Prod.fst).Nodup)
    (hG : ∀ e ∈ l, ∀ f f' : κ → γ, (∀ k, k = e.1 ∨ k ∉ l.map Prod.fst → f k = f' k) →
      G e.1 e.2 f = G e.1 e.2 f') (f : κ → γ) (k : κ) :
    l.foldl (fun f e => Function.update f e.1 (G e.1 e.2 f)) f k =
      (lookup k l).elim (f k) fun v => G k v f := by
  induction l generalizing f with
  | nil => rfl
  | cons e l ih =>
    simp only [List.map_cons, List.nodup_cons] at hn
    have hG' : ∀ e' ∈ l, ∀ f f' : κ → γ, (∀ k, k = e'.1 ∨ k ∉ l.map Prod.fst → f k = f' k) →
        G e'.1 e'.2 f = G e'.1 e'.2 f' := by
      refine fun e' he' f f' hf => hG e' (List.mem_cons_of_mem _ he') f f' fun k hk => hf k ?_
      exact hk.imp_right fun h h' => h (List.mem_cons_of_mem _ h')
    rw [List.foldl_cons, ih hn.2 hG']
    by_cases hk : e.1 = k
    · subst hk
      rw [(lookup_eq_none e.1 l).mpr hn.1]
      simp [lookup]
    · rw [lookup, if_neg hk, Function.update_of_ne (fun h => hk h.symm)]
      cases hl : lookup k l with
      | none => rfl
      | some v =>
        refine hG (k, v) (List.mem_cons_of_mem _ (mem_of_lookup hl)) _ _ fun k' hk' => ?_
        refine Function.update_of_ne ?_ _ _
        rcases hk' with rfl | hk'
        · exact fun h => hk h.symm
        · exact fun h => hk' (h ▸ List.mem_cons_self)

/-- A dictionary: entries in insertion order, no key twice. -/
structure Dict (κ : Type*) (α : Type*) where
  entries : List (κ × α)
  nodup : (entries.map Prod.fst).Nodup

namespace Dict

instance [DecidableEq α] : DecidableEq (Dict κ α) := fun a b =>
  decidable_of_iff (a.entries = b.entries) ⟨fun h => by cases a; cases b; cases h; rfl,
    fun h => by rw [h]⟩

def empty : Dict κ α := ⟨[], by simp⟩

instance : Inhabited (Dict κ α) := ⟨empty⟩

/-- `d.get(k)` -/
def get? (d : Dict κ α) (k : κ) : Option α := lookup k d.entries

/-- `d[k] = v` -/
def set (d : Dict κ α) (k : κ) (v : α) : Dict κ α :=
  ⟨put k v d.entries, by
    rw [keys_put]
    split
    · exact d.nodup
    · rename_i h
      exact List.nodup_append.mpr ⟨d.nodup, by simp, by
        intro a ha b hb hab
        simp only [List.mem_singleton] at hb
        exact h (hb ▸ hab ▸ ha)⟩⟩

def keys (d : Dict κ α) : List κ := d.entries.map Prod.fst

def values (d : Dict κ α) : List α := d.entries.map Prod.snd

/-- A dictionary display or comprehension: later entries win. -/
def ofList (l : List (κ × α)) : Dict κ α := l.foldl (fun d e => d.set e.1 e.2) empty

/-- `d.update(l)` -/
def update (d : Dict κ α) (l : List (κ × α)) : Dict κ α := l.foldl (fun d e => d.set e.1 e.2) d

/-- The dictionary with a function applied to every value. -/
def map (f : α → β) (d : Dict κ α) : Dict κ β :=
  ⟨d.entries.map fun e => (e.1, f e.2), by
    have h : (fun e : κ × α => e.1) = Prod.fst := rfl
    simpa [List.map_map, Function.comp_def, h] using d.nodup⟩

@[simp] lemma get?_empty (k : κ) : (empty : Dict κ α).get? k = none := rfl

lemma get?_set (d : Dict κ α) (k k' : κ) (v : α) :
    (d.set k v).get? k' = if k = k' then some v else d.get? k' := lookup_put k k' v d.entries

@[simp] lemma get?_set_self (d : Dict κ α) (k : κ) (v : α) : (d.set k v).get? k = some v := by
  simp [get?_set]

lemma get?_set_ne (d : Dict κ α) {k k' : κ} (v : α) (h : k ≠ k') :
    (d.set k v).get? k' = d.get? k' := by
  simp [get?_set, h]

/-- Entries with distinct keys make a dictionary as they stand. -/
lemma entries_ofList {l : List (κ × α)} (hn : (l.map Prod.fst).Nodup) :
    (ofList l).entries = l := by
  suffices h : ∀ d : Dict κ α, (d.entries.map Prod.fst ++ l.map Prod.fst).Nodup →
      (l.foldl (fun d e => d.set e.1 e.2) d).entries = d.entries ++ l from
    h empty (by simpa [empty] using hn)
  intro d hd
  induction l generalizing d with
  | nil => simp
  | cons e l ih =>
    simp only [List.map_cons, List.nodup_cons] at hn
    have he : e.1 ∉ d.entries.map Prod.fst := fun h =>
      (List.nodup_append.mp hd).2.2 e.1 h e.1 (by simp) rfl
    have hset : (d.set e.1 e.2).entries = d.entries ++ [e] := put_of_not_mem e.2 he
    rw [List.foldl_cons, ih hn.2, hset, List.append_assoc, List.singleton_append]
    rw [hset]
    simpa [List.append_assoc] using hd

lemma get?_update_of_not_mem (d : Dict κ α) {l : List (κ × α)} {k : κ}
    (h : k ∉ l.map Prod.fst) : (d.update l).get? k = d.get? k := by
  induction l generalizing d with
  | nil => rfl
  | cons e l ih =>
    rw [List.map_cons, List.mem_cons, not_or] at h
    exact (ih (d.set e.1 e.2) h.2).trans (d.get?_set_ne e.2 (Ne.symm h.1))

/-- What a dictionary made of entries holds is one of them. -/
lemma mem_of_get?_ofList {l : List (κ × α)} {k : κ} {v : α} (h : (ofList l).get? k = some v) :
    (k, v) ∈ l := by
  have hupdate : ∀ (l : List (κ × α)) (d : Dict κ α),
      (d.update l).get? k = some v → (k, v) ∈ l ∨ d.get? k = some v := by
    intro l
    induction l with
    | nil => exact fun d hd => .inr hd
    | cons e l ih =>
      intro d hd
      rcases ih (d.set e.1 e.2) hd with hl | hset
      · exact .inl (List.mem_cons_of_mem _ hl)
      · rw [get?_set] at hset
        split at hset
        · rename_i hk
          cases hset
          exact .inl (hk ▸ List.mem_cons_self)
        · exact .inr hset
  rcases hupdate l empty h with hl | hempty
  · exact hl
  · cases hempty

lemma get?_eq_none (d : Dict κ α) (k : κ) : d.get? k = none ↔ k ∉ d.keys :=
  lookup_eq_none k d.entries

lemma mem_entries (d : Dict κ α) {k : κ} {v : α} :
    (k, v) ∈ d.entries ↔ d.get? k = some v :=
  ⟨lookup_of_mem d.nodup, mem_of_lookup⟩

lemma keys_set (d : Dict κ α) (k : κ) (v : α) :
    (d.set k v).keys = if k ∈ d.keys then d.keys else d.keys ++ [k] :=
  keys_put k v d.entries

lemma mem_keys_set (d : Dict κ α) (k k' : κ) (v : α) :
    k' ∈ (d.set k v).keys ↔ k' = k ∨ k' ∈ d.keys := by
  rw [← not_iff_not, ← get?_eq_none, get?_set]
  by_cases h : k = k'
  · simp [h]
  · have h' : k' ≠ k := fun hk => h hk.symm
    simp [h, h', get?_eq_none]

/-- The keys of a dictionary made of entries are theirs. -/
lemma mem_keys_ofList (l : List (κ × α)) (k : κ) : k ∈ (ofList l).keys ↔ k ∈ l.map Prod.fst := by
  have hupdate : ∀ (l : List (κ × α)) (d : Dict κ α),
      k ∈ (d.update l).keys ↔ k ∈ l.map Prod.fst ∨ k ∈ d.keys := by
    intro l
    induction l with
    | nil => simp [update]
    | cons e l ih =>
      intro d
      have hstep : d.update (e :: l) = (d.set e.1 e.2).update l := rfl
      rw [hstep, ih, mem_keys_set, List.map_cons, List.mem_cons]
      tauto
  have hempty : k ∉ (empty : Dict κ α).keys := by simp [empty, keys]
  have hofList : ofList l = empty.update l := rfl
  rw [hofList, hupdate, or_iff_left hempty]

lemma ofList_snoc (l : List (κ × α)) (e : κ × α) :
    ofList (l ++ [e]) = (ofList l).set e.1 e.2 := by
  rw [ofList, List.foldl_append]
  rfl

lemma foldl_update {γ : Type*} (d : Dict κ α) (G : κ → α → (κ → γ) → γ)
    (hG : ∀ e ∈ d.entries, ∀ f f' : κ → γ, (∀ k, k = e.1 ∨ k ∉ d.keys → f k = f' k) →
      G e.1 e.2 f = G e.1 e.2 f') (f : κ → γ) (k : κ) :
    d.entries.foldl (fun f e => Function.update f e.1 (G e.1 e.2 f)) f k =
      (d.get? k).elim (f k) fun v => G k v f :=
  PyDict.foldl_update G d.entries d.nodup hG f k

lemma map_get?_keys (d : Dict κ κ) : d.keys.map (fun k => (d.get? k).getD k) = d.values := by
  rw [keys, values, List.map_map]
  refine List.map_congr_left fun e he => ?_
  simp [d.mem_entries.mp he]

/-- The inverse of a dictionary whose values are distinct. -/
lemma get?_inverse {d : Dict κ κ} (hn : d.values.Nodup) {k v : κ} :
    (ofList (d.entries.map Prod.swap)).get? v = some k ↔ d.get? k = some v := by
  have hkeys : (d.entries.map Prod.swap).map Prod.fst = d.values := by
    rw [values, List.map_map]
    rfl
  rw [← mem_entries, entries_ofList (hkeys ▸ hn), ← mem_entries]
  simp

lemma lookup_map (f : α → β) (k : κ) (l : List (κ × α)) :
    lookup k (l.map fun e => (e.1, f e.2)) = (lookup k l).map f := by
  induction l with
  | nil => rfl
  | cons e l ih => by_cases h : e.1 = k <;> simp [lookup, h, ih]

@[simp] lemma get?_map (f : α → β) (d : Dict κ α) (k : κ) :
    (d.map f).get? k = (d.get? k).map f := lookup_map f k d.entries

lemma put_map (f : α → β) (k : κ) (v : α) (l : List (κ × α)) :
    (put k v l).map (fun e => (e.1, f e.2)) = put k (f v) (l.map fun e => (e.1, f e.2)) := by
  induction l with
  | nil => rfl
  | cons e l ih => by_cases h : e.1 = k <;> simp [put, h, ih]

lemma map_set (f : α → β) (d : Dict κ α) (k : κ) (v : α) :
    (d.set k v).map f = (d.map f).set k (f v) := by
  simp only [map, set, put_map]

end Dict

end CortexDis.PyDict
