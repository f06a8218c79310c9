import Mathlib

/-!
Tables with a primary key, and the statement
`INSERT … ON CONFLICT (key) DO UPDATE SET … WHERE …`.

The statement copies some columns of the proposed row over the row of its key, when some
columns of the two differ. If the copied columns and the compared ones are those of `data`, it
brings the row to the proposed data, and a repetition finds nothing to do.
-/

namespace CortexDis.Upsert

variable {ρ κ δ : Type*} [DecidableEq κ] {key : ρ → κ}

/-- A table: its rows, no two with the same key. -/
@[ext] structure Table (key : ρ → κ) where
  rows : List ρ
  nodup : (rows.map key).Nodup

/-- The row of a key. -/
def Table.find? (t : Table key) (k : κ) : Option ρ := t.rows.find? fun r => key r = k

/-- The table with one more row; a row whose key is taken is not added. -/
def Table.insert (t : Table key) (new : ρ) : Table key :=
  if h : key new ∈ t.rows.map key then t
  else ⟨t.rows ++ [new], by
    rw [List.map_append, List.map_singleton]
    exact List.nodup_append.mpr ⟨t.nodup, List.nodup_singleton _, fun a ha b hb hab =>
      h (List.mem_singleton.mp hb ▸ hab ▸ ha)⟩⟩

/-- The table with `f` applied to the row of a key. -/
def Table.modify (t : Table key) (k : κ) (f : ρ → ρ) (hf : ∀ r, key (f r) = key r) :
    Table key where
  rows := t.rows.map fun r => if key r = k then f r else r
  nodup := by
    have hkeys : (t.rows.map fun r => if key r = k then f r else r).map key = t.rows.map key := by
      rw [List.map_map]
      refine List.map_congr_left fun r _ => ?_
      rw [Function.comp_apply, apply_ite key, hf, ite_self]
    rw [hkeys]
    exact t.nodup

/-- What becomes of the proposed row. -/
inductive Outcome
  | inserted | updated | unchanged
  deriving DecidableEq, Repr

/-- The `SET` and the `WHERE` of a statement, each of the existing row and the proposed one. No
column of the key is set. -/
structure Statement (key : ρ → κ) where
  set : ρ → ρ → ρ
  changed : ρ → ρ → Bool
  key_set : ∀ old new, key (set old new) = key old

variable (S : Statement key)

def Statement.exec (new : ρ) (t : Table key) : Table key × Outcome :=
  match t.find? (key new) with
  | none => (t.insert new, .inserted)
  | some old =>
    if S.changed old new then
      (t.modify (key new) (fun r => S.set r new) fun r => S.key_set r new, .updated)
    else (t, .unchanged)

/-! ### Rows by their key -/

namespace Table

variable (t : Table key)

lemma key_of_find? {t : Table key} {k : κ} {r : ρ} (h : t.find? k = some r) : key r = k := by
  simpa using List.find?_some h

lemma mem_of_find? {t : Table key} {k : κ} {r : ρ} (h : t.find? k = some r) : r ∈ t.rows :=
  List.mem_of_find?_eq_some h

lemma find?_of_mem {t : Table key} {r : ρ} (h : r ∈ t.rows) : t.find? (key r) = some r := by
  cases hfind : t.find? (key r) with
  | none =>
    have hne := List.find?_eq_none.mp hfind r h
    simp at hne
  | some r' =>
    rw [List.inj_on_of_nodup_map t.nodup (mem_of_find? hfind) h (key_of_find? hfind)]

lemma find?_eq_none {k : κ} : t.find? k = none ↔ k ∉ t.rows.map key := by
  simp [find?]

lemma find?_insert {new : ρ} (h : t.find? (key new) = none) (k : κ) :
    (t.insert new).find? k = if key new = k then some new else t.find? k := by
  have hnew := t.find?_eq_none.mp h
  have hrows : (t.insert new).rows = t.rows ++ [new] := by rw [insert, dif_neg hnew]
  rw [find?, hrows, List.find?_append]
  by_cases hk : key new = k
  · have hnone : t.rows.find? (fun r => key r = k) = none := hk ▸ h
    simp [hnone, hk]
  · simp [hk, find?]

lemma find?_modify (k : κ) {f : ρ → ρ} (hf : ∀ r, key (f r) = key r) (k' : κ) :
    (t.modify k f hf).find? k' = if k = k' then (t.find? k).map f else t.find? k' := by
  have hkey : ∀ r, key (if key r = k then f r else r) = key r := by
    intro r
    rw [apply_ite key, hf, ite_self]
  simp only [find?, modify, List.find?_map, Function.comp_def, hkey]
  by_cases hk : k = k'
  · subst hk
    cases hfind : t.rows.find? (fun r => decide (key r = k)) with
    | none => simp
    | some r =>
      have hr : key r = k := by simpa using List.find?_some hfind
      simp [hr]
  · rw [if_neg hk]
    cases hfind : t.rows.find? (fun r => decide (key r = k')) with
    | none => rfl
    | some r =>
      have hr : key r = k' := by simpa using List.find?_some hfind
      have hne : key r ≠ k := fun h => hk (h.symm.trans hr)
      simp [hne]

end Table

/-! ### What a statement does -/

/-- The columns that are set and the columns that are compared are those of `data`. -/
structure Statement.Copies (S : Statement key) (data : ρ → δ) : Prop where
  data_set : ∀ {old new}, key old = key new → data (S.set old new) = data new
  changed_iff : ∀ {old new}, key old = key new → (S.changed old new ↔ data old ≠ data new)

variable {S} {data : ρ → δ} {new : ρ} {t : Table key}

lemma find?_exec_of_ne {k : κ} (h : key new ≠ k) : (S.exec new t).1.find? k = t.find? k := by
  unfold Statement.exec
  cases hfind : t.find? (key new) with
  | none => simp only [t.find?_insert hfind, if_neg h]
  | some old =>
    dsimp only
    split
    · rw [t.find?_modify, if_neg h]
    · rfl

lemma Statement.Copies.find?_exec (hS : S.Copies data) (new : ρ) (t : Table key) :
    ∃ r, (S.exec new t).1.find? (key new) = some r ∧ data r = data new := by
  unfold Statement.exec
  cases hfind : t.find? (key new) with
  | none => exact ⟨new, by simp only [t.find?_insert hfind, if_true], rfl⟩
  | some old =>
    have hkey : key old = key new := Table.key_of_find? hfind
    dsimp only
    split
    · refine ⟨S.set old new, ?_, hS.data_set hkey⟩
      rw [t.find?_modify, if_pos rfl, hfind]
      rfl
    next hsame =>
      refine ⟨old, hfind, ?_⟩
      rwa [hS.changed_iff hkey, not_not] at hsame

lemma Statement.Copies.mem_exec (hS : S.Copies data) {r : ρ} (h : r ∈ (S.exec new t).1.rows) :
    r ∈ t.rows ∨ key r = key new ∧ data r = data new := by
  have hfind := Table.find?_of_mem h
  by_cases hkey : key new = key r
  · obtain ⟨r', hr', hdata⟩ := hS.find?_exec new t
    rw [hkey, hfind] at hr'
    cases hr'
    exact .inr ⟨hkey.symm, hdata⟩
  · rw [find?_exec_of_ne hkey] at hfind
    exact .inl (Table.mem_of_find? hfind)

lemma Statement.Copies.exec_unchanged (hS : S.Copies data) {r : ρ}
    (hr : t.find? (key new) = some r) (hdata : data r = data new) :
    S.exec new t = (t, .unchanged) := by
  have hsame : ¬ S.changed r new := by
    rw [hS.changed_iff (Table.key_of_find? hr), not_not]
    exact hdata
  simp only [Statement.exec, hr, hsame]
  rfl

end CortexDis.Upsert
