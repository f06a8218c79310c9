import Mathlib

/-!
Fallible steps on the cells of a column.

Column by column, a cell that fails at a step is recorded and nulled; null passes through
every step, so the later steps skip the cell. Cell by cell, the steps run until the first
that fails. The two agree.
-/

namespace CortexDis.Masked

variable {α β φ : Type*}

/-- What a step makes of a cell, whether the cell failed, and the record of a failed cell. -/
structure Step (α β φ : Type*) where
  value : Option α → Option β
  failed : Option α → Bool
  record : ℕ → Option α → φ

/-- Null in, null out, and no failure. -/
def Step.PassesNull (s : Step α β φ) : Prop := s.value none = none ∧ s.failed none = false

/-- The step on the cell of row `i`. -/
def Step.row (s : Step α β φ) (i : ℕ) (c : Option α) : Except φ (Option β) :=
  if s.failed c then .error (s.record i c) else .ok (s.value c)

/-- The cell that is left: null where a step failed. -/
def valueOf : Except φ (Option β) → Option β
  | .ok v => v
  | .error _ => none

/-- The record of the failure, if there is one. -/
def faults : Except φ β → List φ
  | .ok _ => []
  | .error f => [f]

@[simp] lemma valueOf_ok (v : Option β) : valueOf (.ok v : Except φ (Option β)) = v := rfl
@[simp] lemma valueOf_error (f : φ) : valueOf (.error f : Except φ (Option β)) = none := rfl
@[simp] lemma faults_ok (v : β) : faults (.ok v : Except φ β) = [] := rfl
@[simp] lemma faults_error (f : φ) : faults (.error f : Except φ β) = [f] := rfl

lemma faults_map (f : β → α) (r : Except φ β) : faults (r.map f) = faults r := by
  cases r <;> rfl

lemma eq_ok_of_faults {r : Except φ (Option β)} (h : faults r = []) : r = .ok (valueOf r) := by
  cases r with
  | ok v => rfl
  | error f => simp at h

/-- The cells after the step. -/
def Step.column (s : Step α β φ) (cells : List (Option α)) : List (Option β) :=
  cells.map fun c => if s.failed c then none else s.value c

/-- The records of the failed cells, in row order. -/
def Step.log (s : Step α β φ) (cells : List (Option α)) : List φ :=
  cells.zipIdx.flatMap fun e => if s.failed e.1 then [s.record e.2 e.1] else []

lemma Step.valueOf_row (s : Step α β φ) (i : ℕ) (c : Option α) :
    valueOf (s.row i c) = if s.failed c then none else s.value c := by
  unfold Step.row
  split <;> rfl

lemma Step.faults_row (s : Step α β φ) (i : ℕ) (c : Option α) :
    faults (s.row i c) = if s.failed c then [s.record i c] else [] := by
  unfold Step.row
  split <;> rfl

/-- All steps over a whole column, one step after the other. -/
def runColumn : List (Step α α φ) → List (Option α) → List (Option α) × List φ
  | [], cells => (cells, [])
  | s :: steps, cells =>
    let rest := runColumn steps (s.column cells)
    (rest.1, s.log cells ++ rest.2)

/-- All steps on the cell of row `i`, up to the first that fails. -/
def runCell (i : ℕ) : List (Step α α φ) → Option α → Except φ (Option α)
  | [], c => .ok c
  | s :: steps, c => (s.row i c).bind (runCell i steps)

lemma runCell_null (i : ℕ) {steps : List (Step α α φ)} (h : ∀ s ∈ steps, s.PassesNull) :
    runCell i steps none = .ok none := by
  induction steps with
  | nil => rfl
  | cons s steps ih =>
    obtain ⟨hv, hf⟩ := h s List.mem_cons_self
    rw [runCell, Step.row, hf, hv]
    exact ih fun s' hs' => h s' (List.mem_cons_of_mem _ hs')

lemma Step.mem_log {s : Step α β φ} {cells : List (Option α)} {x : φ} (h : x ∈ s.log cells) :
    ∃ i c, x = s.record i c := by
  obtain ⟨e, -, hx⟩ := List.mem_flatMap.mp h
  split at hx
  · exact ⟨e.2, e.1, List.mem_singleton.mp hx⟩
  · simp at hx

lemma mem_runColumn {steps : List (Step α α φ)} {cells : List (Option α)} {x : φ}
    (h : x ∈ (runColumn steps cells).2) : ∃ s ∈ steps, ∃ i c, x = s.record i c := by
  induction steps generalizing cells with
  | nil => simp [runColumn] at h
  | cons s steps ih =>
    rcases List.mem_append.mp h with h | h
    · exact ⟨s, List.mem_cons_self, Step.mem_log h⟩
    · obtain ⟨s', hs', hx⟩ := ih h
      exact ⟨s', List.mem_cons_of_mem _ hs', hx⟩

section Null

variable {g : Option α → Except φ (Option β)} (hg : g none = .ok none)
include hg

/-- A nulled cell goes on as null: the value of the chain is the value from where it stands. -/
lemma valueOf_bind (r : Except φ (Option α)) : valueOf (r.bind g) = valueOf (g (valueOf r)) := by
  cases r with
  | ok v => rfl
  | error f => simp [Except.bind, hg]

/-- A nulled cell never fails again. -/
lemma faults_bind (r : Except φ (Option α)) :
    faults (r.bind g) = faults r ++ faults (g (valueOf r)) := by
  cases r with
  | ok v => rfl
  | error f => simp [Except.bind, hg]

end Null

section Column

variable {steps : List (Step α α φ)} (h : ∀ s ∈ steps, s.PassesNull)
include h

lemma runColumn_values (cells : List (Option α)) :
    (runColumn steps cells).1 = cells.zipIdx.map fun e => valueOf (runCell e.2 steps e.1) := by
  suffices hk : ∀ k, (runColumn steps cells).1 =
      (cells.zipIdx k).map fun e => valueOf (runCell e.2 steps e.1) from hk 0
  intro k
  induction steps generalizing cells with
  | nil => simp [runColumn, runCell]
  | cons s steps ih =>
    have hs : ∀ s' ∈ steps, s'.PassesNull := fun s' hs' => h s' (List.mem_cons_of_mem _ hs')
    simp only [runColumn, ih hs, Step.column, List.zipIdx_map, List.map_map]
    refine List.map_congr_left fun e _ => ?_
    simp [runCell, valueOf_bind (runCell_null e.2 hs), Step.valueOf_row]

end Column

section Log

variable (row : φ → ℕ)

/-- Records collected in row order, read back at one row. -/
lemma filter_flatMap_zipIdx {f : ℕ → α → List φ} (hrow : ∀ i a, ∀ x ∈ f i a, row x = i)
    (l : List α) (k i : ℕ) :
    ((l.zipIdx k).flatMap fun e => f e.2 e.1).filter (fun x => row x = k + i) =
      (l[i]?).elim [] (f (k + i)) := by
  induction l generalizing k i with
  | nil => simp
  | cons a l ih =>
    simp only [List.zipIdx_cons, List.flatMap_cons, List.filter_append]
    -- the records of the other rows carry other indices
    cases i with
    | zero =>
      have h1 : (f k a).filter (fun x => row x = k + 0) = f k a :=
        List.filter_eq_self.mpr fun x hx => by simp [hrow k a x hx]
      have h2 : ((l.zipIdx (k + 1)).flatMap fun e => f e.2 e.1).filter
          (fun x => row x = k + 0) = [] := by
        refine List.filter_eq_nil_iff.mpr fun x hx => ?_
        obtain ⟨e, he, hxe⟩ := List.mem_flatMap.mp hx
        have hle : k + 1 ≤ e.2 := List.le_snd_of_mem_zipIdx he
        have hx2 := hrow e.2 e.1 x hxe
        simp only [decide_eq_true_eq]
        omega
      rw [h1, h2]
      simp
    | succ i =>
      have h1 : (f k a).filter (fun x => row x = k + (i + 1)) = [] := by
        refine List.filter_eq_nil_iff.mpr fun x hx => ?_
        have := hrow k a x hx
        simp only [decide_eq_true_eq]
        omega
      have h2 := ih (k + 1) i
      rw [show k + 1 + i = k + (i + 1) by omega] at h2
      rw [h1, h2]
      simp

variable {row}

lemma Step.filter_log {s : Step α β φ} (hrow : ∀ i c, row (s.record i c) = i)
    (cells : List (Option α)) (i : ℕ) :
    (s.log cells).filter (fun x => row x = i) =
      (cells[i]?).elim [] fun c => faults (s.row i c) := by
  have hf : ∀ i c, ∀ x ∈ faults (s.row i c), row x = i := by
    intro i c x hx
    rw [Step.faults_row] at hx
    split at hx
    · rw [List.mem_singleton.mp hx, hrow]
    · simp at hx
  have := filter_flatMap_zipIdx row hf cells 0 i
  simpa [Step.log, Step.faults_row] using this

/-- The records of a column at one row: the first failure of that row's cell. -/
lemma filter_runColumn {steps : List (Step α α φ)} (h : ∀ s ∈ steps, s.PassesNull)
    (hrow : ∀ s ∈ steps, ∀ i c, row (s.record i c) = i) (cells : List (Option α)) (i : ℕ) :
    (runColumn steps cells).2.filter (fun x => row x = i) =
      (cells[i]?).elim [] fun c => faults (runCell i steps c) := by
  induction steps generalizing cells with
  | nil => cases cells[i]? <;> simp [runColumn, runCell]
  | cons s steps ih =>
    have hs : ∀ s' ∈ steps, s'.PassesNull := fun s' hs' => h s' (List.mem_cons_of_mem _ hs')
    have ih := ih hs (fun s' hs' => hrow s' (List.mem_cons_of_mem _ hs')) (s.column cells)
    rw [Step.column, List.getElem?_map, ← Step.column] at ih
    rw [runColumn, List.filter_append, ih, Step.filter_log (hrow s List.mem_cons_self)]
    cases cells[i]? with
    | none => rfl
    | some c => simp [runCell, faults_bind (runCell_null i hs), Step.valueOf_row]

end Log

end CortexDis.Masked
