import CortexDis.Runs
import CortexDis.Sql

/-!
Row-level security: one statement over a table with a permissive policy.

The policy has a condition on the rows that are there and one on the rows that are written; a
condition that is unknown counts as false, and evaluating one may raise. A statement runs over
some snapshot of the table; which one is the business of the isolation level.
-/

namespace CortexDis.RowSecurity

open CortexDis.Sql CortexDis.Runs

variable {σ ρ ε : Type}

/-- A policy `FOR ALL`, over the settings of the session. -/
structure Policy (σ ρ ε : Type) where
  /-- `USING` -/
  visible : σ → ρ → Except ε Truth
  /-- `WITH CHECK`; a policy without one checks with `USING` -/
  check : σ → ρ → Except ε Truth

inductive Statement (ρ : Type)
  | select (pick : ρ → Bool)
  | insert (rows : List ρ)
  | update (pick : ρ → Bool) (set : ρ → ρ)
  | delete (pick : ρ → Bool)
  /-- `INSERT ... ON CONFLICT DO UPDATE` of one row -/
  | upsert (row : ρ) (conflicts : ρ → Bool) (set : ρ → ρ)

/-- The rows a statement returns, and what it changes. -/
structure Outcome (ρ : Type) where
  returned : List ρ
  inserted : List ρ
  updated : List (ρ × ρ)
  deleted : List ρ
  deriving DecidableEq

/-- A condition raised, or a row is refused. -/
inductive Failure (ε : Type)
  | raised (e : ε)
  | refused
  deriving DecidableEq

/-- Whether a condition holds. -/
def holds (t : Except ε Truth) : Except (Failure ε) Bool :=
  match t with
  | .error e => .error (.raised e)
  | .ok t => .ok (t = some true)

section Exec

variable (p : Policy σ ρ ε) (s : σ)

/-- The rows that satisfy the condition. -/
def scan (cond : ρ → Except ε Truth) : List ρ → Except (Failure ε) (List ρ)
  | [] => .ok []
  | r :: rows =>
    match holds (cond r), scan cond rows with
    | .error e, _ => .error e
    | _, .error e => .error e
    | .ok true, .ok rest => .ok (r :: rest)
    | .ok false, .ok rest => .ok rest

/-- Every row has to satisfy the condition. -/
def demand (cond : ρ → Except ε Truth) : List ρ → Except (Failure ε) Unit
  | [] => .ok ()
  | r :: rows =>
    match holds (cond r) with
    | .error e => .error e
    | .ok false => .error .refused
    | .ok true => demand cond rows

/-- A statement under the policy. -/
def exec (snapshot : List ρ) : Statement ρ → Except (Failure ε) (Outcome ρ)
  | .select pick => do
    let rows ← scan (p.visible s) snapshot
    return ⟨rows.filter pick, [], [], []⟩
  | .insert rows => do
    demand (p.check s) rows
    return ⟨[], rows, [], []⟩
  | .update pick set => do
    let rows ← scan (p.visible s) snapshot
    let picked := rows.filter pick
    demand (p.check s) (picked.map set)
    return ⟨[], [], picked.map fun r => (r, set r), []⟩
  | .delete pick => do
    let rows ← scan (p.visible s) snapshot
    return ⟨[], [], [], rows.filter pick⟩
  | .upsert row conflicts set => do
    demand (p.check s) [row]
    -- a constraint looks at every row; the row in the way has to be visible
    match snapshot.find? conflicts with
    | none => return ⟨[], [row], [], []⟩
    | some r => do
      demand (p.visible s) [r]
      demand (p.check s) [set r]
      return ⟨[], [], [(r, set r)], []⟩

end Exec

/-! ### What a statement touches -/

/-- The condition is true of the row. -/
def Holds (cond : ρ → Except ε Truth) (r : ρ) : Prop := cond r = .ok (some true)

lemma holds_eq_true {t : Except ε Truth} (h : holds t = .ok true) : t = .ok (some true) := by
  unfold holds at h
  split at h
  · cases h
  · rename_i t
    have ht : t = some true := by simpa using h
    rw [ht]

lemma mem_scan {cond : ρ → Except ε Truth} {rows out : List ρ} (h : scan cond rows = .ok out)
    {r : ρ} (hr : r ∈ out) : r ∈ rows ∧ Holds cond r := by
  induction rows generalizing out with
  | nil =>
    cases h
    cases hr
  | cons a rows ih =>
    rw [scan] at h
    split at h
    · cases h
    · cases h
    · rename_i rest hcond hrest
      cases h
      rcases List.mem_cons.mp hr with rfl | hr
      · exact ⟨List.mem_cons_self, holds_eq_true hcond⟩
      · exact ⟨List.mem_cons_of_mem _ (ih hrest hr).1, (ih hrest hr).2⟩
    · rename_i rest hcond hrest
      cases h
      exact ⟨List.mem_cons_of_mem _ (ih hrest hr).1, (ih hrest hr).2⟩

lemma of_demand {cond : ρ → Except ε Truth} {rows : List ρ} (h : demand cond rows = .ok ()) :
    ∀ r ∈ rows, Holds cond r := by
  induction rows with
  | nil => simp
  | cons a rows ih =>
    rw [demand] at h
    split at h
    · cases h
    · cases h
    · rename_i hcond
      intro r hr
      rcases List.mem_cons.mp hr with rfl | hr
      · exact holds_eq_true hcond
      · exact ih h r hr

/-- Every row a statement touches satisfies the condition it has to: the rows that were there
the first, the rows that are written the second. -/
structure Within (reads writes : ρ → Prop) (o : Outcome ρ) : Prop where
  returned : ∀ r ∈ o.returned, reads r
  inserted : ∀ r ∈ o.inserted, writes r
  updated : ∀ u ∈ o.updated, reads u.1 ∧ writes u.2
  deleted : ∀ r ∈ o.deleted, reads r

lemma Within.mono {reads reads' writes writes' : ρ → Prop} {o : Outcome ρ}
    (h : Within reads writes o) (hreads : ∀ r, reads r → reads' r)
    (hwrites : ∀ r, writes r → writes' r) : Within reads' writes' o :=
  ⟨fun r hr => hreads r (h.returned r hr), fun r hr => hwrites r (h.inserted r hr),
    fun u hu => ⟨hreads _ (h.updated u hu).1, hwrites _ (h.updated u hu).2⟩,
    fun r hr => hreads r (h.deleted r hr)⟩

lemma exec_within {p : Policy σ ρ ε} {s : σ} {snapshot : List ρ} {stmt : Statement ρ}
    {o : Outcome ρ} (h : exec p s snapshot stmt = .ok o) :
    Within (Holds (p.visible s)) (Holds (p.check s)) o := by
  cases stmt with
  | select pick =>
    obtain ⟨rows, hscan, h⟩ := of_bind_eq_ok h
    cases h
    refine ⟨fun r hr => ?_, by simp, by simp, by simp⟩
    exact (mem_scan hscan (List.mem_of_mem_filter hr)).2
  | insert rows =>
    obtain ⟨⟨⟩, hdemand, h⟩ := of_bind_eq_ok h
    cases h
    exact ⟨by simp, of_demand hdemand, by simp, by simp⟩
  | update pick set =>
    obtain ⟨rows, hscan, h⟩ := of_bind_eq_ok h
    obtain ⟨⟨⟩, hdemand, h⟩ := of_bind_eq_ok h
    cases h
    refine ⟨by simp, by simp, fun u hu => ?_, by simp⟩
    obtain ⟨r, hr, rfl⟩ := List.mem_map.mp hu
    exact ⟨(mem_scan hscan (List.mem_of_mem_filter hr)).2,
      of_demand hdemand (set r) (List.mem_map_of_mem hr)⟩
  | delete pick =>
    obtain ⟨rows, hscan, h⟩ := of_bind_eq_ok h
    cases h
    refine ⟨by simp, by simp, by simp, fun r hr => ?_⟩
    exact (mem_scan hscan (List.mem_of_mem_filter hr)).2
  | upsert row conflicts set =>
    obtain ⟨⟨⟩, hrow, h⟩ := of_bind_eq_ok h
    split at h
    · cases h
      exact ⟨by simp, of_demand hrow, by simp, by simp⟩
    · -- the conflicting row is updated: its old and its new content are both checked
      obtain ⟨⟨⟩, hold, h⟩ := of_bind_eq_ok h
      obtain ⟨⟨⟩, hnew, h⟩ := of_bind_eq_ok h
      cases h
      refine ⟨by simp, by simp, fun u hu => ?_, by simp⟩
      rw [List.mem_singleton.mp hu]
      exact ⟨of_demand hold _ (List.mem_singleton_self _),
        of_demand hnew _ (List.mem_singleton_self _)⟩

/-- Where no row can be written, none is inserted or updated. -/
lemma Within.unwritten {reads : ρ → Prop} {o : Outcome ρ} (h : Within reads (fun _ => False) o) :
    o.inserted = [] ∧ o.updated = [] :=
  ⟨List.eq_nil_iff_forall_not_mem.mpr h.inserted,
    List.eq_nil_iff_forall_not_mem.mpr fun u hu => (h.updated u hu).2⟩

/-- Where the condition is known, the scan is a filter. -/
lemma scan_of_known {cond : ρ → Except ε Truth} {p : ρ → Bool}
    (h : ∀ r, cond r = .ok (some (p r))) (rows : List ρ) :
    scan cond rows = .ok (rows.filter p) := by
  induction rows with
  | nil => rfl
  | cons r rows ih =>
    have hr : holds (cond r) = .ok (p r) := by
      rw [h r]
      cases p r <;> rfl
    rw [scan, ih, hr, List.filter_cons]
    cases p r <;> rfl

/-- Where every row can be seen, the scan returns all. -/
lemma scan_of_forall {cond : ρ → Except ε Truth} (h : ∀ r, cond r = .ok (some true))
    (rows : List ρ) : scan cond rows = .ok rows := by
  rw [scan_of_known (p := fun _ => true) h, List.filter_eq_self.mpr fun _ _ => rfl]

end CortexDis.RowSecurity
