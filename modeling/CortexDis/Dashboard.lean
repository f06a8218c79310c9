import CortexDis.Values
import CortexDis.Errors

/-!
The rows of `audit.events`, and the two metrics the dashboard computes from them.

A row keeps the columns the metrics and the redelivery readback read. The database clock is an
argument of a read, and row-level security its scope.
-/

namespace CortexDis.Dashboard

open CortexDis.Values CortexDis.Errors

inductive Outcome
  | success | failure | skipped | retried | duplicateNoop | duplicateOverwritten
  deriving DecidableEq, Repr

structure AuditEvent where
  eventTimestamp : Timestamp
  traceId : Uuid
  tenantId : Uuid
  serviceName : String
  stage : Stage
  outcome : Outcome
  rowCount : Option ℕ
  /-- `event_data->>'template_id'` -/
  templateId : Option String
  deriving DecidableEq

/-- The rows a session sees: those of its tenant, or all. -/
inductive ReadScope
  | tenant (id : Uuid)
  | platform

def ReadScope.sees : ReadScope → Uuid → Bool
  | .tenant id, tenantId => tenantId = id
  | .platform, _ => true

/-- `interval '24 hours'`, in microseconds -/
def day : ℤ := 24 * 3600 * 1000000

/-- The time is within the last day. -/
def recent (now t : Timestamp) : Bool := now - day ≤ t

/-- A row of stage `RECEIVED` and outcome `SUCCESS`. -/
def AuditEvent.isIntake (e : AuditEvent) : Bool := e.stage = .received && e.outcome = .success

/-- The `WHERE` clause both metrics share. -/
def counted (scope : ReadScope) (now : Timestamp) (e : AuditEvent) : Bool :=
  e.isIntake && (scope.sees e.tenantId && recent now e.eventTimestamp)

/-- `SUM(row_count)`; a null is skipped. -/
def sumRows (events : List AuditEvent) : ℕ := (events.map fun e => e.rowCount.getD 0).sum

/-- `_ROWS_INGESTED_24H` -/
def rowsIngested24h (events : List AuditEvent) (scope : ReadScope) (now : Timestamp) : ℕ :=
  sumRows (events.filter (counted scope now))

structure FlowAggRow where
  templateId : Option String
  rows24h : ℕ
  lastReceivedAt : Option Timestamp
  deriving DecidableEq

/-- The aggregate of one group. -/
def flowAggRow (events : List AuditEvent) (templateId : Option String) : FlowAggRow :=
  let group := events.filter (·.templateId = templateId)
  ⟨templateId, sumRows group, (group.map (·.eventTimestamp)).max?⟩

/-- `_FLOW_24H`: one row a template id, the largest first. -/
def flow24h (events : List AuditEvent) (scope : ReadScope) (now : Timestamp) :
    List FlowAggRow :=
  let rows := events.filter (counted scope now)
  ((rows.map (·.templateId)).dedup.map (flowAggRow rows)).mergeSort
    fun a b => decide (b.rows24h ≤ a.rows24h)

lemma mem_flow24h {events : List AuditEvent} {scope : ReadScope} {now : Timestamp}
    {f : FlowAggRow} : f ∈ flow24h events scope now ↔
      ∃ e ∈ events.filter (counted scope now),
        flowAggRow (events.filter (counted scope now)) e.templateId = f := by
  rw [flow24h, List.mem_mergeSort, List.mem_map]
  simp only [List.mem_dedup, List.mem_map]
  constructor
  · rintro ⟨t, ⟨e, he, rfl⟩, hf⟩
    exact ⟨e, he, hf⟩
  · rintro ⟨e, he, hf⟩
    exact ⟨e.templateId, ⟨e, he, rfl⟩, hf⟩

lemma sum_groups {α κ : Type*} [DecidableEq κ] (key : α → κ) (f : α → ℕ) (l : List α)
    (keys : Finset κ) (h : ∀ a ∈ l, key a ∈ keys) :
    ∑ k ∈ keys, ((l.filter fun a => key a = k).map f).sum = (l.map f).sum := by
  induction l with
  | nil => simp
  | cons a l ih =>
    have hsplit : ∀ k, (((a :: l).filter fun b => key b = k).map f).sum =
        (if k = key a then f a else 0) + ((l.filter fun b => key b = k).map f).sum := by
      intro k
      by_cases hk : key a = k
      · simp [hk]
      · have hk' : k ≠ key a := fun h => hk h.symm
        simp [hk, hk']
    rw [List.map_cons, List.sum_cons, ← ih fun b hb => h b (List.mem_cons_of_mem _ hb)]
    simp only [hsplit]
    rw [Finset.sum_add_distrib, Finset.sum_ite_eq' keys (key a) fun _ => f a,
      if_pos (h a List.mem_cons_self)]

/-- The flow rows add up to the rows ingested. -/
theorem sum_flow24h (events : List AuditEvent) (scope : ReadScope) (now : Timestamp) :
    ((flow24h events scope now).map (·.rows24h)).sum = rowsIngested24h events scope now := by
  set rows := events.filter (counted scope now) with hrows
  have hkeys : ∀ e ∈ rows, e.templateId ∈ (rows.map (·.templateId)).dedup.toFinset := by
    intro e he
    rw [List.mem_toFinset, List.mem_dedup]
    exact List.mem_map_of_mem he
  have hgroups := sum_groups (·.templateId) (fun e => e.rowCount.getD 0) rows _ hkeys
  rw [List.sum_toFinset _ (List.nodup_dedup _)] at hgroups
  rw [flow24h, ← hrows, ((List.mergeSort_perm _ _).map _).sum_eq, List.map_map,
    rowsIngested24h, ← hrows]
  exact hgroups

end CortexDis.Dashboard
