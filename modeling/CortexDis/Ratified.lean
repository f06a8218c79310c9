import CortexDis.AtlasRuns

/-!
Published rows are ratified and do not change.

The trigger keeps a published row as it is whatever a request wrote down before. That the
row is ratified rests on what the two updates carry: the one of `update` a draft, the one of
`freeze` the frozen form of a draft that passed the gate when it was read.
-/

namespace CortexDis.Ratified

open CortexDis.PyText CortexDis.PyValue CortexDis.SchemaIr CortexDis.DraftIr CortexDis.DraftStore
open CortexDis.DraftDocs CortexDis.AtlasRuns CortexDis.Runs CortexDis.PyDict

variable {υ ι : Type} [DecidableEq υ] [DecidableEq ι] {py : Builtins Empty} {ids : Uuids υ}

/-! ### The trigger -/

lemma advance_published {table : Table υ} (p : Phase υ) {u : υ} {row : Row}
    (hrow : table.get? u = some row) (hpub : row.status = pyStr "published") :
    (advance py ids table p).1.get? u = some row := by
  -- a statement that succeeds sets another row
  have hother : ∀ {v : υ} {row' : Row}, v ≠ u → (table.set v row').get? u = some row :=
    fun h => by rw [Dict.get?_set_ne _ _ h, hrow]
  have hwrite : ∀ {result : Schema} {r : Except AtlasError (Table υ)},
      (∀ table', r = .ok table' → table'.get? u = some row) →
        (afterWrite table result r).1.get? u = some row := by
    intro result r h
    cases r with
    | error e => exact hrow
    | ok table' => exact h table' rfl
  cases p with
  | insert v draft =>
    refine hwrite fun table' h => ?_
    obtain ⟨row', hnone, -, -, rfl⟩ := insertStmt_eq_ok h
    refine hother ?_
    rintro rfl
    simp [hrow] at hnone
  | updateWrite draftId patch draft updated =>
    refine hwrite fun table' h => ?_
    obtain ⟨v, ir, -, -, ⟨-, rfl⟩ | ⟨row', hrow', hdraft, rfl⟩⟩ := updateStmt_eq_ok h
    · exact hrow
    · refine hother ?_
      rintro rfl
      cases hrow.symm.trans hrow'
      exact hdraft hpub
  | freezeWrite draftId current version =>
    refine hwrite fun table' h => ?_
    obtain ⟨v, ir, -, -, ⟨-, rfl⟩ | ⟨row', hrow', hdraft, rfl⟩⟩ := freezeStmt_eq_ok h
    · exact hrow
    · refine hother ?_
      rintro rfl
      cases hrow.symm.trans hrow'
      exact hdraft hpub
  | _ => exact hrow

lemma run_published {s : State υ ι} (schedule : List ι) {u : υ} {row : Row}
    (hrow : s.table.get? u = some row) (hpub : row.status = pyStr "published") :
    (run py ids s schedule).table.get? u = some row := by
  induction schedule generalizing s with
  | nil => exact hrow
  | cons i schedule ih => exact ih (s := step py ids s i) (advance_published _ hrow hpub)

/-! ### What rows and requests carry -/

variable (py ids) (requests : ι → Request υ)

abbrev after (schedule : List ι) : State υ ι := run py ids (init requests) schedule

/-- At some point of the schedule the row of `u` was a draft that held `d`, and `d` had no
ratify violations. -/
def RatifiedDraft (schedule : List ι) (u : υ) (d : Schema) : Prop :=
  ratifyViolations d = [] ∧ ∃ before row, before <+: schedule ∧
    (after py ids requests before).table.get? u = some row ∧ row.status = pyStr "draft" ∧
    loadIr py row = .ok d

/-- A row is a draft, or it is frozen from a ratified one. -/
def RowOk (schedule : List ι) (u : υ) (row : Row) : Prop :=
  ∃ s, WellFormed s ∧ Holds row s ∧
    (row.status = pyStr "draft" ∧ s.status = pyStr "draft" ∨
      row.status = pyStr "published" ∧ ∃ d, RatifiedDraft py ids requests schedule u d ∧
        s = frozen d row.schemaVersion)

/-- What a request is about to write. -/
def PhaseOk (schedule : List ι) : Phase υ → Prop
  | .insert _ draft => WellFormed draft ∧ draft.status = pyStr "draft"
  | .updateRead _ _ _ updated => WellFormed updated
  | .updateWrite _ _ _ updated => WellFormed updated ∧ updated.status = pyStr "draft"
  | .freezeWrite draftId current _ =>
    WellFormed current ∧ ∃ u, ids.uuidOf draftId = some u ∧
      RatifiedDraft py ids requests schedule u current
  | _ => True

/-- The invariant. -/
structure Good (schedule : List ι) (s : State υ ι) : Prop where
  rows : ∀ u row, s.table.get? u = some row → RowOk py ids requests schedule u row
  phases : ∀ i, PhaseOk py ids requests schedule (s.phase i)

variable {py ids requests}

lemma RatifiedDraft.mono {schedule : List ι} {u : υ} {d : Schema}
    (h : RatifiedDraft py ids requests schedule u d) (i : ι) :
    RatifiedDraft py ids requests (schedule ++ [i]) u d := by
  obtain ⟨hr, before, row, hbefore, hrest⟩ := h
  exact ⟨hr, before, row, hbefore.trans (List.prefix_append _ _), hrest⟩

lemma RowOk.mono {schedule : List ι} {u : υ} {row : Row}
    (h : RowOk py ids requests schedule u row) (i : ι) :
    RowOk py ids requests (schedule ++ [i]) u row := by
  obtain ⟨s, hwf, hholds, hdraft | ⟨hpub, d, hd, hs⟩⟩ := h
  · exact ⟨s, hwf, hholds, .inl hdraft⟩
  · exact ⟨s, hwf, hholds, .inr ⟨hpub, d, hd.mono i, hs⟩⟩

lemma PhaseOk.mono {schedule : List ι} {p : Phase υ}
    (h : PhaseOk py ids requests schedule p) (i : ι) :
    PhaseOk py ids requests (schedule ++ [i]) p := by
  cases p with
  | freezeWrite draftId current version =>
    obtain ⟨hwf, u, hu, hd⟩ := h
    exact ⟨hwf, u, hu, hd.mono i⟩
  | _ => exact h

lemma phaseOk_start (r : Request υ) : PhaseOk py ids requests [] (start r) := by
  cases r with
  | create u vertical tableKey columns proposals =>
    simp only [start, freshDraft_assemble, if_true]
    exact ⟨wellFormed_assemble _ _ _ _, rfl⟩
  | patch | publish => trivial

lemma Good.get {schedule : List ι} {s : State υ ι} (hg : Good py ids requests schedule s)
    {draftId : PyStr} {d : Schema} (h : get py ids s.table draftId = .ok d) :
    ∃ u row, ids.uuidOf draftId = some u ∧ s.table.get? u = some row ∧ loadIr py row = .ok d ∧
      WellFormed d ∧ (d.status = pyStr "draft" → row.status = pyStr "draft") := by
  obtain ⟨u, row, hu, hrow, hload⟩ := get_eq_ok h
  obtain ⟨s', hwf, hholds, hstatus⟩ := hg.rows u row hrow
  cases hload.symm.trans (hwf.loadIr py hholds)
  refine ⟨u, row, hu, hrow, hload, hwf, fun hd => ?_⟩
  rcases hstatus with ⟨hrd, -⟩ | ⟨-, d', -, rfl⟩
  · exact hrd
  · have hne : pyStr "published" ≠ pyStr "draft" := by simp
    exact absurd hd hne

lemma Good.advance_phase {schedule : List ι} (i : ι)
    (hg : Good py ids requests schedule (after py ids requests schedule)) {p : Phase υ}
    (hp : PhaseOk py ids requests schedule p) :
    PhaseOk py ids requests (schedule ++ [i])
      (advance py ids (after py ids requests schedule).table p).2 := by
  have hdone : ∀ r, PhaseOk py ids requests (schedule ++ [i]) (.done r : Phase υ) :=
    fun _ => trivial
  have hwrite : ∀ (table : Table υ) (result : Schema) (r : Except AtlasError (Table υ)),
      PhaseOk py ids requests (schedule ++ [i]) (afterWrite table result r).2 := by
    intro table result r
    cases r <;> trivial
  cases p with
  | insert | updateWrite | freezeWrite => exact hwrite _ _ _
  | done => trivial
  | patchRead draftId patch =>
    refine afterRead_ok hdone fun p h => ?_
    obtain ⟨d, hd, h⟩ := of_bind_eq_ok h
    obtain ⟨updated, hupdated, h⟩ := of_bind_eq_ok h
    cases h
    obtain ⟨u, row, -, -, -, hwf, -⟩ := hg.get hd
    exact hwf.applyPatch hupdated
  | updateRead draftId patch draft updated =>
    refine afterRead_ok hdone fun p h => ?_
    obtain ⟨current, -, h⟩ := of_bind_eq_ok h
    obtain ⟨_, hcheck, h⟩ := of_bind_eq_ok h
    cases h
    exact ⟨hp, (checkUpdate_eq_ok hcheck).2⟩
  | publishRead draftId =>
    refine afterRead_ok hdone fun p h => ?_
    obtain ⟨d, -, h⟩ := of_bind_eq_ok h
    split at h
    · cases h
    · cases h
      trivial
  | freezeRead draftId version =>
    refine afterRead_ok hdone fun p h => ?_
    obtain ⟨current, hcurrent, h⟩ := of_bind_eq_ok h
    obtain ⟨_, hcheck, h⟩ := of_bind_eq_ok h
    cases h
    obtain ⟨hstatus, hratified⟩ := checkFreeze_eq_ok hcheck
    obtain ⟨u, row, hu, hrow, hload, hwf, hdraft⟩ := hg.get hcurrent
    exact ⟨hwf, u, hu, hratified, schedule, row, List.prefix_append _ _, hrow, hdraft hstatus,
      hload⟩

lemma Good.advance_rows {schedule : List ι} (i : ι)
    (hg : Good py ids requests schedule (after py ids requests schedule)) {p : Phase υ}
    (hp : PhaseOk py ids requests schedule p) (u : υ) (row : Row)
    (hrow : (advance py ids (after py ids requests schedule).table p).1.get? u = some row) :
    RowOk py ids requests (schedule ++ [i]) u row := by
  set table := (after py ids requests schedule).table with htable
  have hold : table.get? u = some row → RowOk py ids requests (schedule ++ [i]) u row :=
    fun h => (hg.rows u row h).mono i
  -- the row that is set is the only one that changes
  have hset : ∀ {v : υ} {row' : Row}, RowOk py ids requests (schedule ++ [i]) v row' →
      (table.set v row').get? u = some row → RowOk py ids requests (schedule ++ [i]) u row := by
    intro v row' hok h
    rw [Dict.get?_set] at h
    split at h
    next hvu =>
      cases h
      exact hvu ▸ hok
    · exact hold h
  have hwrite : ∀ {result : Schema} {r : Except AtlasError (Table υ)},
      (∀ table', r = .ok table' → table'.get? u = some row →
        RowOk py ids requests (schedule ++ [i]) u row) →
      (afterWrite table result r).1.get? u = some row →
        RowOk py ids requests (schedule ++ [i]) u row := by
    intro result r h hr
    cases r with
    | error e => exact hold hr
    | ok table' => exact h table' rfl hr
  cases p with
  | insert v draft =>
    refine hwrite (fun table' h => ?_) hrow
    obtain ⟨row', -, hstatus, hir, rfl⟩ := insertStmt_eq_ok h
    refine hset ⟨draft, hp.1, hp.1.saveIr hir, .inl ⟨?_, hp.2⟩⟩
    have hdraft : varchar 16 (pyStr "draft") = .ok (pyStr "draft") := by decide
    rw [hp.2, hdraft] at hstatus
    exact (Except.ok.inj hstatus).symm
  | updateWrite draftId patch draft updated =>
    refine hwrite (fun table' h => ?_) hrow
    obtain ⟨v, ir, -, hir, ⟨-, rfl⟩ | ⟨row', hrow', hnot, rfl⟩⟩ := updateStmt_eq_ok h
    · exact hold
    · refine hset ⟨updated, hp.1, hp.1.saveIr hir, .inl ⟨?_, hp.2⟩⟩
      obtain ⟨s', -, -, ⟨hdraft, -⟩ | ⟨hpub, -⟩⟩ := hg.rows v row' hrow'
      · exact hdraft
      · exact absurd hpub hnot
  | freezeWrite draftId current version =>
    refine hwrite (fun table' h => ?_) hrow
    obtain ⟨v, ir, hv, hir, ⟨-, rfl⟩ | ⟨row', hrow', hnot, rfl⟩⟩ := freezeStmt_eq_ok h
    · exact hold
    · obtain ⟨hwf, u', hu', hd⟩ := hp
      cases hv.symm.trans hu'
      exact hset ⟨frozen current version, hwf.frozen version, (hwf.frozen version).saveIr hir,
        .inr ⟨rfl, current, hd.mono i, rfl⟩⟩
  | _ => exact hold hrow

lemma after_append_singleton (schedule : List ι) (i : ι) :
    after py ids requests (schedule ++ [i]) = step py ids (after py ids requests schedule) i := by
  simp [after, run]

/-- The invariant holds after every schedule. -/
theorem good_after (schedule : List ι) :
    Good py ids requests schedule (after py ids requests schedule) := by
  induction schedule using List.reverseRecOn with
  | nil => exact ⟨fun u row h => by simp [after, run, init] at h, fun i => phaseOk_start _⟩
  | append_singleton schedule i ih =>
    rw [after_append_singleton]
    refine ⟨ih.advance_rows i (ih.phases i), fun j => ?_⟩
    by_cases hj : j = i
    · subst hj
      simpa [step] using ih.advance_phase j (ih.phases j)
    · simpa [step, Function.update_of_ne hj] using (ih.phases j).mono i

/-- **Published rows are ratified and immutable**: after every interleaving, a published row
is the frozen form of a draft without ratify violations that the row held before, and no
continuation of the interleaving changes the row. -/
theorem published_ratified_immutable (py : Builtins Empty) (ids : Uuids υ)
    (requests : ι → Request υ) (schedule : List ι) (u : υ) (row : Row)
    (hrow : (after py ids requests schedule).table.get? u = some row)
    (hpub : row.status = pyStr "published") :
    (∃ s d, loadIr py row = .ok s ∧ s.status = pyStr "published" ∧
      s = frozen d row.schemaVersion ∧ ratifyViolations d = [] ∧
      ∃ before old, before <+: schedule ∧
        (after py ids requests before).table.get? u = some old ∧ loadIr py old = .ok d) ∧
      ∀ later, (after py ids requests (schedule ++ later)).table.get? u = some row := by
  constructor
  · obtain ⟨s, hwf, hholds, ⟨hdraft, -⟩ |
      ⟨-, d, ⟨hr, before, old, hbefore, hold, -, hload⟩, rfl⟩⟩ :=
      (good_after schedule).rows u row hrow
    · have hne : pyStr "published" ≠ pyStr "draft" := by simp
      exact absurd (hpub.symm.trans hdraft) hne
    · exact ⟨_, d, hwf.loadIr py hholds, rfl, rfl, hr, before, old, hbefore, hold, hload⟩
  · intro later
    have happ : after py ids requests (schedule ++ later) =
        run py ids (after py ids requests schedule) later := by
      simp [after, run]
    rw [happ]
    exact run_published later hrow hpub

def exampleId : PyStr := pyStr "01909f3a-7c1e-7a31-9d4f-8c4f5d1b2a60"

/-- A draft with the system fields only, its natural key set to one of them, and published. -/
def createPatchPublish : ℕ → Request PyStr
  | 0 => .create exampleId "retail" none [] []
  | 1 => .patch exampleId ⟨some ["store_id"], []⟩
  | _ => .publish exampleId

/-- The draft is published, as the frozen form of what it was. -/
theorem natural_key_ratified : ∃ row s d,
    (after PyValue.scalars canonicalIds createPatchPublish [0, 1, 1, 1, 2, 2, 2]).table.get?
        exampleId = some row ∧
      row.status = pyStr "published" ∧ loadIr PyValue.scalars row = .ok s ∧
      s = frozen d row.schemaVersion ∧ ratifyViolations d = [] := by
  have heval : ((after PyValue.scalars canonicalIds createPatchPublish
      [0, 1, 1, 1, 2, 2, 2]).table.get? exampleId).any
        (fun row => row.status = pyStr "published") = true := by decide +kernel
  obtain ⟨row, hrow, hpub⟩ := (Option.any_eq_true _ _).mp heval
  have hpub' : row.status = pyStr "published" := by simpa using hpub
  obtain ⟨⟨s, d, hload, -, hs, hr, -⟩, -⟩ := published_ratified_immutable PyValue.scalars
    canonicalIds createPatchPublish [0, 1, 1, 1, 2, 2, 2] exampleId row hrow hpub'
  exact ⟨row, s, d, hrow, hpub', hload, hs, hr⟩

end CortexDis.Ratified
