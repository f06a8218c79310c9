import CortexDis.Ratified
import CortexDis.DraftAttrs

/-!
Edits that are lost.

A patch and a publish write the whole document from a copy they read before, keyed on the id
alone. An edit that another request saved in between is overwritten. The edits of a draft
stay exactly when every write finds the attributes it does not edit as its copy has them.
-/

namespace CortexDis.LostEdits

open CortexDis.PyText CortexDis.PyValue CortexDis.SchemaIr CortexDis.DraftIr CortexDis.DraftStore
open CortexDis.DraftDocs CortexDis.DraftAttrs CortexDis.AtlasRuns CortexDis.Ratified
open CortexDis.Runs CortexDis.PyDict

/-! ### Edits of a sequence of patches -/

/-- The edits of every patch are present in the draft, unless a later patch edits the same
attribute. -/
def Present (log : List DraftPatch) (d : Schema) : Prop :=
  ∀ earlier p later, log = earlier ++ p :: later → ∀ a v, patchValue p a = some v →
    (∀ q ∈ later, patchValue q a = none) → attr a d = some v

/-- The value that the last patch to edit an attribute gives it. -/
def lastValue (a : Attr) : List DraftPatch → Option (Value Empty)
  | [] => none
  | p :: log => (lastValue a log).or (patchValue p a)

lemma lastValue_eq_none {a : Attr} {log : List DraftPatch} :
    lastValue a log = none ↔ ∀ q ∈ log, patchValue q a = none := by
  induction log with
  | nil => simp [lastValue]
  | cons p log ih => simp [lastValue, Option.or_eq_none_iff, ih, and_comm]

lemma lastValue_append (a : Attr) (log log' : List DraftPatch) :
    lastValue a (log ++ log') = (lastValue a log').or (lastValue a log) := by
  induction log with
  | nil => simp [lastValue]
  | cons p log ih => simp [lastValue, ih, Option.or_assoc]

lemma exists_of_lastValue {a : Attr} {v : Value Empty} {log : List DraftPatch}
    (h : lastValue a log = some v) : ∃ earlier p later, log = earlier ++ p :: later ∧
      patchValue p a = some v ∧ ∀ q ∈ later, patchValue q a = none := by
  induction log with
  | nil => cases h
  | cons p log ih =>
    cases hl : lastValue a log with
    | some w =>
      simp only [lastValue, hl, Option.some_or, Option.some.injEq] at h
      subst h
      obtain ⟨earlier, q, later, rfl, hq, hlater⟩ := ih hl
      exact ⟨p :: earlier, q, later, rfl, hq, hlater⟩
    | none =>
      simp only [lastValue, hl, Option.none_or] at h
      exact ⟨[], p, log, rfl, h, lastValue_eq_none.mp hl⟩

lemma present_iff (log : List DraftPatch) (d : Schema) :
    Present log d ↔ ∀ a v, lastValue a log = some v → attr a d = some v := by
  constructor
  · intro h a v hv
    obtain ⟨earlier, p, later, hlog, hp, hlater⟩ := exists_of_lastValue hv
    exact h earlier p later hlog a v hp hlater
  · rintro h earlier p later rfl a v hp hlater
    refine h a v ?_
    rw [lastValue_append, lastValue, lastValue_eq_none.mpr hlater, hp]
    rfl

/-! ### The patches of a run -/

variable {υ ι : Type} [DecidableEq υ] [DecidableEq ι] (py : Builtins Empty) (ids : Uuids υ) (u : υ)

/-- The patch of draft `u` that returns success when request `i` runs its next transaction. -/
def committed (s : State υ ι) (i : ι) : Option DraftPatch :=
  match s.phase i with
  | .updateWrite draftId patch _ updated =>
    if (updateStmt ids s.table draftId updated).isOk ∧ ids.uuidOf draftId = some u then some patch
    else none
  | _ => none

/-- The patches of draft `u` that return success, in the order of their writes. -/
def log (s : State υ ι) : List ι → List DraftPatch
  | [] => []
  | i :: schedule => (committed ids u s i).toList ++ log (step py ids s i) schedule

lemma log_append_singleton (s : State υ ι) (schedule : List ι) (i : ι) :
    log py ids u s (schedule ++ [i]) =
      log py ids u s schedule ++ (committed ids u (run py ids s schedule) i).toList := by
  induction schedule generalizing s with
  | nil => simp [log, run]
  | cons j schedule ih => simp [log, ih, run]

/-- The copy of draft `u` that a request writes from. -/
def copyOf : Phase υ → Option Schema
  | .updateRead draftId _ draft _ => if ids.uuidOf draftId = some u then some draft else none
  | .updateWrite draftId _ draft _ => if ids.uuidOf draftId = some u then some draft else none
  | .freezeWrite draftId current _ => if ids.uuidOf draftId = some u then some current else none
  | _ => none

/-- The draft a row holds. -/
def draftAt (table : Table υ) : Option Schema :=
  (table.get? u).bind fun row => (loadIr py row).toOption

/-- If request `i` is about to write the row of `u`, the draft in the row still agrees with
the copy the request read, in every attribute that the request does not edit. -/
def Fresh (s : State υ ι) (i : ι) : Prop :=
  ∀ d, draftAt py u s.table = some d →
    match s.phase i with
    | .updateWrite draftId patch draft updated =>
      ids.uuidOf draftId = some u → (updateStmt ids s.table draftId updated).isOk →
        ∀ a, patchValue patch a = none → attr a d = attr a draft
    | .freezeWrite draftId current version =>
      ids.uuidOf draftId = some u →
        (freezeStmt ids s.table draftId (frozen current version) version).isOk →
        ∀ a, attr a d = attr a current
    | _ => True

/-- What request `i` does to draft `u`: nothing, or one of three writes. -/
inductive Effect (s : State υ ι) (i : ι) : Option Schema → Option DraftPatch → Prop
  | keep {o : Option Schema} (h : o = draftAt py u s.table) : Effect s i o none
  | insert {draft : Schema} (hphase : s.phase i = .insert u draft)
      (hnone : s.table.get? u = none) : Effect s i (some draft) none
  | patch {draftId : PyStr} {patch : DraftPatch} {draft updated : Schema}
      (hphase : s.phase i = .updateWrite draftId patch draft updated)
      (hid : ids.uuidOf draftId = some u)
      (hok : (updateStmt ids s.table draftId updated).isOk)
      (hrow : (s.table.get? u).isSome) : Effect s i (some updated) (some patch)
  | publish {draftId : PyStr} {current : Schema} {version : ℤ}
      (hphase : s.phase i = .freezeWrite draftId current version)
      (hid : ids.uuidOf draftId = some u)
      (hok : (freezeStmt ids s.table draftId (frozen current version) version).isOk)
      (hrow : (s.table.get? u).isSome) : Effect s i (some (frozen current version)) none

variable {py ids u}

lemma draftAt_of_holds {table : Table υ} {row : Row} {d : Schema} (hrow : table.get? u = some row)
    (hwf : WellFormed d) (hholds : Holds row d) : draftAt py u table = some d := by
  simp [draftAt, hrow, hwf.loadIr py hholds, Except.toOption]

lemma draftAt_set_self {table : Table υ} {row : Row} {d : Schema} (hwf : WellFormed d)
    (hholds : Holds row d) : draftAt py u (table.set u row) = some d :=
  draftAt_of_holds (by simp) hwf hholds

lemma draftAt_set_of_ne {table : Table υ} {row : Row} {v : υ} (h : v ≠ u) :
    draftAt py u (table.set v row) = draftAt py u table := by
  rw [draftAt, Dict.get?_set_ne _ _ h, draftAt]

lemma draftAt_updateStmt {table table' : Table υ} {draftId : PyStr} {updated : Schema}
    (hwf : WellFormed updated) (hid : ids.uuidOf draftId = some u) (hrow : table.get? u ≠ none)
    (h : updateStmt ids table draftId updated = .ok table') :
    draftAt py u table' = some updated := by
  obtain ⟨v, ir, hv, hir, ⟨hnone, -⟩ | ⟨row, -, -, rfl⟩⟩ := updateStmt_eq_ok h
  · cases hid.symm.trans hv
    exact absurd hnone hrow
  · cases hid.symm.trans hv
    exact draftAt_set_self hwf (hwf.saveIr hir)

lemma draftAt_freezeStmt {table table' : Table υ} {draftId : PyStr} {d : Schema} {version : ℤ}
    (hwf : WellFormed d) (hid : ids.uuidOf draftId = some u) (hrow : table.get? u ≠ none)
    (h : freezeStmt ids table draftId d version = .ok table') : draftAt py u table' = some d := by
  obtain ⟨v, ir, hv, hir, ⟨hnone, -⟩ | ⟨row, -, -, rfl⟩⟩ := freezeStmt_eq_ok h
  · cases hid.symm.trans hv
    exact absurd hnone hrow
  · cases hid.symm.trans hv
    exact draftAt_set_self hwf (hwf.saveIr hir)

variable {requests : ι → Request υ}

lemma effect_step {schedule : List ι} {s : State υ ι} (hg : Good py ids requests schedule s)
    (hmissing : s.table.get? u = none → ∀ i, copyOf ids u (s.phase i) = none) (i : ι) :
    Effect py ids u s i (draftAt py u (step py ids s i).table) (committed ids u s i) := by
  have hkeep : ∀ {o : Option Schema} {c : Option DraftPatch}, o = draftAt py u s.table → c = none →
      Effect py ids u s i o c := by
    rintro o _ ho rfl
    exact .keep ho
  have hp := hg.phases i
  unfold committed step
  cases hphase : s.phase i with
  | insert v draft =>
    rw [hphase] at hp
    cases hr : insertStmt s.table v draft with
    | error e => exact hkeep (by simp [advance, hr, afterWrite]) rfl
    | ok table' =>
      obtain ⟨row, hnone, -, hir, rfl⟩ := insertStmt_eq_ok hr
      simp only [advance, hr, afterWrite]
      by_cases hv : v = u
      · subst hv
        rw [draftAt_set_self hp.1 (hp.1.saveIr hir)]
        exact .insert hphase hnone
      · exact hkeep (draftAt_set_of_ne hv) rfl
  | updateWrite draftId patch draft updated =>
    rw [hphase] at hp
    cases hr : updateStmt ids s.table draftId updated with
    | error e =>
      exact hkeep (by simp [advance, hr, afterWrite]) (by simp [hr, Except.isOk, Except.toBool])
    | ok table' =>
      obtain ⟨v, ir, hv, hir, hcase⟩ := updateStmt_eq_ok hr
      have hisOk : (Except.ok table' : Except AtlasError (Table υ)).isOk = true := rfl
      simp only [advance, hr, afterWrite, hisOk, true_and, hv, Option.some.injEq]
      -- a statement on another row leaves this draft as it was
      by_cases hvu : v = u
      · subst hvu
        have hrow : s.table.get? v ≠ none := fun hnone => by
          have hcopy := hmissing hnone i
          simp [hphase, copyOf, hv] at hcopy
        rw [draftAt_updateStmt hp.1 hv hrow hr, if_pos rfl]
        exact .patch hphase hv (by rw [hr]; rfl) (Option.isSome_iff_ne_none.mpr hrow)
      · refine hkeep ?_ (if_neg hvu)
        rcases hcase with ⟨-, rfl⟩ | ⟨row, -, -, rfl⟩
        · rfl
        · exact draftAt_set_of_ne hvu
  | freezeWrite draftId current version =>
    rw [hphase] at hp
    cases hr : freezeStmt ids s.table draftId (frozen current version) version with
    | error e => exact hkeep (by simp [advance, hr, afterWrite]) rfl
    | ok table' =>
      obtain ⟨v, ir, hv, hir, hcase⟩ := freezeStmt_eq_ok hr
      simp only [advance, hr, afterWrite]
      by_cases hvu : v = u
      · subst hvu
        have hrow : s.table.get? v ≠ none := fun hnone => by
          have hcopy := hmissing hnone i
          simp [hphase, copyOf, hv] at hcopy
        rw [draftAt_freezeStmt (hp.1.frozen version) hv hrow hr]
        exact .publish hphase hv (by rw [hr]; rfl) (Option.isSome_iff_ne_none.mpr hrow)
      · refine hkeep ?_ rfl
        rcases hcase with ⟨-, rfl⟩ | ⟨row, -, -, rfl⟩
        · rfl
        · exact draftAt_set_of_ne hvu
  | _ => exact hkeep rfl rfl

/-! ### Copies -/

/-- The document a patch is about to save is its copy with the edits applied. -/
def Applied : Phase υ → Prop
  | .updateRead draftId patch draft updated => applyPatch draft patch draftId = .ok updated
  | .updateWrite draftId patch draft updated => applyPatch draft patch draftId = .ok updated
  | _ => True

lemma draftAt_of_get {table : Table υ} {draftId : PyStr} {d : Schema}
    (h : get py ids table draftId = .ok d) (hid : ids.uuidOf draftId = some u) :
    draftAt py u table = some d := by
  obtain ⟨v, row, hv, hrow, hload⟩ := get_eq_ok h
  cases hid.symm.trans hv
  simp [draftAt, hrow, hload, Except.toOption]

lemma advance_copy {table : Table υ} {p : Phase υ} (hp : Applied p) :
    Applied (advance py ids table p).2 ∧
      ∀ c, copyOf ids u (advance py ids table p).2 = some c →
        copyOf ids u p = some c ∨ draftAt py u table = some c := by
  have hwrite : ∀ (result : Schema) (r : Except AtlasError (Table υ)),
      Applied (afterWrite table result r).2 ∧
        ∀ c, copyOf ids u (afterWrite table result r).2 = some c →
          copyOf ids u p = some c ∨ draftAt py u table = some c := by
    intro result r
    cases r <;> exact ⟨trivial, fun c h => nomatch h⟩
  -- a transaction that raises ends its request, which then carries no copy
  let Q : Phase υ → Prop := fun q => Applied q ∧
    ∀ c, copyOf ids u q = some c → copyOf ids u p = some c ∨ draftAt py u table = some c
  have hdone : ∀ r, Q (.done r) := fun r => ⟨trivial, fun c h => nomatch h⟩
  cases p with
  | insert | updateWrite | freezeWrite => exact hwrite _ _
  | done => exact ⟨trivial, fun c h => nomatch h⟩
  | patchRead draftId patch =>
    refine afterRead_ok (P := Q) hdone fun q h => ?_
    obtain ⟨d, hd, h⟩ := of_bind_eq_ok h
    obtain ⟨updated, hupdated, h⟩ := of_bind_eq_ok h
    cases h
    refine ⟨hupdated, fun c hc => ?_⟩
    simp only [copyOf] at hc
    split at hc
    next hid =>
      cases hc
      exact .inr (draftAt_of_get hd hid)
    · cases hc
  | updateRead draftId patch draft updated =>
    refine afterRead_ok (P := Q) hdone fun q h => ?_
    obtain ⟨current, -, h⟩ := of_bind_eq_ok h
    obtain ⟨_, -, h⟩ := of_bind_eq_ok h
    cases h
    exact ⟨hp, fun c hc => .inl hc⟩
  | publishRead draftId =>
    refine afterRead_ok (P := Q) hdone fun q h => ?_
    obtain ⟨d, -, h⟩ := of_bind_eq_ok h
    split at h
    · cases h
    · cases h
      exact ⟨trivial, fun c hc => nomatch hc⟩
  | freezeRead draftId version =>
    refine afterRead_ok (P := Q) hdone fun q h => ?_
    obtain ⟨current, hcurrent, h⟩ := of_bind_eq_ok h
    obtain ⟨_, -, h⟩ := of_bind_eq_ok h
    cases h
    refine ⟨trivial, fun c hc => ?_⟩
    simp only [copyOf] at hc
    split at hc
    next hid =>
      cases hc
      exact .inr (draftAt_of_get hcurrent hid)
    · cases hc

variable (py ids u)

/-- An attribute that no patch has edited has its first value, in the row and in every copy. -/
structure Tracked (origin : Attr → Option (Value Empty)) (edits : List DraftPatch)
    (s : State υ ι) : Prop where
  applied : ∀ i, Applied (s.phase i)
  missing : s.table.get? u = none → edits = [] ∧ ∀ i, copyOf ids u (s.phase i) = none
  row : ∀ d, draftAt py u s.table = some d → ∀ a, lastValue a edits = none → attr a d = origin a
  copies : ∀ i c, copyOf ids u (s.phase i) = some c → ∀ a, lastValue a edits = none →
    attr a c = origin a

variable {py ids u}

lemma attr_frozen (a : Attr) (d : Schema) (version : ℤ) : attr a (frozen d version) = attr a d := by
  cases a <;> rfl

lemma get?_isSome_of_draftAt {table : Table υ} {d : Schema} (h : draftAt py u table = some d) :
    table.get? u ≠ none := by
  intro hnone
  simp [draftAt, hnone] at h

lemma lastValue_append_eq_none {a : Attr} {edits new : List DraftPatch}
    (h : lastValue a (edits ++ new) = none) :
    lastValue a edits = none ∧ lastValue a new = none := by
  rw [lastValue_append, Option.or_eq_none_iff] at h
  exact ⟨h.2, h.1⟩

lemma exists_draftAt {schedule : List ι} {s : State υ ι} (hg : Good py ids requests schedule s)
    (h : s.table.get? u ≠ none) : ∃ d, draftAt py u s.table = some d := by
  obtain ⟨row, hrow⟩ := Option.ne_none_iff_exists'.mp h
  obtain ⟨d, hwf, hholds, -⟩ := hg.rows u row hrow
  exact ⟨d, draftAt_of_holds hrow hwf hholds⟩

omit [DecidableEq ι] in
lemma Effect.isSome {s : State υ ι} {i : ι} {o : Option Schema} {c : Option DraftPatch}
    (h : Effect py ids u s i o c) {d : Schema} (hd : draftAt py u s.table = some d) :
    ∃ d', o = some d' := by
  cases h with
  | keep ho => exact ⟨d, ho.trans hd⟩
  | insert | patch | publish => exact ⟨_, rfl⟩

lemma start_copy (ids : Uuids υ) (u : υ) (r : Request υ) :
    Applied (start r) ∧ copyOf ids u (start r) = none := by
  cases r with
  | create v vertical tableKey columns proposals =>
    simp only [start, freshDraft_assemble, if_true]
    exact ⟨trivial, rfl⟩
  | patch | publish => exact ⟨trivial, rfl⟩

section TrackedStep

variable {schedule : List ι} {s : State υ ι} {origin : Attr → Option (Value Empty)}
  {edits : List DraftPatch}

lemma Tracked.effect (hg : Good py ids requests schedule s) (ht : Tracked py ids u origin edits s)
    (i : ι) : Effect py ids u s i (draftAt py u (step py ids s i).table) (committed ids u s i) :=
  effect_step hg (fun h => (ht.missing h).2) i

lemma Tracked.copy_step (ht : Tracked py ids u origin edits s) (i j : ι) {c : Schema}
    (hc : copyOf ids u ((step py ids s i).phase j) = some c) :
    (∃ k, copyOf ids u (s.phase k) = some c) ∨ draftAt py u s.table = some c := by
  by_cases hj : j = i
  · subst hj
    simp only [step, Function.update_self] at hc
    rcases (advance_copy (ht.applied j)).2 c hc with h | h
    · exact .inl ⟨j, h⟩
    · exact .inr h
  · simp only [step, Function.update_of_ne hj] at hc
    exact .inl ⟨j, hc⟩

lemma Tracked.applied_step (ht : Tracked py ids u origin edits s) (i j : ι) :
    Applied ((step py ids s i).phase j) := by
  by_cases hj : j = i
  · subst hj
    simpa [step] using (advance_copy (u := u) (ht.applied j)).1
  · simpa [step, Function.update_of_ne hj] using ht.applied j

lemma Tracked.missing_step (hg : Good py ids requests schedule s)
    (ht : Tracked py ids u origin edits s) (i : ι)
    (h : (step py ids s i).table.get? u = none) :
    edits ++ (committed ids u s i).toList = [] ∧
      ∀ j, copyOf ids u ((step py ids s i).phase j) = none := by
  have hnone : s.table.get? u = none := by
    by_contra hne
    obtain ⟨d, hd⟩ := exists_draftAt hg hne
    obtain ⟨d', hd'⟩ := (ht.effect hg i).isSome hd
    exact get?_isSome_of_draftAt hd' h
  have hdraft : draftAt py u s.table = none := by simp [draftAt, hnone]
  obtain ⟨hedits, hcopies⟩ := ht.missing hnone
  constructor
  · have heff := ht.effect hg i
    have hafter : draftAt py u (step py ids s i).table = none := by simp [draftAt, h]
    rw [hafter] at heff
    generalize committed ids u s i = c at heff
    rw [hedits]
    cases heff with
    | keep => rfl
  · intro j
    by_contra hne
    obtain ⟨c, hc⟩ := Option.ne_none_iff_exists'.mp hne
    rcases ht.copy_step i j hc with ⟨k, hk⟩ | hd
    · simp [hcopies k] at hk
    · simp [hdraft] at hd

lemma tracked_step (hg : Good py ids requests schedule s) (ht : Tracked py ids u origin edits s)
    (i : ι) : ∃ origin', Tracked py ids u origin' (edits ++ (committed ids u s i).toList)
      (step py ids s i) := by
  have hcopies : ∀ j c, copyOf ids u ((step py ids s i).phase j) = some c → ∀ a,
      lastValue a (edits ++ (committed ids u s i).toList) = none → attr a c = origin a := by
    intro j c hc a ha
    obtain ⟨ha, -⟩ := lastValue_append_eq_none ha
    rcases ht.copy_step i j hc with ⟨k, hk⟩ | hd
    · exact ht.copies k c hk a ha
    · exact ht.row c hd a ha
  by_cases hins : ∃ draft, s.phase i = .insert u draft ∧ s.table.get? u = none ∧
      draftAt py u (step py ids s i).table = some draft
  · -- the row is new: its first values are those of the draft
    obtain ⟨draft, -, hnone, hdraft⟩ := hins
    refine ⟨fun a => attr a draft, ht.applied_step i, ht.missing_step hg i, ?_, ?_⟩
    · intro d hd a _
      rw [hdraft, Option.some.injEq] at hd
      rw [hd]
    · intro j c hc
      have hnodraft : draftAt py u s.table = none := by simp [draftAt, hnone]
      rcases ht.copy_step i j hc with ⟨k, hk⟩ | hd
      · simp [(ht.missing hnone).2 k] at hk
      · simp [hnodraft] at hd
  · refine ⟨origin, ht.applied_step i, ht.missing_step hg i, ?_, hcopies⟩
    intro d hd a ha
    have heff := ht.effect hg i
    obtain ⟨ha, hc⟩ := lastValue_append_eq_none ha
    rw [hd] at heff hins
    generalize committed ids u s i = c at heff hc
    cases heff with
    | keep h => exact ht.row d h.symm a ha
    | insert hphase hnone => exact absurd ⟨d, hphase, hnone, rfl⟩ hins
    | @patch draftId patch draft updated hphase hid hok hrow =>
      have happ := ht.applied i
      rw [hphase] at happ
      have hcopy : copyOf ids u (s.phase i) = some draft := by simp [hphase, copyOf, hid]
      have hpv : patchValue patch a = none := by simpa [lastValue] using hc
      rw [attr_applyPatch happ a, hpv, Option.none_or]
      exact ht.copies i draft hcopy a ha
    | @publish draftId current version hphase hid hok hrow =>
      have hcopy : copyOf ids u (s.phase i) = some current := by simp [hphase, copyOf, hid]
      rw [attr_frozen]
      exact ht.copies i current hcopy a ha

lemma present_step (hg : Good py ids requests schedule s) (ht : Tracked py ids u origin edits s)
    (i : ι) (hpresent : ∀ d, draftAt py u s.table = some d → Present edits d)
    (hfresh : Fresh py ids u s i) {d' : Schema}
    (hd' : draftAt py u (step py ids s i).table = some d') :
    Present (edits ++ (committed ids u s i).toList) d' := by
  have heff := ht.effect hg i
  rw [hd'] at heff
  rw [present_iff]
  intro a v hv
  generalize committed ids u s i = c at heff hv
  cases heff with
  | keep h =>
    rw [Option.toList_none, List.append_nil] at hv
    exact (present_iff _ _).mp (hpresent d' h.symm) a v hv
  | insert hphase hnone =>
    rw [(ht.missing hnone).1] at hv
    cases hv
  | @patch draftId patch draft updated hphase hid hok hrow =>
    have happ := ht.applied i
    rw [hphase] at happ
    rw [attr_applyPatch happ a]
    rw [lastValue_append] at hv
    simp only [Option.toList_some, lastValue, Option.none_or] at hv
    -- what the patch does not set has the value of the copy, which is that of the row
    cases hpv : patchValue patch a with
    | some w => simpa [hpv] using hv
    | none =>
      rw [hpv, Option.none_or] at hv
      obtain ⟨d, hd⟩ := exists_draftAt hg (Option.isSome_iff_ne_none.mp hrow)
      have hsame := hfresh d hd
      rw [hphase] at hsame
      rw [Option.none_or, ← hsame hid hok a hpv]
      exact (present_iff _ _).mp (hpresent d hd) a v hv
  | @publish draftId current version hphase hid hok hrow =>
    rw [Option.toList_none, List.append_nil] at hv
    obtain ⟨d, hd⟩ := exists_draftAt hg (Option.isSome_iff_ne_none.mp hrow)
    have hsame := hfresh d hd
    rw [hphase] at hsame
    rw [attr_frozen, ← hsame hid hok a]
    exact (present_iff _ _).mp (hpresent d hd) a v hv

omit [DecidableEq ι] in
/-- An attribute that a write does not edit has the same value in the row and in the copy, if
the edits are present before and after it: either some patch edited it, and its value is
there both times, or it has its first value in both. -/
lemma attr_eq_of_present (ht : Tracked py ids u origin edits s) {i : ι} {c d d' : Schema}
    {a : Attr} {new : List DraftPatch} (hcopy : copyOf ids u (s.phase i) = some c)
    (hd : draftAt py u s.table = some d) (hnew : lastValue a new = none)
    (hsame : attr a d' = attr a c) (hpresent : Present edits d)
    (hpresent' : Present (edits ++ new) d') : attr a d = attr a c := by
  cases hv : lastValue a edits with
  | none => rw [ht.row d hd a hv, ht.copies i c hcopy a hv]
  | some v =>
    have hafter : lastValue a (edits ++ new) = some v := by rw [lastValue_append, hnew, hv]; rfl
    rw [(present_iff _ _).mp hpresent a v hv, ← hsame,
      (present_iff _ _).mp hpresent' a v hafter]

lemma fresh_of_present (hg : Good py ids requests schedule s)
    (ht : Tracked py ids u origin edits s) (i : ι)
    (hpresent : ∀ d, draftAt py u s.table = some d → Present edits d)
    (hpresent' : ∀ d', draftAt py u (step py ids s i).table = some d' →
      Present (edits ++ (committed ids u s i).toList) d') :
    Fresh py ids u s i := by
  intro d hd
  have hrow := get?_isSome_of_draftAt hd
  have hp := hg.phases i
  split
  next draftId patch draft updated hphase =>
    intro hid hok a hpv
    have happ := ht.applied i
    rw [hphase] at happ hp
    have hcopy : copyOf ids u (s.phase i) = some draft := by simp [hphase, copyOf, hid]
    have hcommitted : committed ids u s i = some patch := by simp [committed, hphase, hok, hid]
    -- the write replaces the whole row by the copy with the patch applied
    have hafter : draftAt py u (step py ids s i).table = some updated := by
      obtain ⟨table', htable'⟩ := exists_of_isOk hok
      simpa [step, advance, hphase, htable', afterWrite] using
        draftAt_updateStmt hp.1 hid hrow htable'
    refine attr_eq_of_present ht hcopy hd ?_ ?_ (hpresent d hd) (hpresent' _ hafter)
    · simp [hcommitted, lastValue, hpv]
    · rw [attr_applyPatch happ a, hpv, Option.none_or]
  next draftId current version hphase =>
    intro hid hok a
    rw [hphase] at hp
    have hcopy : copyOf ids u (s.phase i) = some current := by simp [hphase, copyOf, hid]
    have hcommitted : committed ids u s i = none := by simp [committed, hphase]
    have hafter : draftAt py u (step py ids s i).table = some (frozen current version) := by
      obtain ⟨table', htable'⟩ := exists_of_isOk hok
      simpa [step, advance, hphase, htable', afterWrite] using
        draftAt_freezeStmt (hp.1.frozen version) hid hrow htable'
    refine attr_eq_of_present ht hcopy hd ?_ ?_ (hpresent d hd) (hpresent' _ hafter)
    · simp [hcommitted, lastValue]
    · exact attr_frozen a current version
  · trivial

end TrackedStep

/-! ### Whole runs -/

variable (py ids u requests)

lemma tracked_after (schedule : List ι) : ∃ origin, Tracked py ids u origin
    (log py ids u (init requests) schedule) (after py ids requests schedule) := by
  induction schedule using List.reverseRecOn with
  | nil =>
    refine ⟨fun _ => none, fun i => ?_, fun _ => ⟨rfl, fun i => ?_⟩, ?_, fun i c hc => ?_⟩
    · exact (start_copy ids u (requests i)).1
    · exact (start_copy ids u (requests i)).2
    · intro d hd
      simp [after, run, init, draftAt] at hd
    · have hnone : copyOf ids u ((after py ids requests []).phase i) = none :=
        (start_copy ids u (requests i)).2
      simp [hnone] at hc
  | append_singleton schedule i ih =>
    obtain ⟨origin, ht⟩ := ih
    rw [log_append_singleton, after_append_singleton]
    exact tracked_step (good_after schedule) ht i

/-- **Edits stay exactly when every write is fresh**: over every interleaving, the edits of
every patch that returned success are present in the draft at every later point, drafts and
published versions alike, if and only if each write finds the attributes it does not edit as
its copy has them. -/
theorem edits_present_iff (schedule : List ι) :
    (∀ before, before <+: schedule → ∀ d,
      draftAt py u (after py ids requests before).table = some d →
      Present (log py ids u (init requests) before) d) ↔
    ∀ before i, before ++ [i] <+: schedule → Fresh py ids u (after py ids requests before) i := by
  constructor
  · intro h before i hbefore
    obtain ⟨origin, ht⟩ := tracked_after py ids u requests before
    refine fresh_of_present (good_after before) ht i
      (h before ((List.prefix_append _ _).trans hbefore)) ?_
    rw [← log_append_singleton, ← after_append_singleton]
    exact h _ hbefore
  · intro hfresh before
    induction before using List.reverseRecOn with
    | nil =>
      intro _ d hd
      simp [after, run, init, draftAt] at hd
    | append_singleton before i ih =>
      intro hbefore d hd
      obtain ⟨origin, ht⟩ := tracked_after py ids u requests before
      rw [log_append_singleton]
      rw [after_append_singleton] at hd
      exact present_step (good_after before) ht i
        (ih ((List.prefix_append _ _).trans hbefore)) (hfresh before i hbefore) hd

/-- Two admins: one sets the natural key, the other ratifies the field. -/
def twoPatches : ℕ → Request PyStr
  | 0 => .create exampleId "retail" none
    [⟨"sku", "int", false, none, none, none, [], 1, 1, 1, ["sku"]⟩] []
  | 1 => .patch exampleId ⟨some ["sku"], []⟩
  | _ => .patch exampleId ⟨none, [⟨"sku", none, none, none, none, some .human⟩]⟩

/-- Both read, then both write. -/
def bothReadFirst : List ℕ := [0, 1, 2, 1, 1, 2, 2]

/-- The natural key of the first patch is gone, and both returned success. -/
theorem natural_key_lost :
    ¬ ∀ before, before <+: bothReadFirst → ∀ d,
      draftAt PyValue.scalars exampleId
          (after PyValue.scalars canonicalIds twoPatches before).table = some d →
        Present (log PyValue.scalars canonicalIds exampleId (init twoPatches) before) d := by
  have hlog : log PyValue.scalars canonicalIds exampleId (init twoPatches) bothReadFirst =
      [⟨some ["sku"], []⟩, ⟨none, [⟨"sku", none, none, none, none, some .human⟩]⟩] := by
    decide +kernel
  have hkey : (draftAt PyValue.scalars exampleId
      (after PyValue.scalars canonicalIds twoPatches bothReadFirst).table).map
        (fun d => d.tables.map (·.naturalKey)) = some [[]] := by decide +kernel
  intro h
  obtain ⟨d, hd, hnk⟩ := Option.map_eq_some_iff.mp hkey
  have hvalue := h bothReadFirst List.prefix_rfl d hd [] _ _ hlog .naturalKey _ rfl
    (by simp [patchValue])
  obtain ⟨t, ht⟩ : ∃ t, d.tables = [t] := by
    cases htables : d.tables with
    | nil => simp [htables] at hnk
    | cons t rest => cases rest with
      | nil => exact ⟨t, rfl⟩
      | cons => simp [htables] at hnk
  have hempty : t.naturalKey = [] := by simpa [ht] using hnk
  simp [attr, ht, hempty] at hvalue

end CortexDis.LostEdits
