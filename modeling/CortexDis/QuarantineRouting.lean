import CortexDis.AckSafety
import CortexDis.Grouping

/-!
Where the failures of a gate are held.

A gate's failures become one call of the writer: a record for each failing row when every
failure has one, else one record of the chunk. Every failure is in the call, with its check
and its reason cut to what the records take.
-/

namespace CortexDis.QuarantineRouting

open CortexDis.PyDict CortexDis.Values CortexDis.Envelope CortexDis.Errors CortexDis.WriteChunk
open CortexDis.Quarantine CortexDis.Intake CortexDis.Orchestrate CortexDis.Grouping CortexDis.Runs

/-! ### One call of the writer -/

/-- What the writer is asked to insert. -/
inductive HoldCall
  | rows (base : RecordBase) (mappingVersionId : ℕ) (entries : List (ℕ × List RowFailure))
  | chunk (base : RecordBase) (mappingVersionId rowCount : Option ℕ) (context : ChunkContext)

/-- The record of a row. -/
def rowOf (base : RecordBase) (mappingVersionId : ℕ)
    (h : base.valid = true ∧ base.failureStage ∈ rowFailureStages) (e : ℕ × List RowFailure) :
    QuarantinedRow :=
  { base with
    rowOffset := e.1
    failureContext := e.2
    mappingVersionId
    valid := h.1
    stage_mem := h.2 }

/-- The call, on the records that its data make. -/
def HoldCall.perform (fate : Fate) (held : Held) : HoldCall → Except Exn Unit × Held
  | .rows base mappingVersionId entries =>
    if h : base.valid = true ∧ base.failureStage ∈ rowFailureStages then
      insertHeld fate held
        { held with rows := held.rows ++ entries.map (rowOf base mappingVersionId h) }
    else (.error validationError, held)
  | .chunk base mappingVersionId rowCountInChunk failureContext =>
    if h : base.valid = true then
      insertHeld fate held { held with chunks := held.chunks ++
        [{ base with failureContext, mappingVersionId, rowCountInChunk, valid := h }] }
    else (.error validationError, held)

/-- The disposition after the call. -/
def conclude (fallback : Disposition) : Except Exn Unit × Held → Except Exn Disposition × Held
  | (.ok (), held) => (.ok .quarantined, held)
  | (.error _, held) => (.ok fallback, held)

/-- A failure as the records keep it. -/
def cut (f : GateFailure) : GateFailure :=
  { f with check := take 256 f.check, reason := take 512 f.reason }

/-- Its part in the record of its row. -/
def rowFailure (f : GateFailure) : RowFailure := ⟨f.column, f.check, f.reason⟩

section Routing

variable (now : Timestamp) (event : IngressReadyEvent) (ctx : FlowContext) (disChannel : String)
  (mappingVersionId : ℕ) (stage : Stage) (code : FailureCode)

/-- What the record of row `i` keeps. -/
def rowFailures (keep : GateFailure → GateFailure) (failures : List GateFailure) (i : ℕ) :
    List RowFailure :=
  (failures.filter fun f => f.rowIndex = some i).map fun f => rowFailure (keep f)

/-- The call holds the failures: by row, one entry a failing row, in the order of the rows, or
by chunk; each failure as `keep` leaves it. -/
def Routes (keep : GateFailure → GateFailure) (failures : List GateFailure) : HoldCall → Prop
  | .rows base version entries =>
    (∀ f ∈ failures, f.rowIndex ≠ none) ∧
      base = recordBase now event ctx disChannel stage .validationRowFailed ∧
      version = mappingVersionId ∧
      (entries.map Prod.fst).Pairwise (· < ·) ∧
      (∀ i, i ∈ entries.map Prod.fst ↔ ∃ f ∈ failures, f.rowIndex = some i) ∧
      (∀ e ∈ entries, e.2 = rowFailures keep failures e.1) ∧
      (entries.flatMap Prod.snd).Perm (failures.map fun f => rowFailure (keep f))
  | .chunk base version rowCount context =>
    (∃ f ∈ failures, f.rowIndex = none) ∧
      base = recordBase now event ctx disChannel stage code ∧
      version = some mappingVersionId ∧ rowCount = ctx.rowCount ∧
      context = ⟨take 2000 (rowLessMessage failures), none, some (failures.map keep)⟩

/-! ### The rows -/

variable {failures : List GateFailure}

/-- The index of a failure that has one. -/
def index (f : GateFailure) : ℕ := f.rowIndex.getD 0

lemma rowIndex_eq_iff (h : ∀ f ∈ failures, f.rowIndex ≠ none) {f : GateFailure}
    (hf : f ∈ failures) (i : ℕ) : f.rowIndex = some i ↔ index f = i := by
  obtain ⟨j, hj⟩ := Option.ne_none_iff_exists'.mp (h f hf)
  rw [index, hj, Option.getD_some, Option.some.injEq]

lemma foldlM_addFailure (h : ∀ f ∈ failures, f.rowIndex ≠ none) (d : Dict ℕ (List GateFailure)) :
    failures.foldlM addFailure d = .ok (failures.foldl (fun d f => add d (index f) f) d) := by
  induction failures generalizing d with
  | nil => rfl
  | cons f failures ih =>
    obtain ⟨i, hi⟩ := Option.ne_none_iff_exists'.mp (h f (by simp))
    have hadd : addFailure d f = .ok (add d (index f) f) := by
      rw [addFailure, hi, index, hi]
      rfl
    rw [List.foldlM_cons, hadd, List.foldl_cons, ok_bind]
    exact ih (fun f hf => h f (List.mem_cons_of_mem _ hf)) _

/-- The entries of the rows' records. -/
def entriesOf (failures : List GateFailure) : List (ℕ × List RowFailure) :=
  (sortedItems (failures.foldl (fun d f => add d (index f) f) Dict.empty)).map fun e =>
    (e.1, e.2.map fun f => rowFailure (cut f))

lemma routes_entriesOf (h : ∀ f ∈ failures, f.rowIndex ≠ none) :
    Routes now event ctx disChannel mappingVersionId stage code cut failures
      (.rows (recordBase now event ctx disChannel stage .validationRowFailed) mappingVersionId
        (entriesOf failures)) := by
  have hgroups := groups_sortedItems index failures
  have hkeys : (entriesOf failures).map Prod.fst =
      (sortedItems (failures.foldl (fun d f => add d (index f) f) Dict.empty)).map Prod.fst := by
    rw [entriesOf, List.map_map]
    rfl
  refine ⟨h, rfl, rfl, ?_, fun i => ?_, fun e he => ?_, ?_⟩
  · rw [hkeys]
    exact hgroups.keys_increasing
  · rw [hkeys, hgroups.keys]
    exact exists_congr fun f => and_congr_right fun hf => (rowIndex_eq_iff h hf i).symm
  · obtain ⟨g, hg, rfl⟩ := List.mem_map.mp he
    have hfilter : (failures.filter fun f => f.rowIndex = some g.1) =
        failures.filter fun f => index f = g.1 :=
      List.filter_congr fun f hf => decide_eq_decide.mpr (rowIndex_eq_iff h hf g.1)
    rw [rowFailures, hfilter, ← hgroups.group g hg]
  · have hperm := hgroups.perm.map fun f => rowFailure (cut f)
    rw [List.map_flatMap] at hperm
    rwa [entriesOf, List.flatMap_map]

lemma Routes.unique {keep : GateFailure → GateFailure} {call call' : HoldCall}
    (h : Routes now event ctx disChannel mappingVersionId stage code keep failures call)
    (h' : Routes now event ctx disChannel mappingVersionId stage code keep failures call') :
    call = call' := by
  cases call with
  | rows base version entries =>
    cases call' with
    | rows base' version' entries' =>
      obtain ⟨-, rfl, rfl, hinc, hkeys, hgroup, -⟩ := h
      obtain ⟨-, rfl, rfl, hinc', hkeys', hgroup', -⟩ := h'
      have hfst : entries.map Prod.fst = entries'.map Prod.fst :=
        eq_of_increasing hinc hinc' fun i => by rw [hkeys, hkeys']
      have hvalues : entries =
          (entries.map Prod.fst).map fun i => (i, rowFailures keep failures i) := eq_map_fst hgroup
      have hvalues' : entries' =
          (entries'.map Prod.fst).map fun i => (i, rowFailures keep failures i) :=
        eq_map_fst hgroup'
      rw [hvalues, hvalues', hfst]
    | chunk base' version' rowCount context =>
      obtain ⟨f, hf, hnone⟩ := h'.1
      exact absurd hnone (h.1 f hf)
  | chunk base version rowCount context =>
    cases call' with
    | rows base' version' entries' =>
      obtain ⟨f, hf, hnone⟩ := h.1
      exact absurd hnone (h'.1 f hf)
    | chunk base' version' rowCount' context' =>
      obtain ⟨-, rfl, rfl, rfl, rfl⟩ := h
      obtain ⟨-, rfl, rfl, rfl, rfl⟩ := h'
      rfl

end Routing

/-! ### The hold -/

section Hold

variable {c : Calls} {event : IngressReadyEvent} {ctx : FlowContext} {stage : Stage}
  {code : FailureCode} {failures : List GateFailure} {disChannel : String} {version : ℕ}

lemma entriesOf_ne_nil (h : failures ≠ []) : entriesOf failures ≠ [] := by
  obtain ⟨f, hf⟩ := List.exists_mem_of_ne_nil _ h
  have hkey := ((groups_sortedItems index failures).keys (index f)).mpr ⟨f, hf, rfl⟩
  obtain ⟨e, he, -⟩ := List.mem_map.mp hkey
  exact List.ne_nil_of_mem (List.mem_map_of_mem he)

lemma holdRows_eq {records : List QuarantinedRow} (hne : records ≠ []) {tenantId : Uuid}
    (h : ∀ r ∈ records, r.tenantId = tenantId) (held : Held) (fate : Fate) :
    holdRows fate records held =
      insertHeld fate held { held with rows := held.rows ++ records } := by
  cases records with
  | nil => exact absurd rfl hne
  | cons first rest =>
    have hnone : ¬ ∃ record ∈ first :: rest, record.tenantId ≠ first.tenantId := by
      rintro ⟨record, hmem, hdiff⟩
      exact hdiff ((h record hmem).trans (h first List.mem_cons_self).symm)
    rw [holdRows, if_neg hnone]

variable (event ctx stage disChannel version) in
lemma rowRecords_eq (now : Timestamp) (hne : failures ≠ [])
    (hindex : ∀ f ∈ failures, f.rowIndex ≠ none) (held : Held) (fate : Fate) :
    (match rowRecords now event ctx disChannel version stage failures with
      | .error e => (.error e, held)
      | .ok records => holdRows fate records held) =
    (HoldCall.rows (recordBase now event ctx disChannel stage .validationRowFailed) version
      (entriesOf failures)).perform fate held := by
  have hrecords : rowRecords now event ctx disChannel version stage failures =
      (sortedItems (failures.foldl (fun d f => add d (index f) f) Dict.empty)).mapM
        (rowRecord now event ctx disChannel version stage) := by
    rw [rowRecords, foldlM_addFailure hindex, ok_bind]
    rfl
  rw [hrecords]
  let base := recordBase now event ctx disChannel stage .validationRowFailed
  -- whether a record validates does not depend on the row
  by_cases hvalid : base.valid = true ∧ base.failureStage ∈ rowFailureStages
  · have hok : (sortedItems (failures.foldl (fun d f => add d (index f) f) Dict.empty)).mapM
        (rowRecord now event ctx disChannel version stage) =
        .ok ((entriesOf failures).map (rowOf base version hvalid)) := by
      conv_lhs => rw [← List.map_id (sortedItems _)]
      rw [entriesOf, List.map_map]
      exact mapM_map_eq_ok fun e _ => dif_pos hvalid
    have hrows : (entriesOf failures).map (rowOf base version hvalid) ≠ [] := by
      simpa using entriesOf_ne_nil hne
    have htenant : ∀ r ∈ (entriesOf failures).map (rowOf base version hvalid),
        r.tenantId = event.tenantId := by
      intro r hr
      obtain ⟨e, -, rfl⟩ := List.mem_map.mp hr
      rfl
    rw [hok, HoldCall.perform, dif_pos hvalid]
    exact holdRows_eq hrows htenant held fate
  · rw [HoldCall.perform, dif_neg hvalid]
    cases hitems : sortedItems (failures.foldl (fun d f => add d (index f) f) Dict.empty) with
    | nil => exact absurd (by simp [entriesOf, hitems]) (entriesOf_ne_nil hne)
    | cons e rest =>
      have herror : rowRecord now event ctx disChannel version stage e = .error validationError :=
        dif_neg hvalid
      rw [List.mapM_cons, herror, error_bind]

variable (code) in
lemma exists_holdCall (hne : failures ≠ []) (hchannel : ctx.disChannel = some disChannel)
    (hversion : ctx.mappingVersionId = some version) (held : Held) :
    ∃ call, Routes c.now event ctx disChannel version stage code cut failures call ∧
      holdGateFailure c event ctx stage code failures held = call.perform c.hold held := by
  -- failures that all name a row are held by row, all others by chunk
  by_cases hindex : ∀ f ∈ failures, f.rowIndex ≠ none
  · refine ⟨_, routes_entriesOf c.now event ctx disChannel version stage code hindex, ?_⟩
    have hall : (failures.all fun f => f.rowIndex.isSome) = true :=
      List.all_eq_true.mpr fun f hf => Option.isSome_iff_ne_none.mpr (hindex f hf)
    have hrows := rowRecords_eq event ctx stage disChannel version c.now hne hindex held c.hold
    rw [holdGateFailure, if_pos hall, holdRowFailures, hchannel, hversion, ← hrows]
    dsimp only
    cases rowRecords c.now event ctx disChannel version stage failures with
    | error e => rfl
    | ok records =>
      dsimp only
      cases holdRows c.hold records held with
      | mk answer after => cases answer <;> rfl
  · push Not at hindex
    refine ⟨.chunk (recordBase c.now event ctx disChannel stage code) ctx.mappingVersionId
      ctx.rowCount ⟨take 2000 (rowLessMessage failures), none, some (failures.map cut)⟩,
      ⟨hindex, rfl, hversion, rfl, rfl⟩, ?_⟩
    have hall : ¬ (failures.all fun f => f.rowIndex.isSome) = true := by
      intro hall
      obtain ⟨f, hf, hnone⟩ := hindex
      have hsome := List.all_eq_true.mp hall f hf
      rw [hnone] at hsome
      cases hsome
    rw [holdGateFailure, if_neg hall, holdChunkFailure, hchannel, HoldCall.perform]
    dsimp only
    by_cases hvalid : (recordBase c.now event ctx disChannel stage code).valid = true
    · rw [dif_pos hvalid, dif_pos hvalid, holdChunk]
      rfl
    · rw [dif_neg hvalid, dif_neg hvalid]

lemma quarantineGateFailure_eq (hcode : gateFailureCode stage = some code)
    (fallback : Disposition) (held : Held) :
    quarantineGateFailure c event ctx stage failures fallback held =
      conclude fallback (holdGateFailure c event ctx stage code failures held) := by
  simp only [quarantineGateFailure, hcode]
  cases holdGateFailure c event ctx stage code failures held with
  | mk answer after => cases answer <;> rfl

lemma exists_routed (hne : failures ≠ []) (hcode : gateFailureCode stage = some code)
    (hchannel : ctx.disChannel = some disChannel) (hversion : ctx.mappingVersionId = some version)
    (fallback : Disposition) (held : Held) :
    ∃ call, Routes c.now event ctx disChannel version stage code cut failures call ∧
      quarantineGateFailure c event ctx stage failures fallback held =
        conclude fallback (call.perform c.hold held) := by
  obtain ⟨call, hroutes, hcall⟩ := exists_holdCall (c := c) code hne hchannel hversion held
  exact ⟨call, hroutes, by rw [quarantineGateFailure_eq hcode, hcall]⟩

end Hold

/-- **Every failure of a gate is held.** The failures make one call, which holds each of them
once; the chunk is quarantined when the call succeeds, and falls back when it does not. -/
theorem gate_failures_routed (c : Calls) (event : IngressReadyEvent) (ctx : FlowContext)
    (stage : Stage) (code : FailureCode) (failures : List GateFailure) (fallback : Disposition)
    (held : Held) (disChannel : String) (version : ℕ) (hne : failures ≠ [])
    (hcode : gateFailureCode stage = some code) (hchannel : ctx.disChannel = some disChannel)
    (hversion : ctx.mappingVersionId = some version) :
    ∃! call, Routes c.now event ctx disChannel version stage code cut failures call ∧
      quarantineGateFailure c event ctx stage failures fallback held =
        conclude fallback (call.perform c.hold held) := by
  obtain ⟨call, hroutes, hcall⟩ := exists_routed (c := c) hne hcode hchannel hversion fallback held
  exact ⟨call, ⟨hroutes, hcall⟩, fun call' h => h.1.unique _ _ _ _ _ _ _ hroutes⟩

/-! ### A long check -/

/-- A flow past the mapping lookup. -/
def lookedUp : FlowContext := ⟨some (.ofNat 5), some 7, some "csv_upload", some 3⟩

/-- Failures of two rows, out of order. -/
def twoRows : List GateFailure :=
  [⟨some "price", some 2, "isin", "no member"⟩, ⟨some "sku", some 0, "not_null", "null"⟩,
    ⟨some "qty", some 2, "range", "negative"⟩]

theorem two_rows_routed : ∃! call,
    Routes AckSafety.sampleCalls.now AckSafety.sampleEvent lookedUp "csv_upload" 7
      .postMappingValidated .postValidationFailed cut twoRows call ∧
    quarantineGateFailure AckSafety.sampleCalls AckSafety.sampleEvent lookedUp
      .postMappingValidated twoRows .failedPostValidation ⟨[], []⟩ =
        conclude .failedPostValidation (call.perform AckSafety.sampleCalls.hold ⟨[], []⟩) :=
  gate_failures_routed _ _ _ _ _ _ _ _ _ _ (by decide) rfl rfl rfl

lemma conclude_held (fallback : Disposition) (run : Except Exn Unit × Held) :
    (conclude fallback run).2 = run.2 := by
  rcases run with ⟨e | _, held⟩ <;> rfl

lemma contexts_of_routes {now : Timestamp} {event : IngressReadyEvent} {ctx : FlowContext}
    {disChannel : String} {version : ℕ} {stage : Stage} {code : FailureCode}
    {keep : GateFailure → GateFailure} {failures : List GateFailure} {call : HoldCall}
    (hroutes : Routes now event ctx disChannel version stage code keep failures call)
    (hindex : ∀ f ∈ failures, f.rowIndex ≠ none)
    (hvalid : (recordBase now event ctx disChannel stage .validationRowFailed).valid = true)
    (hstage : failureStageFor stage ∈ rowFailureStages) :
    ((call.perform .commits ⟨[], []⟩).2.rows.flatMap (·.failureContext)).Perm
      (failures.map fun f => rowFailure (keep f)) := by
  cases call with
  | rows base v entries =>
    obtain ⟨-, rfl, -, -, -, -, hperm⟩ := hroutes
    have hrows : ∀ h, (entries.map (rowOf (recordBase now event ctx disChannel stage
        .validationRowFailed) v h)).flatMap (·.failureContext) = entries.flatMap Prod.snd := by
      intro h
      rw [List.flatMap_map]
      rfl
    rw [HoldCall.perform, dif_pos ⟨hvalid, hstage⟩]
    simp only [insertHeld, List.nil_append, hrows]
    exact hperm
  | chunk base v rowCount context =>
    obtain ⟨f, hf, hnone⟩ := hroutes.1
    exact absurd hnone (hindex f hf)

lemma check_eq_of_routed {f : GateFailure} (hf : f.rowIndex ≠ none) {call : HoldCall}
    (hroutes : Routes AckSafety.sampleCalls.now AckSafety.sampleEvent lookedUp "csv_upload" 7
      .postMappingValidated .postValidationFailed id [f] call)
    (hcall : quarantineGateFailure AckSafety.sampleCalls AckSafety.sampleEvent lookedUp
      .postMappingValidated [f] .failedPostValidation ⟨[], []⟩ =
        conclude .failedPostValidation (call.perform AckSafety.sampleCalls.hold ⟨[], []⟩)) :
    f.check = take 256 f.check := by
  have hrouted : ∃ call', Routes AckSafety.sampleCalls.now AckSafety.sampleEvent lookedUp
      "csv_upload" 7 .postMappingValidated .postValidationFailed cut [f] call' ∧
      quarantineGateFailure AckSafety.sampleCalls AckSafety.sampleEvent lookedUp
        .postMappingValidated [f] .failedPostValidation ⟨[], []⟩ =
          conclude .failedPostValidation (call'.perform AckSafety.sampleCalls.hold ⟨[], []⟩) :=
    exists_routed (by simp) rfl rfl rfl _ _
  obtain ⟨call', hroutes', hcall'⟩ := hrouted
  have hsame : (call.perform .commits ⟨[], []⟩).2 = (call'.perform .commits ⟨[], []⟩).2 := by
    have hheld := congrArg Prod.snd (hcall.symm.trans hcall')
    rwa [conclude_held, conclude_held] at hheld
  have hindex : ∀ g ∈ [f], g.rowIndex ≠ none := by simpa using hf
  have hvalid : (recordBase AckSafety.sampleCalls.now AckSafety.sampleEvent lookedUp "csv_upload"
      .postMappingValidated .validationRowFailed).valid = true := by decide +kernel
  have hfull := contexts_of_routes hroutes hindex hvalid (by decide)
  have hcut := contexts_of_routes hroutes' hindex hvalid (by decide)
  rw [hsame] at hfull
  have hsingle : [rowFailure (id f)] = [rowFailure (cut f)] :=
    List.perm_singleton.mp (hfull.symm.trans hcut)
  exact congrArg RowFailure.check (List.singleton_inj.mp hsingle)

/-- A failure whose check has a long name. -/
def longCheck : GateFailure := ⟨none, some 0, String.ofList (List.replicate 257 'x'), ""⟩

lemma length_longCheck : longCheck.check.toList.length = 257 := by
  rw [longCheck, String.toList_ofList, List.length_replicate]

/-- The record of the row has the first 256 characters of the check only. -/
theorem long_check_is_cut :
    ¬ ∀ (c : Calls) (event : IngressReadyEvent) (ctx : FlowContext) (stage : Stage)
      (code : FailureCode) (failures : List GateFailure) (fallback : Disposition) (held : Held)
      (disChannel : String) (version : ℕ), failures ≠ [] → gateFailureCode stage = some code →
      ctx.disChannel = some disChannel → ctx.mappingVersionId = some version →
      ∃ call, Routes c.now event ctx disChannel version stage code id failures call ∧
        quarantineGateFailure c event ctx stage failures fallback held =
          conclude fallback (call.perform c.hold held) := by
  intro h
  obtain ⟨call, hroutes, hcall⟩ := h AckSafety.sampleCalls AckSafety.sampleEvent lookedUp
    .postMappingValidated .postValidationFailed [longCheck] .failedPostValidation ⟨[], []⟩
    "csv_upload" 7 (by simp) rfl rfl rfl
  have hcheck := check_eq_of_routed (Option.some_ne_none 0) hroutes hcall
  have hlength := length_longCheck
  rw [hcheck, take, String.toList_ofList, List.length_take, length_longCheck] at hlength
  omega

end CortexDis.QuarantineRouting
