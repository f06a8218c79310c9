import CortexDis.AckSafety

/-!
The stage that a failure is filed under.

The pipeline is written out as its steps, with the exceptions of each under a label. Labelled
as `_staged` does it, it is the consumer's pipeline; labelled with the step itself, it says
which step raised. What a step outside `_staged` raises carries no stage, and the handler
files it under the default.
-/

namespace CortexDis.FailureStages

open CortexDis.Values CortexDis.Envelope CortexDis.Errors CortexDis.Frames CortexDis.ApplyMapping
open CortexDis.Canonical CortexDis.WriteChunk CortexDis.Catalogue CortexDis.Bronze
open CortexDis.LoadMapping CortexDis.Quarantine CortexDis.Intake CortexDis.Orchestrate

/-- The steps of `_process` that can raise. -/
inductive PipelineStep
  | fetch | mappingLoad | storeRead | preValidation | engine | enrichment | postValidation
  | rowBuilding | write
  deriving DecidableEq, Repr

/-- The stage a step belongs to. -/
def PipelineStep.stage : PipelineStep → Stage
  | .fetch => .received
  | .mappingLoad | .storeRead => .mappingLookedUp
  | .preValidation => .preMappingValidated
  | .engine | .enrichment => .mappingExecuted
  | .postValidation => .postMappingValidated
  | .rowBuilding | .write => .canonicalWritten

/-- Is the step run inside `_staged`? -/
def PipelineStep.wrapped : PipelineStep → Bool
  | .fetch | .mappingLoad | .storeRead | .write => true
  | .preValidation | .engine | .enrichment | .postValidation | .rowBuilding => false

/-- What the code makes of an exception that a step raises. -/
def tag (step : PipelineStep) (r : Raised) : Raised :=
  if step.wrapped then { r with stage := some step.stage } else r

/-! ### The pipeline as its steps -/

section Adapt

variable {m : Type → Type} [Monad m] [LawfulMonad m] {ε ε' ε'' α β : Type}

lemma adapt_bind (f : ε → ε') (body : ExceptT ε m α) (k : α → ExceptT ε m β) :
    (body >>= k).adapt f = body.adapt f >>= fun a => (k a).adapt f := by
  apply ExceptT.ext
  simp only [ExceptT.run_adapt, ExceptT.run_bind, map_bind, bind_map_left]
  refine bind_congr fun answer => ?_
  cases answer with
  | error e => simp [Except.mapError]
  | ok a => simp [Except.mapError]

lemma adapt_adapt (f : ε → ε') (g : ε' → ε'') (body : ExceptT ε m α) :
    (body.adapt f).adapt g = body.adapt fun e => g (f e) := by
  apply ExceptT.ext
  simp only [ExceptT.run_adapt, Functor.map_map]
  congr 1
  funext answer
  cases answer <;> rfl

lemma adapt_id (body : ExceptT ε m α) : body.adapt (fun e => e) = body := by
  apply ExceptT.ext
  rw [ExceptT.run_adapt]
  refine (congrArg (· <$> body.run) ?_).trans (id_map _)
  funext answer
  cases answer <;> rfl

@[simp] lemma adapt_pure (f : ε → ε') (a : α) :
    ExceptT.adapt f (pure a : ExceptT ε m α) = pure a := by
  apply ExceptT.ext
  simp [Except.mapError]

end Adapt

lemma staged_eq {α : Type} (stage : Stage) (body : Flow α) :
    staged stage body = body.adapt fun r => { r with stage := some stage } := by
  apply ExceptT.ext
  rw [ExceptT.run_adapt, staged, ExceptT.run_tryCatch, map_eq_pure_bind]
  refine bind_congr fun answer => ?_
  cases answer <;> rfl

section Steps

variable (p : ConsumerPipeline) (c : Calls) (event : IngressReadyEvent) {ε : Type}

/-- The steps from the loaded mapping to the write. -/
def validateSteps (label : PipelineStep → Raised → ε) (frame : Frame) (bronze : BronzeMeta)
    (loaded : LoadedMapping) (facts : Option StoreFacts) :
    ExceptT ε (StateM FlowContext) Prepared := do
  let pre ← ExceptT.adapt (label .preValidation) (call (p.runPreValidation loaded frame))
  if ¬ pre.passed then return .gateFailed .preMappingValidated pre.failures .failedPreValidation
  else
    let result ← ExceptT.adapt (label .engine) (call (applyMapping p.polars loaded.source frame))
    if result.failures ≠ [] then
      return .gateFailed .mappingExecuted (result.failures.map gateFailureOf) .failedMapping
    else
      let result ← ExceptT.adapt (label .enrichment) (enrich loaded facts result)
      let post ← ExceptT.adapt (label .postValidation)
        (call (p.runPostValidation loaded result.contribution))
      if ¬ post.passed then
        return .gateFailed .postMappingValidated post.failures .failedPostValidation
      else ExceptT.adapt (label .rowBuilding) (writeInput p event bronze loaded facts result)

/-- The steps of `_process` up to the write. -/
def steps (label : PipelineStep → Raised → ε) : ExceptT ε (StateM FlowContext) Prepared := do
  let (frame, bronze) ← ExceptT.adapt (label .fetch) (fetchChunk p c event)
  modify fun ctx => { ctx with rowCount := frame.height }
  let loaded ← ExceptT.adapt (label .mappingLoad) do
    let rows ← call c.mappings
    call (loadActiveMapping p.modelValidate rows event)
  modify fun ctx => { ctx with mappingVersionId := loaded.mappingVersionId }
  let facts ← ExceptT.adapt (label .storeRead) (storeFacts c event loaded)
  validateSteps p event label frame bronze loaded facts

lemma adapt_modify {ε' : Type} (f : ε → ε') (g : FlowContext → FlowContext) :
    ExceptT.adapt f (modify g : ExceptT ε (StateM FlowContext) PUnit) = modify g := rfl

lemma steps_eq_adapt (label : PipelineStep → Raised → ε) :
    steps p c event label =
      (steps p c event Prod.mk).adapt fun e : PipelineStep × Raised => label e.1 e.2 := by
  have hvalidate : ∀ frame bronze loaded facts,
      validateSteps p event label frame bronze loaded facts =
      (validateSteps p event Prod.mk frame bronze loaded facts).adapt
        fun e : PipelineStep × Raised => label e.1 e.2 := by
    intro frame bronze loaded facts
    simp only [validateSteps, adapt_bind, adapt_adapt, apply_ite, adapt_pure]
  simp only [steps, adapt_bind, adapt_adapt, adapt_modify, hvalidate]

lemma adapt_tag_storeFacts (loaded : LoadedMapping) :
    ExceptT.adapt (tag .storeRead) (storeFacts c event loaded) = storeFacts c event loaded := by
  unfold storeFacts
  cases loaded.targetModel with
  | storeSkuChangeEvent => exact adapt_pure _ _
  | _ => simp only [staged_eq, adapt_adapt, tag, PipelineStep.wrapped, PipelineStep.stage, if_true]

lemma prepare_eq : prepare p c event = steps p c event tag := by
  have htag : ∀ step, step.wrapped = false → tag step = fun r => r := by
    intro step hstep
    funext r
    rw [tag, hstep]
    rfl
  have hstaged : ∀ step, step.wrapped = true →
      tag step = fun r => { r with stage := some step.stage } := by
    intro step hstep
    funext r
    rw [tag, if_pos hstep]
  simp only [prepare, validateAndMap, steps, validateSteps, adapt_tag_storeFacts, staged_eq,
    hstaged .fetch rfl, hstaged .mappingLoad rfl, htag .preValidation rfl, htag .engine rfl,
    htag .enrichment rfl, htag .postValidation rfl, htag .rowBuilding rfl, adapt_id,
    PipelineStep.stage]

end Steps

/-! ### Exceptions without a stage -/

/-- What holds of every exception a computation raises. -/
def RaisesOnly {ε α : Type} (body : ExceptT ε (StateM FlowContext) α) (Q : ε → Prop) : Prop :=
  ∀ ctx e ctx', body.run.run ctx = (.error e, ctx') → Q e

section RaisesOnly

variable {ε ε' α β : Type} {Q : ε → Prop}

lemma RaisesOnly.pure (a : α) : RaisesOnly (Pure.pure a) Q := by
  intro ctx e ctx' h
  cases h

lemma RaisesOnly.modify (f : FlowContext → FlowContext) :
    RaisesOnly (modify f : ExceptT ε (StateM FlowContext) PUnit) Q := by
  intro ctx e ctx' h
  cases h

lemma RaisesOnly.bind {body : ExceptT ε (StateM FlowContext) α}
    {k : α → ExceptT ε (StateM FlowContext) β} (hbody : RaisesOnly body Q)
    (hk : ∀ a, RaisesOnly (k a) Q) : RaisesOnly (body >>= k) Q := by
  intro ctx e ctx' h
  rw [AckSafety.run_bind] at h
  split at h
  · exact hk _ _ e ctx' h
  · cases h
    exact hbody ctx e ctx' ‹_›

lemma RaisesOnly.adapt {f : ε' → ε} {body : ExceptT ε' (StateM FlowContext) α}
    (h : RaisesOnly body fun e => Q (f e)) : RaisesOnly (body.adapt f) Q := by
  intro ctx e ctx' hrun
  rw [ExceptT.run_adapt, StateT.run_map] at hrun
  cases hbody : body.run.run ctx with
  | mk answer mid =>
    cases answer with
    | error e' =>
      rw [hbody] at hrun
      cases hrun
      exact h ctx e' mid hbody
    | ok a =>
      rw [hbody] at hrun
      cases hrun

lemma raisesOnly_call {x : Except Exn α} : RaisesOnly (call x) fun r => r.stage = none := by
  intro ctx r ctx' h
  cases x with
  | error e =>
    cases h
    rfl
  | ok a => cases h

end RaisesOnly

/-- An exception of a step outside `_staged` has no stage. -/
def Marked (e : PipelineStep × Raised) : Prop := e.1.wrapped = false → e.2.stage = none

section Attempt

variable (p : ConsumerPipeline) (c : Calls) (event : IngressReadyEvent)

lemma marked_call {α : Type} (step : PipelineStep) (x : Except Exn α) :
    RaisesOnly (ExceptT.adapt (Prod.mk step) (call x)) Marked :=
  RaisesOnly.adapt fun ctx r ctx' h _ => raisesOnly_call ctx r ctx' h

lemma marked_wrapped {α : Type} {step : PipelineStep} (hstep : step.wrapped = true)
    (body : Flow α) : RaisesOnly (ExceptT.adapt (Prod.mk step) body) Marked := by
  refine RaisesOnly.adapt fun ctx r ctx' _ hnot => ?_
  rw [hstep] at hnot
  cases hnot

lemma marked_enrich (loaded : LoadedMapping) (facts : Option StoreFacts)
    (result : ApplyMapping.MappingResult) :
    RaisesOnly (ExceptT.adapt (Prod.mk .enrichment) (enrich loaded facts result)) Marked := by
  unfold enrich
  split
  · exact RaisesOnly.adapt (RaisesOnly.pure _)
  · exact marked_call .enrichment (.error (.other "AssertionError"))
  · exact RaisesOnly.adapt (RaisesOnly.pure _)

lemma marked_writeInput (bronze : BronzeMeta) (loaded : LoadedMapping) (facts : Option StoreFacts)
    (result : ApplyMapping.MappingResult) :
    RaisesOnly
      (ExceptT.adapt (Prod.mk .rowBuilding) (writeInput p event bronze loaded facts result))
      Marked := by
  unfold writeInput
  dsimp only
  split
  · exact RaisesOnly.adapt (RaisesOnly.pure _)
  · rw [adapt_bind]
    exact (marked_call _ _).bind fun _ => RaisesOnly.adapt (RaisesOnly.pure _)

lemma marked_steps : RaisesOnly (steps p c event Prod.mk) Marked := by
  unfold steps
  refine (marked_wrapped rfl _).bind fun fetched => (RaisesOnly.modify _).bind fun _ =>
    (marked_wrapped rfl _).bind fun loaded => (RaisesOnly.modify _).bind fun _ =>
    (marked_wrapped rfl _).bind fun facts => ?_
  unfold validateSteps
  refine (marked_call _ _).bind fun pre => ?_
  split
  · exact RaisesOnly.pure _
  · refine (marked_call _ _).bind fun result => ?_
    split
    · exact RaisesOnly.pure _
    · refine (marked_enrich loaded facts result).bind fun result =>
        (marked_call _ _).bind fun post => ?_
      split
      · exact RaisesOnly.pure _
      · exact marked_writeInput p event _ loaded facts result

/-! ### One attempt -/

/-- What the write raises, and the state it leaves. -/
def writeRaises (w : World) : Prepared → Option (Exn × World)
  | .gateFailed .. => none
  | .catalogue args result =>
    match writeCatalogueChunk args p.batchSize c.txs result w.db with
    | (_, .ok _) => none
    | (db, .error e) => some (e, { w with db })
  | .events args rows =>
    let run := writeChunk p.driver args p.batchSize c.txs rows w.db
    run.raised.map fun e => (e, { w with db := run.db })

/-- The step of an attempt that raised, and what it raised. -/
def raisedAt (w : World) : Option (PipelineStep × Exn) :=
  match (steps p c event Prod.mk).run.run .initial with
  | (.error e, _) => some (e.1, e.2.exn)
  | (.ok prepared, _) => (writeRaises p c w prepared).map fun e => (.write, e.1)

/-- What the handler of `process` is given. -/
def escaped (w : World) : Option (FlowContext × Raised × World) :=
  match (prepare p c event).run.run .initial with
  | (.error raised, ctx) => some (ctx, raised, w)
  | (.ok prepared, ctx) => (writeRaises p c w prepared).map fun e =>
    (ctx, ⟨e.1, some .canonicalWritten⟩, e.2)

/-- The event of outcome `FAILURE` that the handler emits. -/
structure FailureAudit where
  stage : Stage
  tenantId : Uuid
  traceId : Uuid
  bronzeId : Option Uuid
  mappingVersionId : Option ℕ
  failureCode : FailureCode
  failureMessage : String
  exceptionClass : String
  deriving DecidableEq, Repr

def failureAuditOf (ctx : FlowContext) (raised : Raised) : FailureAudit where
  stage := raised.stage.getD .received
  tenantId := event.tenantId
  traceId := event.traceId
  bronzeId := ctx.bronzeId
  mappingVersionId := ctx.mappingVersionId
  failureCode := failureCodeFor raised.exn
  failureMessage := Quarantine.take 2000 (p.str raised.exn)
  exceptionClass := raised.exn.className

/-- The failure audit of an attempt, if it has one. -/
def failureAudit (w : World) : Option FailureAudit :=
  (escaped p c event w).map fun e => failureAuditOf p event e.1 e.2.1

/-- The stage recorded of an exception is that of the step that raised it, in the failure audit
and in each record that its handler adds to the quarantine. -/
def Attributed (w : World) : Prop :=
  ∀ step e, raisedAt p c event w = some (step, e) →
    (∃ audit, failureAudit p c event w = some audit ∧ audit.stage = step.stage) ∧
      ∀ records, (process p c event w).2.held.chunks = w.held.chunks ++ records →
        ∀ record ∈ records, record.failureStage = failureStageFor step.stage

/-- No step outside `_staged` raises: neither gate, nor the engine, the enrichment or the row
building. -/
def UnwrappedQuiet (w : World) : Prop :=
  ∀ step e, step.wrapped = false → raisedAt p c event w ≠ some (step, e)

end Attempt

section Spec

variable {p : ConsumerPipeline} {c : Calls} {event : IngressReadyEvent} {w w' : World}
  {ctx : FlowContext} {raised : Raised}

lemma prepare_run (ctx : FlowContext) : (prepare p c event).run.run ctx =
    match (steps p c event Prod.mk).run.run ctx with
    | (.ok prepared, ctx') => (.ok prepared, ctx')
    | (.error e, ctx') => (.error (tag e.1 e.2), ctx') := by
  rw [prepare_eq, steps_eq_adapt, ExceptT.run_adapt, StateT.run_map]
  cases (steps p c event Prod.mk).run.run ctx with
  | mk answer ctx' => cases answer <;> rfl

/-- The stage that an exception of the step carries. -/
def PipelineStep.tagged (step : PipelineStep) : Option Stage :=
  if step.wrapped then some step.stage else none

lemma tag_eq {step : PipelineStep} {r : Raised} (h : Marked (step, r)) :
    tag step r = ⟨r.exn, step.tagged⟩ := by
  unfold tag PipelineStep.tagged
  cases hstep : step.wrapped with
  | false =>
    have hr : r.stage = none := h hstep
    rw [← hr]
    rfl
  | true => rfl

lemma escaped_of_raisedAt {step : PipelineStep} {e : Exn}
    (h : raisedAt p c event w = some (step, e)) :
    ∃ ctx w', escaped p c event w = some (ctx, ⟨e, step.tagged⟩, w') := by
  unfold raisedAt at h
  unfold escaped
  rw [prepare_run]
  cases hrun : (steps p c event Prod.mk).run.run .initial with
  | mk answer ctx =>
    rw [hrun] at h
    cases answer with
    | error labelled =>
      have hmarked := marked_steps p c event _ _ _ hrun
      obtain ⟨rfl, rfl⟩ : labelled.1 = step ∧ labelled.2.exn = e := by simpa using h
      have htag := tag_eq hmarked
      exact ⟨ctx, w, by simp only [htag]⟩
    | ok prepared =>
      obtain ⟨raised, hraised, heq⟩ := Option.map_eq_some_iff.mp h
      cases heq
      exact ⟨ctx, raised.2, by simp [hraised, PipelineStep.tagged, PipelineStep.wrapped,
        PipelineStep.stage]⟩

lemma writeRaises_held {prepared : Prepared} {e : Exn}
    (h : writeRaises p c w prepared = some (e, w')) : w'.held = w.held := by
  cases prepared with
  | gateFailed stage failures fallback => cases h
  | catalogue args result =>
    simp only [writeRaises] at h
    split at h
    · cases h
    · cases h
      rfl
  | events args rows =>
    obtain ⟨e', -, he'⟩ := Option.map_eq_some_iff.mp h
    cases he'
    rfl

lemma process_of_escaped (h : escaped p c event w = some (ctx, raised, w')) :
    process p c event w = handleException p c event ctx raised w' ∧ w'.held = w.held := by
  unfold escaped at h
  unfold process
  cases hrun : (prepare p c event).run.run .initial with
  | mk answer mid =>
    rw [hrun] at h
    cases answer with
    | error r =>
      cases h
      exact ⟨rfl, rfl⟩
    | ok prepared =>
      obtain ⟨⟨e, w''⟩, hraised, heq⟩ := Option.map_eq_some_iff.mp h
      cases heq
      refine ⟨?_, writeRaises_held hraised⟩
      cases prepared with
      | gateFailed stage failures fallback => cases hraised
      | catalogue args result =>
        simp only [writeRaises] at hraised
        split at hraised
        · cases hraised
        · rename_i hwrite
          cases hraised
          simp only [hwrite]
      | events args rows =>
        obtain ⟨e', he', hpair⟩ := Option.map_eq_some_iff.mp hraised
        cases hpair
        simp only [he']

/-- The stage of a gate has a failure code. -/
def Prepared.Coded : Prepared → Prop
  | .gateFailed stage _ _ => (gateFailureCode stage).isSome
  | _ => True

lemma prepare_coded : AckSafety.Ensures (prepare p c event) Prepared.Coded := by
  unfold prepare
  refine .bind fun fetched => .bind fun _ => .bind fun loaded => .bind fun _ =>
    .bind fun facts => ?_
  unfold validateAndMap
  refine .bind fun pre => ?_
  split
  · exact .pure rfl
  · refine .bind fun result => ?_
    split
    · exact .pure rfl
    · refine .bind fun result => .bind fun post => ?_
      split
      · exact .pure rfl
      · unfold writeInput
        dsimp only
        split
        · exact .pure trivial
        · exact .bind fun rows => .pure trivial

lemma process_of_escaped_none (h : escaped p c event w = none) :
    ∃ d, (process p c event w).1 = .ok d := by
  unfold escaped at h
  unfold process
  cases hrun : (prepare p c event).run.run .initial with
  | mk answer ctx =>
    rw [hrun] at h
    cases answer with
    | error r => cases h
    | ok prepared =>
      have hraised : writeRaises p c w prepared = none := Option.map_eq_none_iff.mp h
      -- the failures of a gate come with a code, so the hold does not raise
      have hcoded := prepare_coded _ _ _ hrun
      cases prepared with
      | gateFailed stage failures fallback =>
        obtain ⟨code, hcode⟩ := Option.isSome_iff_exists.mp hcoded
        simp only [quarantineGateFailure, hcode]
        cases hhold : holdGateFailure c event ctx stage code failures w.held with
        | mk held' _ => cases held' <;> exact ⟨_, rfl⟩
      | catalogue args result =>
        simp only [writeRaises] at hraised
        split at hraised
        · rename_i hwrite
          exact ⟨.written, by simp only [hwrite]⟩
        · cases hraised
      | events args rows =>
        have hnone := Option.map_eq_none_iff.mp hraised
        exact ⟨.written, by simp only [hnone]⟩

lemma escaped_eq_none_iff : escaped p c event w = none ↔ raisedAt p c event w = none := by
  unfold escaped raisedAt
  rw [prepare_run]
  cases (steps p c event Prod.mk).run.run .initial with
  | mk answer ctx => cases answer <;> simp

/-- Without a step that raises there is no failure audit, and the attempt has a disposition. -/
theorem process_of_no_step_raises (h : raisedAt p c event w = none) :
    failureAudit p c event w = none ∧ ∃ d, (process p c event w).1 = .ok d := by
  have hescaped := escaped_eq_none_iff.mpr h
  exact ⟨by rw [failureAudit, hescaped]; rfl, process_of_escaped_none hescaped⟩

lemma holdChunkFailure_stage {fate : Fate} {now : Timestamp} {stage : Stage} {code : FailureCode}
    {message : String} {cls : Option String} {failures : Option (List GateFailure)}
    {held held' : Held} {answer : Except Exn Unit}
    (h : holdChunkFailure fate now event ctx stage code message cls failures held =
      (answer, held')) :
    held'.chunks = held.chunks ∨ ∃ record, held'.chunks = held.chunks ++ [record] ∧
      record.failureStage = failureStageFor stage := by
  unfold holdChunkFailure at h
  split at h
  · cases h
    exact Or.inl rfl
  · dsimp only at h
    split at h
    · cases fate with
      | commits =>
        cases h
        exact Or.inr ⟨_, rfl, rfl⟩
      | raises e landed =>
        cases landed with
        | true =>
          cases h
          exact Or.inr ⟨_, rfl, rfl⟩
        | false =>
          cases h
          exact Or.inl rfl
    · cases h
      exact Or.inl rfl

lemma handleException_stage {records : List QuarantinedChunk}
    (h : (handleException p c event ctx raised w).2.held.chunks = w.held.chunks ++ records) :
    ∀ record ∈ records, record.failureStage = failureStageFor (raised.stage.getD .received) := by
  have hadded : ∀ held' answer, holdChunkFailure c.hold c.now event ctx
      (raised.stage.getD .received) (failureCodeFor raised.exn)
      (Quarantine.take 2000 (p.str raised.exn))
      (some raised.exn.className) none w.held = (answer, held') →
      held'.chunks = w.held.chunks ++ records →
      ∀ record ∈ records, record.failureStage = failureStageFor (raised.stage.getD .received) := by
    intro held' answer hhold hchunks record hrecord
    rcases holdChunkFailure_stage hhold with hsame | ⟨added, hone, hstage⟩
    · rw [hsame, List.self_eq_append_right] at hchunks
      simp [hchunks] at hrecord
    · rw [hone] at hchunks
      rw [← List.append_cancel_left hchunks, List.mem_singleton] at hrecord
      exact hrecord ▸ hstage
  unfold handleException at h
  dsimp only at h
  split at h
  · split at h <;> exact hadded _ _ ‹_› h
  · intro record hrecord
    rw [List.self_eq_append_right.mp h] at hrecord
    cases hrecord

lemma stage_tagged_iff (step : PipelineStep) :
    step.tagged.getD .received = step.stage ↔ step.wrapped = true := by
  cases step <;> decide

lemma attributed_iff : Attributed p c event w ↔ UnwrappedQuiet p c event w := by
  constructor
  · intro h step e hstep hraised
    obtain ⟨⟨audit, haudit, hstage⟩, -⟩ := h step e hraised
    obtain ⟨ctx, w', hescaped⟩ := escaped_of_raisedAt hraised
    simp only [failureAudit, hescaped, Option.map_some, Option.some.injEq] at haudit
    rw [← haudit] at hstage
    have hwrapped := (stage_tagged_iff step).mp hstage
    rw [hstep] at hwrapped
    cases hwrapped
  · intro h step e hraised
    have hwrapped : step.wrapped = true := by
      by_contra hnot
      exact h step e (by simpa using hnot) hraised
    have hstage := (stage_tagged_iff step).mpr hwrapped
    obtain ⟨ctx, w', hescaped⟩ := escaped_of_raisedAt hraised
    obtain ⟨hprocess, hheld⟩ := process_of_escaped hescaped
    refine ⟨⟨_, by rw [failureAudit, hescaped]; rfl, hstage⟩, fun records hrecords => ?_⟩
    rw [hprocess, ← hheld] at hrecords
    have hall := handleException_stage hrecords
    rwa [hstage] at hall

end Spec

/-- **When failures are filed under their stage**: when neither gate, nor the engine, the
enrichment or the row building raises; these run outside `_staged`. -/
theorem stage_attributed_iff (p : ConsumerPipeline) (c : Calls) (event : IngressReadyEvent)
    (w : World) : Attributed p c event w ↔ UnwrappedQuiet p c event w :=
  attributed_iff

/-! ### A zone that polars does not know -/

/-- A date column read in a zone that does not exist. -/
def zoneRules : MappingRules.Rules where
  version := 1
  rename := PyDict.Dict.ofList [("a", "last_sold_at")]
  normalize := PyDict.Dict.ofList
    [("last_sold_at", [.parseDatetime "%Y" (some "Europe/Nowhere")])]
  cast := PyDict.Dict.empty
  derive := PyDict.Dict.empty

def zonePipeline : ConsumerPipeline :=
  { AckSafety.samplePipeline with modelValidate := fun _ => .ok zoneRules }

/-- The source has a mapping, and the store is mirrored. -/
def zoneCalls : Calls :=
  { AckSafety.sampleCalls with
    mappings := .ok [{
      tenantId := .ofNat 2
      sourceId := "pos"
      templateId := .ofNat 4
      active := true
      mappingVersionId := 1
      mappingRules := .null
      templateType := .snapshot
      preValidationSuiteRef := none
      postValidationSuiteRef := none }]
    stores := .ok [⟨.ofNat 2, .ofNat 3, "inclusive", "EUR"⟩] }

lemma zone_steps :
    ((steps zonePipeline zoneCalls AckSafety.sampleEvent Prod.mk).run.run .initial).1 =
    .error (.engine, ⟨.mappingConfig (some "last_sold_at"), none⟩) := by
  have hframe : parseChunk zonePipeline AckSafety.sampleEvent Bronze.sampleCsv =
      .ok ⟨1, PyDict.Dict.ofList [("a", Series.ofTexts [some "1"])]⟩ := rfl
  rw [steps, AckSafety.fetchChunk_eq (p := zonePipeline) (c := zoneCalls) AckSafety.sample_path rfl
    AckSafety.sample_readBronzeRow rfl hframe]
  rfl

lemma zone_raisedAt : raisedAt zonePipeline zoneCalls AckSafety.sampleEvent AckSafety.emptyWorld =
    some (.engine, .mappingConfig (some "last_sold_at")) := by
  unfold raisedAt
  cases hrun : (steps zonePipeline zoneCalls AckSafety.sampleEvent Prod.mk).run.run .initial with
  | mk answer ctx =>
    have hanswer := zone_steps
    rw [hrun] at hanswer
    cases hanswer
    rfl

/-- The engine raises for the unknown zone, and the failure is filed under the intake. -/
theorem engine_failure_filed_as_received :
    raisedAt zonePipeline zoneCalls AckSafety.sampleEvent AckSafety.emptyWorld =
        some (.engine, .mappingConfig (some "last_sold_at")) ∧
      (failureAudit zonePipeline zoneCalls AckSafety.sampleEvent AckSafety.emptyWorld).map
        (·.stage) = some .received ∧
      ¬ Attributed zonePipeline zoneCalls AckSafety.sampleEvent AckSafety.emptyWorld := by
  refine ⟨zone_raisedAt, ?_, fun h => ?_⟩
  · obtain ⟨ctx, w', hescaped⟩ := escaped_of_raisedAt zone_raisedAt
    rw [failureAudit, hescaped]
    rfl
  · exact attributed_iff.mp h .engine _ rfl zone_raisedAt

end CortexDis.FailureStages
