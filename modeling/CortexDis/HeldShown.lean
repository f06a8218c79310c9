import CortexDis.PipelineRuns
import CortexDis.QuarantineConsole

/-!
What the pipeline holds, the console shows.

A message on `ingress.ready` is acknowledged when its chunk was written or a record of it was
held. The tables of the console hold the records of the run, with ids of their own; nothing ever
takes a record out of them, so that a record held at some delivery is there in the end.
-/

namespace CortexDis.HeldShown

open CortexDis.Values CortexDis.Envelope CortexDis.Errors CortexDis.Quarantine CortexDis.Intake
open CortexDis.Orchestrate CortexDis.WireFormat CortexDis.PipelineRuns
open CortexDis.QuarantineConsole (Tables HeldItem Tagged Kind ListQuery)

/-! ### The tables of a run -/

/-- Records are added, and none is taken out. -/
structure Grows (held held' : Held) : Prop where
  chunks : held.chunks ⊆ held'.chunks
  rows : held.rows ⊆ held'.rows

lemma Grows.refl (held : Held) : Grows held held := ⟨fun _ h => h, fun _ h => h⟩

lemma Grows.trans {a b c : Held} (hab : Grows a b) (hbc : Grows b c) : Grows a c :=
  ⟨fun _ h => hbc.chunks (hab.chunks h), fun _ h => hbc.rows (hab.rows h)⟩

section Attempt

variable {p : ConsumerPipeline} {c : Calls} {event : IngressReadyEvent} {ctx : FlowContext}
  {stage : Stage} {held : Held}

lemma insertHeld_grows {fate : WriteChunk.Fate} {inserted : Held} (h : Grows held inserted) :
    Grows held (insertHeld fate held inserted).2 := by
  cases fate with
  | commits => exact h
  | raises e landed =>
    cases landed with
    | false => exact .refl held
    | true => exact h

lemma holdChunkFailure_grows {fate : WriteChunk.Fate} {now : Timestamp} {code : FailureCode}
    {message : String} {cls : Option String} {failures : Option (List GateFailure)} :
    Grows held (holdChunkFailure fate now event ctx stage code message cls failures held).2 := by
  unfold holdChunkFailure
  split
  · exact .refl held
  · dsimp only
    split
    · exact insertHeld_grows ⟨List.subset_append_left _ _, fun _ h => h⟩
    · exact .refl held

lemma holdRowFailures_grows {fate : WriteChunk.Fate} {now : Timestamp}
    {failures : List GateFailure} :
    Grows held (holdRowFailures fate now event ctx stage failures held).2 := by
  have hrows : ∀ records, Grows held (holdRows fate records held).2 := by
    intro records
    unfold holdRows
    split
    · exact .refl held
    · split
      · exact .refl held
      · exact insertHeld_grows ⟨fun _ h => h, List.subset_append_left _ _⟩
  unfold holdRowFailures
  split
  · split
    · exact .refl held
    · rename_i records _
      have hgrows := hrows records
      split
      · rename_i heq
        rwa [heq] at hgrows
      · rename_i heq
        rwa [heq] at hgrows
  · exact .refl held

lemma handleException_grows {raised : Raised} {w : World} :
    Grows w.held (handleException p c event ctx raised w).2.held := by
  unfold handleException
  dsimp only
  split
  · have hgrows : Grows w.held (holdChunkFailure c.hold c.now event ctx
        (raised.stage.getD .received) (failureCodeFor raised.exn)
        (Quarantine.take 2000 (p.str raised.exn)) (some raised.exn.className) none w.held).2 :=
      holdChunkFailure_grows
    split
    · rename_i heq
      rwa [heq] at hgrows
    · rename_i heq
      rwa [heq] at hgrows
  · exact .refl _

lemma quarantineGateFailure_grows {failures : List GateFailure} {fallback : Disposition} :
    Grows held (quarantineGateFailure c event ctx stage failures fallback held).2 := by
  have hgate : ∀ code, Grows held (holdGateFailure c event ctx stage code failures held).2 := by
    intro code
    unfold holdGateFailure
    split
    · have hgrows : Grows held
          (holdRowFailures c.hold c.now event ctx stage failures held).2 := holdRowFailures_grows
      split
      · rename_i heq
        rwa [heq] at hgrows
      · rename_i heq
        rwa [heq] at hgrows
    · exact holdChunkFailure_grows
  unfold quarantineGateFailure
  split
  · exact .refl held
  · rename_i code _
    have hgrows := hgate code
    split
    · rename_i heq
      rwa [heq] at hgrows
    · rename_i heq
      rwa [heq] at hgrows

lemma process_grows (w : World) : Grows w.held (process p c event w).2.held := by
  unfold process
  split
  · exact handleException_grows
  · rename_i stage failures fallback ctx _
    have hgrows : Grows w.held
        (quarantineGateFailure c event ctx stage failures fallback w.held).2 :=
      quarantineGateFailure_grows
    split
    · rename_i heq
      rwa [heq] at hgrows
    · rename_i heq
      rw [heq] at hgrows
      exact hgrows.trans (handleException_grows (w := ⟨w.db, _⟩))
  · split
    · exact .refl _
    · rename_i db e _
      exact handleException_grows (w := ⟨db, w.held⟩)
  · rename_i args rows ctx _
    dsimp only
    split
    · exact .refl _
    · exact handleException_grows
        (w := ⟨(WriteChunk.writeChunk p.driver args p.batchSize c.txs rows w.db).db, w.held⟩)

end Attempt

lemma processMessage_grows {P : Pydantic} {room : ℕ} {p : ConsumerPipeline} {c : Calls}
    (data : PyText.Bytes) (w : World) :
    Grows w.held (processMessage P room (process p c) data w).2.held := by
  unfold processMessage
  split
  · exact .refl _
  · exact .refl _
  · rename_i event _
    have hgrows : Grows w.held (process p c event w).2.held := process_grows w
    split <;>
    · rename_i heq
      rwa [heq] at hgrows

section Runs

variable {v : PipelineRuns.Deployment}

lemma step_grows (s : State) (a : Action) :
    Grows s.consumer.held (step v s a).consumer.held := by
  cases a with
  | upload r => exact .refl _
  | pullReceived pull =>
    dsimp only [step, pullReceived]
    split
    · exact .refl _
    · exact .refl _
  | pullReady pull =>
    dsimp only [step, pullReady]
    split
    · exact processMessage_grows pull.data s.consumer
    · exact .refl _

lemma run_grows (actions : List Action) (s : State) :
    Grows s.consumer.held (run v actions s).consumer.held := by
  induction actions generalizing s with
  | nil => exact .refl _
  | cons a actions ih => exact (step_grows s a).trans (ih (step v s a))

end Runs

/-! ### The tables of the console -/

/-- The console's tables hold the records, each as a new item with an id of its own. -/
structure Stores (held : Held) (db : Tables) : Prop where
  chunks : List.Forall₂ (fun (record : QuarantinedChunk) (r : HeldItem) =>
    r.toRecordBase = record.toRecordBase ∧ r.status = .new ∧
      r.failureContext = some (.chunk record.failureContext) ∧
      r.mappingVersionId = record.mappingVersionId) held.chunks db.chunks
  rows : List.Forall₂ (fun (record : QuarantinedRow) (r : HeldItem) =>
    r.toRecordBase = record.toRecordBase ∧ r.status = .new ∧
      r.failureContext = some (.rows record.failureContext) ∧
      r.mappingVersionId = some record.mappingVersionId) held.rows db.rows

lemma exists_of_forall₂ {α β : Type} {R : α → β → Prop} {as : List α} {bs : List β}
    (h : List.Forall₂ R as bs) {a : α} (ha : a ∈ as) : ∃ b ∈ bs, R a b := by
  induction h with
  | nil => cases ha
  | cons hab _ ih =>
    rcases List.mem_cons.mp ha with rfl | ha
    · exact ⟨_, List.mem_cons_self, hab⟩
    · obtain ⟨b, hb, hR⟩ := ih ha
      exact ⟨b, List.mem_cons_of_mem _ hb, hR⟩

lemma exists_item {held held' final : Held} {event : IngressReadyEvent}
    (h : Holds event held held') (hgrows : Grows held' final) {db : Tables}
    (hdb : Stores final db) : ∃ x ∈ db.items, x.2.toRecordBase.ForEvent event ∧
      x.2.status = .new := by
  obtain ⟨chunks, rows, hchunks, hrows, hpos, hforChunks, hforRows⟩ := h
  rcases Nat.eq_zero_or_pos chunks.length with hnone | hsome
  · obtain ⟨record, hrecord⟩ := List.exists_mem_of_length_pos (show 0 < rows.length by omega)
    have hfinal : record ∈ final.rows := hgrows.rows (hrows ▸ List.mem_append_right _ hrecord)
    obtain ⟨r, hr, hbase, hstatus, -⟩ := exists_of_forall₂ hdb.rows hfinal
    exact ⟨(.row, r), QuarantineConsole.mem_items.mpr hr, hbase ▸ hforRows record hrecord, hstatus⟩
  · obtain ⟨record, hrecord⟩ := List.exists_mem_of_length_pos hsome
    have hfinal : record ∈ final.chunks :=
      hgrows.chunks (hchunks ▸ List.mem_append_right _ hrecord)
    obtain ⟨r, hr, hbase, hstatus, -⟩ := exists_of_forall₂ hdb.chunks hfinal
    exact ⟨(.chunk, r), QuarantineConsole.mem_items.mpr hr, hbase ▸ hforChunks record hrecord,
      hstatus⟩

/-! ### What the console shows of a run -/

/-- The query without a filter. -/
def everything : ListQuery := ⟨none, none, none, none⟩

/-- Some delivery of the message wrote its whole chunk. -/
def WrittenWhole (v : PipelineRuns.Deployment) (actions : List Action) (consumer : World)
    (m : IngressReadyEvent) : Prop :=
  ∃ before pull after, actions = before ++ .pullReady pull :: after ∧
    let s := run v before (start consumer)
    AckSafety.Written v.services.consumer (callsOf pull s.worker.bronze) m s.consumer
      (routeReady v pull s.worker.bronze s.consumer).2

section Shown

variable {v : PipelineRuns.Deployment} {actions : List Action} {consumer : World}

lemma written_or_held {m : IngressReadyEvent} (hvalid : IngressReadyValid m)
    (hP : Agrees v.isoformat v.pydantic m.receivedTs)
    (h : ingressReadyBytes v.isoformat m ∈ (run v actions (start consumer)).ackedReady)
    {db : Tables} (hdb : Stores (run v actions (start consumer)).consumer.held db) :
    WrittenWhole v actions consumer m ∨
      ∃ x ∈ db.items, x.2.toRecordBase.ForEvent m ∧ x.2.status = .new := by
  obtain ⟨before, pull, after, hactions, hdata, hack, hstep⟩ := exists_ackReady h
  have hparse : parseIngressReady v.pydantic (v.room + 1) pull.data = .ok m :=
    hdata ▸ parse_ingressReadyBytes hvalid hP v.room
  have htxs : AckSafety.DbFailuresUnmapped
      (callsOf pull (run v before (start consumer)).worker.bronze).txs := pull.txs_unmapped
  rcases handled_of_ack htxs hparse hack with hwritten | ⟨hholds, -⟩
  · exact .inl ⟨before, pull, after, hactions, hwritten⟩
  · have hrun : run v actions (start consumer) =
        run v after (step v (run v before (start consumer)) (.pullReady pull)) := by
      rw [hactions, run, List.foldl_append, List.foldl_cons]
      rfl
    have hgrows := run_grows (v := v) after
      (step v (run v before (start consumer)) (.pullReady pull))
    rw [hstep, ← hrun] at hgrows
    exact .inr (exists_item hholds hgrows hdb)

lemma shown_of_item (T : RlsSessions.UuidType) (decimalDigit : Char → Option ℕ)
    (iso : Timestamp → String) (now : Timestamp) {db : Tables} {x : Tagged} (hx : x ∈ db.items)
    (hstatus : x.2.status = .new) : ∃ response row d,
      QuarantineConsole.listQuarantine T iso now ⟨false, some x.2.tenantId⟩ everything db =
        .ok response ∧ row ∈ response.items ∧ row.traceId = x.2.traceId.str ∧
      row.sourceId = x.2.sourceId ∧ row.status = .opened ∧
      QuarantineConsole.getQuarantineItem T decimalDigit iso ⟨false, some x.2.tenantId⟩ row.id db =
        .ok d ∧ d.traceId = row.traceId := by
  have hmode : RequestScope.readMode ⟨false, some x.2.tenantId⟩ =
      .ok (.tenant x.2.tenantId.str) := rfl
  have hin : QuarantineConsole.inScope ⟨false, some x.2.tenantId⟩ x.2 = true := by
    simp [QuarantineConsole.inScope]
  obtain ⟨rows, hlist, hrows⟩ :=
    QuarantineConsole.listQuarantine_ok T iso hmode now everything db
  obtain ⟨row, hrow, hshown⟩ :=
    exists_of_forall₂ hrows (QuarantineConsole.mem_shown.mpr ⟨hx, hin, rfl⟩)
  obtain ⟨-, -, htrace, hsource, -, -, -, hopened⟩ := QuarantineConsole.toListRow_ok hshown
  obtain ⟨d, hget, -, -, -, hdetail, -⟩ :=
    QuarantineConsole.getQuarantineItem_of_mem (T := T) hmode hx hin hshown
  rw [hstatus] at hopened
  exact ⟨_, row, d, hlist, hrow, htrace, hsource, (Option.some.inj hopened).symm, hget, hdetail⟩

end Shown

/-- **What is acknowledged was written whole, or the console shows it.** In every run, for each
message of the worker that is acknowledged: some delivery wrote its whole chunk, or, in the tables
that hold the records of the run, the list of the message's tenant has an open row of its trace
and source, and the id of that row opens. -/
theorem acked_chunk_written_or_shown (v : PipelineRuns.Deployment) (actions : List Action)
    (consumer : World) (T : RlsSessions.UuidType) (decimalDigit : Char → Option ℕ)
    (iso : Timestamp → String) (now : Timestamp) (db : Tables)
    (hpublished : ∀ m ∈ (run v actions (start consumer)).worker.published,
      Agrees v.isoformat v.pydantic m.receivedTs)
    (hdb : Stores (run v actions (start consumer)).consumer.held db) :
    ∀ m ∈ (run v actions (start consumer)).worker.published,
      ingressReadyBytes v.isoformat m ∈ (run v actions (start consumer)).ackedReady →
      WrittenWhole v actions consumer m ∨ ∃ response row d,
        QuarantineConsole.listQuarantine T iso now ⟨false, some m.tenantId⟩ everything db =
          .ok response ∧ row ∈ response.items ∧ row.traceId = m.traceId.str ∧
        row.sourceId = m.sourceId ∧ row.status = .opened ∧
        QuarantineConsole.getQuarantineItem T decimalDigit iso ⟨false, some m.tenantId⟩ row.id db =
          .ok d ∧ d.traceId = row.traceId := by
  intro m hm hacked
  have hvalid := (run_keeps (v := v) actions (invariant_start consumer)).1.published m hm
  rcases written_or_held hvalid (hpublished m hm) hacked hdb with hwritten | ⟨x, hx, hfor, hnew⟩
  · exact .inl hwritten
  · obtain ⟨htenant, htrace, -, hsource, -⟩ := hfor
    have hshown := shown_of_item T decimalDigit iso now hx hnew
    rw [htenant, htrace, hsource] at hshown
    exact .inr hshown

/-! ### A source without a mapping -/

/-- The delivery of the sample message. -/
def samplePullReady : ConsumerPull where
  data := ingressReadyBytes sampleDeployment.isoformat samplePublished
  calls := AckSafety.sampleCalls
  txs_unmapped := fun i e landed h => by cases h
  bronzeRead := none
  arrives := true

def heldActions : List Action := sampleActions ++ [.pullReady samplePullReady]

lemma samplePullReady_data :
    samplePullReady.data = ingressReadyBytes sampleDeployment.isoformat samplePublished := by
  simp only [samplePullReady]

lemma held_of_error {p : ConsumerPipeline} {c : Calls} {event : IngressReadyEvent} {w : World}
    {raised : Raised} {ctx : FlowContext} {disChannel : String}
    (hprepare : (prepare p c event).run.run .initial = (.error raised, ctx))
    (hkept : quarantinable raised.exn ctx = true) (hchannel : ctx.disChannel = some disChannel)
    (hvalid : (recordBase c.now event ctx disChannel (raised.stage.getD .received)
      (failureCodeFor raised.exn)).valid = true)
    (hhold : c.hold = .commits) : ∃ record : QuarantinedChunk,
      (process p c event w).2.held = ⟨w.held.chunks ++ [record], w.held.rows⟩ := by
  simp [process, hprepare, handleException, hkept, holdChunkFailure, hchannel, hvalid, hhold,
    holdChunk, insertHeld]

lemma routeReady_sample {bronze : Bronze.BronzeTable}
    (hrow : Bronze.readBronzeRow bronze samplePublished = .ok ⟨.ofNat 5, "pos", "csv_upload",
      samplePublished.gcsUri, 1767323045000000, some 1⟩) : ∃ w record,
    routeReady sampleDeployment samplePullReady bronze sampleConsumer = (.ok .ack, w) ∧
      w.held = ⟨[record], []⟩ := by
  have hparse : parseIngressReady sampleDeployment.pydantic (sampleDeployment.room + 1)
      samplePullReady.data = .ok samplePublished := by
    have hvalid : IngressReadyValid samplePublished :=
      buildIngressReady_valid samplePull.receivedAt_mem build_sample
    exact parse_ingressReadyBytes hvalid agrees_sample 899
  have hpath : crossCheckPath AckSafety.samplePipeline.bronzeBucket samplePublished =
      crossCheckPath AckSafety.samplePipeline.bronzeBucket AckSafety.sampleEvent := by
    unfold crossCheckPath
    rfl
  have hframe : parseChunk AckSafety.samplePipeline samplePublished Bronze.sampleCsv =
      .ok ⟨1, PyDict.Dict.ofList [("a", Frames.Series.ofTexts [some "1"])]⟩ := rfl
  have hprepare : (prepare AckSafety.samplePipeline (callsOf samplePullReady bronze)
      samplePublished).run.run .initial =
      (.error ⟨.mappingConfig none, some .mappingLookedUp⟩, AckSafety.sampleContext) :=
    AckSafety.prepare_of_unmapped (hpath.trans AckSafety.sample_path) rfl hrow rfl hframe rfl rfl
  have hvalid : (recordBase AckSafety.sampleCalls.now samplePublished
      AckSafety.sampleContext "csv_upload" .mappingLookedUp
      (failureCodeFor (.mappingConfig none))).valid = true := by
    simp only [RecordBase.valid, recordBase, samplePublished, sampleReady, String.length_ofList]
    decide +kernel
  obtain ⟨record, hheld⟩ := held_of_error (w := sampleConsumer) hprepare rfl rfl hvalid rfl
  have hquarantined := AckSafety.process_of_error (w := sampleConsumer) hprepare rfl rfl hvalid rfl
  have hrouted := AckSafety.processMessage_of_quarantined hparse hquarantined
  refine ⟨_, record, ?_, hheld⟩
  rw [routeReady]
  exact hrouted

lemma run_held : ∃ bronze w record, run sampleDeployment heldActions (start sampleConsumer) =
    { accepted := DashboardCounts.uploaded.accepted
      received := [DashboardCounts.sampleEvent]
      worker := ⟨bronze, [samplePublished]⟩
      consumer := w
      ackedReceived := [samplePull.data]
      ackedReady := [samplePullReady.data] } ∧ w.held = ⟨[record], []⟩ := by
  obtain ⟨bronze, hbefore, hrow⟩ := run_sample
  obtain ⟨w, record, hrouted, hheld⟩ := routeReady_sample hrow
  have hsent : ([samplePublished].map (ingressReadyBytes sampleDeployment.isoformat)).contains
      samplePullReady.data = true := by
    rw [List.contains_iff_mem, samplePullReady_data]
    exact List.mem_map_of_mem (List.mem_singleton_self _)
  have happend : run sampleDeployment heldActions (start sampleConsumer) =
      pullReady sampleDeployment samplePullReady
        (run sampleDeployment sampleActions (start sampleConsumer)) := by
    simp only [run, heldActions, List.foldl_append, List.foldl_cons, List.foldl_nil, step]
  refine ⟨bronze, w, record, ?_, hheld⟩
  rw [happend, hbefore, pullReady, if_pos hsent]
  simp only [hrouted, acknowledged]
  rfl

/-- The record in the console's table. -/
def itemOf (record : QuarantinedChunk) : HeldItem :=
  { record.toRecordBase with
    id := .ofNat 11
    status := .new
    failureContext := some (.chunk record.failureContext)
    mappingVersionId := record.mappingVersionId }

theorem acked_chunk_written_or_shown_sample : ∃ db : Tables, db.chunks.length = 1 ∧
    samplePullReady.data ∈
      (run sampleDeployment heldActions (start sampleConsumer)).ackedReady ∧
    (WrittenWhole sampleDeployment heldActions sampleConsumer samplePublished ∨
      ∃ response row d,
        QuarantineConsole.listQuarantine RlsSessions.sampleType (fun t => toString t) 0
          ⟨false, some (.ofNat 2)⟩ everything db = .ok response ∧ row ∈ response.items ∧
        row.traceId = (Uuid.ofNat 1).str ∧ row.sourceId = "pos" ∧ row.status = .opened ∧
        QuarantineConsole.getQuarantineItem RlsSessions.sampleType (fun _ => none)
          (fun t => toString t) ⟨false, some (.ofNat 2)⟩ row.id db = .ok d ∧
        d.traceId = row.traceId) := by
  obtain ⟨bronze, w, record, hrun, hheld⟩ := run_held
  let db : Tables := ⟨[], [itemOf record], by simp, by simp⟩
  have hpublished : ∀ m ∈ (run sampleDeployment heldActions
      (start sampleConsumer)).worker.published,
      Agrees sampleDeployment.isoformat sampleDeployment.pydantic m.receivedTs := by
    rw [hrun]
    intro m hm
    rw [List.mem_singleton.mp hm]
    exact agrees_sample
  have hdb : Stores (run sampleDeployment heldActions (start sampleConsumer)).consumer.held
      db := by
    rw [hrun, hheld]
    exact ⟨.cons ⟨rfl, rfl, rfl, rfl⟩ .nil, .nil⟩
  have hshown := acked_chunk_written_or_shown sampleDeployment heldActions sampleConsumer
    RlsSessions.sampleType (fun _ => none) (fun t => toString t) 0 db hpublished hdb samplePublished
  rw [hrun, ← samplePullReady_data] at hshown
  have hm : samplePublished ∈ [samplePublished] := List.mem_singleton_self _
  have hacked : samplePullReady.data ∈ [samplePullReady.data] := List.mem_singleton_self _
  exact ⟨db, rfl, by rw [hrun]; exact hacked, hshown hm hacked⟩

end CortexDis.HeldShown
