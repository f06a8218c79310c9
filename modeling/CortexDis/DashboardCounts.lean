import CortexDis.Runs
import CortexDis.UuidText
import CortexDis.UploadRuns
import CortexDis.BronzeAgreement
import CortexDis.AckSafety

/-!
The dashboard's counts against the uploads the server accepted.

The server writes one `RECEIVED`/`SUCCESS` row for an accepted upload, with the template. The
worker writes another for the same file when it meets it first, and so does the consumer,
neither with a template; the metrics filter on stage and outcome alone and count all of them.
-/

namespace CortexDis.DashboardCounts

open CortexDis.Values CortexDis.Dashboard CortexDis.UploadRuns CortexDis.Runs

/-! ### Agreement -/

/-- The upload is in scope, and was accepted within the last day. -/
def inWindow (scope : ReadScope) (now : Timestamp) (u : Upload) : Bool :=
  scope.sees u.tenantId && recent now u.acceptedAt

/-- The uploads the dashboard is to count. -/
def windowed (s : System) (scope : ReadScope) (now : Timestamp) : List Upload :=
  s.accepted.filter (inWindow scope now)

def totalRows (uploads : List Upload) : ℕ := (uploads.map (·.rowCount)).sum

structure Agrees (s : System) (scope : ReadScope) (now : Timestamp) : Prop where
  total : rowsIngested24h s.audit scope now = totalRows (windowed s scope now)
  flowTotal : ((flow24h s.audit scope now).map (·.rows24h)).sum =
    totalRows (windowed s scope now)
  /-- each flow row is the rows of one template -/
  attributed : ∀ f ∈ flow24h s.audit scope now, ∃ u ∈ windowed s scope now,
    f.templateId = some u.templateId.str ∧
    f.rows24h = totalRows ((windowed s scope now).filter (·.templateId = u.templateId))

/-- The intake rows are those of the accepted uploads. -/
def OneRowEach (s : System) : Prop :=
  s.audit.filter (·.isIntake) = s.accepted.map acceptedRow

lemma filter_counted {s : System} (h : OneRowEach s) (scope : ReadScope) (now : Timestamp) :
    s.audit.filter (counted scope now) = (windowed s scope now).map acceptedRow := by
  have hsplit : s.audit.filter (counted scope now) = (s.audit.filter (·.isIntake)).filter
      fun e => scope.sees e.tenantId && recent now e.eventTimestamp := by
    rw [List.filter_filter]
    exact List.filter_congr fun e _ => Bool.and_comm _ _
  rw [hsplit, h, List.filter_map]
  rfl

lemma sumRows_acceptedRow (uploads : List Upload) :
    sumRows (uploads.map acceptedRow) = totalRows uploads := by
  rw [sumRows, List.map_map]
  rfl

lemma acceptedRow_template (u u' : Upload) :
    (acceptedRow u').templateId = (acceptedRow u).templateId ↔ u'.templateId = u.templateId :=
  ⟨fun h => UuidText.str_injective (Option.some.inj h), fun h => by simp [acceptedRow, h]⟩

lemma OneRowEach.agrees {s : System} (h : OneRowEach s) (scope : ReadScope) (now : Timestamp) :
    Agrees s scope now := by
  have htotal : rowsIngested24h s.audit scope now = totalRows (windowed s scope now) := by
    rw [rowsIngested24h, filter_counted h, sumRows_acceptedRow]
  refine ⟨htotal, (sum_flow24h s.audit scope now).trans htotal, fun f hf => ?_⟩
  obtain ⟨e, he, rfl⟩ := mem_flow24h.1 hf
  rw [filter_counted h, List.mem_map] at he
  obtain ⟨u, hu, rfl⟩ := he
  refine ⟨u, hu, rfl, ?_⟩
  have hgroup : ((windowed s scope now).map acceptedRow).filter
      (fun e => e.templateId = (acceptedRow u).templateId) =
      ((windowed s scope now).filter (·.templateId = u.templateId)).map acceptedRow := by
    rw [List.filter_map]
    congr 1
    refine List.filter_congr fun u' _ => ?_
    simp only [Function.comp_apply, acceptedRow_template]
  rw [flowAggRow, filter_counted h]
  exact (congrArg sumRows hgroup).trans (sumRows_acceptedRow _)

lemma not_agrees {s : System} {e : AuditEvent} (he : e ∈ s.audit) (hintake : e.isIntake = true)
    (htemplate : e.templateId = none) : ¬Agrees s .platform e.eventTimestamp := by
  intro h
  have hrecent : recent e.eventTimestamp e.eventTimestamp = true := by
    simp [recent, day]
  have hcounted : e ∈ s.audit.filter (counted .platform e.eventTimestamp) := by
    rw [List.mem_filter, counted, hintake, hrecent]
    exact ⟨he, rfl⟩
  obtain ⟨u, -, hu, -⟩ := h.attributed _ (mem_flow24h.2 ⟨e, hcounted, rfl⟩)
  rw [flowAggRow, htemplate] at hu
  cases hu

/-! ### What a step adds -/

section Step

variable {v : Services} {s : System}

/-- The step writes an intake row for a file the server has written one for: the worker on a
file it has no row of, or the consumer on a chunk it finds no attempt at. -/
def Recounts (v : Services) (s : System) : Action → Prop
  | .upload _ => False
  | .ingest i => s.received.contains i.delivery.event = true ∧
      ∃ data preflight, CsvWorker.lookUp v.worker i.delivery s.worker = .ok (data, none) ∧
        v.worker.runPreflight data = .ok preflight
  | .consume event a => s.worker.published.contains event = true ∧ a.dies = false ∧
      (∃ chunk, fetched v.consumer event a s = .ok chunk) ∧ seenBefore event a s.audit = false

lemma filter_uncounted {later : List AuditEvent} (h : ∀ e ∈ later, e.isIntake = false) :
    later.filter (·.isIntake) = [] :=
  List.filter_eq_nil_iff.2 fun e he => by simp [h e he]

lemma failureRow_uncounted (r : UploadRequest) (templateId : Option String) :
    [failureRow r templateId].filter (·.isIntake) = [] :=
  filter_uncounted fun e he => by simp_all [failureRow, AuditEvent.isIntake]

/-- The uploads a step accepts, each with its one row. -/
def Adds (s s' : System) (new : List Upload) : Prop :=
  s'.accepted = s.accepted ++ new ∧
  s'.audit.filter (·.isIntake) = s.audit.filter (·.isIntake) ++ new.map acceptedRow

lemma Adds.oneRowEach {s' : System} {new : List Upload} (h : Adds s s' new)
    (hs : OneRowEach s) : OneRowEach s' := by
  rw [OneRowEach, h.1, h.2, hs, List.map_append]

lemma adds_nil {s' : System} {rows : List AuditEvent} (haccepted : s'.accepted = s.accepted)
    (haudit : s'.audit = s.audit ++ rows) (hrows : rows.filter (·.isIntake) = []) :
    Adds s s' [] := by
  refine ⟨by simp [haccepted], ?_⟩
  rw [haudit, List.filter_append, hrows, List.map_nil]

/-- What a request leaves in the audit, and among the accepted uploads. -/
inductive Leaves (r : UploadRequest) (s s' : System) : Prop
  | nothing : s'.audit = s.audit → s'.accepted = s.accepted → Leaves r s s'
  | failure (templateId : Option String) : s'.audit = s.audit ++ [failureRow r templateId] →
      s'.accepted = s.accepted → Leaves r s s'
  | accepted (u : Upload) : s'.audit = s.audit ++ [acceptedRow u] →
      s'.accepted = s.accepted ++ [u] → Leaves r s s'

lemma acceptUpload_leaves (srv : UploadServer) (r : UploadRequest) (a : Admitted)
    (s : System) : Leaves r s (acceptUpload srv r a s) := by
  unfold acceptUpload
  dsimp only
  split
  · exact .nothing rfl rfl
  · split
    · exact .nothing rfl rfl
    · exact .failure _ rfl rfl
    · split
      · exact .nothing rfl rfl
      · split
        -- the process dies in the publication, the publication raises, or it completes
        · split
          · exact .nothing rfl rfl
          · exact .nothing rfl rfl
        · split
          · exact .failure _ rfl rfl
          · exact .failure _ rfl rfl
        · split
          · exact .nothing rfl rfl
          · exact .accepted _ rfl rfl

lemma processUpload_leaves (srv : UploadServer) (r : UploadRequest) (s : System) :
    Leaves r s (processUpload srv r s) := by
  unfold processUpload
  cases r.gates with
  | admitted a => exact acceptUpload_leaves srv r a s
  | rejected => exact .failure none rfl rfl
  | broken => exact .nothing rfl rfl

lemma Leaves.adds {r : UploadRequest} {s' : System} (h : Leaves r s s') :
    ∃ new, Adds s s' new := by
  cases h with
  | nothing haudit haccepted =>
    exact ⟨[], adds_nil haccepted (haudit.trans (List.append_nil _).symm) rfl⟩
  | failure templateId haudit haccepted =>
    exact ⟨[], adds_nil haccepted haudit (failureRow_uncounted r templateId)⟩
  | accepted u haudit haccepted =>
    refine ⟨[u], haccepted, ?_⟩
    rw [haudit, List.filter_append]
    rfl

lemma Leaves.audit_grows {r : UploadRequest} {s' : System} (h : Leaves r s s') :
    s.audit <+: s'.audit := by
  cases h with
  | nothing haudit => rw [haudit]
  | failure templateId haudit =>
    rw [haudit]
    exact List.prefix_append _ _
  | accepted u haudit =>
    rw [haudit]
    exact List.prefix_append _ _

lemma workerReceived_fresh {i : Ingestion} {data : PyText.Bytes}
    {preflight : CsvWorker.PreflightResult}
    (hlook : CsvWorker.lookUp v.worker i.delivery s.worker = .ok (data, none))
    (hpre : v.worker.runPreflight data = .ok preflight) :
    workerReceived v.worker i s.worker = [workerRow i .success (some preflight.rowCount)] := by
  unfold workerReceived
  cases hpath : CsvWorker.crossCheckPath v.worker.bronzeBucket i.delivery.event with
  | error e =>
    rw [CsvWorker.lookUp, hpath] at hlook
    cases hlook
  | ok objectKey => simp only [hlook, hpre]

lemma workerReceived_uncounted {i : Ingestion}
    (h : ¬∃ data preflight, CsvWorker.lookUp v.worker i.delivery s.worker = .ok (data, none) ∧
      v.worker.runPreflight data = .ok preflight) :
    (workerReceived v.worker i s.worker).filter (·.isIntake) = [] := by
  have hrow : ∀ outcome, outcome ≠ .success →
      [workerRow i outcome none].filter (·.isIntake) = [] := by
    intro outcome houtcome
    simp [AuditEvent.isIntake, workerRow, houtcome]
  unfold workerReceived
  split
  · exact hrow .failure (by decide)
  · rfl
  · split
    · rfl
    · split
      · exact hrow .duplicateNoop (by decide)
      · rfl
    · rename_i hlook
      split
      · split
        · exact hrow .failure (by decide)
        · rfl
      · rfl
      · rename_i hpre
        exact absurd ⟨_, _, hlook, hpre⟩ h

lemma consumerReceived_fresh {event : Envelope.IngressReadyEvent} {a : Attempt}
    {chunk : Frames.Frame × Bronze.BronzeMeta} (hdies : a.dies = false)
    (hfetched : fetched v.consumer event a s = .ok chunk)
    (hseen : seenBefore event a s.audit = false) :
    consumerReceived v.consumer event a s =
      [consumerRow event a .success (some chunk.1.height)] := by
  simp [consumerReceived, hdies, hfetched, hseen]

lemma consumerReceived_uncounted {event : Envelope.IngressReadyEvent} {a : Attempt}
    (h : ¬(a.dies = false ∧ (∃ chunk, fetched v.consumer event a s = .ok chunk) ∧
      seenBefore event a s.audit = false)) :
    (consumerReceived v.consumer event a s).filter (·.isIntake) = [] := by
  unfold consumerReceived
  split
  · rfl
  · rename_i hdies
    split
    · rfl
    · rename_i hfetched
      have hseen : seenBefore event a s.audit = true := by
        by_contra hseen
        exact h ⟨by simpa using hdies, ⟨_, hfetched⟩, by simpa using hseen⟩
      rw [if_pos hseen]
      rfl

lemma step_adds {a : Action} (h : ¬Recounts v s a) : ∃ new, Adds s (step v s a) new := by
  have hnone : Adds s s [] := adds_nil rfl (List.append_nil _).symm rfl
  cases a with
  | upload r => exact (processUpload_leaves v.server r s).adds
  | ingest i =>
    rw [step]
    split
    · rename_i htopic
      refine ⟨[], adds_nil rfl rfl ?_⟩
      rw [List.filter_append, filter_uncounted i.later_uncounted,
        workerReceived_uncounted fun hfresh => h ⟨htopic, hfresh⟩, List.append_nil]
    · exact ⟨_, hnone⟩
  | consume event a =>
    rw [step]
    split
    · rename_i htopic
      refine ⟨[], adds_nil rfl rfl ?_⟩
      rw [List.filter_append, filter_uncounted a.later_uncounted,
        consumerReceived_uncounted fun hfresh => h ⟨htopic, hfresh⟩, List.append_nil]
    · exact ⟨_, hnone⟩

/-- An intake row that names no template. -/
def Unattributed (s : System) : Prop :=
  ∃ e ∈ s.audit, e.isIntake = true ∧ e.templateId = none

lemma unattributed_of_recounts {a : Action} (h : Recounts v s a) :
    Unattributed (step v s a) := by
  cases a with
  | upload r => exact h.elim
  | ingest i =>
    obtain ⟨htopic, data, preflight, hlook, hpre⟩ := h
    refine ⟨workerRow i .success (some preflight.rowCount), ?_, rfl, rfl⟩
    rw [step, if_pos htopic, workerReceived_fresh hlook hpre]
    simp
  | consume event a =>
    obtain ⟨htopic, hdies, ⟨chunk, hfetched⟩, hseen⟩ := h
    refine ⟨consumerRow event a .success (some chunk.1.height), ?_, rfl, rfl⟩
    rw [step, if_pos htopic, consumerReceived_fresh hdies hfetched hseen]
    simp

/-! ### Runs -/

lemma step_audit (s : System) (a : Action) : s.audit <+: (step v s a).audit := by
  cases a with
  | upload r => exact (processUpload_leaves v.server r s).audit_grows
  | ingest i =>
    rw [step]
    split
    · exact List.prefix_append _ _
    · exact List.prefix_rfl
  | consume event a =>
    rw [step]
    split
    · exact List.prefix_append _ _
    · exact List.prefix_rfl

lemma Unattributed.run {s : System} (h : Unattributed s) (actions : List Action) :
    Unattributed (run v actions s) := by
  induction actions generalizing s with
  | nil => exact h
  | cons a actions ih =>
    obtain ⟨e, he, hrow⟩ := h
    exact ih ⟨e, (step_audit s a).subset he, hrow⟩

end Step

lemma along_or_unattributed (v : Services) (actions : List Action) (s : System) :
    Along (step v) (fun s a => ¬Recounts v s a) actions s ∨
      Unattributed (run v actions s) := by
  induction actions generalizing s with
  | nil => exact Or.inl trivial
  | cons a actions ih =>
    by_cases h : Recounts v s a
    · exact Or.inr ((unattributed_of_recounts h).run actions)
    · exact (ih (step v s a)).imp_left fun hrest => ⟨h, hrest⟩

/-- The figures are right in every state of a run exactly if none of its steps recounts. -/
theorem dashboard_counts_iff (v : Services) (actions : List Action) :
    (∀ scope now, Agrees (run v actions .empty) scope now) ↔
      Along (step v) (fun s a => ¬Recounts v s a) actions .empty := by
  constructor
  · intro h
    refine (along_or_unattributed v actions .empty).resolve_right ?_
    rintro ⟨e, he, hintake, htemplate⟩
    exact not_agrees he hintake htemplate (h .platform e.eventTimestamp)
  · intro h scope now
    have hrows := Along.invariant (I := OneRowEach)
      (fun s a hs ha => (step_adds ha).choose_spec.oneRowEach hs) h rfl actions.length
    rw [List.take_length] at hrows
    exact OneRowEach.agrees hrows scope now

/-! ### One upload, delivered once -/

def sampleServer : UploadServer where
  bucket := "b"
  sha256 data :=
    if data = Bronze.sampleCsv then BronzeAgreement.sampleSha256
    else String.ofList
      (hexDigits 0xfb6c9646eba84d7f3a016b1bb31146d3e479fe2e82bbda46c6b220d0e7d45477 64)
  decimalDigit _ := none

def sampleServices : Services := ⟨sampleServer, BronzeAgreement.sampleWorker,
  AckSafety.samplePipeline⟩

/-- A file of one row. -/
def sampleAdmitted : Admitted where
  fileBytes := Bronze.sampleCsv
  rowCount := 1
  templateId := .ofNat 4
  sourceId := "pos"
  storeId := .ofNat 3
  storeCode := "S1"
  tenantDisplayCode := none

def sampleUpload : UploadRequest where
  tenantId := .ofNat 2
  traceId := .ofNat 1
  gates := .admitted sampleAdmitted
  receivedTs := ⟨1767323045000000, some 0, by decide⟩
  storageWrite := .completes
  publish := .completes
  dies := false
  emittedAt := 1767323045500000

/-- The message of the upload. -/
def sampleEvent : Envelope.CsvReceivedEvent :=
  { BronzeAgreement.uploadEvent (.ofNat 1) with storeCode := some "S1" }

def sampleDelivery : CsvWorker.Delivery :=
  { BronzeAgreement.deliveryOf (.ofNat 1) (.ofNat 5) 1767323046000000 with event := sampleEvent }

def sampleIngestion : Ingestion := ⟨sampleDelivery, 1767323046000000, [], by simp⟩

/-- The system after the upload. -/
def uploaded : System where
  audit := [acceptedRow ⟨.ofNat 2, .ofNat 1, .ofNat 4, 1, 1767323045500000⟩]
  accepted := [⟨.ofNat 2, .ofNat 1, .ofNat 4, 1, 1767323045500000⟩]
  received := [sampleEvent]
  worker := ⟨.empty, []⟩

lemma acceptUpload_completes {srv : UploadServer} {r : UploadRequest} {a : Admitted} {s : System}
    {objectKey : String} {event : Envelope.CsvReceivedEvent}
    (hpath : PathRoundTrip.buildObjectPath srv.decimalDigit (.uuid r.tenantId) a.sourceId
      (.uuid r.traceId) r.receivedTs "csv" = .ok objectKey)
    (hwrite : r.storageWrite = .completes)
    (hevent : buildCsvReceived r a (deriveUploadSessionId srv r.tenantId a.storeId a.templateId
      (srv.sha256 a.fileBytes)) ("gs://" ++ srv.bucket ++ "/" ++ objectKey) = .ok event)
    (hpublish : r.publish = .completes) (hdies : r.dies = false) :
    acceptUpload srv r a s =
      let upload : Upload := ⟨r.tenantId, r.traceId, a.templateId, a.rowCount, r.emittedAt⟩
      { s with
        received := s.received ++ [event]
        audit := s.audit ++ [acceptedRow upload]
        accepted := s.accepted ++ [upload] } := by
  unfold acceptUpload
  rw [hpath]
  simp only [hwrite, hevent, hpublish, hdies, Bool.false_eq_true, if_false]

lemma step_upload : step sampleServices .empty (.upload sampleUpload) = uploaded := by
  have hpath : PathRoundTrip.buildObjectPath sampleServer.decimalDigit (.uuid sampleUpload.tenantId)
      sampleAdmitted.sourceId (.uuid sampleUpload.traceId) sampleUpload.receivedTs "csv" =
      .ok (String.ofList (ObjectPath.posKey (.ofNat 2) (.ofNat 1))) := by decide +kernel
  have hsha : sampleServer.sha256 sampleAdmitted.fileBytes = BronzeAgreement.sampleSha256 := by
    decide +kernel
  have hsession : deriveUploadSessionId sampleServer sampleUpload.tenantId sampleAdmitted.storeId
      sampleAdmitted.templateId BronzeAgreement.sampleSha256 = BronzeAgreement.sampleSession := by
    decide +kernel
  have huri : "gs://" ++ sampleServer.bucket ++ "/" ++
      String.ofList (ObjectPath.posKey (.ofNat 2) (.ofNat 1)) =
      String.ofList (ObjectPath.posUri (.ofNat 2) (.ofNat 1)) := by decide +kernel
  have hbuild : buildCsvReceived sampleUpload sampleAdmitted BronzeAgreement.sampleSession
      (String.ofList (ObjectPath.posUri (.ofNat 2) (.ofNat 1))) = .ok sampleEvent := by
    decide +kernel
  rw [← hsession, ← hsha, ← huri] at hbuild
  have haccept := acceptUpload_completes (s := .empty) hpath rfl hbuild rfl rfl
  exact haccept

lemma lookUp_ingestion : CsvWorker.lookUp sampleServices.worker sampleDelivery uploaded.worker =
    .ok (Bronze.sampleCsv, none) := by
  have hpath : CsvWorker.crossCheckPath sampleServices.worker.bronzeBucket sampleDelivery.event =
      _ := BronzeAgreement.path_of_trace_one
  refine BronzeAgreement.lookUp_of_reads hpath rfl rfl ?_ ?_
  · change ObjectPath.strip BronzeAgreement.sampleSession.toList ≠ []
    rw [BronzeAgreement.sampleSession, String.toList_ofList]
    exact ObjectPath.strip_cons_ne_nil rfl _
  · change ObjectPath.strip BronzeAgreement.sampleSha256.toList ≠ []
    rw [BronzeAgreement.sampleSha256, String.toList_ofList]
    exact ObjectPath.strip_cons_ne_nil rfl _

lemma audit_of_ingestion :
    (run sampleServices [.upload sampleUpload, .ingest sampleIngestion] .empty).audit =
      uploaded.audit ++ [workerRow sampleIngestion .success (some 1)] := by
  have htopic : uploaded.received.contains sampleIngestion.delivery.event = true := by
    simp [uploaded, sampleIngestion, sampleDelivery]
  have hpre : sampleServices.worker.runPreflight Bronze.sampleCsv =
      .ok ⟨["a"], 1, 3, ","⟩ := rfl
  have hrows := workerReceived_fresh (i := sampleIngestion) lookUp_ingestion hpre
  rw [run, List.foldl_cons, step_upload, List.foldl_cons, List.foldl_nil, step, if_pos htopic,
    hrows]
  rfl

lemma accepted_of_ingestion :
    (run sampleServices [.upload sampleUpload, .ingest sampleIngestion] .empty).accepted =
      uploaded.accepted := by
  rw [run, List.foldl_cons, step_upload, List.foldl_cons, List.foldl_nil, step]
  split <;> rfl

/-- One upload of one row; the dashboard counts two, and half of them under no template. -/
theorem upload_counted_twice :
    let s := run sampleServices [.upload sampleUpload, .ingest sampleIngestion] .empty
    rowsIngested24h s.audit .platform 1767323047000000 = 2 ∧
      totalRows (windowed s .platform 1767323047000000) = 1 ∧
      none ∈ (flow24h s.audit .platform 1767323047000000).map (·.templateId) := by
  intro s
  have haudit : s.audit = _ := audit_of_ingestion
  have haccepted : s.accepted = _ := accepted_of_ingestion
  rw [windowed, haudit, haccepted]
  refine ⟨by decide +kernel, by decide +kernel, List.mem_map.2 ⟨_, mem_flow24h.2
    ⟨workerRow sampleIngestion .success (some 1), by decide +kernel, rfl⟩, rfl⟩⟩

end CortexDis.DashboardCounts
