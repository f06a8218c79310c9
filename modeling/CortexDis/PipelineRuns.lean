import CortexDis.CrashSafety
import CortexDis.Terminal
import CortexDis.WireFormat

/-!
From an accepted upload to a written or held chunk, over both topics.

The messages are bytes. A message that was ever sent is delivered any number of times, in any
order, and between the deliveries of others, also after its acknowledgement; any call of a
delivery can fail. A process that dies acknowledges nothing, and leaves what a failing call
leaves; a died consumer is a transaction that failed or a decision that never arrives. What is
shown is that no upload gets lost on the way.
-/

namespace CortexDis.PipelineRuns

open CortexDis.Values CortexDis.Envelope CortexDis.Errors CortexDis.Bronze CortexDis.PyText
open CortexDis.CsvWorker CortexDis.CrashSafety CortexDis.BronzeAgreement CortexDis.Intake
open CortexDis.WireFormat CortexDis.UploadRuns CortexDis.Runs
open CortexDis.Terminal (ingestEvent)

/-! ### The system -/

/-- A delivery of a message to the worker. -/
structure WorkerPull where
  data : Bytes
  delivery : Delivery
  receivedAt_mem : Intake.minInstant ≤ delivery.receivedAt ∧
    delivery.receivedAt ≤ Intake.maxInstant
  /-- an acknowledgement, if it is asked for, arrives -/
  arrives : Bool

/-- A delivery of a message to the consumer. -/
structure ConsumerPull where
  data : Bytes
  calls : Orchestrate.Calls
  txs_unmapped : AckSafety.DbFailuresUnmapped calls.txs
  /-- what the read of the bronze row raises, if it does -/
  bronzeRead : Option Exn
  arrives : Bool

/-- The accepted uploads, the messages on `csv.received`, the bronze table with the messages on
`ingress.ready`, the consumer's tables, and what was acknowledged. -/
structure State where
  accepted : List Upload
  received : List CsvReceivedEvent
  worker : CsvWorker.World
  consumer : Orchestrate.World
  ackedReceived : List Bytes
  ackedReady : List Bytes

inductive Action
  | upload (r : UploadRequest)
  | pullReceived (pull : WorkerPull)
  | pullReady (pull : ConsumerPull)

/-- The services, and what they share. -/
structure Deployment where
  services : Services
  pydantic : Pydantic
  /-- what `json.loads` has left of the recursion limit, less one -/
  room : ℕ
  isoformat : Timestamp → String

variable (v : Deployment)

/-- The acknowledgement of a message, if it is decided on and arrives. -/
def acknowledged (decision : Except Exn Decision) (arrives : Bool) (data : Bytes) : List Bytes :=
  match decision with
  | .ok .ack => if arrives then [data] else []
  | _ => []

def upload (r : UploadRequest) (s : State) : State :=
  let after := processUpload v.services.server r ⟨[], s.accepted, s.received, s.worker⟩
  { s with accepted := after.accepted, received := after.received }

/-- The worker at one delivery. -/
def routeReceived (pull : WorkerPull) (w : CsvWorker.World) :
    Except Exn Decision × CsvWorker.World :=
  processCsvMessage v.pydantic (v.room + 1) (ingestEvent v.services.worker pull.delivery) pull.data
    w

def pullReceived (pull : WorkerPull) (s : State) : State :=
  if (s.received.map (csvReceivedBytes v.isoformat)).contains pull.data then
    let routed := routeReceived v pull s.worker
    { s with
      worker := routed.2
      ackedReceived := s.ackedReceived ++ acknowledged routed.1 pull.arrives pull.data }
  else s

/-- The calls of a delivery, over the bronze table as it is. -/
def callsOf (pull : ConsumerPull) (table : BronzeTable) : Orchestrate.Calls :=
  { pull.calls with
    bronze := match pull.bronzeRead with
      | some e => .error e
      | none => .ok table }

/-- The consumer at one delivery. -/
def routeReady (pull : ConsumerPull) (table : BronzeTable) (w : Orchestrate.World) :
    Except Exn Decision × Orchestrate.World :=
  processMessage v.pydantic (v.room + 1)
    (Orchestrate.process v.services.consumer (callsOf pull table)) pull.data w

def pullReady (pull : ConsumerPull) (s : State) : State :=
  if (s.worker.published.map (ingressReadyBytes v.isoformat)).contains pull.data then
    let routed := routeReady v pull s.worker.bronze s.consumer
    { s with
      consumer := routed.2
      ackedReady := s.ackedReady ++ acknowledged routed.1 pull.arrives pull.data }
  else s

def step (s : State) : Action → State
  | .upload r => upload v r s
  | .pullReceived pull => pullReceived v pull s
  | .pullReady pull => pullReady v pull s

def run (actions : List Action) (s : State) : State := actions.foldl (step v) s

/-- No upload, no message, and any tables on the consumer's side. -/
def start (consumer : Orchestrate.World) : State := ⟨[], [], ⟨.empty, []⟩, consumer, [], []⟩

/-! ### The worker's world -/

/-- What later deliveries keep of a row. -/
structure Continues (r r' : BronzeRow) : Prop where
  id : r'.id = r.id
  tenantId : r'.tenantId = r.tenantId
  session : r'.sourcePayloadId = r.sourcePayloadId
  keeps : concluded r = true → concluded r' = true

structure Later (w w' : CsvWorker.World) : Prop where
  rows : ∀ r ∈ w.bronze.rows, ∃ r' ∈ w'.bronze.rows, Continues r r'
  published : ∀ m ∈ w.published, m ∈ w'.published

lemma Continues.refl (r : BronzeRow) : Continues r r :=
  ⟨rfl, rfl, rfl, fun h => h⟩

lemma Later.refl (w : CsvWorker.World) : Later w w :=
  ⟨fun r hr => ⟨r, hr, .refl r⟩, fun _ hm => hm⟩

lemma Later.trans {w₁ w₂ w₃ : CsvWorker.World} (h : Later w₁ w₂) (h' : Later w₂ w₃) :
    Later w₁ w₃ := by
  refine ⟨fun r hr => ?_, fun m hm => h'.published m (h.published m hm)⟩
  obtain ⟨r₂, hr₂, hc⟩ := h.rows r hr
  obtain ⟨r₃, hr₃, hc'⟩ := h'.rows r₂ hr₂
  exact ⟨r₃, hr₃, hc'.id.trans hc.id, hc'.tenantId.trans hc.tenantId,
    hc'.session.trans hc.session, fun hdone => hc'.keeps (hc.keeps hdone)⟩

section Worker

variable {p : IngestPipeline} {d : Delivery} {w w' : CsvWorker.World}

lemma later_insert {t : BronzeTable} {row : BronzeRow} (h : w.bronze.insertRow row = some t) :
    Later w { w with bronze := t } := by
  refine ⟨fun r hr => ⟨r, ?_, .refl r⟩, fun _ hm => hm⟩
  rw [insertRow_rows h]
  exact List.mem_append_left _ hr

lemma later_opens {r : BronzeRow} (h : Opens p d w w' r) : Later w w' := by
  cases h with
  | prior hlook hopen => exact .refl w
  | fresh hlook hinsert => exact later_insert hinsert

lemma later_send (m : IngressReadyEvent) : Later w (send m w) :=
  ⟨fun r hr => ⟨r, hr, .refl r⟩, fun _ hm => List.mem_append_left _ hm⟩

lemma continues_markRow (m : IngressReadyEvent) (r : BronzeRow) :
    Continues r (markRow d m r) := by
  unfold markRow
  split
  · exact ⟨rfl, rfl, rfl, fun _ => by simp [concluded, isPublished]⟩
  · exact .refl r

lemma later_mark (m : IngressReadyEvent) : Later w (mark d m w) := by
  refine ⟨fun r hr => ⟨markRow d m r, ?_, continues_markRow m r⟩, fun _ hm => hm⟩
  rw [rows_mark]
  exact List.mem_map_of_mem hr

lemma later_process (p : IngestPipeline) (d : Delivery) (w : CsvWorker.World) :
    Later w (process p d w).1 := by
  have hends := process_ends p d w
  generalize process p d w = ending at hends
  cases hends with
  | raised => exact .refl w
  | noop hlook hdone => exact .refl w
  | failed hlook hinsert => exact later_insert hinsert
  | opened hopens => exact later_opens hopens
  | sent hopens hm hdying => exact (later_opens hopens).trans (later_send _)
  | marked hopens hm hdying =>
    exact ((later_opens hopens).trans (later_send _)).trans (later_mark _)

/-- The rows have times that can be written, and the published ones their messages. -/
def Rows (w : CsvWorker.World) : Prop :=
  ∀ r ∈ w.bronze.rows, (Intake.minInstant ≤ r.receivedAt ∧ r.receivedAt ≤ Intake.maxInstant) ∧
    (isPublished r = true → ∃ m ∈ w.published, Names m r)

lemma rows_insert (h : Rows w) {t : BronzeTable} {row : BronzeRow}
    (hinsert : w.bronze.insertRow row = some t)
    (htime : Intake.minInstant ≤ row.receivedAt ∧ row.receivedAt ≤ Intake.maxInstant)
    (hopen : isPublished row = false) : Rows { w with bronze := t } := by
  intro r hr
  rw [insertRow_rows hinsert] at hr
  rcases List.mem_append.mp hr with hr | hr
  · exact h r hr
  · rw [List.mem_singleton.mp hr]
    exact ⟨htime, fun hpublished => by rw [hopen] at hpublished; cases hpublished⟩

lemma rows_newRow (h : Rows w)
    (htime : Intake.minInstant ≤ d.receivedAt ∧ d.receivedAt ≤ Intake.maxInstant)
    {t : BronzeTable} {sha : String} {size : ℕ} {count : Option ℕ} {status : ProcessingStatus}
    (hstatus : status ≠ .published)
    (hinsert : w.bronze.insertRow (newRow d sha size count status) = some t) :
    Rows { w with bronze := t } := by
  refine rows_insert h hinsert htime ?_
  cases status with
  | published => exact absurd rfl hstatus
  | _ => rfl

lemma rows_opens (h : Rows w)
    (htime : Intake.minInstant ≤ d.receivedAt ∧ d.receivedAt ≤ Intake.maxInstant) {r : BronzeRow}
    (hopens : Opens p d w w' r) : Rows w' := by
  cases hopens with
  | prior hlook hopen => exact h
  | fresh hlook hinsert => exact rows_newRow h htime (by decide) hinsert

lemma rows_send (h : Rows w) (m : IngressReadyEvent) : Rows (send m w) := by
  refine fun r hr => ⟨(h r hr).1, fun hpublished => ?_⟩
  obtain ⟨m', hm', hnames⟩ := (h r hr).2 hpublished
  exact ⟨m', List.mem_append_left _ hm', hnames⟩

lemma rows_mark_sent (h : Rows w) {m : IngressReadyEvent} (hm : m ∈ w.published)
    (htenant : m.tenantId = d.event.tenantId) : Rows (mark d m w) := by
  intro r' hr'
  rw [rows_mark] at hr'
  obtain ⟨r, hr, rfl⟩ := List.mem_map.mp hr'
  have htimes : (markRow d m r).receivedAt = r.receivedAt := by
    unfold markRow
    split <;> rfl
  refine ⟨by rw [htimes]; exact (h r hr).1, fun hpublished => ?_⟩
  by_cases hrow : r.tenantId = d.event.tenantId ∧ r.id = m.bronzeRef
  · exact ⟨m, hm, names_markRow.mpr ⟨hrow.2.symm, htenant.trans hrow.1.symm⟩⟩
  · rw [markRow, if_neg hrow] at hpublished ⊢
    exact (h r hr).2 hpublished

lemma rows_process (h : Rows w)
    (htime : Intake.minInstant ≤ d.receivedAt ∧ d.receivedAt ≤ Intake.maxInstant) :
    Rows (process p d w).1 := by
  have hends := process_ends p d w
  generalize process p d w = ending at hends
  cases hends with
  | raised => exact h
  | noop hlook hdone => exact h
  | failed hlook hinsert => exact rows_newRow h htime (by decide) hinsert
  | opened hopens => exact rows_opens h htime hopens
  | sent hopens hm hdying => exact rows_send (rows_opens h htime hopens) _
  | marked hopens hm hdying =>
    exact rows_mark_sent (rows_send (rows_opens h htime hopens) _)
      (List.mem_append_right _ (List.mem_singleton_self _)) hm.2

lemma concluded_of_ok {o : IngestOutcome} (h : (process p d w).2 = .ok o) :
    ∃ r ∈ (process p d w).1.bronze.rows, r.tenantId = d.event.tenantId ∧
      r.sourcePayloadId = some d.event.uploadSessionId ∧ concluded r = true := by
  have hends := process_ends p d w
  generalize process p d w = ending at hends h
  cases hends with
  | raised => cases h
  | opened hopens => cases h
  | sent hopens hm hdying => cases h
  | @noop data r o hlook hdone =>
    obtain ⟨-, -, hprior⟩ := lookUp_ok hlook
    obtain ⟨hr, hin⟩ := latestPrior_some hprior.symm
    exact ⟨r, hr, hin.1, hin.2.1, hdone⟩
  | @failed data t size out hlook hinsert =>
    exact ⟨newRow d (p.sha256 data) size none .failed, by simp [insertRow_rows hinsert], rfl, rfl,
      rfl⟩
  | @marked w' r m out hopens hm hdying =>
    have hrow : r ∈ w'.bronze.rows ∧ r.tenantId = d.event.tenantId ∧
        r.sourcePayloadId = some d.event.uploadSessionId := by
      cases hopens with
      | prior hlook hopen =>
        obtain ⟨-, -, hprior⟩ := lookUp_ok hlook
        obtain ⟨hr, hin⟩ := latestPrior_some hprior.symm
        exact ⟨hr, hin.1, hin.2.1⟩
      | fresh hlook hinsert => exact ⟨by simp [insertRow_rows hinsert], rfl, rfl⟩
    obtain ⟨hr, htenant, hsession⟩ := hrow
    have hcont := continues_markRow (d := d) m r
    refine ⟨markRow d m r, List.mem_map_of_mem hr, hcont.tenantId.trans htenant,
      hcont.session.trans hsession, ?_⟩
    rw [markRow, if_pos ⟨htenant, hm.1.symm⟩]
    simp [concluded, isPublished]

/-! The messages of a delivery are built by `build_ingress_ready`. -/

lemma andThen_valid {fate : Fate} {next : CsvWorker.World → Ending}
    (h : ∀ m ∈ w.published, IngressReadyValid m) (h' : ∀ m ∈ w'.published, IngressReadyValid m)
    (hnext : ∀ m ∈ (next w').1.published, IngressReadyValid m) :
    ∀ m ∈ (fate.andThen w w' next).1.published, IngressReadyValid m := by
  cases fate with
  | completes => exact hnext
  | stops s landed =>
    cases landed with
    | true => exact h'
    | false => exact h

lemma publishAndMark_valid (h : ∀ m ∈ w.published, IngressReadyValid m)
    {envelope : IngressReadyEvent} (henvelope : IngressReadyValid envelope)
    (outcome : IngestOutcome) :
    ∀ m ∈ (publishAndMark d envelope outcome w).1.published, IngressReadyValid m := by
  have hsent : ∀ m ∈ w.published ++ [envelope], IngressReadyValid m := by
    intro m hm
    rcases List.mem_append.mp hm with hm | hm
    · exact h m hm
    · rw [List.mem_singleton.mp hm]
      exact henvelope
  exact andThen_valid h hsent (andThen_valid hsent hsent hsent)

lemma insertRow_valid (h : ∀ m ∈ w.published, IngressReadyValid m) {row : BronzeRow}
    {next : CsvWorker.World → Ending}
    (hnext : ∀ t, ∀ m ∈ (next { w with bronze := t }).1.published, IngressReadyValid m) :
    ∀ m ∈ (CsvWorker.insertRow d row w next).1.published, IngressReadyValid m := by
  unfold CsvWorker.insertRow
  split
  · exact h
  · exact andThen_valid h h (hnext _)

lemma process_valid (h : ∀ m ∈ w.published, IngressReadyValid m) (hrows : Rows w)
    (htime : Intake.minInstant ≤ d.receivedAt ∧ d.receivedAt ≤ Intake.maxInstant) :
    ∀ m ∈ (process p d w).1.published, IngressReadyValid m := by
  unfold process
  split
  · exact h
  · rename_i data prior hlook
    obtain ⟨-, -, hprior⟩ := lookUp_ok hlook
    have hprior := (latestPrior_some hprior.symm).1
    unfold handleDuplicate
    split
    · exact h
    · split
      · exact h
      · split
        · exact h
        · rename_i envelope hbuild
          exact publishAndMark_valid h (buildIngressReady_valid (hrows prior hprior).1 hbuild) _
  · unfold handleFresh
    split
    · exact insertRow_valid h fun t => h
    · exact h
    · split
      · exact h
      · refine insertRow_valid h fun t => ?_
        split
        · exact h
        · rename_i envelope hbuild
          exact publishAndMark_valid (w := ⟨t, w.published⟩) h
            (buildIngressReady_valid htime hbuild) _

end Worker

/-! ### Steps -/

/-- What the upload server leaves: at most one message, valid and of its request, and with it at
most one accepted upload. -/
inductive Sends (r : UploadRequest) (s s' : System) : Prop
  | nothing (hreceived : s'.received = s.received) (haccepted : s'.accepted = s.accepted)
  | message (e : CsvReceivedEvent) (hvalid : CsvReceivedValid e)
    (hreceived : s'.received = s.received ++ [e]) (haccepted : s'.accepted = s.accepted)
  | accepted (e : CsvReceivedEvent) (u : Upload) (hvalid : CsvReceivedValid e)
    (htrace : e.traceId = u.traceId) (htenant : e.tenantId = u.tenantId)
    (hreceived : s'.received = s.received ++ [e]) (haccepted : s'.accepted = s.accepted ++ [u])

lemma buildCsvReceived_ids {r : UploadRequest} {a : Admitted} {uploadSessionId gcsUri : String}
    {e : CsvReceivedEvent} (h : buildCsvReceived r a uploadSessionId gcsUri = .ok e) :
    e.traceId = r.traceId ∧ e.tenantId = r.tenantId := by
  obtain ⟨t, -, h⟩ := of_bind_eq_ok h
  split at h
  · cases h
  · cases h
    exact ⟨rfl, rfl⟩

lemma acceptUpload_sends (srv : UploadServer) (r : UploadRequest) (a : Admitted) (s : System) :
    Sends r s (acceptUpload srv r a s) := by
  unfold acceptUpload
  dsimp only
  split
  · exact .nothing rfl rfl
  · split
    · exact .nothing rfl rfl
    · exact .nothing rfl rfl
    · split
      · exact .nothing rfl rfl
      · rename_i e hbuild
        have hvalid := buildCsvReceived_valid hbuild
        obtain ⟨htrace, htenant⟩ := buildCsvReceived_ids hbuild
        -- the process dies in the publication, the publication raises, or it completes
        split
        · split
          · exact .message e hvalid rfl rfl
          · exact .nothing rfl rfl
        · split
          · exact .message e hvalid rfl rfl
          · exact .nothing rfl rfl
        · split
          · exact .message e hvalid rfl rfl
          · exact .accepted e _ hvalid htrace htenant rfl rfl

lemma processUpload_sends (srv : UploadServer) (r : UploadRequest) (s : System) :
    Sends r s (processUpload srv r s) := by
  unfold processUpload
  cases r.gates with
  | admitted a => exact acceptUpload_sends srv r a s
  | rejected => exact .nothing rfl rfl
  | broken => exact .nothing rfl rfl

section Steps

variable {v}

/-- What the worker answers to the ending of its pipeline. -/
def answerTo : Except Stop IngestOutcome → Decision
  | .ok _ => .ack
  | .error (.raised e) => if terminal e then .ack else .nack
  | .error .crashed => .nack

lemma routeReceived_of_parse {pull : WorkerPull} {e : CsvReceivedEvent}
    (hparse : parseCsvReceived v.pydantic (v.room + 1) pull.data = .ok e)
    (w : CsvWorker.World) : routeReceived v pull w =
      (.ok (answerTo (process v.services.worker { pull.delivery with event := e } w).2),
        (process v.services.worker { pull.delivery with event := e } w).1) := by
  unfold routeReceived processCsvMessage ingestEvent
  rw [hparse]
  dsimp only
  rcases process v.services.worker { pull.delivery with event := e } w with
    ⟨w', (x | _) | outcome⟩ <;> rfl

lemma routeReceived_world (pull : WorkerPull) (w : CsvWorker.World) :
    (routeReceived v pull w).2 = w ∨ ∃ e, (routeReceived v pull w).2 =
      (process v.services.worker { pull.delivery with event := e } w).1 := by
  cases hparse : parseCsvReceived v.pydantic (v.room + 1) pull.data with
  | ok e => exact .inr ⟨e, by rw [routeReceived_of_parse hparse]⟩
  | error x =>
    refine .inl ?_
    unfold routeReceived processCsvMessage
    rw [hparse]
    cases x <;> rfl

lemma of_answerTo {answer : Except Stop IngestOutcome} (h : answerTo answer = .ack) :
    (∃ x, terminal x = true ∧ answer = .error (.raised x)) ∨ ∃ o, answer = .ok o := by
  rcases answer with (x | _) | o
  · refine .inl ⟨x, ?_, rfl⟩
    by_contra hterminal
    rw [answerTo, if_neg hterminal] at h
    cases h
  · cases h
  · exact .inr ⟨o, rfl⟩

lemma routeReceived_keeps (pull : WorkerPull) {w : CsvWorker.World} (hrows : Rows w)
    (hvalid : ∀ m ∈ w.published, IngressReadyValid m) :
    Later w (routeReceived v pull w).2 ∧ Rows (routeReceived v pull w).2 ∧
      ∀ m ∈ (routeReceived v pull w).2.published, IngressReadyValid m := by
  rcases routeReceived_world (v := v) pull w with h | ⟨e, h⟩
  · rw [h]
    exact ⟨.refl w, hrows, hvalid⟩
  · rw [h]
    exact ⟨later_process _ _ w, rows_process hrows pull.receivedAt_mem,
      process_valid hvalid hrows pull.receivedAt_mem⟩

/-- What holds in every state of a run. -/
structure Invariant (s : State) : Prop where
  sent : ∀ u ∈ s.accepted, ∃ e ∈ s.received, e.traceId = u.traceId ∧ e.tenantId = u.tenantId
  received : ∀ e ∈ s.received, CsvReceivedValid e
  rows : Rows s.worker
  published : ∀ m ∈ s.worker.published, IngressReadyValid m

/-- What later steps keep of a state. -/
structure Follows (s s' : State) : Prop where
  received : ∀ e ∈ s.received, e ∈ s'.received
  worker : Later s.worker s'.worker

lemma Follows.refl (s : State) : Follows s s := ⟨fun _ he => he, .refl _⟩

lemma Follows.trans {s₁ s₂ s₃ : State} (h : Follows s₁ s₂) (h' : Follows s₂ s₃) :
    Follows s₁ s₃ :=
  ⟨fun e he => h'.received e (h.received e he), h.worker.trans h'.worker⟩

lemma upload_keeps (r : UploadRequest) {s : State} (hs : Invariant s) :
    Invariant (upload v r s) ∧ Follows s (upload v r s) := by
  have hsends := processUpload_sends v.services.server r
    ⟨[], s.accepted, s.received, s.worker⟩
  unfold upload
  generalize processUpload v.services.server r ⟨[], s.accepted, s.received, s.worker⟩ = t at hsends
  have hvalid : ∀ e, CsvReceivedValid e → ∀ e' ∈ s.received ++ [e], CsvReceivedValid e' := by
    intro e he e' he'
    rcases List.mem_append.mp he' with he' | he'
    · exact hs.received e' he'
    · rw [List.mem_singleton.mp he']
      exact he
  have hsent : ∀ e, ∀ u ∈ s.accepted, ∃ e' ∈ s.received ++ [e],
      e'.traceId = u.traceId ∧ e'.tenantId = u.tenantId := by
    intro e u hu
    obtain ⟨e', he', hids⟩ := hs.sent u hu
    exact ⟨e', List.mem_append_left _ he', hids⟩
  -- a failed upload may still have published its message
  cases hsends with
  | nothing hreceived haccepted =>
    dsimp only
    rw [hreceived, haccepted]
    exact ⟨hs, .refl s⟩
  | message e he hreceived haccepted =>
    dsimp only
    rw [hreceived, haccepted]
    exact ⟨⟨hsent e, hvalid e he, hs.rows, hs.published⟩,
      ⟨fun e' he' => List.mem_append_left _ he', .refl _⟩⟩
  | accepted e u he htrace htenant hreceived haccepted =>
    dsimp only
    rw [hreceived, haccepted]
    refine ⟨⟨fun u' hu' => ?_, hvalid e he, hs.rows, hs.published⟩,
      ⟨fun e' he' => List.mem_append_left _ he', .refl _⟩⟩
    rcases List.mem_append.mp hu' with hu' | hu'
    · exact hsent e u' hu'
    · rw [List.mem_singleton.mp hu']
      exact ⟨e, List.mem_append_right _ (List.mem_singleton_self e), htrace, htenant⟩

lemma step_keeps {s : State} (hs : Invariant s) (a : Action) :
    Invariant (step v s a) ∧ Follows s (step v s a) := by
  cases a with
  | upload r => exact upload_keeps r hs
  | pullReceived pull =>
    obtain ⟨hlater, hrows, hvalid⟩ := routeReceived_keeps (v := v) pull hs.rows hs.published
    unfold step pullReceived
    dsimp only
    split
    · exact ⟨⟨hs.sent, hs.received, hrows, hvalid⟩, ⟨fun e he => he, hlater⟩⟩
    · exact ⟨hs, .refl s⟩
  | pullReady pull =>
    unfold step pullReady
    dsimp only
    split
    · exact ⟨⟨hs.sent, hs.received, hs.rows, hs.published⟩, ⟨fun e he => he, .refl _⟩⟩
    · exact ⟨hs, .refl s⟩

lemma run_keeps (actions : List Action) {s : State} (hs : Invariant s) :
    Invariant (run v actions s) ∧ Follows s (run v actions s) := by
  induction actions generalizing s with
  | nil => exact ⟨hs, .refl s⟩
  | cons a actions ih =>
    obtain ⟨hstep, hfollows⟩ := step_keeps hs a
    obtain ⟨hrun, hlater⟩ := ih hstep
    exact ⟨hrun, hfollows.trans hlater⟩

lemma invariant_start (consumer : Orchestrate.World) : Invariant (start consumer) :=
  ⟨by simp [start], by simp [start], by simp [Rows, start, BronzeTable.empty], by simp [start]⟩

end Steps

/-! ### No upload is lost -/

section Whereabouts

variable (actions : List Action) (consumer : Orchestrate.World)

/-- Some delivery of the event ended in an exception that is terminal. -/
def Refused (e : CsvReceivedEvent) : Prop :=
  ∃ before pull after x, actions = before ++ .pullReceived pull :: after ∧
    terminal x = true ∧ (process v.services.worker { pull.delivery with event := e }
      (run v before (start consumer)).worker).2 = .error (.raised x)

/-- Some delivery of the message wrote its whole chunk, or held a record of it and wrote
nothing. -/
def Handled (m : IngressReadyEvent) : Prop :=
  ∃ before pull after, actions = before ++ .pullReady pull :: after ∧
    let s := run v before (start consumer)
    let calls := callsOf pull s.worker.bronze
    let after := (routeReady v pull s.worker.bronze s.consumer).2
    AckSafety.Written v.services.consumer calls m s.consumer after ∨
      AckSafety.HeldBack m s.consumer after

/-- A bronze row of the event's session. -/
def RowOf (e : CsvReceivedEvent) (r : BronzeRow) : Prop :=
  r ∈ (run v actions (start consumer)).worker.bronze.rows ∧ r.tenantId = e.tenantId ∧
    r.sourcePayloadId = some e.uploadSessionId

/-- Where an upload is in the end. -/
inductive Whereabouts (e : CsvReceivedEvent) : Prop
  /-- its message is not acknowledged -/
  | pending (h : csvReceivedBytes v.isoformat e ∉
      (run v actions (start consumer)).ackedReceived)
  | refused (h : Refused v actions consumer e)
  /-- its file failed the preflight, and a row says so -/
  | failed (r : BronzeRow) (hr : RowOf v actions consumer e r)
    (h : r.processingStatus = .failed)
  /-- its row has a message that is not acknowledged -/
  | queued (r : BronzeRow) (m : IngressReadyEvent) (hr : RowOf v actions consumer e r)
    (hm : m ∈ (run v actions (start consumer)).worker.published) (hnames : Names m r)
    (h : ingressReadyBytes v.isoformat m ∉ (run v actions (start consumer)).ackedReady)
  /-- its row has a message that was handled -/
  | handled (r : BronzeRow) (m : IngressReadyEvent) (hr : RowOf v actions consumer e r)
    (hm : m ∈ (run v actions (start consumer)).worker.published) (hnames : Names m r)
    (h : Handled v actions consumer m)

end Whereabouts

section Acknowledged

variable {v} {actions : List Action} {consumer : Orchestrate.World}

lemma mem_acknowledged {decision : Except Exn Decision} {arrives : Bool} {data data' : Bytes}
    (h : data' ∈ acknowledged decision arrives data) : decision = .ok .ack ∧ data' = data := by
  unfold acknowledged at h
  split at h
  · split at h
    · exact ⟨rfl, List.mem_singleton.mp h⟩
    · cases h
  · cases h

lemma exists_ackReceived {data : Bytes}
    (h : data ∈ (run v actions (start consumer)).ackedReceived) :
    ∃ before pull after, actions = before ++ .pullReceived pull :: after ∧ pull.data = data ∧
      (routeReceived v pull (run v before (start consumer)).worker).1 = .ok .ack ∧
      (step v (run v before (start consumer)) (.pullReceived pull)).worker =
        (routeReceived v pull (run v before (start consumer)).worker).2 := by
  obtain ⟨before, a, after, rfl, hnot, hack⟩ := exists_step_of (step v)
    (Q := fun s => data ∈ s.ackedReceived) (s := start consumer) (by simp [start]) h
  change data ∉ (run v before (start consumer)).ackedReceived at hnot
  cases a with
  | upload r => exact absurd hack hnot
  | pullReady pull =>
    unfold step pullReady at hack
    dsimp only at hack
    split at hack <;> exact absurd hack hnot
  | pullReceived pull =>
    refine ⟨before, pull, after, rfl, ?_⟩
    change data ∈ (step v (run v before (start consumer)) (.pullReceived pull)).ackedReceived
      at hack
    unfold step pullReceived at hack ⊢
    dsimp only at hack ⊢
    split at hack
    · rename_i hsent
      obtain ⟨hdecision, rfl⟩ :=
        mem_acknowledged ((List.mem_append.mp hack).resolve_left hnot)
      rw [if_pos hsent]
      exact ⟨rfl, hdecision, rfl⟩
    · exact absurd hack hnot

lemma exists_ackReady {data : Bytes}
    (h : data ∈ (run v actions (start consumer)).ackedReady) :
    ∃ before pull after, actions = before ++ .pullReady pull :: after ∧ pull.data = data ∧
      (routeReady v pull (run v before (start consumer)).worker.bronze
        (run v before (start consumer)).consumer).1 = .ok .ack ∧
      (step v (run v before (start consumer)) (.pullReady pull)).consumer =
        (routeReady v pull (run v before (start consumer)).worker.bronze
          (run v before (start consumer)).consumer).2 := by
  obtain ⟨before, a, after, rfl, hnot, hack⟩ := exists_step_of (step v)
    (Q := fun s => data ∈ s.ackedReady) (s := start consumer) (by simp [start]) h
  change data ∉ (run v before (start consumer)).ackedReady at hnot
  cases a with
  | upload r => exact absurd hack hnot
  | pullReceived pull =>
    unfold step pullReceived at hack
    dsimp only at hack
    split at hack <;> exact absurd hack hnot
  | pullReady pull =>
    refine ⟨before, pull, after, rfl, ?_⟩
    change data ∈ (step v (run v before (start consumer)) (.pullReady pull)).ackedReady at hack
    unfold step pullReady at hack ⊢
    dsimp only at hack ⊢
    split at hack
    · rename_i hsent
      obtain ⟨hdecision, rfl⟩ :=
        mem_acknowledged ((List.mem_append.mp hack).resolve_left hnot)
      rw [if_pos hsent]
      exact ⟨rfl, hdecision, rfl⟩
    · exact absurd hack hnot

open Orchestrate AckSafety in
lemma handled_of_ack {P : Pydantic} {room : ℕ} {p : ConsumerPipeline} {c : Calls}
    (hdb : DbFailuresUnmapped c.txs) {data : Bytes} {m : IngressReadyEvent}
    (hparse : parseIngressReady P room data = .ok m) {w : Orchestrate.World}
    (hack : (processMessage P room (Orchestrate.process p c) data w).1 = .ok .ack) :
    Written p c m w (processMessage P room (Orchestrate.process p c) data w).2 ∨
      HeldBack m w (processMessage P room (Orchestrate.process p c) data w).2 := by
  unfold processMessage at hack ⊢
  rw [hparse] at hack ⊢
  dsimp only at hack ⊢
  cases hrun : Orchestrate.process p c m w with
  | mk answer w' =>
    rw [hrun] at hack
    rcases answer with x | disposition
    · cases hack
    · cases disposition with
      | written => exact process_handled hdb (.inl rfl) hrun
      | quarantined => exact process_handled hdb (.inr rfl) hrun
      | _ => cases hack

lemma handled_of_acked {m : IngressReadyEvent} (hvalid : IngressReadyValid m)
    (hP : Agrees v.isoformat v.pydantic m.receivedTs)
    (h : ingressReadyBytes v.isoformat m ∈ (run v actions (start consumer)).ackedReady) :
    Handled v actions consumer m := by
  obtain ⟨before, pull, after, hactions, hdata, hack, -⟩ := exists_ackReady h
  refine ⟨before, pull, after, hactions, ?_⟩
  have hparse : parseIngressReady v.pydantic (v.room + 1) pull.data = .ok m :=
    hdata ▸ parse_ingressReadyBytes hvalid hP v.room
  have hdb : AckSafety.DbFailuresUnmapped
      (callsOf pull (run v before (start consumer)).worker.bronze).txs := pull.txs_unmapped
  exact handled_of_ack hdb hparse hack

lemma concluded_of_acked {e : CsvReceivedEvent} (hvalid : CsvReceivedValid e)
    (hP : Agrees v.isoformat v.pydantic e.receivedTs)
    (h : csvReceivedBytes v.isoformat e ∈ (run v actions (start consumer)).ackedReceived) :
    Refused v actions consumer e ∨
      ∃ r, RowOf v actions consumer e r ∧ concluded r = true := by
  obtain ⟨before, pull, after, hactions, hdata, hack, hworker⟩ := exists_ackReceived h
  have hparse : parseCsvReceived v.pydantic (v.room + 1) pull.data = .ok e :=
    hdata ▸ parse_csvReceivedBytes hvalid hP v.room
  have hrouted := routeReceived_of_parse hparse (run v before (start consumer)).worker
  rw [hrouted] at hack hworker
  rcases of_answerTo (Except.ok.inj hack) with ⟨x, hterminal, hanswer⟩ | ⟨o, hanswer⟩
  · exact .inl ⟨before, pull, after, x, hactions, hterminal, hanswer⟩
  · obtain ⟨r, hr, htenant, hsession, hdone⟩ := concluded_of_ok hanswer
    -- the row is there in the end: the rest of the run keeps it
    have hbefore := (run_keeps (v := v) before (invariant_start consumer)).1
    have hstep := (step_keeps (v := v) hbefore (.pullReceived pull)).1
    have hlater := (run_keeps (v := v) after hstep).2.worker
    have hrun : run v actions (start consumer) =
        run v after (step v (run v before (start consumer)) (.pullReceived pull)) := by
      rw [hactions, run, List.foldl_append, List.foldl_cons]
      rfl
    rw [hworker] at hlater
    obtain ⟨r', hr', hcont⟩ := hlater.rows r hr
    rw [← hrun] at hr'
    exact .inr ⟨r', ⟨hr', hcont.tenantId.trans htenant, hcont.session.trans hsession⟩,
      hcont.keeps hdone⟩

end Acknowledged

/-- **No upload is lost.** In every run, each accepted upload has a message on `csv.received`,
and that message is not acknowledged, or was refused for good, or there is a row of its session
that failed the preflight or has a message on `ingress.ready` which, in turn, is not acknowledged
or was handled. -/
theorem accepted_upload_not_lost (actions : List Action) (consumer : Orchestrate.World)
    (hreceived : ∀ e ∈ (run v actions (start consumer)).received,
      Agrees v.isoformat v.pydantic e.receivedTs)
    (hpublished : ∀ m ∈ (run v actions (start consumer)).worker.published,
      Agrees v.isoformat v.pydantic m.receivedTs) :
    ∀ u ∈ (run v actions (start consumer)).accepted,
      ∃ e ∈ (run v actions (start consumer)).received, e.traceId = u.traceId ∧
        e.tenantId = u.tenantId ∧ Whereabouts v actions consumer e := by
  intro u hu
  have hinv := (run_keeps (v := v) actions (invariant_start consumer)).1
  obtain ⟨e, he, htrace, htenant⟩ := hinv.sent u hu
  refine ⟨e, he, htrace, htenant, ?_⟩
  by_cases hacked : csvReceivedBytes v.isoformat e ∈
      (run v actions (start consumer)).ackedReceived
  · rcases concluded_of_acked (hinv.received e he) (hreceived e he) hacked with
      hrefused | ⟨r, hr, hdone⟩
    · exact .refused hrefused
    · rw [concluded, Bool.or_eq_true, decide_eq_true_eq] at hdone
      rcases hdone with hfailed | hsent
      · exact .failed r hr hfailed
      · obtain ⟨m, hm, hnames⟩ := (hinv.rows r hr.1).2 hsent
        by_cases hready : ingressReadyBytes v.isoformat m ∈
            (run v actions (start consumer)).ackedReady
        · exact .handled r m hr hm hnames
            (handled_of_acked (hinv.published m hm) (hpublished m hm) hready)
        · exact .queued r m hr hm hnames hready
  · exact .pending hacked

/-! ### One upload, pulled once -/

open DashboardCounts

def sampleDeployment : Deployment :=
  ⟨sampleServices, AckSafety.samplePydantic, 899, fun _ => AckSafety.sampleTime⟩

/-- The worker receives the file at the time of the sample text. -/
def samplePull : WorkerPull where
  data := csvReceivedBytes sampleDeployment.isoformat sampleEvent
  delivery := { sampleDelivery with receivedAt := 1767323045000000 }
  receivedAt_mem := by decide
  arrives := true

def sampleActions : List Action := [.upload sampleUpload, .pullReceived samplePull]

def sampleConsumer : Orchestrate.World := AckSafety.emptyWorld

lemma sampleEvent_valid : CsvReceivedValid sampleEvent := by
  have hbuild : buildCsvReceived sampleUpload sampleAdmitted BronzeAgreement.sampleSession
      (String.ofList (ObjectPath.posUri (.ofNat 2) (.ofNat 1))) = .ok sampleEvent := by
    decide +kernel
  exact buildCsvReceived_valid hbuild

lemma upload_sample : upload sampleDeployment sampleUpload (start sampleConsumer) =
    { start sampleConsumer with accepted := uploaded.accepted, received := [sampleEvent] } := by
  have hstep : processUpload sampleServer sampleUpload .empty = uploaded := step_upload
  unfold upload
  change { start sampleConsumer with
    accepted := (processUpload sampleServer sampleUpload .empty).accepted
    received := (processUpload sampleServer sampleUpload .empty).received } = _
  rw [hstep]
  rfl

lemma lookUp_receivedAt (p : IngestPipeline) (d : Delivery) (t : Timestamp)
    (w : CsvWorker.World) : lookUp p { d with receivedAt := t } w = lookUp p d w := rfl

lemma process_completes {p : IngestPipeline} {d : Delivery} {w : CsvWorker.World} {data : Bytes}
    {preflight : PreflightResult} {columns : List String} {t : BronzeTable}
    {envelope : IngressReadyEvent} (hlook : lookUp p d w = .ok (data, none))
    (hpre : p.runPreflight data = .ok preflight)
    (hgate : p.gateCsvHeaders preflight.columns = .ok columns)
    (hrow : w.bronze.insertRow (newRow d (p.sha256 data) preflight.sizeBytes
      (some preflight.rowCount) .received) = some t)
    (hbuild : buildIngressReady d.event d.event.traceId d.bronzeId d.receivedAt
      preflight.delimiter = .ok envelope)
    (hinsert : d.insert = .completes) (hpublish : d.publish = .completes)
    (hmark : d.mark = .completes) :
    process p d w = (mark d envelope (send envelope { w with bronze := t }),
      .ok ⟨.ingested, d.event.traceId, some d.bronzeId⟩) := by
  simp only [process, hlook, handleFresh, hpre, hgate, ingest, CsvWorker.insertRow, hrow, hinsert,
    Fate.andThen, hbuild, publishAndMark, hpublish, hmark]
  rfl

/-- The message of the sample file. -/
def samplePublished : IngressReadyEvent := { sampleReady with delimiter := ',' }

lemma build_sample : buildIngressReady sampleEvent (.ofNat 1) (.ofNat 5) 1767323045000000 "," =
    .ok samplePublished := by
  decide +kernel

lemma process_sample : ∃ bronze, process sampleServices.worker samplePull.delivery ⟨.empty, []⟩ =
    (⟨bronze, [samplePublished]⟩, .ok ⟨.ingested, .ofNat 1, some (.ofNat 5)⟩) ∧
    readBronzeRow bronze samplePublished = .ok ⟨.ofNat 5, "pos", "csv_upload",
      samplePublished.gcsUri, 1767323045000000, some 1⟩ := by
  have hlook : lookUp sampleServices.worker samplePull.delivery ⟨.empty, []⟩ =
      .ok (Bronze.sampleCsv, none) :=
    (lookUp_receivedAt sampleServices.worker sampleDelivery 1767323045000000 ⟨.empty, []⟩).trans
      lookUp_ingestion
  have hpre : sampleServices.worker.runPreflight Bronze.sampleCsv =
      .ok ⟨["a"], 1, 3, ","⟩ := rfl
  have hrow : ∀ row, BronzeTable.empty.insertRow row = some ⟨[row], by simp⟩ := by
    intro row
    simp [BronzeTable.insertRow, BronzeTable.empty]
  refine ⟨_, process_completes hlook hpre rfl (hrow _) build_sample rfl rfl rfl, ?_⟩
  simp [readBronzeRow, BronzeTable.find?, BronzeTable.markPublished, send, newRow, Option.filter,
    samplePublished, sampleReady, samplePull, sampleDelivery, deliveryOf, sampleEvent, uploadEvent]

lemma samplePull_data :
    samplePull.data = csvReceivedBytes sampleDeployment.isoformat sampleEvent := by
  simp only [samplePull]

lemma routeReceived_sample : ∃ bronze, routeReceived sampleDeployment samplePull ⟨.empty, []⟩ =
    (.ok .ack, ⟨bronze, [samplePublished]⟩) ∧
    readBronzeRow bronze samplePublished = .ok ⟨.ofNat 5, "pos", "csv_upload",
      samplePublished.gcsUri, 1767323045000000, some 1⟩ := by
  obtain ⟨bronze, hprocess, hrow⟩ := process_sample
  have hparse : parseCsvReceived sampleDeployment.pydantic (sampleDeployment.room + 1)
      samplePull.data = .ok sampleEvent := by
    rw [samplePull_data]
    exact parse_csvReceivedBytes sampleEvent_valid agrees_sample 899
  have hdelivery : { samplePull.delivery with event := sampleEvent } = samplePull.delivery := rfl
  have hservices : sampleDeployment.services.worker = sampleServices.worker := rfl
  refine ⟨bronze, ?_, hrow⟩
  rw [routeReceived_of_parse hparse, hdelivery, hservices, hprocess]
  rfl

lemma run_sample : ∃ bronze, run sampleDeployment sampleActions (start sampleConsumer) =
    { accepted := uploaded.accepted
      received := [sampleEvent]
      worker := ⟨bronze, [samplePublished]⟩
      consumer := sampleConsumer
      ackedReceived := [samplePull.data]
      ackedReady := [] } ∧
    readBronzeRow bronze samplePublished = .ok ⟨.ofNat 5, "pos", "csv_upload",
      samplePublished.gcsUri, 1767323045000000, some 1⟩ := by
  obtain ⟨bronze, hrouted, hrow⟩ := routeReceived_sample
  have hsent : ([sampleEvent].map (csvReceivedBytes sampleDeployment.isoformat)).contains
      samplePull.data = true := by
    rw [List.contains_iff_mem, samplePull_data]
    exact List.mem_map_of_mem (List.mem_singleton_self _)
  refine ⟨bronze, ?_, hrow⟩
  rw [run, sampleActions, List.foldl_cons, List.foldl_cons, List.foldl_nil, step, upload_sample,
    step, pullReceived, if_pos hsent]
  simp only [start, hrouted, acknowledged]
  rfl

/-- The upload's message is acknowledged, and the upload is not lost. -/
theorem accepted_upload_not_lost_sample :
    csvReceivedBytes sampleDeployment.isoformat sampleEvent ∈
        (run sampleDeployment sampleActions (start sampleConsumer)).ackedReceived ∧
      Whereabouts sampleDeployment sampleActions sampleConsumer sampleEvent := by
  obtain ⟨bronze, hrun, -⟩ := run_sample
  have hreceived : ∀ e ∈ (run sampleDeployment sampleActions (start sampleConsumer)).received,
      Agrees sampleDeployment.isoformat sampleDeployment.pydantic e.receivedTs := by
    rw [hrun]
    intro e he
    rw [List.mem_singleton.mp he]
    exact agrees_sample
  have hpublished : ∀ m ∈ (run sampleDeployment sampleActions
      (start sampleConsumer)).worker.published,
      Agrees sampleDeployment.isoformat sampleDeployment.pydantic m.receivedTs := by
    rw [hrun]
    intro m hm
    rw [List.mem_singleton.mp hm]
    exact agrees_sample
  have hlost := accepted_upload_not_lost sampleDeployment sampleActions sampleConsumer hreceived
    hpublished
  have hacked : csvReceivedBytes sampleDeployment.isoformat sampleEvent ∈
      (run sampleDeployment sampleActions (start sampleConsumer)).ackedReceived := by
    rw [hrun, ← samplePull_data]
    exact List.mem_singleton_self _
  rw [hrun] at hlost
  obtain ⟨e, he, -, -, hwhere⟩ := hlost _ (List.mem_singleton_self _)
  rw [List.mem_singleton.mp he] at hwhere
  exact ⟨hacked, hwhere⟩

end CortexDis.PipelineRuns
