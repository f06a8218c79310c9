import CortexDis.CsvWorker
import CortexDis.Runs

/-!
Producer and consumer agree on bronze.

Every message of the worker has to name a row that the consumer's cross-check accepts. The
message of a fresh file is built from the event its row is built from. The message of a
resumed file takes the id, the trace and the receive time from the prior row, and the source
and the object from the event at hand: the two agree only when the event names the prior's
object, as a redelivery does and an upload of the same file under a new key does not.
-/

namespace CortexDis.BronzeAgreement

open CortexDis.Values CortexDis.Envelope CortexDis.Errors CortexDis.Bronze CortexDis.CsvWorker
open CortexDis.Intake CortexDis.PyText CortexDis.PyJson CortexDis.Runs

/-- Every message on the topic names a row that agrees with it. -/
def Backed (w : World) : Prop := ∀ m ∈ w.published, ∃ r ∈ w.bronze.rows, Backs m r

/-- The consumer's read accepts every message on the topic. -/
def Accepted (w : World) : Prop :=
  ∀ m ∈ w.published, ∃ found, readBronzeRow w.bronze m = .ok found

lemma accepted_iff_backed (w : World) : Accepted w ↔ Backed w :=
  forall₂_congr fun m _ => readBronzeRow_isOk_iff w.bronze m

instance (w : World) : Decidable (Accepted w) :=
  decidable_of_iff (∀ m ∈ w.published, (readBronzeRow w.bronze m).isOk = true) <|
    forall₂_congr fun m _ => by
      cases h : readBronzeRow w.bronze m <;> simp [Except.isOk, Except.toBool]

/-! ### What a call keeps -/

section Calls

variable {w w' : World}

lemma andThen_backed {fate : Fate} {next : World → Ending} (h : Backed w) (h' : Backed w')
    (hnext : Backed (next w').1) : Backed (fate.andThen w w' next).1 := by
  cases fate with
  | completes => exact hnext
  | stops s landed => cases landed with
    | true => exact h'
    | false => exact h

lemma backed_of_subset {rows : BronzeTable} (h : Backed w)
    (hrows : ∀ r ∈ w.bronze.rows, r ∈ rows.rows) : Backed { w with bronze := rows } := by
  intro m hm
  obtain ⟨r, hr, hb⟩ := h m hm
  exact ⟨r, hrows r hr, hb⟩

lemma insertRow_rows {t t' : BronzeTable} {row : BronzeRow} (h : t.insertRow row = some t') :
    t'.rows = t.rows ++ [row] := by
  unfold BronzeTable.insertRow at h
  split at h
  · cases h
  · cases h
    rfl

lemma backs_markPublished {t : BronzeTable} {m : IngressReadyEvent} (tenantId bronzeId : Uuid)
    (at' : Timestamp) (h : ∃ r ∈ t.rows, Backs m r) :
    ∃ r ∈ (t.markPublished tenantId bronzeId at').rows, Backs m r := by
  obtain ⟨r, hr, hb⟩ := h
  refine ⟨_, List.mem_map_of_mem hr, ?_⟩
  split
  · exact hb
  · exact hb

lemma publishAndMark_backed {d : Delivery} {envelope : IngressReadyEvent}
    {outcome : IngestOutcome} (h : Backed w) (hrow : ∃ r ∈ w.bronze.rows, Backs envelope r) :
    Backed (publishAndMark d envelope outcome w).1 := by
  have hpublished : Backed { w with published := w.published ++ [envelope] } := by
    intro m hm
    rcases List.mem_append.mp hm with hm | hm
    · exact h m hm
    · rw [List.mem_singleton.mp hm]
      exact hrow
  have hmarked : Backed
      { w with
        published := w.published ++ [envelope]
        bronze := w.bronze.markPublished d.event.tenantId envelope.bronzeRef d.publishedAt } :=
    fun m hm => backs_markPublished _ _ _ (hpublished m hm)
  exact andThen_backed h hpublished (andThen_backed hpublished hmarked hmarked)

lemma insertRow_backed {d : Delivery} {row : BronzeRow} {next : World → Ending} (h : Backed w)
    (hnext : ∀ w', Backed w' → row ∈ w'.bronze.rows → Backed (next w').1) :
    Backed (CsvWorker.insertRow d row w next).1 := by
  unfold CsvWorker.insertRow
  split
  · exact h
  · rename_i bronze hinsert
    have hrows := insertRow_rows hinsert
    have hinserted : Backed { w with bronze } :=
      backed_of_subset h fun r hr => by simp [hrows, hr]
    exact andThen_backed h hinserted (hnext _ hinserted (by simp [hrows]))

lemma buildIngressReady_ok {event : CsvReceivedEvent} {traceId bronzeRef : Uuid}
    {receivedAt : Timestamp} {delimiter : String} {envelope : IngressReadyEvent}
    (h : buildIngressReady event traceId bronzeRef receivedAt delimiter = .ok envelope) :
    envelope.bronzeRef = bronzeRef ∧ envelope.traceId = traceId ∧
      envelope.tenantId = event.tenantId ∧ envelope.sourceId = event.sourceId ∧
      envelope.gcsUri = event.gcsUri := by
  have hne : ∀ {s t : String}, nonEmpty s = some t → t = s := by
    intro s t hs
    unfold nonEmpty at hs
    split at hs
    · cases hs
    · exact (Option.some.inj hs).symm
  unfold buildIngressReady at h
  split at h
  · rename_i hsource hgcs _
    cases h
    exact ⟨rfl, rfl, rfl, hne hsource, hne hgcs⟩
  · cases h

end Calls

/-! ### A delivery -/

/-- The delivery does not resume a prior row of another object: an unpublished row its lookup
returns names the event's object and source. -/
def NamesPrior (p : IngestPipeline) (w : World) (d : Delivery) : Prop :=
  ∀ data prior, lookUp p d w = .ok (data, some prior) → concluded prior = false →
    prior.gcsUri = d.event.gcsUri ∧ prior.sourceId = d.event.sourceId

section Delivery

variable {p : IngestPipeline} {d : Delivery} {w : World}

lemma lookUp_of_reads {objectKey : String} {data : Bytes}
    (hpath : crossCheckPath p.bronzeBucket d.event = .ok objectKey)
    (hdata : d.download objectKey = .ok data) (hlookup : d.lookup = none)
    (hsession : ObjectPath.strip d.event.uploadSessionId.toList ≠ [])
    (hsha : ObjectPath.strip (p.sha256 data).toList ≠ []) :
    lookUp p d w = .ok (data, latestPrior d (p.sha256 data) w.bronze) := by
  simp only [lookUp, hpath, hdata, findPrior, requireKeyComponent, if_neg hsession, if_neg hsha,
    hlookup, Except.map]

lemma step_of_fresh {data : Bytes} (h : lookUp p d w = .ok (data, none)) :
    step p w d = (handleFresh p d (p.sha256 data) data w).1 := by
  rw [step, process, h]

lemma namesPrior_of_fresh {data : Bytes} (h : lookUp p d w = .ok (data, none)) :
    NamesPrior p w d := by
  intro data' prior h' _
  rw [h] at h'
  cases h'

lemma namesPrior_of_same {data : Bytes} {prior : BronzeRow}
    (h : lookUp p d w = .ok (data, some prior)) (huri : prior.gcsUri = d.event.gcsUri)
    (hsource : prior.sourceId = d.event.sourceId) : NamesPrior p w d := by
  intro data' prior' h' _
  rw [h] at h'
  cases h'
  exact ⟨huri, hsource⟩

lemma lookUp_prior {data : Bytes} {prior : BronzeRow}
    (h : lookUp p d w = .ok (data, some prior)) :
    prior ∈ w.bronze.rows ∧ prior.tenantId = d.event.tenantId := by
  unfold lookUp at h
  split at h
  · cases h
  · split at h
    · cases h
    · unfold findPrior at h
      split at h
      · split at h
        · cases h
        · simp only [Except.map, Except.ok.injEq, Prod.mk.injEq] at h
          have hmem := List.mem_of_mem_head? h.2
          rw [List.mem_insertionSort, List.mem_filter] at hmem
          refine ⟨(d.scan_perm _).mem_iff.mp hmem.1, ?_⟩
          have hkey := hmem.2
          simp only [sameKey, Bool.and_eq_true, decide_eq_true_eq] at hkey
          exact hkey.1.1.1.1
      · cases h
      · cases h

lemma handleFresh_backed (h : Backed w) (sha : String) (data : Bytes) :
    Backed (handleFresh p d sha data w).1 := by
  unfold handleFresh
  split
  · exact insertRow_backed h fun w' hw' _ => hw'
  · exact h
  · split
    · exact h
    · refine insertRow_backed h fun w' hw' hrow => ?_
      split
      · exact hw'
      · rename_i envelope henvelope
        obtain ⟨hid, htrace, htenant, hsource, hgcs⟩ := buildIngressReady_ok henvelope
        exact publishAndMark_backed hw' ⟨_, hrow, hid.symm, htenant.symm, htrace.symm,
          hsource.symm, hgcs.symm⟩

lemma step_backed (h : Backed w) (hd : NamesPrior p w d) : Backed (step p w d) := by
  unfold step process
  split
  · exact h
  · rename_i data prior hlook
    unfold handleDuplicate
    split
    · exact h
    · rename_i hopen
      split
      · exact h
      · split
        · exact h
        · rename_i envelope henvelope
          obtain ⟨hid, htrace, htenant, hsource, hgcs⟩ := buildIngressReady_ok henvelope
          obtain ⟨hmem, hown⟩ := lookUp_prior hlook
          obtain ⟨huri, hsrc⟩ := hd data prior hlook (by simpa using hopen)
          exact publishAndMark_backed h ⟨prior, hmem, hid.symm, hown.trans htenant.symm,
            htrace.symm, hsrc.trans hsource.symm, huri.trans hgcs.symm⟩
  · exact handleFresh_backed h _ _

/-- A duplicate that resumes the prior row, with calls that all complete. -/
structure Resumes (p : IngestPipeline) (w : World) (d : Delivery) (prior : BronzeRow)
    (envelope : IngressReadyEvent) : Prop where
  finds : ∃ data preflight, lookUp p d w = .ok (data, some prior) ∧
    p.runPreflight data = .ok preflight ∧
    buildIngressReady d.event prior.traceId prior.id prior.receivedAt preflight.delimiter =
      .ok envelope
  opened : concluded prior = false
  publishes : d.publish = .completes
  marks : d.mark = .completes

lemma step_of_resumes {prior : BronzeRow} {envelope : IngressReadyEvent}
    (h : Resumes p w d prior envelope) :
    step p w d =
      { published := w.published ++ [envelope]
        bronze := w.bronze.markPublished d.event.tenantId envelope.bronzeRef d.publishedAt } := by
  obtain ⟨data, preflight, hlook, hpreflight, henvelope⟩ := h.finds
  simp only [step, process, hlook, handleDuplicate, h.opened, Bool.false_eq_true, if_false,
    hpreflight, henvelope, publishAndMark, h.publishes, h.marks, Fate.andThen]

lemma not_accepted_of_resumes {prior : BronzeRow} {envelope : IngressReadyEvent}
    (h : Resumes p w d prior envelope) (huri : prior.gcsUri ≠ d.event.gcsUri) :
    ¬ Accepted (step p w d) := by
  rw [accepted_iff_backed, step_of_resumes h]
  intro hback
  obtain ⟨data, preflight, hlook, -, henvelope⟩ := h.finds
  obtain ⟨hid, -, -, -, hgcs⟩ := buildIngressReady_ok henvelope
  obtain ⟨r, hr, hb⟩ := hback envelope (by simp)
  obtain ⟨s, hs, rfl⟩ := List.mem_map.mp hr
  -- the mark changes neither the id nor the object
  have hsid : s.id = prior.id := by
    have := hb.1
    split at this <;> exact this.trans hid
  have hsuri : s.gcsUri = d.event.gcsUri := by
    have := hb.2.2.2.2
    split at this <;> exact this.trans hgcs
  rw [BronzeTable.eq_of_id hs (lookUp_prior hlook).1 hsid] at hsuri
  exact huri hsuri

end Delivery

/-- In a run whose deliveries resume no row of another object, the consumer's read accepts
every message published so far, in every state of the run. -/
theorem published_accepted_of_namesPrior (p : IngestPipeline) (table : BronzeTable)
    (ds : List Delivery) (h : Along (step p) (NamesPrior p) ds ⟨table, []⟩) (n : ℕ) :
    Accepted (run p (ds.take n) ⟨table, []⟩) := by
  rw [accepted_iff_backed]
  exact Along.invariant (fun w d hw hd => step_backed hw hd) h (by simp [Backed]) n

/-! ### One file, delivered twice -/

/-- The SHA-256 of the sample. -/
def sampleSha256 : String :=
  String.ofList ('4' ::
    hexDigits 0xf395a2e9ea1c0680348d384135458270e9e6f5af3576151fec246b7b6de98e6 63)

def sampleWorker : IngestPipeline where
  bronzeBucket := "b"
  sha256 data := if data = sampleCsv then sampleSha256 else ""
  runPreflight data :=
    if data = sampleCsv then .ok ⟨["a"], 1, 3, ","⟩ else .error (.failed (some "not_csv"))
  gateCsvHeaders _ := .ok []

/-- The session of an upload, derived from the file and its destination alone. -/
def sampleSession : String := String.ofList ('u' :: 's' :: '_' :: hexDigits 0xfb6c9646eba8 12)

/-- The event of an upload of the file. -/
def uploadEvent (traceId : Uuid) : CsvReceivedEvent where
  traceId := traceId
  tenantId := .ofNat 2
  storeId := .ofNat 3
  sourceId := "pos"
  templateId := .ofNat 4
  uploadSessionId := sampleSession
  gcsUri := String.ofList (ObjectPath.posUri (.ofNat 2) traceId)
  receivedTs := 1767323045000000
  delimiter := ','
  tenantDisplayCode := none
  storeCode := none

/-- A delivery whose calls all complete. -/
def deliveryOf (traceId bronzeId : Uuid) (now : Timestamp) : Delivery where
  event := uploadEvent traceId
  download _ := .ok sampleCsv
  lookup := none
  scan := id
  scan_perm rows := List.Perm.refl rows
  now := now
  bronzeId := bronzeId
  receivedAt := now
  insert := .completes
  publish := .completes
  publishedAt := now
  mark := .completes

/-- The worker dies between the insert and the publication. -/
def interrupted : Delivery :=
  { deliveryOf (.ofNat 1) (.ofNat 5) 1767323046000000 with publish := .stops .crashed false }

/-- The same event again. -/
def redelivery : Delivery := deliveryOf (.ofNat 1) (.ofNat 6) 1767323056000000

/-- The client uploads the file again: a new trace, a new object, the same session. -/
def reupload : Delivery := deliveryOf (.ofNat 9) (.ofNat 7) 1767323056000000

def emptyWorld : World := ⟨.empty, []⟩

/-- The row the interrupted delivery leaves. -/
def receivedRow : BronzeRow := newRow interrupted sampleSha256 3 (some 1) .received

def afterCrash : World := ⟨⟨[receivedRow], by simp⟩, []⟩

lemma crossCheckPath_upload {traceId : Uuid}
    (huri : ObjectPath.matchUri (ObjectPath.strip (ObjectPath.posUri (.ofNat 2) traceId)) =
      some (['b'], ObjectPath.posKey (.ofNat 2) traceId))
    (hkey : ObjectPath.matchPath (ObjectPath.strip (ObjectPath.posKey (.ofNat 2) traceId)) =
      some ⟨.ofNat 2, "pos", 2026, 1, 2, traceId.str, "csv"⟩) :
    crossCheckPath sampleWorker.bronzeBucket (uploadEvent traceId) =
      .ok (String.ofList (ObjectPath.posKey (.ofNat 2) traceId)) := by
  have hb : String.ofList ['b'] = "b" := rfl
  simp [crossCheckPath, uploadEvent, sampleWorker, ObjectPath.splitObjectUri_ofList huri,
    ObjectPath.parseObjectPath_ofList hkey, hb, bind, Except.bind]

lemma lookUp_sample {d : Delivery} {traceId bronzeId : Uuid} {now : Timestamp} {publish : Fate}
    (hd : d = { deliveryOf traceId bronzeId now with publish }) {objectKey : String}
    (hpath : crossCheckPath sampleWorker.bronzeBucket (uploadEvent traceId) = .ok objectKey)
    (w : World) :
    lookUp sampleWorker d w = .ok (sampleCsv, latestPrior d sampleSha256 w.bronze) := by
  subst hd
  refine lookUp_of_reads hpath rfl rfl ?_ ?_
  · rw [show (deliveryOf traceId bronzeId now).event.uploadSessionId = sampleSession from rfl,
      sampleSession, String.toList_ofList]
    exact ObjectPath.strip_cons_ne_nil rfl _
  · rw [show sampleWorker.sha256 sampleCsv = sampleSha256 from rfl, sampleSha256,
      String.toList_ofList]
    exact ObjectPath.strip_cons_ne_nil rfl _

lemma buildIngressReady_upload (traceId priorTrace bronzeRef : Uuid) (receivedAt : Timestamp) :
    ∃ envelope, buildIngressReady (uploadEvent traceId) priorTrace bronzeRef receivedAt "," =
      .ok envelope := by
  have hgcs : String.ofList (ObjectPath.posUri (.ofNat 2) traceId) ≠ "" := by
    simp [ObjectPath.posUri, ObjectPath.scheme]
  simp [buildIngressReady, uploadEvent, nonEmpty, hgcs, oneChar]

lemma path_of_trace_one :
    crossCheckPath sampleWorker.bronzeBucket (uploadEvent (.ofNat 1)) =
      .ok (String.ofList (ObjectPath.posKey (.ofNat 2) (.ofNat 1))) :=
  crossCheckPath_upload (by decide +kernel) (by decide +kernel)

lemma lookUp_interrupted : lookUp sampleWorker interrupted emptyWorld = .ok (sampleCsv, none) :=
  lookUp_sample rfl path_of_trace_one emptyWorld

lemma lookUp_afterCrash {traceId bronzeId : Uuid} {objectKey : String}
    (hpath : crossCheckPath sampleWorker.bronzeBucket (uploadEvent traceId) = .ok objectKey) :
    lookUp sampleWorker (deliveryOf traceId bronzeId 1767323056000000) afterCrash =
      .ok (sampleCsv, some receivedRow) := by
  have hkey : sameKey (uploadEvent traceId) sampleSha256 (1767323056000000 - dedupWindow)
      receivedRow = true := by
    simp [sameKey, receivedRow, newRow, interrupted, deliveryOf, uploadEvent, dedupWindow]
  have hprior : latestPrior (deliveryOf traceId bronzeId 1767323056000000) sampleSha256
      afterCrash.bronze = some receivedRow := by
    simp only [latestPrior, deliveryOf, afterCrash, id, List.filter_cons_of_pos hkey,
      List.filter_nil]
    rfl
  rw [← hprior]
  exact lookUp_sample rfl hpath afterCrash

lemma step_interrupted : step sampleWorker emptyWorld interrupted = afterCrash := by
  obtain ⟨envelope, henvelope⟩ := buildIngressReady_upload (.ofNat 1) (.ofNat 1) (.ofNat 5)
    1767323046000000
  have hready : buildIngressReady interrupted.event interrupted.event.traceId
      interrupted.bronzeId interrupted.receivedAt "," = .ok envelope := henvelope
  rw [step_of_fresh lookUp_interrupted, handleFresh,
    show sampleWorker.runPreflight sampleCsv = .ok ⟨["a"], 1, 3, ","⟩ from rfl]
  simp only [sampleWorker, ingest, CsvWorker.insertRow, BronzeTable.insertRow, emptyWorld,
    BronzeTable.empty, List.map_nil, List.not_mem_nil, dite_false, hready]
  rfl

lemma resumes_afterCrash {traceId : Uuid} {objectKey : String}
    (hpath : crossCheckPath sampleWorker.bronzeBucket (uploadEvent traceId) = .ok objectKey)
    (bronzeId : Uuid) : ∃ envelope, Resumes sampleWorker afterCrash
      (deliveryOf traceId bronzeId 1767323056000000) receivedRow envelope := by
  obtain ⟨envelope, henvelope⟩ := buildIngressReady_upload traceId receivedRow.traceId
    receivedRow.id receivedRow.receivedAt
  exact ⟨envelope, ⟨sampleCsv, _, lookUp_afterCrash hpath, rfl, henvelope⟩, rfl, rfl, rfl⟩

lemma run_interrupted (d : Delivery) :
    run sampleWorker [interrupted, d] emptyWorld = step sampleWorker afterCrash d := by
  rw [run, List.foldl_cons, List.foldl_cons, List.foldl_nil, step_interrupted]

theorem redelivery_accepted :
    (run sampleWorker [interrupted, redelivery] emptyWorld).published.length = 1 ∧
      Accepted (run sampleWorker [interrupted, redelivery] emptyWorld) := by
  have hnames : NamesPrior sampleWorker (step sampleWorker emptyWorld interrupted) redelivery := by
    rw [step_interrupted]
    exact namesPrior_of_same (lookUp_afterCrash path_of_trace_one) rfl rfl
  obtain ⟨envelope, hresumes⟩ := resumes_afterCrash path_of_trace_one (.ofNat 6)
  refine ⟨?_, published_accepted_of_namesPrior sampleWorker .empty [interrupted, redelivery]
    ⟨namesPrior_of_fresh lookUp_interrupted, hnames, trivial⟩ 2⟩
  rw [run_interrupted, redelivery, step_of_resumes hresumes]
  rfl

theorem reupload_refused :
    reupload.event.uploadSessionId = interrupted.event.uploadSessionId ∧
      ¬ Accepted (run sampleWorker [interrupted, reupload] emptyWorld) := by
  refine ⟨rfl, ?_⟩
  have hpath : crossCheckPath sampleWorker.bronzeBucket (uploadEvent (.ofNat 9)) = .ok _ :=
    crossCheckPath_upload (by decide +kernel) (by decide +kernel)
  obtain ⟨envelope, hresumes⟩ := resumes_afterCrash hpath (.ofNat 7)
  rw [run_interrupted]
  refine not_accepted_of_resumes hresumes fun huri => ?_
  have hchars : ObjectPath.posUri (.ofNat 2) (.ofNat 1) ≠
      ObjectPath.posUri (.ofNat 2) (.ofNat 9) := by decide +kernel
  exact hchars (String.ofList_injective huri)

end CortexDis.BronzeAgreement
