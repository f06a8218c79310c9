import CortexDis.BronzeAgreement

/-!
One worker and the deliveries of one dedup key.

The insert, the publication and the mark are three effects without a common transaction, and a
delivery can stop after any of them. What carries over from one delivery to the next is the
key's row: it was received and not published, or it failed, or it is marked published and its
message is on the topic.
-/

namespace CortexDis.CrashSafety

open CortexDis.Values CortexDis.Envelope CortexDis.Errors CortexDis.Bronze CortexDis.CsvWorker
open CortexDis.BronzeAgreement CortexDis.PyText CortexDis.Runs

/-- What identifies an upload: `(tenant, upload_session_id, payload_sha256)`. -/
structure Key where
  tenantId : Uuid
  uploadSessionId : String
  payloadSha256 : String

/-- A row of the key, received since the given time. -/
def InKey (k : Key) (since : Timestamp) (r : BronzeRow) : Prop :=
  r.tenantId = k.tenantId ∧ r.sourcePayloadId = some k.uploadSessionId ∧
    r.payloadSha256 = some k.payloadSha256 ∧ r.disChannel = "csv_upload" ∧ since ≤ r.receivedAt

instance (k : Key) (since : Timestamp) (r : BronzeRow) : Decidable (InKey k since r) :=
  inferInstanceAs (Decidable (_ ∧ _))

lemma InKey.mono {k : Key} {s t : Timestamp} {r : BronzeRow} (h : InKey k t r) (hst : s ≤ t) :
    InKey k s r :=
  ⟨h.1, h.2.1, h.2.2.1, h.2.2.2.1, hst.trans h.2.2.2.2⟩

/-- The message names the row. -/
def Names (m : IngressReadyEvent) (r : BronzeRow) : Prop :=
  m.bronzeRef = r.id ∧ m.tenantId = r.tenantId

/-! ### What a delivery can do -/

section Delivery

variable {p : IngestPipeline} {d : Delivery} {w : World}

lemma lookUp_ok {data : Bytes} {prior : Option BronzeRow} (h : lookUp p d w = .ok (data, prior)) :
    ∃ objectKey, d.download objectKey = .ok data ∧
      prior = latestPrior d (p.sha256 data) w.bronze := by
  unfold lookUp at h
  split at h
  · cases h
  · rename_i objectKey _
    split at h
    · cases h
    · rename_i data' hdata
      unfold findPrior at h
      split at h
      · split at h
        · cases h
        · cases h
          exact ⟨objectKey, hdata, rfl⟩
      · cases h
      · cases h

/-- The key that a delivery of the data looks up. -/
def keyOf (event : CsvReceivedEvent) (sha : String) : Key :=
  ⟨event.tenantId, event.uploadSessionId, sha⟩

lemma sameKey_iff (event : CsvReceivedEvent) (sha : String) (cutoff : Timestamp) (r : BronzeRow) :
    sameKey event sha cutoff r = true ↔ InKey (keyOf event sha) cutoff r := by
  simp only [sameKey, Bool.and_eq_true, decide_eq_true_eq, InKey, keyOf, and_assoc]

lemma latestPrior_some {sha : String} {t : BronzeTable} {prior : BronzeRow}
    (h : latestPrior d sha t = some prior) :
    prior ∈ t.rows ∧ InKey (keyOf d.event sha) (d.now - dedupWindow) prior := by
  have hmem := List.mem_of_mem_head? h
  rw [List.mem_insertionSort, List.mem_filter, sameKey_iff] at hmem
  exact ⟨(d.scan_perm _).mem_iff.mp hmem.1, hmem.2⟩

lemma latestPrior_none {sha : String} {t : BronzeTable} (h : latestPrior d sha t = none) :
    ∀ r ∈ t.rows, ¬ InKey (keyOf d.event sha) (d.now - dedupWindow) r := by
  intro r hr hkey
  have hnil := List.head?_eq_none_iff.mp h
  have hmem : r ∈ ((d.scan t.rows).filter
      (sameKey d.event sha (d.now - dedupWindow))).insertionSort
        fun a b => b.receivedAt ≤ a.receivedAt := by
    rw [List.mem_insertionSort, List.mem_filter, sameKey_iff]
    exact ⟨(d.scan_perm _).mem_iff.mpr hr, hkey⟩
  rw [hnil] at hmem
  cases hmem

/-- The world with one more message. -/
def send (m : IngressReadyEvent) (w : World) : World := { w with published := w.published ++ [m] }

/-- The world with the message's row marked. -/
def mark (d : Delivery) (m : IngressReadyEvent) (w : World) : World :=
  { w with bronze := w.bronze.markPublished d.event.tenantId m.bronzeRef d.publishedAt }

/-- The delivery comes to its publication, in the world `w'` and for the row `r`: a prior row
that is not concluded, or the row it has just inserted. -/
inductive Opens (p : IngestPipeline) (d : Delivery) (w : World) : World → BronzeRow → Prop
  | prior {data : Bytes} {r : BronzeRow} (hlook : lookUp p d w = .ok (data, some r))
    (hopen : concluded r = false) : Opens p d w w r
  | fresh {data : Bytes} {t : BronzeTable} {size : ℕ} {count : Option ℕ}
    (hlook : lookUp p d w = .ok (data, none))
    (hinsert : w.bronze.insertRow (newRow d (p.sha256 data) size count .received) = some t) :
    Opens p d w { w with bronze := t } (newRow d (p.sha256 data) size count .received)

/-- The delivery, had it died right before its publication. -/
def dying (d : Delivery) : Delivery := { d with publish := .stops .crashed false }

/-- How a delivery can end: without an effect, after its insert, or after its publication. In
the last two cases `w'` is what it would have left, had it died right before. -/
inductive Ends (p : IngestPipeline) (d : Delivery) (w : World) : Ending → Prop
  | raised {s : Stop} : Ends p d w (w, .error s)
  | noop {data : Bytes} {r : BronzeRow} {o : IngestOutcome}
    (hlook : lookUp p d w = .ok (data, some r)) (hdone : concluded r = true) :
    Ends p d w (w, .ok o)
  | failed {data : Bytes} {t : BronzeTable} {size : ℕ} {out : Except Stop IngestOutcome}
    (hlook : lookUp p d w = .ok (data, none))
    (hinsert : w.bronze.insertRow (newRow d (p.sha256 data) size none .failed) = some t) :
    Ends p d w ({ w with bronze := t }, out)
  | opened {w' : World} {r : BronzeRow} {s : Stop} (hopens : Opens p d w w' r) :
    Ends p d w (w', .error s)
  | sent {w' : World} {r : BronzeRow} {m : IngressReadyEvent} {s : Stop}
    (hopens : Opens p d w w' r) (hm : m.bronzeRef = r.id ∧ m.tenantId = d.event.tenantId)
    (hdying : step p w (dying d) = w') : Ends p d w (send m w', .error s)
  | marked {w' : World} {r : BronzeRow} {m : IngressReadyEvent} {out : Except Stop IngestOutcome}
    (hopens : Opens p d w w' r) (hm : m.bronzeRef = r.id ∧ m.tenantId = d.event.tenantId)
    (hdying : step p w (dying d) = w') : Ends p d w (mark d m (send m w'), out)

lemma publishAndMark_ends {w' : World} {r : BronzeRow} (hopens : Opens p d w w' r)
    {m : IngressReadyEvent} (hm : m.bronzeRef = r.id ∧ m.tenantId = d.event.tenantId)
    {outcome : IngestOutcome}
    (hdying : process p (dying d) w = publishAndMark (dying d) m outcome w') :
    Ends p d w (publishAndMark d m outcome w') := by
  have hw' : step p w (dying d) = w' := by
    rw [step, hdying]
    rfl
  unfold publishAndMark
  cases d.publish with
  | stops s landed =>
    cases landed with
    | false => exact .opened hopens
    | true => exact .sent hopens hm hw'
  | completes =>
    cases d.mark with
    | completes => exact .marked hopens hm hw'
    | stops s landed =>
      cases landed with
      | false => exact .sent hopens hm hw'
      | true => exact .marked hopens hm hw'

lemma lookUp_dying (p : IngestPipeline) (d : Delivery) (w : World) :
    lookUp p (dying d) w = lookUp p d w := rfl

lemma handleDuplicate_ends {data : Bytes} {prior : BronzeRow}
    (hlook : lookUp p d w = .ok (data, some prior)) :
    Ends p d w (handleDuplicate p d prior data w) := by
  have hdying : process p (dying d) w = handleDuplicate p (dying d) prior data w := by
    rw [process, lookUp_dying, hlook]
  cases hdone : concluded prior with
  | true =>
    rw [handleDuplicate, if_pos hdone]
    exact .noop hlook hdone
  | false =>
    rw [handleDuplicate, hdone, if_neg Bool.false_ne_true] at hdying ⊢
    cases hpre : p.runPreflight data with
    | error e => exact .raised
    | ok preflight =>
      rw [hpre] at hdying
      dsimp only at hdying ⊢
      cases hbuild : buildIngressReady d.event prior.traceId prior.id prior.receivedAt
          preflight.delimiter with
      | error e => exact .raised
      | ok envelope =>
        rw [show (dying d).event = d.event from rfl, hbuild] at hdying
        obtain ⟨hid, -, htenant, -⟩ := buildIngressReady_ok hbuild
        exact publishAndMark_ends (.prior hlook hdone) ⟨hid, htenant⟩ hdying

lemma handlePreflightFailure_ends {data : Bytes} (hlook : lookUp p d w = .ok (data, none))
    (size : ℕ) : Ends p d w (handlePreflightFailure d (p.sha256 data) size w) := by
  unfold handlePreflightFailure CsvWorker.insertRow
  split
  · exact .raised
  · rename_i t hinsert
    cases d.insert with
    | completes => exact .failed hlook hinsert
    | stops s landed =>
      cases landed with
      | true => exact .failed hlook hinsert
      | false => exact .raised

lemma ingest_ends {data : Bytes} (hlook : lookUp p d w = .ok (data, none))
    {preflight : PreflightResult}
    (hdying : process p (dying d) w = ingest (dying d) (p.sha256 data) preflight w) :
    Ends p d w (ingest d (p.sha256 data) preflight w) := by
  unfold ingest CsvWorker.insertRow at hdying ⊢
  rw [show newRow (dying d) = newRow d from rfl] at hdying
  cases hinsert : w.bronze.insertRow
      (newRow d (p.sha256 data) preflight.sizeBytes (some preflight.rowCount) .received) with
  | none => exact .raised
  | some t =>
    have hopens := Opens.fresh hlook hinsert
    rw [hinsert] at hdying
    rw [show (dying d).insert = d.insert from rfl] at hdying
    cases hfate : d.insert with
    | stops s landed =>
      cases landed with
      | true => exact .opened hopens
      | false => exact .raised
    | completes =>
      rw [hfate] at hdying
      unfold Fate.andThen at hdying ⊢
      dsimp only at hdying ⊢
      cases hbuild : buildIngressReady d.event d.event.traceId d.bronzeId d.receivedAt
          preflight.delimiter with
      | error e => exact .opened hopens
      | ok envelope =>
        rw [show (dying d).event = d.event from rfl, show (dying d).bronzeId = d.bronzeId from rfl,
          show (dying d).receivedAt = d.receivedAt from rfl, hbuild] at hdying
        obtain ⟨hid, -, htenant, -⟩ := buildIngressReady_ok hbuild
        exact publishAndMark_ends hopens ⟨hid, htenant⟩ hdying

/-- **Everything a delivery can do.** -/
lemma process_ends (p : IngestPipeline) (d : Delivery) (w : World) :
    Ends p d w (process p d w) := by
  unfold process
  split
  · exact .raised
  · rename_i data prior hlook
    exact handleDuplicate_ends hlook
  · rename_i data hlook
    have hdying : process p (dying d) w = handleFresh p (dying d) (p.sha256 data) data w := by
      rw [process, lookUp_dying, hlook]
    unfold handleFresh at hdying ⊢
    cases hpre : p.runPreflight data with
    | error e =>
      cases e with
      | failed reason => exact handlePreflightFailure_ends hlook _
      | raised e => exact .raised
    | ok preflight =>
      rw [hpre] at hdying
      dsimp only at hdying ⊢
      cases hgate : p.gateCsvHeaders preflight.columns with
      | error e => exact .raised
      | ok columns =>
        rw [hgate] at hdying
        exact ingest_ends hlook hdying

end Delivery

/-! ### The invariant -/

/-- A delivery of the key, inside the dedup window that opened at `since`. -/
structure Delivers (p : IngestPipeline) (k : Key) (since : Timestamp) (d : Delivery) : Prop where
  tenant : d.event.tenantId = k.tenantId
  session : d.event.uploadSessionId = k.uploadSessionId
  payload : ∀ objectKey data, d.download objectKey = .ok data → p.sha256 data = k.payloadSha256
  opened : since ≤ d.receivedAt
  reaches : d.now - dedupWindow ≤ since

/-- What the deliveries `ds` keep: the rows they look up are of this window, there is at most
one, and its state says whether its message is on the topic. -/
structure Good (k : Key) (since : Timestamp) (ds : List Delivery) (w : World) : Prop where
  window : ∀ d ∈ ds, ∀ r ∈ w.bronze.rows, InKey k (d.now - dedupWindow) r → InKey k since r
  unique : ∀ r ∈ w.bronze.rows, ∀ r' ∈ w.bronze.rows, InKey k since r → InKey k since r' → r = r'
  status : ∀ r ∈ w.bronze.rows, InKey k since r →
    (r.processingStatus = .received ∨ r.processingStatus = .failed) ∧ r.publishedAt = none ∨
      r.processingStatus = .published ∧ ∃ m ∈ w.published, Names m r
  messages : ∀ m ∈ w.published, ∃ r ∈ w.bronze.rows,
    InKey k since r ∧ Names m r ∧ r.processingStatus ≠ .failed

section Keeps

variable {p : IngestPipeline} {k : Key} {since : Timestamp} {ds : List Delivery} {d : Delivery}
  {w : World}

lemma keyOf_eq (hd : Delivers p k since d) {data : Bytes} {prior : Option BronzeRow}
    (hlook : lookUp p d w = .ok (data, prior)) : keyOf d.event (p.sha256 data) = k := by
  obtain ⟨objectKey, hdata, -⟩ := lookUp_ok hlook
  simp [keyOf, hd.tenant, hd.session, hd.payload objectKey data hdata]

lemma newRow_inKey (hd : Delivers p k since d) {data : Bytes} {prior : Option BronzeRow}
    (hlook : lookUp p d w = .ok (data, prior)) (size : ℕ) (count : Option ℕ)
    (status : ProcessingStatus) : InKey k since (newRow d (p.sha256 data) size count status) := by
  obtain ⟨objectKey, hdata, -⟩ := lookUp_ok hlook
  exact ⟨hd.tenant, congrArg some hd.session, congrArg some (hd.payload objectKey data hdata), rfl,
    hd.opened⟩

lemma good_insert (hg : Good k since ds w) (hd : Delivers p k since d) {data : Bytes}
    (hlook : lookUp p d w = .ok (data, none)) {t : BronzeTable} {size : ℕ} {count : Option ℕ}
    {status : ProcessingStatus} (hstatus : status = .received ∨ status = .failed)
    (hinsert : w.bronze.insertRow (newRow d (p.sha256 data) size count status) = some t) :
    Good k since ds { w with bronze := t } := by
  have hkey := newRow_inKey hd hlook size count status
  obtain ⟨objectKey, hdata, hprior⟩ := lookUp_ok hlook
  -- no row of the key stood there, or the look-up would have found it
  have hnone : ∀ r ∈ w.bronze.rows, ¬ InKey k since r := by
    intro r hr hin
    have hfree := latestPrior_none hprior.symm r hr
    rw [keyOf_eq hd hlook] at hfree
    exact hfree (hin.mono hd.reaches)
  have hrows := insertRow_rows hinsert
  have hmem : ∀ r ∈ t.rows, r ∈ w.bronze.rows ∨
      r = newRow d (p.sha256 data) size count status := by
    intro r hr
    rw [hrows] at hr
    rcases List.mem_append.mp hr with hr | hr
    · exact .inl hr
    · exact .inr (List.mem_singleton.mp hr)
  refine ⟨fun d' hd' r hr hin => ?_, fun r hr r' hr' hin hin' => ?_, fun r hr hin => ?_,
    fun m hm => ?_⟩
  · rcases hmem r hr with hr | rfl
    · exact hg.window d' hd' r hr hin
    · exact hkey
  · rcases hmem r hr with hr | rfl
    · exact absurd hin (hnone r hr)
    · rcases hmem r' hr' with hr' | rfl
      · exact absurd hin' (hnone r' hr')
      · rfl
  · rcases hmem r hr with hr | rfl
    · exact absurd hin (hnone r hr)
    · exact .inl ⟨hstatus, rfl⟩
  · obtain ⟨r, hr, hin, -⟩ := hg.messages m hm
    exact absurd hin (hnone r hr)

lemma good_opens (hg : Good k since ds w) (hd : Delivers p k since d) (hmem : d ∈ ds)
    {w' : World} {r : BronzeRow} (hopens : Opens p d w w' r) :
    Good k since ds w' ∧ w'.published = w.published ∧ r ∈ w'.bronze.rows ∧ InKey k since r ∧
      r.processingStatus = .received := by
  cases hopens with
  | @prior data r hlook hopen =>
    obtain ⟨objectKey, hdata, hprior⟩ := lookUp_ok hlook
    obtain ⟨hr, hin⟩ := latestPrior_some hprior.symm
    rw [keyOf_eq hd hlook] at hin
    have hsince := hg.window d hmem r hr hin
    refine ⟨hg, rfl, hr, hsince, ?_⟩
    simp only [concluded, isPublished, Bool.or_eq_false_iff, decide_eq_false_iff_not] at hopen
    rcases hg.status r hr hsince with ⟨hreceived | hfailed, -⟩ | ⟨hpublished, -⟩
    · exact hreceived
    · exact absurd hfailed hopen.1
    · exact absurd hpublished hopen.2.2
  | @fresh data t size count hlook hinsert =>
    refine ⟨good_insert hg hd hlook (.inl rfl) hinsert, rfl, ?_, newRow_inKey hd hlook _ _ _, rfl⟩
    simp [insertRow_rows hinsert]

lemma good_send (hg : Good k since ds w) {r : BronzeRow} (hr : r ∈ w.bronze.rows)
    (hin : InKey k since r) (hstatus : r.processingStatus = .received) {m : IngressReadyEvent}
    (hm : Names m r) : Good k since ds (send m w) := by
  refine ⟨hg.window, hg.unique, fun r' hr' hin' => ?_, fun m' hm' => ?_⟩
  · rcases hg.status r' hr' hin' with hopen | ⟨hpublished, m', hm', hnames⟩
    · exact .inl hopen
    · exact .inr ⟨hpublished, m', List.mem_append_left _ hm', hnames⟩
  · rcases List.mem_append.mp hm' with hm' | hm'
    · exact hg.messages m' hm'
    · rw [List.mem_singleton.mp hm']
      exact ⟨r, hr, hin, hm, by simp [hstatus]⟩

/-- The mark on one row. -/
def markRow (d : Delivery) (m : IngressReadyEvent) (r : BronzeRow) : BronzeRow :=
  if r.tenantId = d.event.tenantId ∧ r.id = m.bronzeRef then
    { r with publishedAt := some d.publishedAt, processingStatus := .published }
  else r

lemma rows_mark (d : Delivery) (m : IngressReadyEvent) (w : World) :
    (mark d m w).bronze.rows = w.bronze.rows.map (markRow d m) := rfl

lemma inKey_markRow {m : IngressReadyEvent} {r : BronzeRow} {s : Timestamp} :
    InKey k s (markRow d m r) ↔ InKey k s r := by
  unfold markRow
  split <;> exact Iff.rfl

lemma names_markRow {m m' : IngressReadyEvent} {r : BronzeRow} :
    Names m' (markRow d m r) ↔ Names m' r := by
  unfold markRow
  split <;> exact Iff.rfl

lemma good_mark (hg : Good k since ds w) {r : BronzeRow} (hr : r ∈ w.bronze.rows)
    (hin : InKey k since r) {m : IngressReadyEvent} (hm : Names m r) (hsent : m ∈ w.published)
    (htenant : m.tenantId = d.event.tenantId) : Good k since ds (mark d m w) := by
  refine ⟨?_, ?_, ?_, fun m' hm' => ?_⟩
  · intro d' hd'
    rw [rows_mark, List.forall_mem_map]
    exact fun r' hr' hin' => inKey_markRow.mpr (hg.window d' hd' r' hr' (inKey_markRow.mp hin'))
  · rw [rows_mark, List.forall_mem_map]
    intro a ha
    rw [List.forall_mem_map]
    intro b hb hina hinb
    rw [hg.unique a ha b hb (inKey_markRow.mp hina) (inKey_markRow.mp hinb)]
  · rw [rows_mark, List.forall_mem_map]
    intro r' hr' hin'
    -- the key has one row, and it is the one that is marked
    have heq : r' = r := hg.unique r' hr' r hr (inKey_markRow.mp hin') hin
    subst heq
    refine .inr ⟨?_, m, hsent, names_markRow.mpr hm⟩
    rw [markRow, if_pos ⟨hm.2.symm.trans htenant, hm.1.symm⟩]
  · obtain ⟨r', hr', hin', hnames, hstatus⟩ := hg.messages m' hm'
    refine ⟨markRow d m r', List.mem_map_of_mem hr', inKey_markRow.mpr hin',
      names_markRow.mpr hnames, ?_⟩
    unfold markRow
    split
    · simp
    · exact hstatus

lemma good_step (hg : Good k since ds w) (hd : Delivers p k since d) (hmem : d ∈ ds) :
    Good k since ds (step p w d) := by
  have hends := process_ends p d w
  unfold step
  generalize process p d w = ending at hends
  cases hends with
  | raised => exact hg
  | noop hlook hdone => exact hg
  | failed hlook hinsert => exact good_insert hg hd hlook (.inr rfl) hinsert
  | opened hopens => exact (good_opens hg hd hmem hopens).1
  | sent hopens hm hdying =>
    obtain ⟨hg', -, hr, hin, hstatus⟩ := good_opens hg hd hmem hopens
    exact good_send hg' hr hin hstatus ⟨hm.1, hm.2.trans (hd.tenant.trans hin.1.symm)⟩
  | marked hopens hm hdying =>
    obtain ⟨hg', -, hr, hin, hstatus⟩ := good_opens hg hd hmem hopens
    have hnames : Names _ _ := ⟨hm.1, hm.2.trans (hd.tenant.trans hin.1.symm)⟩
    exact good_mark (good_send hg' hr hin hstatus hnames) hr hin hnames (by simp [send]) hm.2

/-! ### Safety -/

/-- What one delivery guarantees, whatever stops it: the key has at most one row; a message it
publishes names a row that was there, received, right before; no message names a failed row;
and when it returns an outcome, the key's row failed or has a message. -/
structure Safe (p : IngestPipeline) (k : Key) (since : Timestamp) (w : World) (d : Delivery) :
    Prop where
  one : ((step p w d).bronze.rows.filter (InKey k since)).length ≤ 1
  received : ∃ new, (step p w d).published = w.published ++ new ∧ ∀ m ∈ new,
    ∃ r ∈ (step p w (dying d)).bronze.rows,
      InKey k since r ∧ Names m r ∧ r.processingStatus = .received
  failed : ∀ m ∈ (step p w d).published, ∀ r ∈ (step p w d).bronze.rows, Names m r →
    r.processingStatus ≠ .failed
  acked : ∀ outcome, (process p d w).2 = .ok outcome → ∃ r ∈ (step p w d).bronze.rows,
    InKey k since r ∧
      (r.processingStatus = .failed ∨ ∃ m ∈ (step p w d).published, Names m r)

lemma length_le_one_of_unique (hg : Good k since ds w) :
    (w.bronze.rows.filter (InKey k since)).length ≤ 1 := by
  have hnodup : (w.bronze.rows.filter (InKey k since)).Nodup :=
    (List.Nodup.of_map _ w.bronze.nodup).filter _
  have hall : ∀ a ∈ w.bronze.rows.filter (InKey k since),
      ∀ b ∈ w.bronze.rows.filter (InKey k since), a = b := by
    intro a ha b hb
    obtain ⟨ha, hina⟩ := List.mem_filter.mp ha
    obtain ⟨hb, hinb⟩ := List.mem_filter.mp hb
    exact hg.unique a ha b hb (by simpa using hina) (by simpa using hinb)
  match hrows : w.bronze.rows.filter (InKey k since) with
  | [] => simp [hrows]
  | [_] => simp [hrows]
  | a :: b :: rest =>
    rw [hrows] at hnodup hall
    have hab := hall a (by simp) b (by simp)
    simp [hab] at hnodup

lemma received_of_opens (hg : Good k since ds w) (hd : Delivers p k since d) (hmem : d ∈ ds)
    {w' : World} {r : BronzeRow} {m : IngressReadyEvent} (hopens : Opens p d w w' r)
    (hm : m.bronzeRef = r.id ∧ m.tenantId = d.event.tenantId) (hdying : step p w (dying d) = w') :
    ∃ new, (send m w').published = w.published ++ new ∧ ∀ m' ∈ new,
      ∃ r ∈ (step p w (dying d)).bronze.rows,
        InKey k since r ∧ Names m' r ∧ r.processingStatus = .received := by
  obtain ⟨-, hsame, hr, hin, hstatus⟩ := good_opens hg hd hmem hopens
  refine ⟨[m], by rw [send, hsame], fun m' hm' => ?_⟩
  rw [List.mem_singleton.mp hm']
  exact ⟨r, hdying ▸ hr, hin, ⟨hm.1, hm.2.trans (hd.tenant.trans hin.1.symm)⟩, hstatus⟩

lemma received_of_good (hg : Good k since ds w) (hd : Delivers p k since d) (hmem : d ∈ ds) :
    ∃ new, (step p w d).published = w.published ++ new ∧ ∀ m ∈ new,
      ∃ r ∈ (step p w (dying d)).bronze.rows,
        InKey k since r ∧ Names m r ∧ r.processingStatus = .received := by
  have hends := process_ends p d w
  have hstep : (step p w d).published = (process p d w).1.published := rfl
  rw [hstep]
  generalize process p d w = ending at hends
  cases hends with
  | raised => exact ⟨[], by simp⟩
  | noop hlook hdone => exact ⟨[], by simp⟩
  | failed hlook hinsert => exact ⟨[], by simp⟩
  | opened hopens => exact ⟨[], by simp [(good_opens hg hd hmem hopens).2.1]⟩
  | sent hopens hm hdying => exact received_of_opens hg hd hmem hopens hm hdying
  | marked hopens hm hdying => exact received_of_opens hg hd hmem hopens hm hdying

lemma failed_of_good (hg : Good k since ds w) {m : IngressReadyEvent} (hm : m ∈ w.published)
    {r : BronzeRow} (hr : r ∈ w.bronze.rows) (hnames : Names m r) :
    r.processingStatus ≠ .failed := by
  obtain ⟨r', hr', -, hnames', hstatus⟩ := hg.messages m hm
  rw [BronzeTable.eq_of_id hr hr' (hnames.1.symm.trans hnames'.1)]
  exact hstatus

lemma acked_of_good (hg : Good k since ds w) (hd : Delivers p k since d) (hmem : d ∈ ds)
    {outcome : IngestOutcome} (hout : (process p d w).2 = .ok outcome) :
    ∃ r ∈ (step p w d).bronze.rows, InKey k since r ∧
      (r.processingStatus = .failed ∨ ∃ m ∈ (step p w d).published, Names m r) := by
  have hends := process_ends p d w
  unfold step
  generalize process p d w = ending at hends hout
  cases hends with
  | raised => cases hout
  | opened hopens => cases hout
  | sent hopens hm hdying => cases hout
  | @noop data r o hlook hdone =>
    obtain ⟨objectKey, hdata, hprior⟩ := lookUp_ok hlook
    obtain ⟨hr, hin⟩ := latestPrior_some hprior.symm
    rw [keyOf_eq hd hlook] at hin
    have hsince := hg.window d hmem r hr hin
    refine ⟨r, hr, hsince, ?_⟩
    -- the row for which the delivery is dropped is concluded: failed, or published before
    rcases hg.status r hr hsince with ⟨hreceived | hfailed, hnone⟩ | ⟨-, hsent⟩
    · simp [concluded, isPublished, hreceived, hnone] at hdone
    · exact .inl hfailed
    · exact .inr hsent
  | @failed data t size out hlook hinsert =>
    refine ⟨_, ?_, newRow_inKey hd hlook size none .failed, .inl rfl⟩
    simp [insertRow_rows hinsert]
  | @marked w' r m out hopens hm hdying =>
    obtain ⟨-, -, hr, hin, -⟩ := good_opens hg hd hmem hopens
    refine ⟨markRow d m r, List.mem_map_of_mem hr, inKey_markRow.mpr hin, .inr ⟨m, ?_, ?_⟩⟩
    · exact List.mem_append_right _ List.mem_cons_self
    · exact names_markRow.mpr ⟨hm.1, hm.2.trans (hd.tenant.trans hin.1.symm)⟩

end Keeps

/-- **Crash safety**: in every sequence of deliveries of one key inside one dedup window, each
cut short anywhere or not at all, from a table in which no lookup finds a row of the key, every
delivery is safe. -/
theorem deliveries_safe (p : IngestPipeline) (k : Key) (since : Timestamp) (t : BronzeTable)
    (ds : List Delivery) (hds : ∀ d ∈ ds, Delivers p k since d)
    (hstart : ∀ d ∈ ds, ∀ r ∈ t.rows, ¬ InKey k (d.now - dedupWindow) r) :
    Along (step p) (Safe p k since) ds ⟨t, []⟩ := by
  cases ds with
  | nil => trivial
  | cons d ds =>
    have hnone : ∀ r ∈ t.rows, ¬ InKey k since r := fun r hr hin =>
      hstart d List.mem_cons_self r hr (hin.mono (hds d List.mem_cons_self).reaches)
    have hgood : Good k since (d :: ds) ⟨t, []⟩ :=
      ⟨fun d' hd' r hr hin => absurd hin (hstart d' hd' r hr),
        fun r hr _ _ hin => absurd hin (hnone r hr),
        fun r hr hin => absurd hin (hnone r hr), fun m hm => absurd hm List.not_mem_nil⟩
    refine along_of_invariant (fun w d' hd' hg => ?_) hgood
    have hg' := good_step hg (hds d' hd') hd'
    exact ⟨⟨length_le_one_of_unique hg', received_of_good hg (hds d' hd') hd',
      fun m hm r hr => failed_of_good hg' hm hr,
      fun _ hout => acked_of_good hg (hds d' hd') hd' hout⟩, hg'⟩

/-- The key of the sample file. -/
def sampleKey : Key := ⟨.ofNat 2, sampleSession, sampleSha256⟩

lemma delivers_sample {traceId bronzeId : Uuid} {now : Timestamp} {publish : Fate}
    (hopened : 1767323046000000 ≤ now) (hreaches : now - dedupWindow ≤ 1767323046000000) :
    Delivers sampleWorker sampleKey 1767323046000000
      { deliveryOf traceId bronzeId now with publish } := by
  refine ⟨rfl, rfl, fun objectKey data hdata => ?_, hopened, hreaches⟩
  have hdata : data = sampleCsv := (Except.ok.inj hdata).symm
  rw [hdata]
  rfl

theorem interrupted_redelivered_safe :
    (run sampleWorker [interrupted, redelivery] emptyWorld).published.length = 1 ∧
      Along (step sampleWorker) (Safe sampleWorker sampleKey 1767323046000000)
        [interrupted, redelivery] emptyWorld := by
  obtain ⟨envelope, hresumes⟩ := resumes_afterCrash path_of_trace_one (.ofNat 6)
  refine ⟨?_, deliveries_safe sampleWorker sampleKey 1767323046000000 .empty
    [interrupted, redelivery] (fun d hd => ?_) (fun d _ r hr => by cases hr)⟩
  · rw [run_interrupted, redelivery, step_of_resumes hresumes]
    rfl
  · simp only [List.mem_cons, List.not_mem_nil, or_false] at hd
    rcases hd with rfl | rfl
    · exact delivers_sample (by decide) (by decide)
    · exact delivers_sample (by decide) (by decide)

end CortexDis.CrashSafety
