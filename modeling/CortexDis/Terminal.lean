import CortexDis.AckSafety
import CortexDis.BronzeAgreement
import CortexDis.Poison

/-!
Terminal failures of the csv worker.

Between the pull of a message and the first call the worker makes stand the parser of the
envelope and the path check, both functions of the body. What they raise is acknowledged when
its class is one of three; the two readers of object paths raise a fourth.
-/

namespace CortexDis.Terminal

open CortexDis.Values CortexDis.Errors CortexDis.Envelope CortexDis.Intake CortexDis.CsvWorker
open CortexDis.ObjectPath CortexDis.Poison CortexDis.PyText CortexDis.PyJson CortexDis.Runs

/-- The pipeline on an event whose calls end as those of `d`. A worker that dies acknowledges
nothing, and to the message that is a nack. -/
def ingestEvent (p : IngestPipeline) (d : Delivery) (event : CsvReceivedEvent) (w : World) :
    Except Exn IngestOutcome × World :=
  match CsvWorker.process p { d with event } w with
  | (w', .ok outcome) => (.ok outcome, w')
  | (w', .error (.raised e)) => (.error e, w')
  | (w', .error .crashed) => (.error (.other "died"), w')

variable (P : Pydantic) (room : ℕ)

/-- A body that fails a check made before any call. -/
def FailsPurely (bronzeBucket : String) (data : Bytes) : Prop :=
  (∃ e, parseCsvReceived P room data = .error e) ∨
    ∃ event e, parseCsvReceived P room data = .ok event ∧
      crossCheckPath bronzeBucket event = .error e

/-- A URI of the object-path scheme. -/
def InScheme (uri : String) : Prop :=
  ∃ bucket key parsed, splitObjectUri uri = .ok (bucket, key) ∧ parseObjectPath key = .ok parsed

lemma splitObjectUri_error {uri : String} {e : Exn} (h : splitObjectUri uri = .error e) :
    e = storageError := by
  unfold splitObjectUri at h
  split at h
  · cases h
  · exact (Except.error.inj h).symm

lemma parseObjectPath_error {path : String} {e : Exn} (h : parseObjectPath path = .error e) :
    e = storageError := by
  unfold parseObjectPath at h
  split at h
  · cases h
  · exact (Except.error.inj h).symm

lemma crossCheckPath_of_not_inScheme {bronzeBucket : String} {event : CsvReceivedEvent}
    (h : ¬ InScheme event.gcsUri) : crossCheckPath bronzeBucket event = .error storageError := by
  unfold crossCheckPath
  cases huri : splitObjectUri event.gcsUri with
  | error e =>
    rw [splitObjectUri_error huri]
    rfl
  | ok parts =>
    obtain ⟨bucket, key⟩ := parts
    cases hkey : parseObjectPath key with
    | error e =>
      rw [parseObjectPath_error hkey] at hkey
      simp only [bind, Except.bind, hkey]
    | ok parsed => exact absurd ⟨bucket, key, parsed, huri, hkey⟩ h

lemma crossCheckPath_of_inScheme {bronzeBucket : String} {event : CsvReceivedEvent} {e : Exn}
    (h : InScheme event.gcsUri) (herror : crossCheckPath bronzeBucket event = .error e) :
    ∃ field, e = .eventPathMismatch field := by
  obtain ⟨bucket, key, parsed, huri, hkey⟩ := h
  unfold crossCheckPath at herror
  rw [huri] at herror
  simp only [bind, Except.bind, hkey] at herror
  split at herror
  · exact ⟨_, (Except.error.inj herror).symm⟩
  · cases herror

/-! ### The routing of one body -/

section Routing

variable {P room} {p : IngestPipeline} {d : Delivery} {data : Bytes} {w : World}

lemma ingestEvent_of_error {event : CsvReceivedEvent} {e : Exn}
    (h : crossCheckPath p.bronzeBucket event = .error e) :
    ingestEvent p d event w = (.error e, w) := by
  have hlook : lookUp p { d with event } w = .error (.raised e) := by
    unfold lookUp
    rw [h]
  unfold ingestEvent CsvWorker.process
  rw [hlook]

lemma routed_of_escapes (h : Escapes P room data) :
    ∃ e, processCsvMessage P room (ingestEvent p d) data w = (.error e, w) := by
  have hparse := mt (routable_csv_iff P room data).mp (not_not.mpr h)
  unfold processCsvMessage
  cases hp : parseCsvReceived P room data with
  | ok event => exact absurd (hp ▸ routable_ok event) hparse
  | error e =>
    cases e with
    | eventContract field tenantId traceId =>
      exact absurd (hp ▸ routable_eventContract field tenantId traceId) hparse
    | _ => exact ⟨_, rfl⟩

lemma routed_of_error {event : CsvReceivedEvent} {e : Exn}
    (hparse : parseCsvReceived P room data = .ok event)
    (h : crossCheckPath p.bronzeBucket event = .error e) :
    processCsvMessage P room (ingestEvent p d) data w =
      (.ok (if terminal e then .ack else .nack), w) := by
  simp only [processCsvMessage, hparse, ingestEvent_of_error h]

end Routing

lemma failsPurely_of_escapes {data : Bytes} (h : Escapes P room data) (bronzeBucket : String) :
    FailsPurely P room bronzeBucket data := by
  cases hp : parseCsvReceived P room data with
  | error e => exact .inl ⟨e, hp⟩
  | ok event => exact absurd h ((routable_csv_iff P room data).mp (hp ▸ routable_ok event))

/-- **A body that fails a pure check is acknowledged, whatever the delivery, exactly when the
parser lets no exception of its own escape on it and the URI of its event is in the scheme.** -/
theorem pure_failure_acked_iff (p : IngestPipeline) (d : Delivery) (data : Bytes) (w : World) :
    (FailsPurely P room p.bronzeBucket data →
      processCsvMessage P room (ingestEvent p d) data w = (.ok .ack, w)) ↔
      ¬ Escapes P room data ∧
        ∀ event, parseCsvReceived P room data = .ok event → InScheme event.gcsUri := by
  constructor
  · intro hacked
    refine ⟨fun hescapes => ?_, fun event hparse => ?_⟩
    · obtain ⟨e, he⟩ : ∃ e, processCsvMessage P room (ingestEvent p d) data w = (.error e, w) :=
        routed_of_escapes hescapes
      have hack := hacked (failsPurely_of_escapes P room hescapes p.bronzeBucket)
      rw [he] at hack
      cases hack
    · by_contra hscheme
      have hpath : crossCheckPath p.bronzeBucket event = .error storageError :=
        crossCheckPath_of_not_inScheme hscheme
      have hack := hacked (.inr ⟨event, storageError, hparse, hpath⟩)
      rw [routed_of_error hparse hpath] at hack
      cases hack
  · rintro ⟨hescapes, hscheme⟩ hfails
    rcases (routable_csv_iff P room data).mpr hescapes with ⟨event, hparse⟩ | ⟨f, t, i, hparse⟩
    · rcases hfails with ⟨e, he⟩ | ⟨event', e, hparse', hpath⟩
      · rw [hparse] at he
        cases he
      · obtain ⟨field, rfl⟩ := crossCheckPath_of_inScheme (hscheme event' hparse') hpath
        rw [routed_of_error hparse' hpath]
        rfl
    · simp only [processCsvMessage, hparse]

/-! ### A URI outside the scheme -/

open AckSafety (jsonMember quoted sampleTime)

/-- A well-formed envelope with the given object URI. -/
def sampleBody (uri : List Char) : Bytes :=
  (Char.ofNat 123 :: List.intercalate [','] [
    jsonMember "schema_version" ['1'],
    jsonMember "trace_id" (quoted (Uuid.ofNat 1).chars),
    jsonMember "tenant_id" (quoted (Uuid.ofNat 2).chars),
    jsonMember "store_id" (quoted (Uuid.ofNat 3).chars),
    jsonMember "source_id" (quoted "pos".toList),
    jsonMember "template_id" (quoted (Uuid.ofNat 4).chars),
    jsonMember "upload_session_id" (quoted "us_0123456789ab".toList),
    jsonMember "gcs_uri" (quoted uri),
    jsonMember "received_ts" (quoted sampleTime.toList)] ++ [Char.ofNat 125]).map
      fun c => UInt8.ofNat c.toNat

def sampleEvent (uri : List Char) : CsvReceivedEvent where
  traceId := .ofNat 1
  tenantId := .ofNat 2
  storeId := .ofNat 3
  sourceId := "pos"
  templateId := .ofNat 4
  uploadSessionId := "us_0123456789ab"
  gcsUri := String.ofList uri
  receivedTs := 1767323045000000
  delimiter := ','
  tenantDisplayCode := none
  storeCode := none

lemma sampleBody_parses :
    parseCsvReceived AckSafety.samplePydantic 900 (sampleBody ['g', 's', ':']) =
      .ok (sampleEvent ['g', 's', ':']) := by
  decide +kernel

/-- The envelope is accepted and its URI is not: the check fails the same way on every delivery,
and every delivery is sent back. -/
theorem uri_outside_scheme_redelivered :
    FailsPurely AckSafety.samplePydantic 900 BronzeAgreement.sampleWorker.bronzeBucket
        (sampleBody ['g', 's', ':']) ∧
      ∀ d w, processCsvMessage AckSafety.samplePydantic 900
        (ingestEvent BronzeAgreement.sampleWorker d) (sampleBody ['g', 's', ':']) w =
          (.ok .nack, w) := by
  have hscheme : ¬ InScheme (sampleEvent ['g', 's', ':']).gcsUri := by
    rintro ⟨bucket, key, parsed, huri, -⟩
    have hnone : matchUri (strip ['g', 's', ':']) = none := by decide
    simp [sampleEvent, splitObjectUri, hnone] at huri
  have hpath : crossCheckPath BronzeAgreement.sampleWorker.bronzeBucket
      (sampleEvent ['g', 's', ':']) = .error storageError := crossCheckPath_of_not_inScheme hscheme
  refine ⟨.inr ⟨_, storageError, sampleBody_parses, hpath⟩, fun d w => ?_⟩
  rw [routed_of_error sampleBody_parses hpath]
  rfl

end CortexDis.Terminal
