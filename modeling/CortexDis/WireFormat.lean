import CortexDis.JsonDumps
import CortexDis.DashboardCounts
import CortexDis.PyValue
import CortexDis.UuidText

/-!
The two envelopes on the wire: what a publisher sends, the subscriber reads as the same event.

`model_dump` lists the fields in the order of their classes and leaves out those without a
value; how pydantic writes an instant is a parameter.
-/

namespace CortexDis.WireFormat

open CortexDis.Values CortexDis.Envelope CortexDis.Errors CortexDis.Intake CortexDis.PyText
open CortexDis.PyJson CortexDis.PyDict CortexDis.Patterns CortexDis.Runs

/-! ### The publishers -/

abbrev Fields := List (String × Option Json)

/-- `model_dump(mode="json", exclude_none=True)` -/
def modelDump (fields : Fields) : Json :=
  .obj (fields.filterMap fun f => f.2.map fun value => (pyStr f.1, value))

/-- `json.dumps(payload).encode()`; no field is a float. -/
def toBytes (fields : Fields) : Bytes := encodeAscii (dumps id (modelDump fields))

def strJson (s : String) : Json := .str (pyStr s)

def uuidJson (u : Uuid) : Json := strJson u.str

variable (isoformat : Timestamp → String)

/-- The fields of `CsvReceivedEnvelope` -/
def csvReceivedFields (e : CsvReceivedEvent) : Fields :=
  [("schema_version", some (.int 1)), ("trace_id", some (uuidJson e.traceId)),
    ("tenant_id", some (uuidJson e.tenantId)), ("store_id", some (uuidJson e.storeId)),
    ("source_id", some (strJson e.sourceId)), ("template_id", some (uuidJson e.templateId)),
    ("upload_session_id", some (strJson e.uploadSessionId)),
    ("gcs_uri", some (strJson e.gcsUri)),
    ("received_ts", some (strJson (isoformat e.receivedTs))),
    ("tenant_display_code", e.tenantDisplayCode.map strJson),
    ("store_code", e.storeCode.map strJson),
    ("delimiter", some (strJson (String.singleton e.delimiter)))]

/-- The fields of `IngressReadyEnvelope` -/
def ingressReadyFields (e : IngressReadyEvent) : Fields :=
  [("schema_version", some (.int 1)), ("trace_id", some (uuidJson e.traceId)),
    ("tenant_id", some (uuidJson e.tenantId)), ("store_id", some (uuidJson e.storeId)),
    ("source_id", some (strJson e.sourceId)), ("template_id", some (uuidJson e.templateId)),
    ("bronze_ref", some (uuidJson e.bronzeRef)), ("gcs_uri", some (strJson e.gcsUri)),
    ("received_ts", some (strJson (isoformat e.receivedTs))),
    ("delimiter", some (strJson (String.singleton e.delimiter))),
    ("tenant_display_code", e.tenantDisplayCode.map strJson),
    ("store_code", e.storeCode.map strJson), ("replay", some (.bool e.replay)),
    ("parent_trace_id", e.parentTraceId.map uuidJson)]

/-- `CsvReceivedEnvelope.to_bytes` -/
def csvReceivedBytes (e : CsvReceivedEvent) : Bytes := toBytes (csvReceivedFields isoformat e)

/-- `IngressReadyEnvelope.to_bytes` -/
def ingressReadyBytes (e : IngressReadyEvent) : Bytes := toBytes (ingressReadyFields isoformat e)

/-- Pydantic reads back what it writes: every field that is no instant, and the instant `t`. -/
structure Agrees (P : Pydantic) (t : Timestamp) : Prop where
  literalOne : P.literalOne (.int 1) = true
  uuid : ∀ u, P.uuid (uuidJson u) = some u
  str : ∀ s, P.str (strJson s) = some s
  bool : ∀ b, P.bool (.bool b) = some b
  datetime : P.datetime (strJson (isoformat t)) = some (.aware t)

/-! ### The text -/

lemma readable_pyStr (s : String) : Readable (pyStr s) := by
  rw [pyStr]
  induction s.toList with
  | nil => trivial
  | cons c l ih =>
    have hvalid : c.toNat < 0xD800 ∨ 0xDFFF < c.toNat ∧ c.toNat < 0x110000 := c.valid
    refine ⟨by omega, fun hhigh => ?_, ih⟩
    simp only [isHigh, Bool.and_eq_true, decide_eq_true_eq] at hhigh
    omega

/-- The fields of a model: distinct names, and no value that nests. -/
structure Flat (fields : Fields) : Prop where
  nodup : (fields.map Prod.fst).Nodup
  dumpable : ∀ f ∈ fields, ∀ value ∈ f.2, Dumpable 0 value

lemma dumpable_str (s : String) : Dumpable 0 (strJson s) := readable_pyStr s

lemma dumpable_uuid (u : Uuid) : Dumpable 0 (uuidJson u) := readable_pyStr u.str

lemma dumpable_one : Dumpable 0 (.int 1) := by
  have hlen : (decimalText 1).length = 1 := by simp [decimalText]
  show (decimalText 1).length ≤ maxStrDigits
  rw [hlen]
  decide

lemma flat_csvReceivedFields (e : CsvReceivedEvent) : Flat (csvReceivedFields isoformat e) where
  nodup := by
    simp only [csvReceivedFields, List.map_cons, List.map_nil]
    decide
  dumpable := by
    simp [csvReceivedFields, dumpable_str, dumpable_uuid, dumpable_one]

lemma flat_ingressReadyFields (e : IngressReadyEvent) :
    Flat (ingressReadyFields isoformat e) where
  nodup := by
    simp only [ingressReadyFields, List.map_cons, List.map_nil]
    decide
  dumpable := by
    have hbool : Dumpable 0 (.bool e.replay) := trivial
    simp [ingressReadyFields, dumpable_str, dumpable_uuid, dumpable_one, hbool]

/-- The members of a dump, each under its field's name. -/
def members (fields : Fields) : Raw :=
  fields.filterMap fun f => f.2.map fun value => (pyStr f.1, value)

lemma mem_members {fields : Fields} {m : PyStr × Json} :
    m ∈ members fields ↔ ∃ f ∈ fields, f.2 = some m.2 ∧ pyStr f.1 = m.1 := by
  simp only [members, List.mem_filterMap, Option.map_eq_some_iff]
  refine exists_congr fun f => and_congr_right fun _ => ⟨?_, ?_⟩
  · rintro ⟨value, hvalue, rfl⟩
    exact ⟨hvalue, rfl⟩
  · rintro ⟨hvalue, hname⟩
    exact ⟨m.2, hvalue, Prod.ext hname rfl⟩

lemma nodup_members {fields : Fields} (h : (fields.map Prod.fst).Nodup) :
    ((members fields).map Prod.fst).Nodup := by
  have hsub : ((members fields).map Prod.fst).Sublist ((fields.map Prod.fst).map pyStr) := by
    induction fields with
    | nil => exact List.Sublist.refl _
    | cons f fields ih =>
      have htail := ih (List.nodup_cons.mp h).2
      cases hf : f.2 with
      | none =>
        have heq : members (f :: fields) = members fields := by simp [members, hf]
        rw [heq]
        exact htail.cons _
      | some value =>
        have heq : members (f :: fields) = (pyStr f.1, value) :: members fields := by
          simp [members, hf]
        rw [heq]
        exact htail.cons_cons _
  exact (h.map PyValue.pyStr_injective).sublist hsub

lemma dumpable_modelDump {fields : Fields} (h : Flat fields) (room : ℕ) :
    Dumpable (room + 1) (modelDump fields) := by
  refine ⟨nodup_members h.nodup, fun m hm => ?_⟩
  obtain ⟨f, hf, hvalue, hname⟩ := mem_members.mp hm
  refine ⟨hname ▸ readable_pyStr f.1, ?_⟩
  have hzero := h.dumpable f hf m.2 hvalue
  revert hzero
  cases m.2 <;> cases room <;> simp [Dumpable]

lemma parseEnvelope_toBytes {α : Type} (validate : Raw → Except Exn α) {fields : Fields}
    (h : Flat fields) (room : ℕ) :
    parseEnvelope validate (room + 1) (toBytes fields) = validate (members fields) := by
  rw [parseEnvelope, toBytes, loads_dumps (dumpable_modelDump h room)]
  rfl

/-! ### The fields -/

section Reading

variable {fields : Fields}

lemma get_members (h : (fields.map Prod.fst).Nodup) {name : String} {value : Option Json}
    (hmem : (name, value) ∈ fields) : Raw.get (members fields) name = value := by
  cases value with
  | some v =>
    exact lookup_of_mem (nodup_members h) (mem_members.mpr ⟨(name, some v), hmem, rfl, rfl⟩)
  | none =>
    refine (lookup_eq_none _ _).mpr fun hkey => ?_
    obtain ⟨m, hm, hname⟩ := List.mem_map.mp hkey
    obtain ⟨f, hf, hvalue, hfname⟩ := mem_members.mp hm
    have hsame : f.1 = name := PyValue.pyStr_injective (hfname.trans hname)
    have hentry : f = (name, none) := List.inj_on_of_nodup_map h hf hmem hsame
    rw [hentry] at hvalue
    cases hvalue

lemma required_members {α : Type} (h : (fields.map Prod.fst).Nodup) {name : String} {value : Json}
    (hmem : (name, some value) ∈ fields) {check : Json → Option α} {a : α}
    (hread : check value = some a) : required (members fields) name check = some a := by
  rw [required, get_members h hmem, Option.bind_some, hread]

lemma optional_members {α : Type} (h : (fields.map Prod.fst).Nodup) {name : String} {value : Json}
    (hmem : (name, some value) ∈ fields) {default : α} {check : Json → Option α} {a : α}
    (hread : check value = some a) :
    Intake.optional (members fields) name default check = some a := by
  unfold Intake.optional
  rw [get_members h hmem]
  exact hread

lemma nullable_members {α : Type} (h : (fields.map Prod.fst).Nodup) {name : String}
    {value : Option α} {write : α → Json} (hmem : (name, value.map write) ∈ fields)
    {check : Json → Option α} (hnull : ∀ a, write a ≠ .null)
    (hread : ∀ a, check (write a) = some a) :
    Intake.optional (members fields) name none (nullable check) = some value := by
  unfold Intake.optional
  rw [get_members h hmem]
  cases value with
  | none => rfl
  | some a =>
    have hcheck : nullable check (write a) = (check (write a)).map some := by
      unfold nullable
      split
      · rename_i heq
        exact absurd heq (hnull a)
      · rfl
    rw [Option.map_some]
    dsimp only
    rw [hcheck, hread]
    rfl

lemma validated_members {α : Type} {event : α} {checked : List (String × Bool)}
    (hread : ∀ f ∈ checked, f.2 = true) (hkeys : fields.map Prod.fst ⊆ checked.map Prod.fst) :
    validated (members fields) (some event) checked = .ok event := by
  have hbad : badFields (members fields) checked = [] := by
    rw [badFields, List.append_eq_nil_iff, List.map_eq_nil_iff, List.map_eq_nil_iff,
      List.filter_eq_nil_iff, List.filter_eq_nil_iff]
    refine ⟨fun f hf => by simp [hread f hf], fun m hm => ?_⟩
    obtain ⟨f, hf, -, hname⟩ := mem_members.mp hm
    obtain ⟨c, hc, hcname⟩ := List.mem_map.mp (hkeys (List.mem_map_of_mem hf))
    simp only [decide_eq_true_eq, not_not]
    exact List.mem_map.mpr ⟨c, hc, by rw [hcname, hname]⟩
  unfold validated
  rw [hbad]

end Reading

variable {isoformat}

lemma receivedTs_members {P : Pydantic} {t : Timestamp} (hP : Agrees isoformat P t)
    (ht : minInstant ≤ t ∧ t ≤ maxInstant) {fields : Fields} (h : (fields.map Prod.fst).Nodup)
    (hmem : ("received_ts", some (strJson (isoformat t))) ∈ fields) :
    receivedTs P (members fields) = .ok (some t) := by
  rw [receivedTs, required_members h hmem hP.datetime]
  dsimp only
  rw [ensureUtc, if_neg (not_or.mpr ⟨not_lt.mpr ht.1, not_lt.mpr ht.2⟩)]
  rfl

lemma oneChar_singleton (c : Char) : oneChar (String.singleton c) = some c := by
  simp [oneChar]

/-- The constraints of the fields of `CsvReceivedEnvelope`. -/
structure CsvReceivedValid (e : CsvReceivedEvent) : Prop where
  sourceId : e.sourceId ≠ ""
  uploadSessionId : fullMatch uploadSessionPattern e.uploadSessionId = true
  gcsUri : e.gcsUri ≠ ""
  receivedTs : minInstant ≤ e.receivedTs ∧ e.receivedTs ≤ maxInstant

/-- The constraints of the fields of `IngressReadyEnvelope`. -/
structure IngressReadyValid (e : IngressReadyEvent) : Prop where
  sourceId : e.sourceId ≠ ""
  gcsUri : e.gcsUri ≠ ""
  receivedTs : minInstant ≤ e.receivedTs ∧ e.receivedTs ≤ maxInstant

lemma strJson_ne_null (s : String) : strJson s ≠ .null := by
  intro h
  cases h

lemma Agrees.nonEmptyStr {P : Pydantic} {t : Timestamp} (hP : Agrees isoformat P t) {s : String}
    (hs : s ≠ "") : nonEmptyStr P (strJson s) = some s := by
  rw [Intake.nonEmptyStr, hP.str, Option.bind_some, nonEmpty, if_neg hs]

lemma Agrees.charStr {P : Pydantic} {t : Timestamp} (hP : Agrees isoformat P t) (c : Char) :
    charStr P (strJson (String.singleton c)) = some c := by
  rw [Intake.charStr, hP.str, Option.bind_some, oneChar_singleton]

lemma Agrees.schemaVersion {P : Pydantic} {t : Timestamp} (hP : Agrees isoformat P t)
    {fields : Fields} (h : (fields.map Prod.fst).Nodup)
    (hmem : ("schema_version", some (.int 1)) ∈ fields) :
    schemaVersion P (members fields) = some () := by
  exact required_members h hmem (if_pos hP.literalOne)

lemma validateCsvReceived_members {P : Pydantic} {e : CsvReceivedEvent} (he : CsvReceivedValid e)
    (hP : Agrees isoformat P e.receivedTs) :
    validateCsvReceived P (members (csvReceivedFields isoformat e)) = .ok e := by
  have hnodup := (flat_csvReceivedFields isoformat e).nodup
  have hsession : sessionStr P (strJson e.uploadSessionId) = some e.uploadSessionId := by
    rw [sessionStr, hP.str, Option.bind_some, he.uploadSessionId, if_pos rfl]
  have hversion := hP.schemaVersion hnodup (by simp [csvReceivedFields])
  have hreceived := receivedTs_members hP he.receivedTs hnodup (by simp [csvReceivedFields])
  have hkeys : (csvReceivedFields isoformat e).map Prod.fst ⊆
      ["schema_version", "trace_id", "tenant_id", "store_id", "source_id", "template_id",
        "upload_session_id", "gcs_uri", "received_ts", "delimiter", "tenant_display_code",
        "store_code"] := by
    simp [csvReceivedFields]
  -- each key of the model is written once, so it is read back where it was written
  set raw := members (csvReceivedFields isoformat e) with hraw
  have htrace : required raw "trace_id" P.uuid = some e.traceId :=
    required_members hnodup (by simp [csvReceivedFields]) (hP.uuid _)
  have htenant : required raw "tenant_id" P.uuid = some e.tenantId :=
    required_members hnodup (by simp [csvReceivedFields]) (hP.uuid _)
  have hstore : required raw "store_id" P.uuid = some e.storeId :=
    required_members hnodup (by simp [csvReceivedFields]) (hP.uuid _)
  have hsource : required raw "source_id" (nonEmptyStr P) = some e.sourceId :=
    required_members hnodup (by simp [csvReceivedFields]) (hP.nonEmptyStr he.sourceId)
  have htemplate : required raw "template_id" P.uuid = some e.templateId :=
    required_members hnodup (by simp [csvReceivedFields]) (hP.uuid _)
  have hsession : required raw "upload_session_id" (sessionStr P) = some e.uploadSessionId :=
    required_members hnodup (by simp [csvReceivedFields]) hsession
  have huri : required raw "gcs_uri" (nonEmptyStr P) = some e.gcsUri :=
    required_members hnodup (by simp [csvReceivedFields]) (hP.nonEmptyStr he.gcsUri)
  have hdelimiter : Intake.optional raw "delimiter" ',' (charStr P) = some e.delimiter :=
    optional_members hnodup (by simp [csvReceivedFields]) (hP.charStr _)
  have htenantCode : Intake.optional raw "tenant_display_code" none (nullable P.str) =
      some e.tenantDisplayCode :=
    nullable_members hnodup (by simp [csvReceivedFields]) strJson_ne_null hP.str
  have hstoreCode : Intake.optional raw "store_code" none (nullable P.str) = some e.storeCode :=
    nullable_members hnodup (by simp [csvReceivedFields]) strJson_ne_null hP.str
  rw [validateCsvReceived, hreceived, ok_bind, htrace, htenant, hstore, hsource, htemplate,
    hsession, huri, hdelimiter, htenantCode, hstoreCode, hversion]
  exact validated_members (by simp) hkeys

lemma validateIngressReady_members {P : Pydantic} {e : IngressReadyEvent}
    (he : IngressReadyValid e) (hP : Agrees isoformat P e.receivedTs) :
    validateIngressReady P (members (ingressReadyFields isoformat e)) = .ok e := by
  have hnodup := (flat_ingressReadyFields isoformat e).nodup
  have hversion := hP.schemaVersion hnodup (by simp [ingressReadyFields])
  have hreceived := receivedTs_members hP he.receivedTs hnodup (by simp [ingressReadyFields])
  have hkeys : (ingressReadyFields isoformat e).map Prod.fst ⊆
      ["schema_version", "trace_id", "tenant_id", "store_id", "source_id", "template_id",
        "bronze_ref", "gcs_uri", "received_ts", "delimiter", "tenant_display_code", "store_code",
        "replay", "parent_trace_id"] := by
    simp [ingressReadyFields]
  have huuid : ∀ u, uuidJson u ≠ .null := fun u => strJson_ne_null u.str
  set raw := members (ingressReadyFields isoformat e) with hraw
  have htrace : required raw "trace_id" P.uuid = some e.traceId :=
    required_members hnodup (by simp [ingressReadyFields]) (hP.uuid _)
  have htenant : required raw "tenant_id" P.uuid = some e.tenantId :=
    required_members hnodup (by simp [ingressReadyFields]) (hP.uuid _)
  have hstore : required raw "store_id" P.uuid = some e.storeId :=
    required_members hnodup (by simp [ingressReadyFields]) (hP.uuid _)
  have hsource : required raw "source_id" (nonEmptyStr P) = some e.sourceId :=
    required_members hnodup (by simp [ingressReadyFields]) (hP.nonEmptyStr he.sourceId)
  have htemplate : required raw "template_id" P.uuid = some e.templateId :=
    required_members hnodup (by simp [ingressReadyFields]) (hP.uuid _)
  have hbronze : required raw "bronze_ref" P.uuid = some e.bronzeRef :=
    required_members hnodup (by simp [ingressReadyFields]) (hP.uuid _)
  have huri : required raw "gcs_uri" (nonEmptyStr P) = some e.gcsUri :=
    required_members hnodup (by simp [ingressReadyFields]) (hP.nonEmptyStr he.gcsUri)
  have hdelimiter : Intake.optional raw "delimiter" ',' (charStr P) = some e.delimiter :=
    optional_members hnodup (by simp [ingressReadyFields]) (hP.charStr _)
  have htenantCode : Intake.optional raw "tenant_display_code" none (nullable P.str) =
      some e.tenantDisplayCode :=
    nullable_members hnodup (by simp [ingressReadyFields]) strJson_ne_null hP.str
  have hstoreCode : Intake.optional raw "store_code" none (nullable P.str) = some e.storeCode :=
    nullable_members hnodup (by simp [ingressReadyFields]) strJson_ne_null hP.str
  have hreplay : Intake.optional raw "replay" false P.bool = some e.replay :=
    optional_members hnodup (by simp [ingressReadyFields]) (hP.bool _)
  have hparent : Intake.optional raw "parent_trace_id" none (nullable P.uuid) =
      some e.parentTraceId :=
    nullable_members hnodup (by simp [ingressReadyFields]) huuid hP.uuid
  rw [validateIngressReady, hreceived, ok_bind, htrace, htenant, hstore, hsource, htemplate,
    hbronze, huri, hdelimiter, htenantCode, hstoreCode, hreplay, hparent, hversion]
  exact validated_members (by simp) hkeys

lemma parse_csvReceivedBytes {P : Pydantic} {e : CsvReceivedEvent} (he : CsvReceivedValid e)
    (hP : Agrees isoformat P e.receivedTs) (room : ℕ) :
    parseCsvReceived P (room + 1) (csvReceivedBytes isoformat e) = .ok e :=
  (parseEnvelope_toBytes _ (flat_csvReceivedFields isoformat e) room).trans
    (validateCsvReceived_members he hP)

lemma parse_ingressReadyBytes {P : Pydantic} {e : IngressReadyEvent} (he : IngressReadyValid e)
    (hP : Agrees isoformat P e.receivedTs) (room : ℕ) :
    parseIngressReady P (room + 1) (ingressReadyBytes isoformat e) = .ok e :=
  (parseEnvelope_toBytes _ (flat_ingressReadyFields isoformat e) room).trans
    (validateIngressReady_members he hP)

/-! ### What the services send -/

lemma buildCsvReceived_valid {r : UploadRuns.UploadRequest} {a : UploadRuns.Admitted}
    {uploadSessionId gcsUri : String} {e : CsvReceivedEvent}
    (h : UploadRuns.buildCsvReceived r a uploadSessionId gcsUri = .ok e) : CsvReceivedValid e := by
  unfold UploadRuns.buildCsvReceived PathRoundTrip.ensureUtc at h
  cases hoffset : r.receivedTs.utcOffset with
  | none =>
    rw [hoffset] at h
    cases h
  | some offset =>
    rw [hoffset] at h
    dsimp only at h
    split at h
    · rename_i hrange
      rw [ok_bind] at h
      split at h
      · cases h
      · rename_i hconstraints
        rw [not_or, not_or, Bool.not_eq_false] at hconstraints
        cases h
        exact ⟨hconstraints.1, hconstraints.2.2, hconstraints.2.1, hrange⟩
    · cases h

lemma buildIngressReady_valid {event : CsvReceivedEvent} {traceId bronzeRef : Uuid}
    {receivedAt : Timestamp} {delimiter : String} {e : IngressReadyEvent}
    (hrange : minInstant ≤ receivedAt ∧ receivedAt ≤ maxInstant)
    (h : CsvWorker.buildIngressReady event traceId bronzeRef receivedAt delimiter = .ok e) :
    IngressReadyValid e := by
  have hnonEmpty : ∀ {s t : String}, nonEmpty s = some t → t ≠ "" := by
    intro s t hs
    unfold nonEmpty at hs
    split at hs
    · cases hs
    · rename_i hne
      obtain rfl := Option.some.inj hs
      exact hne
  unfold CsvWorker.buildIngressReady at h
  split at h
  · rename_i hsource huri _
    cases h
    exact ⟨hnonEmpty hsource, hnonEmpty huri, hrange⟩
  · cases h

open AckSafety (samplePydantic sampleTime) in
lemma agrees_sample : Agrees (fun _ => sampleTime) samplePydantic 1767323045000000 := by
  have htext : ∀ s, (pyStr s).map Char.ofNat = s.toList := by
    intro s
    simp [pyStr, Function.comp_def, Char.ofNat_toNat]
  have htime : (if pyStr sampleTime = pyStr sampleTime then
      some (Intake.Datetime.aware 1767323045000000) else none) = some (.aware 1767323045000000) :=
    if_pos rfl
  refine ⟨rfl, fun u => ?_, fun s => ?_, fun b => rfl, htime⟩
  · show ObjectPath.uuidOf ((pyStr u.str).map Char.ofNat) = some u
    rw [htext, Uuid.str, String.toList_ofList]
    exact UuidText.uuidOf_chars u
  · show some (String.ofList ((pyStr s).map Char.ofNat)) = some s
    rw [htext, String.ofList_toList]

/-- The worker reads every message that the upload server builds as the event it was built
from. -/
theorem csv_received_round_trip (P : Pydantic) (room : ℕ) (r : UploadRuns.UploadRequest)
    (a : UploadRuns.Admitted) (uploadSessionId gcsUri : String) (e : CsvReceivedEvent)
    (hbuild : UploadRuns.buildCsvReceived r a uploadSessionId gcsUri = .ok e)
    (hP : Agrees isoformat P e.receivedTs) :
    parseCsvReceived P (room + 1) (csvReceivedBytes isoformat e) = .ok e :=
  parse_csvReceivedBytes (buildCsvReceived_valid hbuild) hP room

open DashboardCounts in
theorem csv_received_round_trip_sample :
    parseCsvReceived AckSafety.samplePydantic 1
      (csvReceivedBytes (fun _ => AckSafety.sampleTime) sampleEvent) = .ok sampleEvent :=
  csv_received_round_trip AckSafety.samplePydantic 0 sampleUpload sampleAdmitted
    BronzeAgreement.sampleSession (String.ofList (ObjectPath.posUri (.ofNat 2) (.ofNat 1)))
    sampleEvent (by decide +kernel) agrees_sample

/-- The consumer reads every message that the worker builds as the event it was built from. -/
theorem ingress_ready_round_trip (P : Pydantic) (room : ℕ) (event : CsvReceivedEvent)
    (traceId bronzeRef : Uuid) (receivedAt : Timestamp) (delimiter : String)
    (e : IngressReadyEvent) (hrange : minInstant ≤ receivedAt ∧ receivedAt ≤ maxInstant)
    (hbuild : CsvWorker.buildIngressReady event traceId bronzeRef receivedAt delimiter = .ok e)
    (hP : Agrees isoformat P e.receivedTs) :
    parseIngressReady P (room + 1) (ingressReadyBytes isoformat e) = .ok e :=
  parse_ingressReadyBytes (buildIngressReady_valid hrange hbuild) hP room

/-- The message of the sample upload's row. -/
def sampleReady : IngressReadyEvent where
  traceId := .ofNat 1
  tenantId := .ofNat 2
  storeId := .ofNat 3
  sourceId := "pos"
  templateId := .ofNat 4
  bronzeRef := .ofNat 5
  gcsUri := String.ofList (ObjectPath.posUri (.ofNat 2) (.ofNat 1))
  receivedTs := 1767323045000000
  delimiter := ';'
  tenantDisplayCode := none
  storeCode := some "S1"
  replay := false
  parentTraceId := none

theorem ingress_ready_round_trip_sample :
    parseIngressReady AckSafety.samplePydantic 1
      (ingressReadyBytes (fun _ => AckSafety.sampleTime) sampleReady) = .ok sampleReady :=
  ingress_ready_round_trip AckSafety.samplePydantic 0 DashboardCounts.sampleEvent (.ofNat 1)
    (.ofNat 5) 1767323045000000 ";" sampleReady (by decide) (by decide +kernel) agrees_sample

end CortexDis.WireFormat
