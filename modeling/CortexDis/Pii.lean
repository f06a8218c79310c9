import CortexDis.CrashSafety
import CortexDis.PyValue

/-!
The PII gate of the csv worker.

Detection goes by the names of the columns. The worker feeds the sniffed header to the detector
as a mapping that renames every column to itself, and a detected column without a backend
raises before anything is written. A delivery that finds a prior row publishes without passing
the gate; it can only find one if the file passed the gate when the row was written.
-/

namespace CortexDis.Pii

open CortexDis.Values CortexDis.Envelope CortexDis.Errors CortexDis.PyText CortexDis.PyDict
open CortexDis.PyValue CortexDis.Bronze CortexDis.CsvWorker CortexDis.CrashSafety
open CortexDis.BronzeAgreement CortexDis.Runs

/-! ### The detector -/

/-- The texts that `_PII_NAME_PATTERN` matches: `email|phone|mobile|msisdn|loyalty|aadhaa?r`. -/
def piiNamePattern : List PyStr :=
  ["email", "phone", "mobile", "msisdn", "loyalty", "aadhaar", "aadhar"].map pyStr

/-- `_PII_EXACT_TOKENS` -/
def piiExactTokens : List PyStr := ["pan", "ssn", "aadhaar", "aadhar"].map pyStr

/-- A character of `[a-z0-9]` -/
def isTokenChar (c : ℕ) : Bool := (97 ≤ c && c ≤ 122) || (48 ≤ c && c ≤ 57)

/-- The pieces between the matches of `_TOKEN_SPLIT`, without the empty ones. -/
def tokens (s : PyStr) : List PyStr :=
  (s.splitOnP fun c => !isTokenChar c).filter fun t => !t.isEmpty

def isSpace (c : ℕ) : Bool := ObjectPath.isSpace (Char.ofNat c)

/-- `str.strip` -/
def strip (s : PyStr) : PyStr := trim isSpace s

section Detector

variable {ω κ : Type} (py : Builtins ω) (lower : PyStr → PyStr)

/-- `is_pii_column`; `lower` is `str.lower`. -/
def isPiiColumn (name : PyStr) : Bool :=
  let normalised := lower (strip name)
  if normalised.isEmpty then false
  else if piiNamePattern.any fun p => normalised.tails.any p.isPrefixOf then true
  else (tokens normalised).any piiExactTokens.contains

/-- The columns of `rename`: the names on both sides. -/
def renameColumns : Value ω → Except PyError (List PyStr)
  | .dict items => do
    let names ← items.mapM fun e => do return [← py.str e.1, ← py.str e.2]
    return names.flatten
  | _ => .ok []

/-- The columns of a block that lists them as its keys. -/
def blockColumns : Value ω → Except PyError (List PyStr)
  | .dict items => items.mapM fun e => py.str e.1
  | _ => .ok []

/-- The columns of the rules. -/
def rulesColumns : Value ω → Except PyError (List PyStr)
  | .dict items => do
    let rename ← renameColumns py ((find (pyStr "rename") items).getD .none)
    let blocks ← ["normalize", "cast", "derive"].mapM fun block =>
      blockColumns py ((find (pyStr block) items).getD .none)
    return rename ++ blocks.flatten
  | _ => .ok []

/-- `_iter_mapping_columns` -/
def iterMappingColumns (mapping : Value ω) : Except PyError (List PyStr) := do
  rulesColumns py (← mapping.get (pyStr "mapping_rules") mapping)

/-- `detect_pii_columns` -/
def detectPiiColumns (mapping : Value ω) : Except PyError (List PyStr) := do
  return ((← iterMappingColumns py mapping).filter (isPiiColumn lower)).dedup

/-- The class of a Python error. -/
def exnOf : PyError → Exn
  | .keyError _ => .other "KeyError"
  | .typeError => .other "TypeError"
  | .attributeError => .other "AttributeError"
  | .valueError => .other "ValueError"

/-- `assert_pii_handled` -/
def assertPiiHandled (mapping : Value ω) (backend : Option κ) : Except Exn Unit := do
  let columns ← (detectPiiColumns py lower mapping).mapError exnOf
  if !columns.isEmpty && backend.isNone then .error .piiBackendNotConfigured else return ()

/-- `synthetic_mapping` -/
def syntheticMapping (columns : List String) : Value ω :=
  let rename := Dict.ofList (columns.map fun name => (pyStr name, pyStr name))
  .dict [(.str (pyStr "rename"), .dict (rename.entries.map fun e => (.str e.1, .str e.2)))]

/-- `gate_csv_headers` -/
def gateCsvHeaders (backend : Option κ) (columns : List String) : Except Exn (List String) := do
  let mapping := syntheticMapping columns
  assertPiiHandled py lower mapping backend
  let detected ← (detectPiiColumns py lower mapping).mapError exnOf
  return detected.map fun name => String.ofList (name.map Char.ofNat)

/-! ### What the gate refuses -/

lemma iterMappingColumns_synthetic (columns : List String) :
    ∃ shown, iterMappingColumns py (syntheticMapping columns) = .ok shown ∧
      ∀ name, name ∈ shown ↔ name ∈ columns.map pyStr := by
  set rename := Dict.ofList (columns.map fun name => (pyStr name, pyStr name)) with hrename
  -- the synthetic rename maps each name to itself
  have hsame : ∀ e ∈ rename.entries, e.1 = e.2 := by
    intro e he
    have hmem := Dict.mem_of_get?_ofList (rename.mem_entries.mp he)
    obtain ⟨name, -, hname⟩ := List.mem_map.mp hmem
    rw [← (Prod.mk.inj hname).1, (Prod.mk.inj hname).2]
  have hkeys : ∀ name, name ∈ rename.entries.map Prod.fst ↔ name ∈ columns.map pyStr := by
    intro name
    have hkey := Dict.mem_keys_ofList (columns.map fun name => (pyStr name, pyStr name)) name
    rw [List.map_map] at hkey
    exact hkey
  have hnames : (rename.entries.map fun e => ((.str e.1, .str e.2) : Value ω × Value ω)).mapM
      (fun e => do return [← py.str e.1, ← py.str e.2]) =
        .ok (rename.entries.map fun e => [e.1, e.2]) :=
    mapM_map_eq_ok fun e _ => by simp
  have hrenamed : renameColumns py
      (.dict (rename.entries.map fun e => (.str e.1, .str e.2))) =
        .ok (rename.entries.map fun e => [e.1, e.2]).flatten := by
    rw [renameColumns, hnames, ok_bind]
    rfl
  refine ⟨(rename.entries.map fun e => [e.1, e.2]).flatten, ?_, ?_⟩
  · simp [iterMappingColumns, syntheticMapping, rulesColumns, blockColumns, ← hrename, hrenamed]
  · intro name
    rw [← hkeys, ← List.flatMap_def, List.mem_flatMap, List.mem_map]
    constructor
    · rintro ⟨e, he, hname⟩
      have hcase : name = e.1 ∨ name = e.2 := by simpa using hname
      rcases hcase with rfl | rfl
      · exact ⟨e, he, rfl⟩
      · exact ⟨e, he, hsame e he⟩
    · rintro ⟨e, he, rfl⟩
      exact ⟨e, he, by simp⟩

lemma gateCsvHeaders_refuses_iff (columns : List String) :
    gateCsvHeaders py lower (none : Option κ) columns = .error .piiBackendNotConfigured ↔
      ∃ name ∈ columns, isPiiColumn lower (pyStr name) := by
  obtain ⟨shown, hshown, hmem⟩ := iterMappingColumns_synthetic py columns
  have hdetect : detectPiiColumns py lower (syntheticMapping columns) =
      .ok (shown.filter (isPiiColumn lower)).dedup := by
    rw [detectPiiColumns, hshown, ok_bind]
    rfl
  have hnone : (shown.filter (isPiiColumn lower)).dedup = [] ↔
      ¬ ∃ name ∈ columns, isPiiColumn lower (pyStr name) := by
    rw [List.eq_nil_iff_forall_not_mem]
    simp [hmem]
  simp only [gateCsvHeaders, assertPiiHandled, hdetect, Except.mapError, ok_bind]
  by_cases hpii : ∃ name ∈ columns, isPiiColumn lower (pyStr name)
  · have hsome : (shown.filter (isPiiColumn lower)).dedup.isEmpty = false := by
      rw [List.isEmpty_eq_false_iff]
      exact fun hnil => hnone.mp hnil hpii
    simp [hsome, hpii]
  · simp [hnone.mpr hpii, hpii, pure, Except.pure]

end Detector

/-! ### Deliveries of a refused file -/

section Deliveries

/-- The delivery reads the file. -/
def Reads (p : IngestPipeline) (d : Delivery) (file : Bytes) : Prop :=
  ∃ objectKey, crossCheckPath p.bronzeBucket d.event = .ok objectKey ∧
    d.download objectKey = .ok file

/-- No row has the hash of the file. -/
def NoRowOf (p : IngestPipeline) (file : Bytes) (w : World) : Prop :=
  ∀ r ∈ w.bronze.rows, r.payloadSha256 ≠ some (p.sha256 file)

/-- The delivery writes no row of the file, and if it reads the file it writes and publishes
nothing. -/
structure Withholds (p : IngestPipeline) (file : Bytes) (w : World) (d : Delivery) : Prop where
  row : NoRowOf p file (step p w d)
  unchanged : Reads p d file → step p w d = w

/-- The file passes the preflight and is refused by the gate. -/
def Refused (p : IngestPipeline) (file : Bytes) : Prop :=
  ∃ preflight e, p.runPreflight file = .ok preflight ∧
    p.gateCsvHeaders preflight.columns = .error e

variable {p : IngestPipeline} {d : Delivery} {w : World} {file : Bytes}

lemma lookUp_reads {data : Bytes} {prior : Option BronzeRow}
    (h : lookUp p d w = .ok (data, prior)) : Reads p d data := by
  unfold lookUp at h
  split at h
  · cases h
  next objectKey hpath =>
    split at h
    · cases h
    next data' hdata =>
      cases hprior : findPrior d (p.sha256 data') w.bronze with
      | error s => simp [hprior, Except.map] at h
      | ok prior' =>
        simp only [hprior, Except.map, Except.ok.injEq, Prod.mk.injEq] at h
        exact ⟨objectKey, hpath, h.1 ▸ hdata⟩

lemma Reads.eq {data : Bytes} (h : Reads p d file) (h' : Reads p d data) : data = file := by
  obtain ⟨key, hkey, hfile⟩ := h
  obtain ⟨key', hkey', hdata⟩ := h'
  obtain rfl : key = key' := by simpa [hkey] using hkey'
  simpa [hfile] using hdata.symm

lemma step_of_reads (hrefused : Refused p file) (hno : NoRowOf p file w) (hreads : Reads p d file) :
    step p w d = w := by
  unfold step process
  cases hlook : lookUp p d w with
  | error s => rfl
  | ok found =>
    obtain ⟨data, prior⟩ := found
    obtain rfl := hreads.eq (lookUp_reads hlook)
    cases prior with
    | none =>
      obtain ⟨preflight, e, hsniff, hgate⟩ := hrefused
      simp [handleFresh, hsniff, hgate, failing]
    | some r =>
      obtain ⟨-, -, hprior⟩ := lookUp_ok hlook
      obtain ⟨hr, hkey⟩ := latestPrior_some hprior.symm
      exact absurd hkey.2.2.1 (hno r hr)

lemma noRowOf_insert {t : BronzeTable} {row : BronzeRow} (hno : NoRowOf p file w)
    (hinsert : w.bronze.insertRow row = some t)
    (hrow : row.payloadSha256 ≠ some (p.sha256 file)) : NoRowOf p file { w with bronze := t } := by
  intro r hr
  have hrows := insertRow_rows hinsert
  dsimp only at hr
  rw [hrows] at hr
  rcases List.mem_append.mp hr with hr | hr
  · exact hno r hr
  · rw [List.mem_singleton.mp hr]
    exact hrow

lemma noRowOf_mark (hno : NoRowOf p file w) (m : IngressReadyEvent) :
    NoRowOf p file (mark d m w) := by
  intro r hr
  obtain ⟨r', hr', rfl⟩ := List.mem_map.mp hr
  have hsha := hno r' hr'
  split <;> exact hsha

lemma noRowOf_of_opens {w' : World} {r : BronzeRow} (hno : NoRowOf p file w)
    (hother : ∀ data, Reads p d data → p.sha256 data ≠ p.sha256 file)
    (hopens : Opens p d w w' r) : NoRowOf p file w' := by
  cases hopens with
  | prior hlook hopen => exact hno
  | fresh hlook hinsert =>
    refine noRowOf_insert hno hinsert fun hsha => ?_
    exact hother _ (lookUp_reads hlook) (Option.some.inj hsha)

lemma step_noRowOf (hno : NoRowOf p file w)
    (hother : ∀ data, Reads p d data → p.sha256 data ≠ p.sha256 file) :
    NoRowOf p file (step p w d) := by
  have hends := process_ends p d w
  unfold step
  revert hends
  generalize process p d w = ending
  intro hends
  cases hends with
  | raised => exact hno
  | noop hlook hdone => exact hno
  | failed hlook hinsert =>
    refine noRowOf_insert hno hinsert fun hsha => ?_
    exact hother _ (lookUp_reads hlook) (Option.some.inj hsha)
  | opened hopens => exact noRowOf_of_opens hno hother hopens
  | sent hopens hm hdying =>
    have hopened := noRowOf_of_opens hno hother hopens
    exact hopened
  | @marked w' r m _ hopens hm hdying =>
    have hopened := noRowOf_of_opens hno hother hopens
    have hsent : NoRowOf p file (send m w') := hopened
    exact noRowOf_mark hsent m

lemma withholds (hrefused : Refused p file) (hno : NoRowOf p file w)
    (hsha : ∀ data, Reads p d data → p.sha256 data = p.sha256 file → data = file) :
    Withholds p file w d := by
  refine ⟨?_, step_of_reads hrefused hno⟩
  by_cases hreads : Reads p d file
  · rw [step_of_reads hrefused hno hreads]
    exact hno
  · refine step_noRowOf hno fun data hdata heq => ?_
    exact hreads (hsha data hdata heq ▸ hdata)

end Deliveries

/-! ### Runs without a backend -/

/-- The worker runs the gate over the detector, with the given PII backend. -/
def GatedBy {ω κ : Type} (py : Builtins ω) (lower : PyStr → PyStr) (piiBackend : Option κ)
    (p : IngestPipeline) : Prop :=
  p.gateCsvHeaders = gateCsvHeaders py lower piiBackend

/-- The files that the deliveries read do not collide with the file under SHA-256. -/
def NoCollision (p : IngestPipeline) (file : Bytes) (ds : List Delivery) : Prop :=
  ∀ d ∈ ds, ∀ data, Reads p d data → p.sha256 data = p.sha256 file → data = file

/-- Without a PII backend, a file whose header has a PII column gets no bronze row and no
message, in any run of deliveries and redeliveries and whatever fails. -/
theorem pii_never_lands {ω κ : Type} (py : Builtins ω) (lower : PyStr → PyStr)
    (p : IngestPipeline) (hgate : GatedBy py lower (none : Option κ) p) (file : Bytes)
    (preflight : PreflightResult) (hsniff : p.runPreflight file = .ok preflight)
    (hpii : ∃ name ∈ preflight.columns, isPiiColumn lower (pyStr name)) (ds : List Delivery)
    (w : World) (hsha : NoCollision p file ds) (hnew : NoRowOf p file w) :
    Along (step p) (Withholds p file) ds w := by
  have hrefuses : p.gateCsvHeaders preflight.columns = .error .piiBackendNotConfigured := by
    rw [hgate]
    exact (gateCsvHeaders_refuses_iff py lower preflight.columns).mpr hpii
  have hrefused : Refused p file := ⟨preflight, _, hsniff, hrefuses⟩
  refine along_of_invariant (fun w d hd hno => ?_) hnew
  have hkept := withholds hrefused hno (hsha d hd)
  exact ⟨hkept, hkept.row⟩

/-- The bytes `email`, a line feed, `1`. -/
def emailCsv : Bytes := [101, 109, 97, 105, 108, 10, 49]

/-- `str.lower` of ASCII text -/
def lowerAscii (s : PyStr) : PyStr := s.map fun c => if 65 ≤ c ∧ c ≤ 90 then c + 32 else c

/-- A worker without a PII backend. -/
def unbackedWorker : IngestPipeline where
  bronzeBucket := "b"
  sha256 data :=
    if data = emailCsv then
      String.ofList (hexDigits
        0xca59c27d0915761b96b945a1dd6ed89def4c330d96e3838853a930e7a1feb62d 64)
    else ""
  runPreflight data :=
    if data = emailCsv then .ok ⟨["email"], 1, 7, ","⟩ else .error (.failed (some "not_csv"))
  gateCsvHeaders := gateCsvHeaders scalars lowerAscii (none : Option Unit)

/-- A delivery of that file. -/
def emailDelivery (bronzeId : Uuid) : Delivery :=
  { deliveryOf (.ofNat 1) bronzeId 1767323046000000 with download := fun _ => .ok emailCsv }

theorem email_never_lands :
    Reads unbackedWorker (emailDelivery (.ofNat 5)) emailCsv ∧
      Along (step unbackedWorker) (Withholds unbackedWorker emailCsv)
        [emailDelivery (.ofNat 5), emailDelivery (.ofNat 6)] emptyWorld := by
  have hgate : GatedBy scalars lowerAscii (none : Option Unit) unbackedWorker := rfl
  have hnew : NoRowOf unbackedWorker emailCsv emptyWorld := by
    simp [NoRowOf, emptyWorld, BronzeTable.empty]
  refine ⟨⟨_, path_of_trace_one, rfl⟩, ?_⟩
  refine pii_never_lands scalars lowerAscii unbackedWorker hgate emailCsv _ rfl
    ⟨"email", by simp, by decide⟩ _ emptyWorld ?_ hnew
  intro d hd data hreads _
  obtain ⟨objectKey, -, hdata⟩ := hreads
  simp only [List.mem_cons, List.not_mem_nil, or_false] at hd
  rcases hd with rfl | rfl
  · exact (Except.ok.inj hdata).symm
  · exact (Except.ok.inj hdata).symm

end CortexDis.Pii
