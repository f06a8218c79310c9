import CortexDis.Intake

/-!
Poison messages.

A body that makes a parser raise anything but a contract error ends the pull pass: the loop is
left before the first acknowledgement is sent. Two kinds of bodies do: those on which
`json.loads` raises outside the two exceptions the parser catches, and objects whose
`received_ts` pydantic accepts as a datetime that `ensure_utc` refuses.
-/

namespace CortexDis.Poison

open CortexDis.Values CortexDis.Errors CortexDis.Envelope CortexDis.Intake CortexDis.Runs
open CortexDis.PyText CortexDis.PyJson

variable (P : Pydantic) (room : ℕ)

/-- An instant that has a UTC datetime. -/
def HasUtc : Datetime → Prop
  | .naive _ => False
  | .aware t => minInstant ≤ t ∧ t ≤ maxInstant

/-- A received timestamp that pydantic accepts and the validator raises on. -/
def RaisingTimestamp (raw : Raw) : Prop :=
  ∃ value t, raw.get "received_ts" = some value ∧ P.datetime value = some t ∧ ¬ HasUtc t

/-- A body on which the parsers raise something else than a contract error. -/
def Escapes (data : Bytes) : Prop :=
  loads room data = .error .recursionError ∨ loads room data = .error .valueError ∨
    ∃ raw, loads room data = .ok (.obj raw) ∧ RaisingTimestamp P raw

/-- A parser's answer that `process_message` can route: an event or a contract error. -/
def Routable {α : Type} (answer : Except Exn α) : Prop :=
  (∃ event, answer = .ok event) ∨ ∃ field tenantId traceId,
    answer = .error (.eventContract field tenantId traceId)

@[simp] lemma routable_ok {α : Type} (event : α) : Routable (.ok event : Except Exn α) :=
  Or.inl ⟨event, rfl⟩

@[simp] lemma routable_eventContract {α : Type} (field tenantId traceId : Option PyStr) :
    Routable (.error (.eventContract field tenantId traceId) : Except Exn α) :=
  Or.inr ⟨field, tenantId, traceId, rfl⟩

@[simp] lemma not_routable_other {α : Type} (cls : String) :
    ¬ Routable (.error (.other cls) : Except Exn α) := by
  rintro (⟨event, h⟩ | ⟨field, tenantId, traceId, h⟩) <;> cases h

lemma ensureUtc_cases (t : Datetime) :
    (HasUtc t ∧ ∃ ts, ensureUtc t = .ok ts) ∨
      (¬ HasUtc t ∧ ∃ cls, ensureUtc t = .error (.other cls)) := by
  cases t with
  | naive wall => exact Or.inr ⟨id, _, rfl⟩
  | aware t =>
    by_cases h : t < minInstant ∨ maxInstant < t
    · refine Or.inr ⟨fun hu => ?_, "OverflowError", if_pos h⟩
      have := hu.1
      have := hu.2
      omega
    · exact Or.inl ⟨by rw [HasUtc]; omega, t, if_neg h⟩

lemma routable_validated {α : Type} (raw : Raw) (event : Option α)
    (fields : List (String × Bool)) : Routable (validated raw event fields) := by
  unfold validated
  split <;> simp

lemma routable_model_iff {α : Type} (raw : Raw) {rest : Option Timestamp → Except Exn α}
    (hrest : ∀ ts, Routable (rest ts)) :
    Routable (receivedTs P raw >>= rest) ↔ ¬ RaisingTimestamp P raw := by
  unfold receivedTs
  cases hfield : required raw "received_ts" P.datetime with
  | none =>
    refine iff_of_true (hrest none) ?_
    rintro ⟨value, t, hvalue, ht, -⟩
    simp [required, hvalue, ht] at hfield
  | some t =>
    obtain ⟨value, hvalue, ht⟩ := Option.bind_eq_some_iff.mp hfield
    rcases ensureUtc_cases t with ⟨hu, ts, hts⟩ | ⟨hu, cls, hcls⟩
    · simp only [hts]
      refine iff_of_true (hrest (some ts)) ?_
      rintro ⟨value', t', hvalue', ht', hnu⟩
      rw [hvalue] at hvalue'
      cases hvalue'
      rw [ht] at ht'
      cases ht'
      exact hnu hu
    · simp only [hcls]
      refine iff_of_false (not_routable_other cls) (not_not.mpr ⟨value, t, hvalue, ht, hu⟩)

lemma routable_parse_iff {α : Type} {validate : Raw → Except Exn α}
    (hvalidate : ∀ raw, Routable (validate raw) ↔ ¬ RaisingTimestamp P raw) (data : Bytes) :
    Routable (parseEnvelope validate room data) ↔ ¬ Escapes P room data := by
  unfold parseEnvelope Escapes
  cases hl : loads room data with
  | error e => cases e <;> simp
  | ok value => cases value <;> simp [hvalidate]

lemma routable_ingress_iff (data : Bytes) :
    Routable (parseIngressReady P room data) ↔ ¬ Escapes P room data :=
  routable_parse_iff P room (fun raw => routable_model_iff P raw fun _ =>
    routable_validated raw _ _) data

lemma routable_csv_iff (data : Bytes) :
    Routable (parseCsvReceived P room data) ↔ ¬ Escapes P room data :=
  routable_parse_iff P room (fun raw => routable_model_iff P raw fun _ =>
    routable_validated raw _ _) data

/-! ### The pass -/

section Pass

variable {σ : Type}

/-- `process_message` returns a decision. -/
def Decides (answer : Except Exn Decision) : Prop := ∃ decision, answer = .ok decision

lemma decides_process_iff (pipeline : IngressReadyEvent → σ → Except Exn Disposition × σ)
    (data : Bytes) (st : σ) :
    Decides (processMessage P room pipeline data st).1 ↔ ¬ Escapes P room data := by
  rw [← routable_ingress_iff]
  unfold processMessage
  cases hp : parseIngressReady P room data with
  | error e => cases e <;> simp [Decides, Routable]
  | ok event =>
    refine iff_of_true ?_ (routable_ok event)
    dsimp only
    split <;> exact ⟨_, rfl⟩

lemma decides_processCsv_iff {ω : Type} (pipeline : CsvReceivedEvent → σ → Except Exn ω × σ)
    (data : Bytes) (st : σ) :
    Decides (processCsvMessage P room pipeline data st).1 ↔ ¬ Escapes P room data := by
  rw [← routable_csv_iff]
  unfold processCsvMessage
  cases hp : parseCsvReceived P room data with
  | error e => cases e <;> simp [Decides, Routable]
  | ok event =>
    refine iff_of_true ?_ (routable_ok event)
    dsimp only
    split <;> exact ⟨_, rfl⟩

/-- Every message is in exactly one of the two requests, in the order of the list. -/
def EachOnce (messages : List Message) (requests : Requests) : Prop :=
  ∃ decisions : List Decision, decisions.length = messages.length ∧
    requests.ackIds = ((messages.zip decisions).filter (·.2 = .ack)).map (·.1.ackId) ∧
    requests.nackIds = ((messages.zip decisions).filter (·.2 = .nack)).map (·.1.ackId)

section Loop

variable {process : Bytes → σ → Except Exn Decision × σ} {bad : Bytes → Prop}
  (hprocess : ∀ data st, Decides (process data st).1 ↔ ¬ bad data)
include hprocess

lemma pollLoop_ok {messages : List Message} (h : ∀ m ∈ messages, ¬ bad m.data)
    (sent : Requests) (st : σ) :
    ∃ requests, (pollLoop process messages sent st).1 = .ok requests ∧
      ∃ decisions : List Decision, decisions.length = messages.length ∧
        requests.ackIds = sent.ackIds ++
          ((messages.zip decisions).filter (·.2 = .ack)).map (·.1.ackId) ∧
        requests.nackIds = sent.nackIds ++
          ((messages.zip decisions).filter (·.2 = .nack)).map (·.1.ackId) := by
  induction messages generalizing sent st with
  | nil => exact ⟨sent, rfl, [], by simp⟩
  | cons message rest ih =>
    have ih := ih fun m hm => h m (List.mem_cons_of_mem _ hm)
    obtain ⟨decision, hd⟩ := (hprocess message.data st).mpr (h message List.mem_cons_self)
    cases hrun : process message.data st with
    | mk answer st' =>
      rw [hrun] at hd
      obtain rfl : answer = .ok decision := hd
      cases decision with
      | ack =>
        obtain ⟨requests, hr, ds, hlen, ha, hn⟩ :=
          ih { sent with ackIds := sent.ackIds ++ [message.ackId] } st'
        exact ⟨requests, by simp [pollLoop, hrun, hr], .ack :: ds, by simp [hlen],
          by simp [ha], by simp [hn]⟩
      | nack =>
        obtain ⟨requests, hr, ds, hlen, ha, hn⟩ :=
          ih { sent with nackIds := sent.nackIds ++ [message.ackId] } st'
        exact ⟨requests, by simp [pollLoop, hrun, hr], .nack :: ds, by simp [hlen],
          by simp [ha], by simp [hn]⟩

lemma pollLoop_raises {messages : List Message} {m : Message} (hm : m ∈ messages)
    (hbad : bad m.data) (sent : Requests) (st : σ) :
    ∃ e, (pollLoop process messages sent st).1 = .error e := by
  induction messages generalizing sent st with
  | nil => simp at hm
  | cons message rest ih =>
    cases hrun : process message.data st with
    | mk answer st' =>
      cases answer with
      | error e => exact ⟨e, by simp [pollLoop, hrun]⟩
      | ok decision =>
        have hne : m ≠ message := by
          rintro rfl
          exact (hprocess m.data st).mp ⟨decision, by rw [hrun]⟩ hbad
        have hm' := (List.mem_cons.mp hm).resolve_left hne
        cases decision with
        | ack =>
          obtain ⟨e, he⟩ := ih hm' { sent with ackIds := sent.ackIds ++ [message.ackId] } st'
          exact ⟨e, by simp [pollLoop, hrun, he]⟩
        | nack =>
          obtain ⟨e, he⟩ := ih hm' { sent with nackIds := sent.nackIds ++ [message.ackId] } st'
          exact ⟨e, by simp [pollLoop, hrun, he]⟩

lemma pollOnce_iff (messages : List Message) (st : σ) :
    (∃ requests, (pollOnce process messages st).1 = .ok requests ∧ EachOnce messages requests) ↔
      ∀ m ∈ messages, ¬ bad m.data := by
  constructor
  · rintro ⟨requests, hr, -⟩ m hm hbad
    obtain ⟨e, he⟩ := pollLoop_raises hprocess hm hbad ⟨[], []⟩ st
    rw [pollOnce, he] at hr
    cases hr
  · intro h
    obtain ⟨requests, hr, ds, hlen, ha, hn⟩ := pollLoop_ok hprocess h ⟨[], []⟩ st
    exact ⟨requests, hr, ds, hlen, by simpa using ha, by simpa using hn⟩

end Loop

/-- Both parsers answer, one message is routed, and a pass gives every message of its list
one of the two decisions, exactly when no body escapes. -/
theorem pass_survives_iff {τ ω : Type}
    (pipeline : IngressReadyEvent → σ → Except Exn Disposition × σ)
    (csvPipeline : CsvReceivedEvent → τ → Except Exn ω × τ) :
    (∀ data, Routable (parseIngressReady P room data) ↔ ¬ Escapes P room data) ∧
    (∀ data, Routable (parseCsvReceived P room data) ↔ ¬ Escapes P room data) ∧
    (∀ data st, Decides (processMessage P room pipeline data st).1 ↔ ¬ Escapes P room data) ∧
    (∀ messages st,
      (∃ requests, (pollOnce (processMessage P room pipeline) messages st).1 = .ok requests ∧
        EachOnce messages requests) ↔ ∀ m ∈ messages, ¬ Escapes P room m.data) ∧
    (∀ messages st,
      (∃ requests, (pollOnce (processCsvMessage P room csvPipeline) messages st).1 =
        .ok requests ∧ EachOnce messages requests) ↔ ∀ m ∈ messages, ¬ Escapes P room m.data) :=
  ⟨routable_ingress_iff P room, routable_csv_iff P room, decides_process_iff P room pipeline,
    pollOnce_iff (decides_process_iff P room pipeline),
    pollOnce_iff (decides_processCsv_iff P room csvPipeline)⟩

end Pass

/-! ### A timestamp without a zone -/

/-- The only time it is asked for is one of day. -/
def naivePydantic : Pydantic :=
  plainPydantic (fun _ => none) fun s =>
    if s = pyStr "2026-01-02T03:04:05" then some (.naive 1767323045000000) else none

def asciiBytes (s : String) : Bytes := s.toList.map fun c => UInt8.ofNat c.toNat

def garbageMessage : Message := ⟨"first", asciiBytes "garbage"⟩

def naiveMessage : Message :=
  ⟨"second", asciiBytes "\x7b\"received_ts\": \"2026-01-02T03:04:05\"\x7d"⟩

/-- A pipeline that writes every chunk. -/
def writing (_ : IngressReadyEvent) (st : Unit) : Except Exn Disposition × Unit :=
  (.ok .written, st)

lemma naiveMessage_raises : parseIngressReady naivePydantic 900 naiveMessage.data =
    .error (.other "NaiveDatetimeError") := by
  decide +kernel

/-- A timestamp without a zone raises out of the parser, and the message before it, rejected
and acknowledged in a pass of its own, is neither acknowledged nor redelivered. -/
theorem naive_timestamp_stalls :
    ¬ Routable (parseIngressReady naivePydantic 900 naiveMessage.data) ∧
    (pollOnce (processMessage naivePydantic 900 writing) [garbageMessage] ()).1 =
      .ok ⟨["first"], []⟩ ∧
    (pollOnce (processMessage naivePydantic 900 writing) [garbageMessage, naiveMessage] ()).1 =
      .error (.other "NaiveDatetimeError") := by
  have hgarbage : parseIngressReady naivePydantic 900 garbageMessage.data =
      .error (.eventContract none none none) := by decide +kernel
  refine ⟨?_, ?_, ?_⟩
  · rw [naiveMessage_raises]
    exact not_routable_other _
  · simp only [pollOnce, pollLoop, processMessage, hgarbage]
    rfl
  · simp [pollOnce, pollLoop, processMessage, hgarbage, naiveMessage_raises]

end CortexDis.Poison
