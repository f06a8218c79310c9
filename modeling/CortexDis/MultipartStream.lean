import CortexDis.PyText
import CortexDis.PyDict

/-!
The push parser of python-multipart, and what a body delivers through its callbacks.

The parser is a parameter. It is written chunk by chunk, and each write runs callbacks, the
data callbacks with some piece of the data. `Delivered` collects the pieces into parts, so
that two splits of one body can be compared.
-/

namespace CortexDis.MultipartStream

open CortexDis.PyText CortexDis.PyDict

/-- One run of a callback; a data callback with its slice `data[start:end]`. -/
inductive Callback
  | partBegin
  | headerField (data : Bytes)
  | headerValue (data : Bytes)
  | headerEnd
  | headersFinished
  | partData (data : Bytes)
  | partEnd
  deriving DecidableEq, Repr

structure PythonMultipart where
  /-- `parse_options_header`: a value and its options; a text header is its Latin-1 bytes -/
  parseOptionsHeader : Option Bytes → Bytes × Dict Bytes Bytes
  Parser : Type
  /-- `MultipartParser(boundary, ..)` -/
  create : Bytes → Parser
  /-- `parser.write(chunk)`: the callbacks in order, and the parser left, or none when the
  write ends with a `MultipartParseError` -/
  write : Parser → Bytes → List Callback × Option Parser
  /-- `parser.finalize()` raises a `MultipartParseError` -/
  finalize : Parser → Bool

/-- A part with its headers and its data, each put together. -/
structure Part where
  headers : List (Bytes × Bytes)
  data : Bytes
  deriving DecidableEq, Repr

/-- What there is of a part that has not ended. -/
inductive Current
  | none
  | headers (done : List (Bytes × Bytes)) (field value : Bytes)
  | data (part : Part)
  deriving DecidableEq, Repr

structure Delivered where
  parts : List Part
  current : Current
  deriving DecidableEq, Repr

def Delivered.empty : Delivered := ⟨[], .none⟩

/-- One callback more; `none` when it comes out of order. -/
def Delivered.add : Delivered → Callback → Option Delivered
  | ⟨parts, .none⟩, .partBegin => some ⟨parts, .headers [] [] []⟩
  | ⟨parts, .headers done field value⟩, .headerField data =>
    some ⟨parts, .headers done (field ++ data) value⟩
  | ⟨parts, .headers done field value⟩, .headerValue data =>
    some ⟨parts, .headers done field (value ++ data)⟩
  | ⟨parts, .headers done field value⟩, .headerEnd =>
    some ⟨parts, .headers (done ++ [(field, value)]) [] []⟩
  | ⟨parts, .headers done [] []⟩, .headersFinished => some ⟨parts, .data ⟨done, []⟩⟩
  | ⟨parts, .data part⟩, .partData data =>
    some ⟨parts, .data ⟨part.headers, part.data ++ data⟩⟩
  | ⟨parts, .data part⟩, .partEnd => some ⟨parts ++ [part], .none⟩
  | _, _ => none

/-- The parts whose headers are complete, in order. -/
def Delivered.begun (d : Delivered) : List Part :=
  match d.current with
  | .data part => d.parts ++ [part]
  | _ => d.parts

/-- The ways a callback can be taken. -/
inductive Adds : Delivered → Callback → Delivered → Prop
  | partBegin (parts : List Part) : Adds ⟨parts, .none⟩ .partBegin ⟨parts, .headers [] [] []⟩
  | headerField (parts : List Part) (done : List (Bytes × Bytes)) (field value data : Bytes) :
    Adds ⟨parts, .headers done field value⟩ (.headerField data)
      ⟨parts, .headers done (field ++ data) value⟩
  | headerValue (parts : List Part) (done : List (Bytes × Bytes)) (field value data : Bytes) :
    Adds ⟨parts, .headers done field value⟩ (.headerValue data)
      ⟨parts, .headers done field (value ++ data)⟩
  | headerEnd (parts : List Part) (done : List (Bytes × Bytes)) (field value : Bytes) :
    Adds ⟨parts, .headers done field value⟩ .headerEnd
      ⟨parts, .headers (done ++ [(field, value)]) [] []⟩
  | headersFinished (parts : List Part) (done : List (Bytes × Bytes)) :
    Adds ⟨parts, .headers done [] []⟩ .headersFinished ⟨parts, .data ⟨done, []⟩⟩
  | partData (parts : List Part) (part : Part) (data : Bytes) :
    Adds ⟨parts, .data part⟩ (.partData data) ⟨parts, .data ⟨part.headers, part.data ++ data⟩⟩
  | partEnd (parts : List Part) (part : Part) :
    Adds ⟨parts, .data part⟩ .partEnd ⟨parts ++ [part], .none⟩

lemma adds_of_add {d d' : Delivered} {call : Callback} (h : d.add call = some d') :
    Adds d call d' := by
  unfold Delivered.add at h
  split at h
  · cases h; exact .partBegin _
  · cases h; exact .headerField ..
  · cases h; exact .headerValue ..
  · cases h; exact .headerEnd ..
  · cases h; exact .headersFinished ..
  · cases h; exact .partData ..
  · cases h; exact .partEnd ..
  · cases h

variable (m : PythonMultipart)

/-- The callbacks of writing chunks in order, and the parser left, unless a write raised. -/
def PythonMultipart.feed : m.Parser → List Bytes → List Callback × Option m.Parser
  | p, [] => ([], some p)
  | p, chunk :: rest =>
    match m.write p chunk with
    | (calls, none) => (calls, none)
    | (calls, some p') => (calls ++ (PythonMultipart.feed p' rest).1,
        (PythonMultipart.feed p' rest).2)

lemma PythonMultipart.feed_cons (p : m.Parser) (chunk : Bytes) (rest : List Bytes) :
    m.feed p (chunk :: rest) =
      match m.write p chunk with
      | (calls, none) => (calls, none)
      | (calls, some p') => (calls ++ (m.feed p' rest).1, (m.feed p' rest).2) := rfl

lemma PythonMultipart.feed_append {p p' : m.Parser} {chunks : List Bytes} {calls : List Callback}
    (h : m.feed p chunks = (calls, some p')) (rest : List Bytes) :
    m.feed p (chunks ++ rest) = (calls ++ (m.feed p' rest).1, (m.feed p' rest).2) := by
  induction chunks generalizing p calls with
  | nil =>
    cases h
    rfl
  | cons chunk chunks ih =>
    rw [PythonMultipart.feed_cons] at h
    rw [List.cons_append, PythonMultipart.feed_cons]
    rcases hwrite : m.write p chunk with ⟨calls₁, p₁⟩
    rw [hwrite] at h
    cases p₁ with
    | none => cases h
    | some p₁ =>
      simp only [Prod.mk.injEq] at h ⊢
      have hfeed : m.feed p₁ chunks = ((m.feed p₁ chunks).1, some p') := Prod.ext rfl h.2
      rw [ih hfeed, ← h.1, List.append_assoc]
      exact ⟨rfl, rfl⟩

lemma PythonMultipart.feed_append_of_none {p : m.Parser} {chunks : List Bytes}
    {calls : List Callback} (h : m.feed p chunks = (calls, none)) (rest : List Bytes) :
    m.feed p (chunks ++ rest) = (calls, none) := by
  induction chunks generalizing p calls with
  | nil => cases h
  | cons chunk chunks ih =>
    rw [PythonMultipart.feed_cons] at h
    rw [List.cons_append, PythonMultipart.feed_cons]
    rcases hwrite : m.write p chunk with ⟨calls₁, p₁⟩
    rw [hwrite] at h
    cases p₁ with
    | none => exact h
    | some p₁ =>
      simp only [Prod.mk.injEq] at h ⊢
      have hfeed : m.feed p₁ chunks = ((m.feed p₁ chunks).1, none) := Prod.ext rfl h.2
      rw [ih hfeed]
      exact ⟨h.1, rfl⟩

/-- What a body is to the parser, however it is split. -/
structure Framing where
  delivered : Delivered
  /-- a write raises -/
  malformed : Bool
  /-- no write raises and `finalize` does -/
  unfinished : Bool

/-- The documented behaviour of the parser: the callbacks come in order, and each split of a
body delivers the same joined data and raises or does not raise alike. -/
structure SplitIndependent (framing : Bytes → Bytes → Framing) : Prop where
  delivered : ∀ boundary chunks,
    (m.feed (m.create boundary) chunks).1.foldlM Delivered.add .empty =
      some (framing boundary chunks.flatten).delivered
  malformed : ∀ boundary chunks,
    (m.feed (m.create boundary) chunks).2.isNone = (framing boundary chunks.flatten).malformed
  unfinished : ∀ boundary chunks p, (m.feed (m.create boundary) chunks).2 = some p →
    m.finalize p = (framing boundary chunks.flatten).unfinished

variable {m} {framing : Bytes → Bytes → Framing} {boundary : Bytes}

lemma SplitIndependent.append (h : SplitIndependent m framing) (boundary q r : Bytes) :
    ∃ more : List Callback,
      more.foldlM Delivered.add (framing boundary q).delivered =
        some (framing boundary (q ++ r)).delivered ∧
      ((framing boundary q).malformed = true →
        more = [] ∧ (framing boundary (q ++ r)).malformed = true) := by
  have hq := h.delivered boundary [q]
  have hqr := h.delivered boundary ([q] ++ [r])
  have hqm := h.malformed boundary [q]
  have hqrm := h.malformed boundary ([q] ++ [r])
  simp only [List.flatten_append, List.flatten_cons, List.flatten_nil, List.append_nil]
    at hq hqr hqm hqrm
  rcases hfeed : m.feed (m.create boundary) [q] with ⟨calls, p⟩
  rw [hfeed] at hq hqm
  cases p with
  | none =>
    rw [m.feed_append_of_none hfeed] at hqr hqrm
    have heq := Option.some.inj (hq.symm.trans hqr)
    exact ⟨[], by rw [heq]; rfl, fun _ => ⟨rfl, hqrm.symm⟩⟩
  | some p =>
    rw [m.feed_append hfeed, List.foldlM_append, hq] at hqr
    refine ⟨(m.feed p [r]).1, hqr, fun hmalformed => ?_⟩
    rw [hmalformed] at hqm
    cases hqm

end CortexDis.MultipartStream
