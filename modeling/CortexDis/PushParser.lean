import CortexDis.UploadStream

/-!
A push parser for multipart bodies, one byte at a time.

It stands for the parser of python-multipart on the bodies the examples read: the boundary
line, header lines, and data up to the next delimiter, where bytes that only looked like a
delimiter are given back as data.
-/

namespace CortexDis.PushParser

open CortexDis.PyText CortexDis.PyDict CortexDis.MultipartStream CortexDis.UploadStream

inductive Mode
  /-- the rest of the opening boundary line -/
  | opening (left : Bytes)
  | fieldStart
  | field
  | valueStart
  | value
  | valueEnd
  | headersEnd
  /-- as many bytes of the delimiter have been seen -/
  | data (matched : ℕ)
  | partTail
  | lastTail
  | finished

/-- Line break, two hyphens, boundary. -/
def delimiter (boundary : Bytes) : Bytes := 13 :: 10 :: 45 :: 45 :: boundary

/-- A byte of data after `pending` bytes that did not become a delimiter. -/
def resume (pending : Bytes) (b : UInt8) : List Callback × Option Mode :=
  if b = 13 then ([.partData pending], some (.data 1))
  else ([.partData pending, .partData [b]], some (.data 0))

def headerValueByte (b : UInt8) : List Callback × Option Mode :=
  if b = 13 then ([.headerEnd], some .valueEnd) else ([.headerValue [b]], some .value)

/-- One byte; no mode is left on malformed framing. -/
def step (boundary : Bytes) : Mode → UInt8 → List Callback × Option Mode
  | .opening [], _ => ([], none)
  | .opening (x :: left), b =>
    if b = x then
      if left.isEmpty then ([.partBegin], some .fieldStart) else ([], some (.opening left))
    else ([], none)
  | .fieldStart, b =>
    if b = 13 then ([], some .headersEnd)
    else if b ≤ 32 then ([], none) else ([.headerField [b]], some .field)
  | .field, b =>
    if b = 58 then ([], some .valueStart)
    else if b ≤ 32 then ([], none) else ([.headerField [b]], some .field)
  | .valueStart, b => if b = 32 then ([], some .valueStart) else headerValueByte b
  | .value, b => headerValueByte b
  | .valueEnd, b => if b = 10 then ([], some .fieldStart) else ([], none)
  | .headersEnd, b => if b = 10 then ([.headersFinished], some (.data 0)) else ([], none)
  | .data k, b =>
    if (delimiter boundary)[k]? = some b then ([], some (.data (k + 1)))
    else if k = (delimiter boundary).length && b = 13 then ([], some .partTail)
    else if k = (delimiter boundary).length && b = 45 then ([], some .lastTail)
    else resume ((delimiter boundary).take k) b
  | .partTail, b =>
    if b = 10 then ([.partEnd, .partBegin], some .fieldStart)
    else resume (delimiter boundary ++ [13]) b
  | .lastTail, b =>
    if b = 45 then ([.partEnd], some .finished) else resume (delimiter boundary ++ [45]) b
  | .finished, _ => ([], some .finished)

def write (boundary : Bytes) (mode : Mode) : Bytes → List Callback × Option Mode
  | [] => ([], some mode)
  | b :: rest =>
    match step boundary mode b with
    | (calls, none) => (calls, none)
    | (calls, some mode') =>
      (calls ++ (write boundary mode' rest).1, (write boundary mode' rest).2)

def parseOptions (header : Option Bytes) : Bytes × Dict Bytes Bytes :=
  match (header.getD []).splitOn 59 with
  | [] => ([], .empty)
  | first :: options =>
    (lower (trim [32].contains first), Dict.ofList (options.map fun option =>
      (trim [32].contains (option.takeWhile (· ≠ 61)),
        trim [32, 34].contains ((option.dropWhile (· ≠ 61)).drop 1))))

def pushParser : PythonMultipart where
  parseOptionsHeader := parseOptions
  Parser := Bytes × Mode
  create boundary := (boundary, .opening (45 :: 45 :: (boundary ++ [13, 10])))
  write p chunk := ((write p.1 p.2 chunk).1, (write p.1 p.2 chunk).2.map fun mode => (p.1, mode))
  finalize _ := false

/-- What a body is to the parser. -/
def framing (boundary body : Bytes) : Framing :=
  let written := write boundary (.opening (45 :: 45 :: (boundary ++ [13, 10]))) body
  ⟨(written.1.foldlM Delivered.add .empty).getD .empty, written.2.isNone, false⟩

lemma write_append (boundary : Bytes) (mode : Mode) (a b : Bytes) :
    write boundary mode (a ++ b) =
      match write boundary mode a with
      | (calls, none) => (calls, none)
      | (calls, some mode') =>
        (calls ++ (write boundary mode' b).1, (write boundary mode' b).2) := by
  induction a generalizing mode with
  | nil => simp [write]
  | cons x a ih =>
    rw [List.cons_append, write, write]
    rcases step boundary mode x with ⟨calls, mode'⟩
    cases mode' with
    | none => rfl
    | some mode' =>
      simp only [ih mode']
      rcases write boundary mode' a with ⟨more, mode''⟩
      cases mode'' with
      | none => rfl
      | some mode'' => simp only [List.append_assoc]

lemma feed_eq_write (boundary : Bytes) (mode : Mode) (chunks : List Bytes) :
    pushParser.feed (boundary, mode) chunks = ((write boundary mode chunks.flatten).1,
      (write boundary mode chunks.flatten).2.map fun mode => (boundary, mode)) := by
  induction chunks generalizing mode with
  | nil => rfl
  | cons chunk chunks ih =>
    rw [List.flatten_cons, write_append]
    refine (PythonMultipart.feed_cons pushParser (boundary, mode) chunk chunks).trans ?_
    have hwrite : pushParser.write (boundary, mode) chunk = ((write boundary mode chunk).1,
      (write boundary mode chunk).2.map fun mode => (boundary, mode)) := rfl
    rw [hwrite]
    rcases write boundary mode chunk with ⟨calls, mode'⟩
    cases mode' with
    | none => rfl
    | some mode' =>
      simp only [Option.map_some]
      exact congrArg (fun r => (calls ++ r.1, r.2)) (ih mode')

/-- Where the delivery stands in a mode. -/
def Fits : Mode → Current → Prop
  | .opening _, current => current = .none
  | .finished, current => current = .none
  | .fieldStart, current => ∃ done, current = .headers done [] []
  | .valueEnd, current => ∃ done, current = .headers done [] []
  | .headersEnd, current => ∃ done, current = .headers done [] []
  | .field, current => ∃ done field value, current = .headers done field value
  | .valueStart, current => ∃ done field value, current = .headers done field value
  | .value, current => ∃ done field value, current = .headers done field value
  | .data _, current => ∃ part, current = .data part
  | .partTail, current => ∃ part, current = .data part
  | .lastTail, current => ∃ part, current = .data part

/-- The callbacks of a step come in order. -/
def Ordered (d : Delivered) (result : List Callback × Option Mode) : Prop :=
  ∃ d', result.1.foldlM Delivered.add d = some d' ∧
    ∀ mode, result.2 = some mode → Fits mode d'.current

lemma resume_ordered (parts : List Part) (part : Part) (pending : Bytes) (b : UInt8) :
    Ordered ⟨parts, .data part⟩ (resume pending b) := by
  unfold resume
  split
  · exact ⟨_, rfl, fun mode hmode => by cases hmode; exact ⟨_, rfl⟩⟩
  · exact ⟨_, rfl, fun mode hmode => by cases hmode; exact ⟨_, rfl⟩⟩

lemma headerValueByte_ordered (parts : List Part) (done : List (Bytes × Bytes))
    (field value : Bytes) (b : UInt8) :
    Ordered ⟨parts, .headers done field value⟩ (headerValueByte b) := by
  unfold headerValueByte
  split
  · exact ⟨_, rfl, fun mode hmode => by cases hmode; exact ⟨_, rfl⟩⟩
  · exact ⟨_, rfl, fun mode hmode => by cases hmode; exact ⟨_, _, _, rfl⟩⟩

lemma step_ordered (boundary : Bytes) {mode : Mode} {d : Delivered} (h : Fits mode d.current)
    (b : UInt8) : Ordered d (step boundary mode b) := by
  have hnone : Ordered d ([], none) := ⟨d, rfl, fun mode hmode => by cases hmode⟩
  -- a byte that only moves the parser delivers nothing
  have hstay : ∀ mode', Fits mode' d.current → Ordered d ([], some mode') := fun mode' h' =>
    ⟨d, rfl, fun mode hmode => by cases hmode; exact h'⟩
  obtain ⟨parts, current⟩ := d
  cases mode with
  | opening left =>
    cases h
    cases left with
    | nil => exact hnone
    | cons x left =>
      rw [step]
      split
      · split
        · exact ⟨_, rfl, fun mode hmode => by cases hmode; exact ⟨_, rfl⟩⟩
        · exact hstay _ rfl
      · exact hnone
  | fieldStart =>
    obtain ⟨done, rfl⟩ := h
    rw [step]
    split
    · exact hstay .headersEnd ⟨done, rfl⟩
    · split
      · exact hnone
      · exact ⟨_, rfl, fun mode hmode => by cases hmode; exact ⟨_, _, _, rfl⟩⟩
  | field =>
    obtain ⟨done, field, value, rfl⟩ := h
    rw [step]
    split
    · exact hstay _ ⟨done, field, value, rfl⟩
    · split
      · exact hnone
      · exact ⟨_, rfl, fun mode hmode => by cases hmode; exact ⟨_, _, _, rfl⟩⟩
  | valueStart =>
    obtain ⟨done, field, value, rfl⟩ := h
    rw [step]
    split
    · exact hstay _ ⟨done, field, value, rfl⟩
    · exact headerValueByte_ordered parts done field value b
  | value =>
    obtain ⟨done, field, value, rfl⟩ := h
    exact headerValueByte_ordered parts done field value b
  | valueEnd =>
    rw [step]
    split
    · exact hstay _ h
    · exact hnone
  | headersEnd =>
    obtain ⟨done, rfl⟩ := h
    rw [step]
    split
    · exact ⟨_, rfl, fun mode hmode => by cases hmode; exact ⟨_, rfl⟩⟩
    · exact hnone
  | data k =>
    obtain ⟨part, rfl⟩ := h
    rw [step]
    split
    · exact hstay _ ⟨part, rfl⟩
    · split
      · exact hstay _ ⟨part, rfl⟩
      · split
        · exact hstay _ ⟨part, rfl⟩
        · exact resume_ordered parts part _ b
  | partTail =>
    obtain ⟨part, rfl⟩ := h
    rw [step]
    split
    · exact ⟨_, rfl, fun mode hmode => by cases hmode; exact ⟨_, rfl⟩⟩
    · exact resume_ordered parts part _ b
  | lastTail =>
    obtain ⟨part, rfl⟩ := h
    rw [step]
    split
    · exact ⟨_, rfl, fun mode hmode => by cases hmode; rfl⟩
    · exact resume_ordered parts part _ b
  | finished => exact hstay _ h

lemma write_ordered (boundary : Bytes) {mode : Mode} {d : Delivered} (h : Fits mode d.current)
    (bytes : Bytes) : ∃ d', (write boundary mode bytes).1.foldlM Delivered.add d = some d' := by
  induction bytes generalizing mode d with
  | nil => exact ⟨d, rfl⟩
  | cons b bytes ih =>
    obtain ⟨d', hd', hfits⟩ := step_ordered boundary h b
    rw [write]
    rcases hstep : step boundary mode b with ⟨calls, mode'⟩
    rw [hstep] at hd' hfits
    cases mode' with
    | none => exact ⟨d', hd'⟩
    | some mode' =>
      obtain ⟨d'', hd''⟩ := ih (hfits mode' rfl)
      refine ⟨d'', ?_⟩
      show (calls ++ (write boundary mode' bytes).1).foldlM Delivered.add d = some d''
      rw [List.foldlM_append]
      simp only at hd'
      rw [hd']
      exact hd''

theorem pushParser_splitIndependent : SplitIndependent pushParser framing where
  delivered := by
    intro boundary chunks
    have hfeed := feed_eq_write boundary (.opening (45 :: 45 :: (boundary ++ [13, 10]))) chunks
    have hfits : Fits (.opening (45 :: 45 :: (boundary ++ [13, 10]))) Delivered.empty.current := rfl
    obtain ⟨d, hd⟩ := write_ordered boundary hfits chunks.flatten
    have hframing : (framing boundary chunks.flatten).delivered = d := by
      show ((write boundary _ chunks.flatten).1.foldlM Delivered.add .empty).getD .empty = d
      rw [hd]
      rfl
    rw [hframing]
    exact (congrArg (fun r => r.1.foldlM Delivered.add .empty) hfeed).trans hd
  malformed := by
    intro boundary chunks
    have hfeed := feed_eq_write boundary (.opening (45 :: 45 :: (boundary ++ [13, 10]))) chunks
    exact (congrArg (fun r => r.2.isNone) hfeed).trans Option.isNone_map
  unfinished := fun boundary chunks p hp => rfl

end CortexDis.PushParser
