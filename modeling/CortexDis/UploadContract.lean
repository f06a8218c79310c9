import CortexDis.UploadParts
import CortexDis.PushParser

/-!
What the upload reader promises of a body.

The chunk loop is followed with the bytes written so far. Whether it goes on depends on those
bytes alone, so that a read is described by the framing of the body.
-/

namespace CortexDis.UploadContract

open CortexDis.PyText CortexDis.PyDict CortexDis.MultipartStream CortexDis.UploadStream
open CortexDis.UploadParts

variable {m : PythonMultipart} {args : ReaderArgs} {framing : Bytes → Bytes → Framing}
variable {boundary : Bytes}

/-! ### The chunk loop -/

variable (m args) in
/-- The loop stands behind the bytes `read`. -/
structure Reading (framing : Bytes → Bytes → Framing) (boundary read : Bytes) (p : m.Parser)
    (c : Collector) : Prop where
  chunks : ∃ chunks calls, chunks.flatten = read ∧
    m.feed (m.create boundary) chunks = (calls, some p)
  agrees : Agrees m args c (framing boundary read).delivered
  accepted : Accepted m args (framing boundary read).delivered

variable (args boundary) in
lemma Reading.start (h : SplitIndependent m framing) :
    Reading m args framing boundary [] (m.create boundary) .init := by
  have hempty : some Delivered.empty = some (framing boundary []).delivered :=
    h.delivered boundary []
  rw [Option.some.injEq] at hempty
  exact ⟨⟨[], [], rfl, rfl⟩, hempty ▸ agrees_init, hempty ▸ accepted_empty⟩

lemma Reading.wellFormed (h : SplitIndependent m framing) {read : Bytes} {p : m.Parser}
    {c : Collector} (hr : Reading m args framing boundary read p c) :
    (framing boundary read).malformed = false ∧
      m.finalize p = (framing boundary read).unfinished := by
  obtain ⟨chunks, calls, rfl, hfeed⟩ := hr.chunks
  refine ⟨?_, h.unfinished boundary chunks p (by rw [hfeed])⟩
  rw [← h.malformed, hfeed]
  rfl

/-- The step: a chunk is taken, or a part of the longer body is refused, or the longer body is
malformed. -/
lemma writeChunk_spec (h : SplitIndependent m framing) {read : Bytes} {p : m.Parser}
    {c : Collector} (hr : Reading m args framing boundary read p c) (chunk : Bytes) :
    (∃ p' c', writeChunk m args p c chunk = .ok (p', c') ∧
      Reading m args framing boundary (read ++ chunk) p' c') ∨
    (∃ e, writeChunk m args p c chunk = .error e ∧ IsUploadError e ∧
      ¬ Accepted m args (framing boundary (read ++ chunk)).delivered) ∨
    (writeChunk m args p c chunk = .error .multipartParse ∧
      (framing boundary (read ++ chunk)).malformed = true ∧
      Accepted m args (framing boundary (read ++ chunk)).delivered) := by
  obtain ⟨chunks, calls, rfl, hfeed⟩ := hr.chunks
  have hmore := h.delivered boundary (chunks ++ [chunk])
  have hmalformed := h.malformed boundary (chunks ++ [chunk])
  have hread := h.delivered boundary chunks
  have hfeed' : m.feed (m.create boundary) (chunks ++ [chunk]) =
      (calls ++ (m.write p chunk).1, (m.write p chunk).2) := by
    rw [m.feed_append hfeed, PythonMultipart.feed]
    rcases m.write p chunk with ⟨more, p'⟩
    cases p' <;> simp [PythonMultipart.feed]
  rw [hfeed] at hread
  rw [hfeed', List.foldlM_append, hread, List.flatten_append, List.flatten_singleton] at hmore
  rw [hfeed', List.flatten_append, List.flatten_singleton] at hmalformed
  unfold writeChunk
  -- the collector raises inside the callbacks, before the parser can report a malformed body
  rcases calls_follow hr.agrees hr.accepted hmore with ⟨c', hc', hagrees, haccepted⟩ |
    ⟨e, he, hupload, hrefused⟩
  · rw [hc']
    cases hwrite : (m.write p chunk).2 with
    | none =>
      rw [hwrite] at hmalformed
      exact .inr (.inr ⟨rfl, hmalformed.symm, haccepted⟩)
    | some p' =>
      rw [hwrite] at hfeed'
      refine .inl ⟨p', c', rfl, ⟨⟨chunks ++ [chunk], _, ?_, hfeed'⟩, hagrees, haccepted⟩⟩
      rw [List.flatten_append, List.flatten_singleton]
  · rw [he]
    exact .inr (.inl ⟨e, rfl, hupload, hrefused⟩)

lemma accepted_of_append (h : SplitIndependent m framing) {q r : Bytes}
    (ha : Accepted m args (framing boundary (q ++ r)).delivered) :
    Accepted m args (framing boundary q).delivered := by
  obtain ⟨more, hmore, -⟩ := h.append boundary q r
  exact ha.of_foldlM hmore

lemma malformed_append (h : SplitIndependent m framing) {q : Bytes} (r : Bytes)
    (hq : (framing boundary q).malformed = true) :
    (framing boundary (q ++ r)).malformed = true ∧
      (framing boundary (q ++ r)).delivered = (framing boundary q).delivered := by
  obtain ⟨more, hmore, hrest⟩ := h.append boundary q r
  obtain ⟨rfl, hmalformed⟩ := hrest hq
  exact ⟨hmalformed, (Option.some.inj hmore).symm⟩

variable (m args) in
/-- What a loop over a body ends with, by the bytes up to the ceiling. -/
def LoopEnds (framing : Bytes → Bytes → Framing) (boundary body : Bytes)
    (result : Except ReaderError (m.Parser × Collector)) : Prop :=
  (∃ p c, result = .ok (p, c) ∧ body.length ≤ args.bodyCeilingBytes ∧
    Reading m args framing boundary body p c) ∨
  (∃ e, result = .error e ∧ IsUploadError e ∧ (args.bodyCeilingBytes < body.length ∨
    ¬ Accepted m args (framing boundary (body.take args.bodyCeilingBytes)).delivered)) ∨
  (result = .error .multipartParse ∧
    (framing boundary (body.take args.bodyCeilingBytes)).malformed = true ∧
    Accepted m args (framing boundary (body.take args.bodyCeilingBytes)).delivered)

lemma readChunks_ends (h : SplitIndependent m framing) (rest : List Bytes) {read : Bytes}
    {p : m.Parser} {c : Collector} (hr : Reading m args framing boundary read p c)
    (hlength : read.length ≤ args.bodyCeilingBytes) :
    LoopEnds m args framing boundary (read ++ rest.flatten)
      (readChunks m args read.length p c rest) := by
  induction rest generalizing read p c with
  | nil =>
    rw [List.flatten_nil, List.append_nil]
    exact .inl ⟨p, c, rfl, hlength, hr⟩
  | cons chunk rest ih =>
    rw [readChunks, List.flatten_cons]
    by_cases hempty : chunk.isEmpty = true
    · rw [if_pos hempty, List.isEmpty_iff.mp hempty, List.nil_append]
      exact ih hr hlength
    rw [if_neg hempty]
    by_cases hceiling : args.bodyCeilingBytes < read.length + chunk.length
    · rw [if_pos hceiling]
      refine .inr (.inl ⟨_, rfl, trivial, .inl ?_⟩)
      simp only [List.length_append]
      omega
    rw [if_neg hceiling, ← List.append_assoc]
    have hlength' : (read ++ chunk).length ≤ args.bodyCeilingBytes := by
      rw [List.length_append]
      omega
    -- what the ceiling leaves of the body begins with the bytes read
    have htake : ((read ++ chunk) ++ rest.flatten).take args.bodyCeilingBytes =
        (read ++ chunk) ++ rest.flatten.take (args.bodyCeilingBytes - (read ++ chunk).length) := by
      rw [List.take_append, List.take_of_length_le hlength']
    rcases writeChunk_spec h hr chunk with ⟨p', c', hwrite, hr'⟩ | ⟨e, hwrite, hupload, hrefused⟩ |
      ⟨hwrite, hmalformed, haccepted⟩
    · rw [hwrite]
      have hloop := ih hr' hlength'
      rw [List.length_append] at hloop
      exact hloop
    · rw [hwrite]
      refine .inr (.inl ⟨e, rfl, hupload, .inr fun h' => hrefused ?_⟩)
      rw [htake] at h'
      exact accepted_of_append h h'
    · rw [hwrite]
      refine .inr (.inr ⟨rfl, ?_⟩)
      obtain ⟨hmalformed', hdelivered⟩ := malformed_append h
        (rest.flatten.take (args.bodyCeilingBytes - (read ++ chunk).length)) hmalformed
      rw [htake, hdelivered]
      exact ⟨hmalformed', haccepted⟩

/-! ### The checks on what was collected -/

lemma collected_congr {c c' : Collector} {d : Delivered} (h : Agrees m args c d)
    (h' : Agrees m args c' d) : collected args c = collected args c' := by
  have hfile : c.fileData = c'.fileData := h.fileData.trans h'.fileData.symm
  have hfilename : c.filename = c'.filename := h.filename.trans h'.filename.symm
  have hfields : c.fields = c'.fields := h.fields.trans h'.fields.symm
  have hmissing : missing args c = missing args c' := by rw [missing, missing, hfields]
  rw [collected, collected, hfile, hfilename, hfields, hmissing]

lemma isUploadError_of_collected {c : Collector} {e : ReaderError}
    (h : collected args c = .error e) : IsUploadError e := by
  unfold collected at h
  cases hfile : c.fileData with
  | none =>
    rw [hfile] at h
    cases h
    trivial
  | some fileData =>
    rw [hfile] at h
    cases hmissing : missing args c with
    | nil =>
      simp only [hmissing] at h
      cases h
    | cons name rest =>
      simp only [hmissing] at h
      cases h
      trivial

variable (m args) in
/-- What a returned upload comes from: a body within the ceiling, one completed file part and
one completed part for each text name. -/
structure Returned (body : Bytes) (parts : List Part) (parsed : ParsedUpload) : Prop where
  ceiling : body.length ≤ args.bodyCeilingBytes
  file : ∃ p, ofRole m args .file parts = [p] ∧ p.data.length ≤ args.maxFileBytes ∧
    parsed.fileBytes = p.data ∧ parsed.filename = partFilename m p
  text : ∀ name ∈ args.textParts, ∃ p text, ofRole m args (.text name) parts = [p] ∧
    p.data.length ≤ maxTextFieldBytes ∧ Utf8.decode p.data = some text ∧ blank text = false ∧
    parsed.fields.get? name = some text
  only : ∀ name text, parsed.fields.get? name = some text → name ∈ args.textParts

lemma parts_sublist (d : Delivered) : d.parts.Sublist d.begun := by
  obtain ⟨parts, current⟩ := d
  cases current with
  | none => exact List.Sublist.refl _
  | headers done field value => exact List.Sublist.refl _
  | data part => exact List.sublist_append_left _ _

lemma ofRole_eq_singleton {d : Delivered} (ha : Accepted m args d) {r : Role}
    (hr : r ≠ .drained) {p : Part} (hp : p ∈ d.parts) (hrole : role m args p = r) :
    ofRole m args r d.parts = [p] ∧ ofRole m args r d.begun = [p] := by
  have hsub : (ofRole m args r d.parts).Sublist (ofRole m args r d.begun) :=
    (parts_sublist d).filter _
  have hmem : p ∈ ofRole m args r d.parts := by
    rw [ofRole, List.mem_filter]
    exact ⟨hp, by simpa using hrole⟩
  have hlength := length_ofRole ha.once hr
  have hbegun : ofRole m args r d.begun = [p] := by
    obtain ⟨q, hq⟩ := List.length_eq_one_iff.mp
      (le_antisymm hlength (List.length_pos_of_mem (hsub.subset hmem)))
    rw [hq] at hsub ⊢
    rw [List.mem_singleton.mp (hsub.subset hmem)]
  refine ⟨?_, hbegun⟩
  rw [hbegun] at hsub
  exact (hsub.eq_of_length_le (List.length_pos_of_mem hmem))

lemma returned_of_collected {c : Collector} {d : Delivered} {body : Bytes}
    {parsed : ParsedUpload} (h : Agrees m args c d) (ha : Accepted m args d)
    (hlength : body.length ≤ args.bodyCeilingBytes) (hok : collected args c = .ok parsed) :
    Returned m args body d.parts parsed := by
  unfold collected at hok
  split at hok
  · cases hok
  · rename_i fileData hfile
    split at hok
    · cases hok
    · rename_i hmissing
      cases hok
      refine ⟨hlength, ?_, fun name hname => ?_, fun name text htext => ?_⟩
      · rw [h.fileData, fileDataOf] at hfile
        obtain ⟨p, hlast, rfl⟩ := Option.map_eq_some_iff.mp hfile
        have hmem := List.mem_of_getLast? hlast
        rw [ofRole, List.mem_filter, decide_eq_true_eq] at hmem
        obtain ⟨hparts, hbegun⟩ := ofRole_eq_singleton ha (by simp) hmem.1 hmem.2
        refine ⟨p, hparts, ha.fileSize p ((parts_sublist d).subset hmem.1) hmem.2, rfl, ?_⟩
        rw [h.filename, hbegun]
        rfl
      · -- a required field that is absent or empty would have been reported as missing
        have hnot : name ∉ missing args c := by
          rw [hmissing]
          exact List.not_mem_nil
        rw [missing, List.mem_mergeSort, List.mem_filter, not_and, Bool.not_eq_true] at hnot
        have hvalue := hnot hname
        cases htext : c.fields.get? name with
        | none =>
          rw [htext] at hvalue
          cases hvalue
        | some text =>
          rw [htext, Option.getD_some] at hvalue
          rw [h.fields] at htext
          obtain ⟨p, hp, hentry⟩ := List.mem_filterMap.mp (Dict.mem_of_get?_ofList htext)
          obtain ⟨hrole, hdecode⟩ := textEntry_eq_some.mp hentry
          exact ⟨p, text, (ofRole_eq_singleton ha (by simp) hp hrole).1,
            ha.textSize p ((parts_sublist d).subset hp) name hrole, hdecode, hvalue, rfl⟩
      · rw [h.fields] at htext
        obtain ⟨p, -, hentry⟩ := List.mem_filterMap.mp (Dict.mem_of_get?_ofList htext)
        rcases role_cases m args p with ⟨hrole, -⟩ | ⟨name', hrole, -, -, hcontains⟩ |
          ⟨hrole, -⟩
        · rw [(textEntry_eq_some.mp hentry).1] at hrole
          cases hrole
        · rw [(textEntry_eq_some.mp hentry).1] at hrole
          cases hrole
          exact List.contains_iff_mem.mp hcontains
        · rw [(textEntry_eq_some.mp hentry).1] at hrole
          cases hrole

lemma toOption_eq_some {α : Type} {r : Except ReaderError α} {a : α} :
    r.toOption = some a ↔ r = .ok a := by
  cases r <;> simp [Except.toOption]

/-! ### A whole read -/

variable (m args) in
/-- A body is read to an upload: it is within the ceiling, its framing is complete, no part of
it is refused and nothing is missing. -/
structure Assembles (f : Framing) (body : Bytes) (parsed : ParsedUpload) : Prop where
  ceiling : body.length ≤ args.bodyCeilingBytes
  malformed : f.malformed = false
  unfinished : f.unfinished = false
  accepted : Accepted m args f.delivered
  collected : ∃ c, Agrees m args c f.delivered ∧ collected args c = .ok parsed

lemma readCsvUpload_eq {headers : UploadHeaders} (hboundary : boundary? m headers = some boundary)
    (hdeclared : checkDeclared args headers = .ok ()) (chunks : List Bytes) :
    readCsvUpload m args headers chunks =
      match readChunks m args 0 (m.create boundary) .init chunks with
      | .error e => .error e
      | .ok (p, c) => if m.finalize p then .error .multipartParse else collected args c := by
  rw [readCsvUpload, hboundary]
  simp only [hdeclared]
  rcases readChunks m args 0 (m.create boundary) .init chunks with e | ⟨p, c⟩ <;> rfl

lemma read_ends (h : SplitIndependent m framing) {headers : UploadHeaders}
    (hboundary : boundary? m headers = some boundary)
    (hdeclared : checkDeclared args headers = .ok ()) (chunks : List Bytes) :
    (∃ c, chunks.flatten.length ≤ args.bodyCeilingBytes ∧
      (framing boundary chunks.flatten).malformed = false ∧
      Accepted m args (framing boundary chunks.flatten).delivered ∧
      Agrees m args c (framing boundary chunks.flatten).delivered ∧
      readCsvUpload m args headers chunks =
        if (framing boundary chunks.flatten).unfinished then .error .multipartParse
        else collected args c) ∨
    (∃ e, readCsvUpload m args headers chunks = .error e ∧ IsUploadError e ∧
      (args.bodyCeilingBytes < chunks.flatten.length ∨ ¬ Accepted m args
        (framing boundary (chunks.flatten.take args.bodyCeilingBytes)).delivered)) ∨
    (readCsvUpload m args headers chunks = .error .multipartParse ∧
      (framing boundary (chunks.flatten.take args.bodyCeilingBytes)).malformed = true ∧
      Accepted m args
        (framing boundary (chunks.flatten.take args.bodyCeilingBytes)).delivered) := by
  have hloop := readChunks_ends h chunks (Reading.start args boundary h)
    (Nat.zero_le args.bodyCeilingBytes)
  rw [List.nil_append, List.length_nil] at hloop
  rw [readCsvUpload_eq hboundary hdeclared]
  rcases hloop with ⟨p, c, hok, hlength, hr⟩ | ⟨e, herror, hrest⟩ | ⟨herror, hrest⟩
  · obtain ⟨hwell, hfinal⟩ := hr.wellFormed h
    exact .inl ⟨c, hlength, hwell, hr.accepted, hr.agrees, by rw [hok, ← hfinal]⟩
  · exact .inr (.inl ⟨e, by rw [herror], hrest⟩)
  · exact .inr (.inr ⟨by rw [herror], hrest⟩)

/-- A read returns by its headers and its body, however the body was split. -/
theorem read_eq_ok (h : SplitIndependent m framing) (headers : UploadHeaders)
    (chunks : List Bytes) (parsed : ParsedUpload) :
    readCsvUpload m args headers chunks = .ok parsed ↔
      ∃ boundary, boundary? m headers = some boundary ∧ checkDeclared args headers = .ok () ∧
        Assembles m args (framing boundary chunks.flatten) chunks.flatten parsed := by
  cases hboundary : boundary? m headers with
  | none => simp [readCsvUpload, hboundary]
  | some boundary =>
    cases hdeclared : checkDeclared args headers with
    | error e =>
      have hread : readCsvUpload m args headers chunks = .error e := by
        rw [readCsvUpload, hboundary]
        simp only [hdeclared]
        rfl
      simp [hread]
    | ok u =>
      simp only [Option.some.injEq, exists_eq_left', true_and]
      rcases read_ends h hboundary hdeclared chunks with
        ⟨c, hlength, hwell, haccepted, hagrees, hread⟩ | ⟨e, hread, -, hrefused⟩ |
        ⟨hread, hmalformed, -⟩
      · rw [hread]
        constructor
        · intro hparsed
          cases hun : (framing boundary chunks.flatten).unfinished with
          | true =>
            rw [hun] at hparsed
            cases hparsed
          | false =>
            rw [hun] at hparsed
            exact ⟨hlength, hwell, hun, haccepted, c, hagrees, hparsed⟩
        · intro ha
          obtain ⟨c', hagrees', hparsed⟩ := ha.collected
          rw [ha.unfinished, collected_congr hagrees hagrees']
          exact hparsed
      · rw [hread]
        refine iff_of_false (by simp) fun ha => ?_
        rw [List.take_of_length_le ha.ceiling] at hrefused
        rcases hrefused with hlong | hrefused
        · exact absurd ha.ceiling (by omega)
        · exact hrefused ha.accepted
      · rw [hread]
        refine iff_of_false (by simp) fun ha => ?_
        rw [List.take_of_length_le ha.ceiling, ha.malformed] at hmalformed
        cases hmalformed

/-- A malformed start within the ceiling ends the read with the parser's error, when it is a
chunk of its own. -/
lemma read_malformed (h : SplitIndependent m framing) {headers : UploadHeaders}
    (hboundary : boundary? m headers = some boundary)
    (hdeclared : checkDeclared args headers = .ok ()) {start : Bytes} (rest : Bytes)
    (hlength : start.length ≤ args.bodyCeilingBytes)
    (hmalformed : (framing boundary start).malformed = true)
    (haccepted : Accepted m args (framing boundary start).delivered) :
    readCsvUpload m args headers [start, rest] = .error .multipartParse := by
  have hempty : ¬ start.isEmpty = true := by
    intro hnil
    rw [List.isEmpty_iff.mp hnil, ((Reading.start args boundary h).wellFormed h).1] at hmalformed
    cases hmalformed
  rw [readCsvUpload_eq hboundary hdeclared, readChunks, if_neg hempty, if_neg (by omega)]
  rcases writeChunk_spec h (Reading.start args boundary h) start with
    ⟨p, c, -, hr⟩ | ⟨e, -, -, hrefused⟩ | ⟨hwrite, -⟩
  · rw [List.nil_append] at hr
    rw [(hr.wellFormed h).1] at hmalformed
    cases hmalformed
  · exact absurd haccepted hrefused
  · rw [hwrite]
    rfl

/-! ### The contract -/

/-- A length that `int` reads. -/
def PlainDigits (text : Bytes) : Prop :=
  text.all (fun b => 0x30 ≤ b && b ≤ 0x39) = true ∧ text.length ≤ 4300

/-- The declared length, where it is read, is within the ceiling. -/
def DeclaredFits (args : ReaderArgs) (headers : UploadHeaders) : Prop :=
  ∀ text n, headers.contentLength = some text → isdigit text = true → int text = .ok n →
    n ≤ args.bodyCeilingBytes

lemma int_cases (text : Bytes) : (PlainDigits text ∧ ∃ n, int text = .ok n) ∨
    (¬ PlainDigits text ∧ int text = .error .valueError) := by
  unfold int PlainDigits
  by_cases hall : text.all (fun b => 0x30 ≤ b && b ≤ 0x39) = true
  · by_cases hlength : text.length ≤ 4300
    · exact .inl ⟨⟨hall, hlength⟩, _, by rw [if_pos (by simp [hall, hlength])]⟩
    · exact .inr ⟨fun hplain => hlength hplain.2, by rw [if_neg (by simp [hlength])]⟩
  · exact .inr ⟨fun hplain => hall hplain.1, by rw [if_neg (by simp [hall])]⟩

lemma checkDeclared_cases (args : ReaderArgs) (headers : UploadHeaders) :
    (checkDeclared args headers = .ok () ∧ DeclaredFits args headers) ∨
    (∃ e, checkDeclared args headers = .error e ∧ IsUploadError e ∧
      ¬ DeclaredFits args headers) ∨
    (checkDeclared args headers = .error .valueError ∧
      ∃ text, headers.contentLength = some text ∧ isdigit text = true ∧ ¬ PlainDigits text) := by
  unfold checkDeclared DeclaredFits
  cases hlength : headers.contentLength with
  | none => exact .inl ⟨rfl, fun text n htext => by cases htext⟩
  | some text =>
    cases hdigit : isdigit text with
    | false =>
      refine .inl ⟨by simp [hdigit], fun text' n htext hdigit' => ?_⟩
      cases htext
      rw [hdigit] at hdigit'
      cases hdigit'
    | true =>
      -- `isdigit` is true of digits that `int` does not take
      rcases int_cases text with ⟨hplain, n, hn⟩ | ⟨hplain, herror⟩
      · simp only [hdigit, if_true, hn]
        by_cases hceiling : args.bodyCeilingBytes < n
        · refine .inr
            (.inl ⟨.payloadTooLarge args.bodyCeilingBytes n, ?_, trivial, fun hfits => ?_⟩)
          · show (if args.bodyCeilingBytes < n then _ else _) = _
            rw [if_pos hceiling]
          · exact absurd (hfits text n rfl hdigit hn) (by omega)
        · refine .inl ⟨?_, fun text' n' htext _ hn' => ?_⟩
          · show (if args.bodyCeilingBytes < n then _ else _) = _
            rw [if_neg hceiling]
            rfl
          · cases htext
            rw [hn] at hn'
            cases hn'
            omega
      · refine .inr (.inr ⟨?_, text, rfl, hdigit, hplain⟩)
        simp only [hdigit, if_true, herror]
        rfl

variable (m args) in
/-- The contract of the reader for a header set and a body, over all its splits. -/
structure ReaderContract (framing : Bytes → Bytes → Framing) (headers : UploadHeaders)
    (body : Bytes) : Prop where
  raises : ∀ chunks, chunks.flatten = body → ∀ e,
    readCsvUpload m args headers chunks = .error e → IsUploadError e
  split : ∀ chunks chunks', chunks.flatten = body → chunks'.flatten = body →
    (readCsvUpload m args headers chunks).toOption = (readCsvUpload m args headers chunks').toOption
  returned : ∀ chunks, chunks.flatten = body → ∀ parsed,
    readCsvUpload m args headers chunks = .ok parsed →
      ∃ boundary, boundary? m headers = some boundary ∧
        Returned m args body (framing boundary body).delivered.parts parsed

variable (m args) in
/-- The inputs on which the reader raises only its two errors: where it comes to read them, a
declared length of digits is one `int` reads, and the body up to the ceiling is well framed or
a part of it is refused first. -/
structure Readable (framing : Bytes → Bytes → Framing) (headers : UploadHeaders)
    (body : Bytes) : Prop where
  declared : ∀ boundary, boundary? m headers = some boundary → ∀ text,
    headers.contentLength = some text → isdigit text = true → PlainDigits text
  framed : ∀ boundary, boundary? m headers = some boundary → DeclaredFits args headers →
    Accepted m args (framing boundary (body.take args.bodyCeilingBytes)).delivered →
      (framing boundary (body.take args.bodyCeilingBytes)).malformed = false ∧
      (body.length ≤ args.bodyCeilingBytes → (framing boundary body).unfinished = false)

lemma raises_of_readable (h : SplitIndependent m framing) {headers : UploadHeaders}
    {chunks : List Bytes} (hr : Readable m args framing headers chunks.flatten) {e : ReaderError}
    (he : readCsvUpload m args headers chunks = .error e) : IsUploadError e := by
  cases hboundary : boundary? m headers with
  | none =>
    rw [readCsvUpload, hboundary] at he
    cases he
    trivial
  | some boundary =>
    have hdeclared : ∀ e', checkDeclared args headers = .error e' → e' = e := by
      intro e' he'
      rw [readCsvUpload, hboundary] at he
      simp only [he'] at he
      exact Except.error.inj he
    rcases checkDeclared_cases args headers with ⟨hok, hfits⟩ | ⟨e', he', hupload, -⟩ |
      ⟨-, text, htext, hdigit, hplain⟩
    · rcases read_ends h hboundary hok chunks with
        ⟨c, hlength, hwell, haccepted, hagrees, hread⟩ | ⟨e', hread, hupload, -⟩ |
        ⟨-, hmalformed, haccepted⟩
      · have hframed := hr.framed boundary hboundary hfits
        rw [List.take_of_length_le hlength] at hframed
        rw [hread, (hframed haccepted).2 hlength] at he
        exact isUploadError_of_collected he
      · rw [hread] at he
        cases he
        exact hupload
      · rw [((hr.framed boundary hboundary hfits) haccepted).1] at hmalformed
        cases hmalformed
    · exact hdeclared e' he' ▸ hupload
    · exact absurd (hr.declared boundary hboundary text htext hdigit) hplain

lemma readable_of_raises (h : SplitIndependent m framing) {headers : UploadHeaders}
    {body : Bytes} (hraises : ∀ chunks, chunks.flatten = body → ∀ e,
      readCsvUpload m args headers chunks = .error e → IsUploadError e) :
    Readable m args framing headers body := by
  have hplain : ∀ boundary, boundary? m headers = some boundary → ∀ text,
      headers.contentLength = some text → isdigit text = true → PlainDigits text := by
    intro boundary hboundary text htext hdigit
    rcases int_cases text with ⟨hplain, -⟩ | ⟨-, herror⟩
    · exact hplain
    · have hread : readCsvUpload m args headers [body] = .error .valueError := by
        rw [readCsvUpload, hboundary]
        simp only [checkDeclared, htext, hdigit, if_true, herror]
        rfl
      exact (hraises [body] (by simp) _ hread).elim
  refine ⟨hplain, fun boundary hboundary hfits haccepted => ?_⟩
  have hok : checkDeclared args headers = .ok () := by
    rcases checkDeclared_cases args headers with ⟨hok, -⟩ | ⟨e, -, -, hnot⟩ |
      ⟨-, text, htext, hdigit, hnot⟩
    · exact hok
    · exact absurd hfits hnot
    · exact absurd (hplain boundary hboundary text htext hdigit) hnot
  have hwell : (framing boundary (body.take args.bodyCeilingBytes)).malformed = false := by
    by_contra hmalformed
    rw [Bool.not_eq_false] at hmalformed
    -- the split that ends the first chunk at the ceiling would raise the parser's error
    have hread := read_malformed h hboundary hok (body.drop args.bodyCeilingBytes)
      (List.length_take_le _ _) hmalformed haccepted
    exact hraises _ (by simp) _ hread
  refine ⟨hwell, fun hlength => ?_⟩
  rw [List.take_of_length_le hlength] at hwell haccepted
  by_contra hunfinished
  rw [Bool.not_eq_false] at hunfinished
  have hbody : [body].flatten = body := by simp
  have hends := read_ends h hboundary hok [body]
  rw [hbody, List.take_of_length_le hlength] at hends
  rcases hends with ⟨c, -, -, -, -, hread⟩ | ⟨e, -, -, hlong | hrefused⟩ | ⟨-, hmalformed, -⟩
  · rw [hunfinished] at hread
    exact hraises _ hbody _ hread
  · omega
  · exact hrefused haccepted
  · rw [hwell] at hmalformed
    cases hmalformed

/-- **The reader keeps its contract** exactly where nothing but its own errors can arise:
whether it returns and what it returns depend on the body alone, and what it returns is within
every limit. -/
theorem reader_contract_iff (h : SplitIndependent m framing) (headers : UploadHeaders)
    (body : Bytes) :
    ReaderContract m args framing headers body ↔ Readable m args framing headers body := by
  constructor
  · exact fun hc => readable_of_raises h hc.raises
  · intro hr
    refine ⟨fun chunks hchunks e he => ?_, fun chunks chunks' hchunks hchunks' => ?_,
      fun chunks hchunks parsed hparsed => ?_⟩
    · exact raises_of_readable h (hchunks ▸ hr) he
    · ext parsed
      have hiff : readCsvUpload m args headers chunks = .ok parsed ↔
          readCsvUpload m args headers chunks' = .ok parsed := by
        rw [read_eq_ok h, read_eq_ok h, hchunks, hchunks']
      rw [toOption_eq_some, toOption_eq_some]
      exact hiff
    · obtain ⟨boundary, hboundary, -, ha⟩ := (read_eq_ok h headers chunks parsed).mp hparsed
      obtain ⟨c, hagrees, hok⟩ := ha.collected
      rw [hchunks] at ha hagrees
      exact ⟨boundary, hboundary, returned_of_collected hagrees ha.accepted ha.ceiling hok⟩

/-- The limits of a small reader. -/
def smallArgs : ReaderArgs where
  maxFileBytes := 64
  bodyCeilingBytes := 512

/-- A request with the boundary `B` and no declared length. -/
def formHeaders : UploadHeaders := ⟨some (ascii "multipart/form-data; boundary=B"), none⟩

def formPart (name value : String) : Bytes :=
  ascii ("--B\r\nContent-Disposition: form-data; name=\"" ++ name ++ "\"\r\n\r\n" ++ value ++
    "\r\n")

/-- A store, a template and a file. -/
def formBody : Bytes :=
  formPart "template_id" "T-1" ++ formPart "store_code" "TX-101" ++ formPart "file" "sku,qty\n" ++
    ascii "--B--\r\n"

theorem form_read : ReaderContract PushParser.pushParser smallArgs PushParser.framing formHeaders
      formBody ∧
    (readCsvUpload PushParser.pushParser smallArgs formHeaders [formBody]).isOk = true := by
  refine ⟨(reader_contract_iff PushParser.pushParser_splitIndependent formHeaders formBody).mpr
    ⟨fun boundary _ text htext => ?_, fun boundary hboundary _ _ => ?_⟩, by decide +kernel⟩
  · cases htext
  · have hB : boundary? PushParser.pushParser formHeaders = some (ascii "B") := by decide +kernel
    rw [hB] at hboundary
    cases hboundary
    exact ⟨by decide +kernel, fun _ => rfl⟩

/-- A body that is no multipart body at all ends the read with the parser's own error. -/
theorem parser_error_escapes : ¬ ReaderContract PushParser.pushParser smallArgs PushParser.framing
    formHeaders (ascii "hello") := by
  intro hc
  have hread : readCsvUpload PushParser.pushParser smallArgs formHeaders [ascii "hello"] =
      .error .multipartParse := by decide +kernel
  exact hc.raises _ (by decide +kernel) _ hread

end CortexDis.UploadContract
