import CortexDis.MultipartStream
import CortexDis.Utf8
import CortexDis.ObjectPath

/-!
The streaming upload reader: the collector's callbacks, the counted chunk loop and the checks
on what was collected.

A Starlette header value is text decoded as Latin-1, so it stands as its bytes. Of an error
its class and its data are kept.
-/

namespace CortexDis.UploadStream

open CortexDis.PyText CortexDis.PyDict CortexDis.MultipartStream

inductive ReaderError
  | payloadTooLarge (limitBytes observedBytes : ℕ)
  | uploadRequest (part : Option String)
  /-- the parser's own error -/
  | multipartParse
  | valueError
  deriving DecidableEq, Repr

/-- The arguments of a read. -/
structure ReaderArgs where
  maxFileBytes : ℕ
  bodyCeilingBytes : ℕ
  filePart : String := "file"
  /-- a frozen set -/
  textParts : List String := ["template_id", "store_code"]

structure ParsedUpload where
  fileBytes : Bytes
  filename : Option String
  fields : Dict String String
  deriving DecidableEq

/-- `_MAX_TEXT_FIELD_BYTES` -/
def maxTextFieldBytes : ℕ := 1024

/-- A bytes literal. -/
def ascii (s : String) : Bytes := s.toList.map fun c => UInt8.ofNat c.toNat

/-- `bytes.lower` -/
def lower (b : Bytes) : Bytes := b.map fun c => if 0x41 ≤ c ∧ c ≤ 0x5A then c + 0x20 else c

/-- `_MultipartCollector` -/
structure Collector where
  fileData : Option Bytes
  filename : Option String
  fields : Dict String String
  headers : Dict Bytes Bytes
  headerField : Bytes
  headerValue : Bytes
  /-- none for a part that is drained -/
  partName : Option String
  partIsFile : Bool
  partBuffer : Bytes

namespace Collector

/-- `_MultipartCollector.__init__` -/
def init : Collector := ⟨none, none, .empty, .empty, [], [], none, false, []⟩

def onHeaderField (c : Collector) (data : Bytes) : Collector :=
  { c with headerField := c.headerField ++ data }

def onHeaderValue (c : Collector) (data : Bytes) : Collector :=
  { c with headerValue := c.headerValue ++ data }

def onHeaderEnd (c : Collector) : Collector :=
  { c with
    headers := c.headers.set (lower c.headerField) c.headerValue
    headerField := []
    headerValue := [] }

def onPartBegin (c : Collector) : Collector := { c with headers := .empty, partBuffer := [] }

variable (m : PythonMultipart) (args : ReaderArgs)

def onHeadersFinished (c : Collector) : Except ReaderError Collector :=
  let disposition := c.headers.get? (ascii "content-disposition")
  let params := (m.parseOptionsHeader disposition).2
  let name := (params.get? (ascii "name")).map Utf8.decodeReplace
  if name = some args.filePart then
    if c.fileData.isSome then .error (.uploadRequest (some args.filePart))
    else .ok { c with
      partIsFile := true
      partName := name
      filename := (params.get? (ascii "filename")).map Utf8.decodeReplace }
  else if name.any args.textParts.contains then
    if name.any fun n => (c.fields.get? n).isSome then .error (.uploadRequest name)
    else .ok { c with partIsFile := false, partName := name }
  else .ok { c with partIsFile := false, partName := none }

def onPartData (c : Collector) (data : Bytes) : Except ReaderError Collector :=
  match c.partName with
  | none => .ok c
  | some name =>
    let buffer := c.partBuffer ++ data
    if c.partIsFile then
      if args.maxFileBytes < buffer.length then
        .error (.payloadTooLarge args.maxFileBytes buffer.length)
      else .ok { c with partBuffer := buffer }
    else if maxTextFieldBytes < buffer.length then .error (.uploadRequest (some name))
    else .ok { c with partBuffer := buffer }

def onPartEnd (c : Collector) : Except ReaderError Collector :=
  match c.partName with
  | none => .ok c
  | some name =>
    if c.partIsFile then
      .ok { c with fileData := some c.partBuffer, partName := none, partIsFile := false }
    else match Utf8.decode c.partBuffer with
      | none => .error (.uploadRequest (some name))
      | some text =>
        .ok { c with fields := c.fields.set name text, partName := none, partIsFile := false }

/-- One callback of the parser. -/
def call (c : Collector) : Callback → Except ReaderError Collector
  | .partBegin => .ok c.onPartBegin
  | .headerField data => .ok (c.onHeaderField data)
  | .headerValue data => .ok (c.onHeaderValue data)
  | .headerEnd => .ok c.onHeaderEnd
  | .headersFinished => c.onHeadersFinished m args
  | .partData data => c.onPartData args data
  | .partEnd => c.onPartEnd

end Collector

section Reader

variable (m : PythonMultipart) (args : ReaderArgs)

/-- `parser.write(chunk)` with the collector's callbacks. An exception of a callback ends the
write. -/
def writeChunk (p : m.Parser) (c : Collector) (chunk : Bytes) :
    Except ReaderError (m.Parser × Collector) := do
  let c ← (m.write p chunk).1.foldlM (Collector.call m args) c
  match (m.write p chunk).2 with
  | some p => .ok (p, c)
  | none => .error .multipartParse

/-- The loop over the stream, with the raw bytes counted before the parser sees a chunk. -/
def readChunks (totalRaw : ℕ) (p : m.Parser) (c : Collector) :
    List Bytes → Except ReaderError (m.Parser × Collector)
  | [] => .ok (p, c)
  | chunk :: rest =>
    if chunk.isEmpty then readChunks totalRaw p c rest
    else if args.bodyCeilingBytes < totalRaw + chunk.length then
      .error (.payloadTooLarge args.bodyCeilingBytes (totalRaw + chunk.length))
    else do
      let (p, c) ← writeChunk m args p c chunk
      readChunks (totalRaw + chunk.length) p c rest

/-- A character `str.isdigit` takes: in Latin-1, the decimal digits and three superscripts. -/
def digitByte (b : UInt8) : Bool := (0x30 ≤ b && b ≤ 0x39) || b == 0xB2 || b == 0xB3 || b == 0xB9

/-- `str.isdigit` -/
def isdigit (text : Bytes) : Bool := !text.isEmpty && text.all digitByte

/-- `int(text)` of a text of digits: decimal ones, at most 4300. -/
def int (text : Bytes) : Except ReaderError ℕ :=
  if text.all (fun b => 0x30 ≤ b && b ≤ 0x39) && text.length ≤ 4300 then
    .ok (text.foldl (fun n b => 10 * n + (b.toNat - 0x30)) 0)
  else .error .valueError

structure UploadHeaders where
  contentType : Option Bytes
  contentLength : Option Bytes

/-- The boundary of a `multipart/form-data` content type. -/
def boundary? (headers : UploadHeaders) : Option Bytes :=
  let parsed := m.parseOptionsHeader headers.contentType
  if parsed.1 = ascii "multipart/form-data" then parsed.2.get? (ascii "boundary") else none

/-- The early check of the declared length. -/
def checkDeclared (headers : UploadHeaders) : Except ReaderError Unit :=
  match headers.contentLength with
  | none => .ok ()
  | some declared =>
    if isdigit declared then do
      let n ← int declared
      if args.bodyCeilingBytes < n then .error (.payloadTooLarge args.bodyCeilingBytes n)
    else .ok ()

/-- `not text.strip()` -/
def blank (text : String) : Bool := (ObjectPath.strip text.toList).isEmpty

/-- The required text parts without a value, sorted. -/
def missing (c : Collector) : List String :=
  (args.textParts.filter fun name => blank ((c.fields.get? name).getD "")).mergeSort
    fun a b => decide (a ≤ b)

/-- The checks on a body that was read to its end. -/
def collected (c : Collector) : Except ReaderError ParsedUpload :=
  match c.fileData with
  | none => .error (.uploadRequest (some args.filePart))
  | some fileData =>
    match missing args c with
    | name :: _ => .error (.uploadRequest (some name))
    | [] => .ok ⟨fileData, c.filename, c.fields⟩

def readCsvUpload (headers : UploadHeaders) (chunks : List Bytes) :
    Except ReaderError ParsedUpload :=
  match boundary? m headers with
  | none => .error (.uploadRequest none)
  | some boundary => do
    checkDeclared args headers
    let (p, c) ← readChunks m args 0 (m.create boundary) .init chunks
    if m.finalize p then .error .multipartParse
    else collected args c

end Reader

end CortexDis.UploadStream
