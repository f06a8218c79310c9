import CortexDis.Values
import CortexDis.Errors

/-!
The object-path scheme of the bronze bucket,

    tenant/{tenant_uuid}/source/{source_id}/yyyy={Y}/mm={M}/dd={D}/{trace_id}.{ext}

and its two readers. Both strip their input first, so that a pattern's `$` only matches at
the very end.
-/

namespace CortexDis.ObjectPath

open CortexDis.Values CortexDis.Errors

/-- White space, as `str.strip` takes it. -/
def isSpace (c : Char) : Bool :=
  let n := c.toNat
  (9 ≤ n && n ≤ 13) || (28 ≤ n && n ≤ 32) || n = 0x85 || n = 0xa0 || n = 0x1680 ||
    (0x2000 ≤ n && n ≤ 0x200a) || n = 0x2028 || n = 0x2029 || n = 0x202f || n = 0x205f ||
    n = 0x3000

/-- `str.strip` -/
def strip (s : List Char) : List Char := PyText.trim isSpace s

lemma strip_cons_ne_nil {c : Char} (h : isSpace c = false) (s : List Char) :
    strip (c :: s) ≠ [] := by
  rw [strip, PyText.trim, List.dropWhile_cons_of_neg (by simp [h])]
  intro hnil
  have hall := List.dropWhile_eq_nil_iff.mp (List.reverse_eq_nil_iff.mp hnil) c (by simp)
  rw [h] at hall
  cases hall

def storageError : Exn := .other "StorageError"

/-- `gs://` -/
def scheme : List Char := ['g', 's', ':', '/', '/']

/-- The class `[a-z0-9-]` -/
def bucketChar (c : Char) : Bool := ('a' ≤ c && c ≤ 'z') || ('0' ≤ c && c ≤ '9') || c = '-'

/-- `_URI_RE` on a stripped text; `.` matches everything but a line feed. -/
def matchUri (candidate : List Char) : Option (List Char × List Char) :=
  if scheme.isPrefixOf candidate then
    let rest := candidate.drop scheme.length
    let bucket := rest.takeWhile bucketChar
    match rest.dropWhile bucketChar with
    | '/' :: key => if bucket = [] ∨ key = [] ∨ '\n' ∈ key then none else some (bucket, key)
    | _ => none
  else none

/-- `split_object_uri`: the bucket and the object key. -/
def splitObjectUri (uri : String) : Except Exn (String × String) :=
  match matchUri (strip uri.toList) with
  | some (bucket, key) => .ok (String.ofList bucket, String.ofList key)
  | none => .error storageError

structure ParsedObjectPath where
  tenantId : Uuid
  sourceId : String
  year : ℕ
  month : ℕ
  day : ℕ
  traceId : String
  ext : String
  deriving DecidableEq, Repr

/-- `[0-9]{n}` as a number -/
def decimalOf (n : ℕ) (s : List Char) : Option ℕ :=
  if s.length = n ∧ s.all (fun c => '0' ≤ c && c ≤ '9') then
    some (s.foldl (fun m c => 10 * m + (c.toNat - 48)) 0)
  else none

/-- The value of a digit of the class `[0-9a-f]`. -/
def hexValue (c : Char) : Option ℕ :=
  if '0' ≤ c ∧ c ≤ '9' then some (c.toNat - 48)
  else if 'a' ≤ c ∧ c ≤ 'f' then some (c.toNat - 87)
  else none

def hexOf (s : List Char) : Option ℕ :=
  s.foldlM (fun m c => (hexValue c).map fun d => 16 * m + d) 0

/-- A lowercase UUID, grouped 8-4-4-4-12. -/
def uuidOf (s : List Char) : Option Uuid :=
  match s.splitOn '-' with
  | [a, b, c, d, e] =>
    if [a, b, c, d, e].map List.length = [8, 4, 4, 4, 12] then
      (hexOf (a ++ b ++ c ++ d ++ e)).map Uuid.ofNat
    else none
  | _ => none

/-- A segment `{name}={digits}` -/
def partition (name : List Char) (n : ℕ) (s : List Char) : Option ℕ :=
  if (name ++ ['=']).isPrefixOf s then decimalOf n (s.drop (name.length + 1)) else none

/-- `filename.rpartition(".")` into two parts that are not empty. -/
def splitFilename (s : List Char) : Option (String × String) :=
  let ext := (s.reverse.takeWhile (· ≠ '.')).reverse
  match s.reverse.dropWhile (· ≠ '.') with
  | [] => none
  | _ :: stem => if stem = [] ∨ ext = [] then none
    else some (String.ofList stem.reverse, String.ofList ext)

/-- `tenant` -/
def tenantWord : List Char := ['t', 'e', 'n', 'a', 'n', 't']

/-- `source` -/
def sourceWord : List Char := ['s', 'o', 'u', 'r', 'c', 'e']

/-- The seven captures of a path, from its segments. -/
def parseSegments : List (List Char) → Option ParsedObjectPath
  | [first, tenant, third, source, yyyy, mm, dd, filename] => do
    guard (first = tenantWord ∧ third = sourceWord ∧ source ≠ [])
    let tenantId ← uuidOf tenant
    let year ← partition ['y', 'y', 'y', 'y'] 4 yyyy
    let month ← partition ['m', 'm'] 2 mm
    let day ← partition ['d', 'd'] 2 dd
    let (traceId, ext) ← splitFilename filename
    return { tenantId, sourceId := String.ofList source, year, month, day, traceId, ext }
  | _ => none

/-- `_PATH_RE` and the split of the filename, on a stripped text that is no URI. -/
def matchPath (candidate : List Char) : Option ParsedObjectPath :=
  if scheme.isPrefixOf candidate then none else parseSegments (candidate.splitOn '/')

/-- `parse_object_path` of an object key -/
def parseObjectPath (path : String) : Except Exn ParsedObjectPath :=
  match matchPath (strip path.toList) with
  | some parsed => .ok parsed
  | none => .error storageError

lemma splitObjectUri_ofList {l bucket key : List Char}
    (h : matchUri (strip l) = some (bucket, key)) :
    splitObjectUri (String.ofList l) = .ok (String.ofList bucket, String.ofList key) := by
  rw [splitObjectUri, String.toList_ofList, h]

lemma parseObjectPath_ofList {l : List Char} {parsed : ParsedObjectPath}
    (h : matchPath (strip l) = some parsed) :
    parseObjectPath (String.ofList l) = .ok parsed := by
  rw [parseObjectPath, String.toList_ofList, h]

/-! ### Small inputs -/

/-- The object key of a csv file of the source `pos`. -/
def posKey (tenantId traceId : Uuid) : List Char :=
  tenantWord ++ '/' :: tenantId.chars ++ '/' :: sourceWord ++ ['/', 'p', 'o', 's', '/'] ++
    ['y', 'y', 'y', 'y', '=', '2', '0', '2', '6', '/', 'm', 'm', '=', '0', '1', '/'] ++
    ['d', 'd', '=', '0', '2', '/'] ++ traceId.chars ++ ['.', 'c', 's', 'v']

/-- Its address in the bucket `b`. -/
def posUri (tenantId traceId : Uuid) : List Char :=
  scheme ++ 'b' :: '/' :: posKey tenantId traceId

end CortexDis.ObjectPath
