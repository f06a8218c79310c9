import CortexDis.DraftIr
import CortexDis.ObjectPath
import CortexDis.PyDict

/-!
The profile of example files: one column for each name their headers normalise to.

A file is what polars reads of it as text. A cell is measured after white space is stripped
from its ends.
-/

namespace CortexDis.Profiler

open CortexDis.PyDict CortexDis.DraftIr

/-! ### Files -/

structure Column where
  header : String
  cells : List (Option String)

/-- `pl.read_csv(path, infer_schema_length=0)`: columns of one height under distinct headers. -/
structure Frame where
  height : ℕ
  columns : List Column
  distinct : (columns.map Column.header).Nodup
  heights : ∀ c ∈ columns, c.cells.length = height

/-! ### Names -/

/-- `re.sub(r"[..]+", "_", s)`, of the characters that `p` holds for; `inRun` says that the one
before was one. -/
def subRuns (p : Char → Bool) : Bool → List Char → List Char
  | _, [] => []
  | inRun, c :: s =>
    if p c then if inRun then subRuns p true s else '_' :: subRuns p true s
    else c :: subRuns p false s

/-- `s.strip("_")` -/
def stripUnderscores (s : List Char) : List Char :=
  PyText.trim (· = '_') s

/-- `snake_case` -/
def snakeCase (header : String) : String :=
  let cleaned := (stripUnderscores
    (subRuns (fun c => !c.isAlphanum) false (ObjectPath.strip header.toList))).map Char.toLower
  String.ofList (subRuns (· = '_') false cleaned)

/-! ### Capacities -/

/-- `_STR_CAPS` -/
def strCaps : List ℕ := [32, 64, 128, 256]

/-- `_NUMERIC_CAPS` -/
def numericCaps : List (ℕ × ℕ) :=
  [(3, 2), (5, 2), (8, 3), (10, 4), (12, 4), (14, 3), (14, 4)]

/-- `bucket_str_capacity` -/
def bucketStrCapacity (maxLen : ℕ) : ℕ := (strCaps.find? fun cap => maxLen ≤ cap).getD 256

/-- `bucket_decimal_capacity` -/
def bucketDecimalCapacity (precision scale : ℕ) : ℕ × ℕ :=
  (numericCaps.find? fun cap => precision ≤ cap.1 && scale ≤ cap.2).getD (14, 4)

/-! ### Cells -/

/-- `cell.strip()` -/
def strip (cell : String) : String := String.ofList (ObjectPath.strip cell.toList)

/-- `_is_null` -/
def isNull (cell : Option String) : Bool := cell.elim true fun c => strip c = ""

/-- The cells that are not null, stripped. -/
def nonNull (cells : List (Option String)) : List String :=
  cells.filterMap fun cell => if isNull cell then none else cell.map strip

/-- The digits before the point, without zeros in front. -/
def wholeDigits (value : String) : ℕ :=
  (((value.toList.dropWhile (· = '-')).takeWhile (· ≠ '.')).dropWhile (· = '0')).length

/-- The digits after the point. -/
def fractionDigits (value : String) : ℕ :=
  ((value.toList.dropWhile (· = '-')).dropWhile (· ≠ '.')).tail.length

/-- `_decimal_precision_scale` -/
def decimalPrecisionScale (value : String) : ℕ × ℕ :=
  (wholeDigits value + fractionDigits value, fractionDigits value)

/-- What `\d` matches: of ASCII, the characters from `0` to `9`. -/
structure Digits where
  isDecimal : Char → Bool
  ascii : ∀ c : Char, c.toNat < 128 → isDecimal c = c.isDigit

def asciiDigits : Digits := ⟨Char.isDigit, fun _ _ => rfl⟩

variable (D : Digits)

/-- A text that is one character after another, as the layout asks. -/
def fits : List (Char → Bool) → List Char → Bool
  | [], _ => true
  | _ :: _, [] => false
  | p :: layout, c :: s => p c && fits layout s

/-- `\d{4}-\d{2}-\d{2}` -/
def dateLayout : List (Char → Bool) :=
  let d := D.isDecimal
  [d, d, d, d, (· = '-'), d, d, (· = '-'), d, d]

/-- `_DATE_RE`, on a stripped text: its `$` is the very end -/
def isDate (value : String) : Bool :=
  fits (dateLayout D) value.toList && value.toList.length = 10

/-- `_DATETIME_RE`, whose last group may be missing -/
def isDatetime (value : String) : Bool :=
  let d := D.isDecimal
  fits (dateLayout D ++ [fun c => c = ' ' || c = 'T', d, d, (· = ':'), d, d]) value.toList

def unsigned : List Char → List Char
  | '-' :: s => s
  | s => s

/-- `\d+`, and nothing else -/
def isDigits (s : List Char) : Bool := !s.isEmpty && s.all D.isDecimal

/-- `_INT_RE` -/
def isInt (value : String) : Bool := isDigits D (unsigned value.toList)

/-- `_DECIMAL_RE` -/
def isDecimalText (value : String) : Bool :=
  let s := unsigned value.toList
  isDigits D (s.takeWhile (· ≠ '.')) && (s.dropWhile (· ≠ '.')).head? = some '.' &&
    isDigits D (s.dropWhile (· ≠ '.')).tail

/-- `v.lower() in _BOOL_TOKENS`: no letter outside ASCII has its lower case in the two words -/
def isBool (value : String) : Bool :=
  value.toList.map Char.toLower = "true".toList || value.toList.map Char.toLower = "false".toList

/-- The precision and the scale of the cells that have a point. -/
def maxPrecisionScale (values : List String) : ℕ × ℕ :=
  values.foldl (fun (prec, scale) v =>
    if isDecimalText D v then
      (max prec (decimalPrecisionScale v).1, max scale (decimalPrecisionScale v).2)
    else (prec, scale)) (0, 0)

/-- `_infer_base` -/
def inferBase (values : List String) : String × Option (ℕ × ℕ) :=
  if values = [] then ("str", none)
  else if values.all isBool then ("bool", none)
  else if values.all (isDatetime D) then ("datetime", none)
  else if values.all (isDate D) then ("date", none)
  else if values.all (isInt D) then ("int", none)
  else if (values.all fun v => isInt D v || isDecimalText D v) && values.any (isDecimalText D) then
    let (prec, scale) := maxPrecisionScale D values
    ("decimal", some (bucketDecimalCapacity prec scale))
  else ("str", none)

/-! ### The profile -/

/-- What the loop over the files gathers under a name. -/
structure Gathered where
  cells : List (Option String)
  rawHeaders : List String
  presentFiles : ℕ
  rowsProfiled : ℕ

/-- One header of a file of some height. -/
def gatherColumn (d : Dict String Gathered) (height : ℕ) (c : Column) : Dict String Gathered :=
  let name := snakeCase c.header
  let g := (d.get? name).getD ⟨[], [], 0, 0⟩
  d.set name
    { cells := g.cells ++ c.cells
      rawHeaders :=
        if g.rawHeaders.contains c.header then g.rawHeaders else g.rawHeaders ++ [c.header]
      presentFiles := g.presentFiles + 1
      rowsProfiled := g.rowsProfiled + height }

def gatherFile (d : Dict String Gathered) (f : Frame) : Dict String Gathered :=
  f.columns.foldl (fun d c => gatherColumn d f.height c) d

def gather (frames : List Frame) : Dict String Gathered := frames.foldl gatherFile .empty

/-- The column of a name, from what was gathered under it. -/
def profileColumn (totalFiles : ℕ) (name : String) (g : Gathered) : ProfiledColumn :=
  let values := nonNull g.cells
  let (base, capacity) := inferBase D values
  let distinct := values.dedup.insertionSort (· ≤ ·)
  let isEnumCandidate := base = "str" && 2 ≤ distinct.length && distinct.length ≤ 8 &&
    distinct.length < g.rowsProfiled
  { name := name
    base := base
    nullable := g.cells.any isNull || g.presentFiles < totalFiles
    maxLength :=
      if base = "str" then some ↑(bucketStrCapacity ((values.map String.length).foldl max 0))
      else none
    precision := capacity.map fun c => ↑c.1
    scale := capacity.map fun c => ↑c.2
    distinctValues := if isEnumCandidate then distinct else []
    presentInFiles := g.presentFiles
    totalFiles := totalFiles
    rowsProfiled := g.rowsProfiled
    sourceHeaders := g.rawHeaders }

/-- `profile_csvs` -/
def profileCsvs (frames : List Frame) : List ProfiledColumn :=
  (gather frames).entries.map fun e => profileColumn D frames.length e.1 e.2

/-! ### What is gathered under a name -/

/-- The columns of the files, each with the height of its file. -/
def placed (frames : List Frame) : List (ℕ × Column) :=
  frames.flatMap fun f => f.columns.map fun c => (f.height, c)

/-- The columns whose headers normalise to a name. -/
def placedUnder (frames : List Frame) (name : String) : List (ℕ × Column) :=
  (placed frames).filter fun e => snakeCase e.2.header = name

/-- The counters and the cells are those of the columns. -/
structure GatheredFrom (cols : List (ℕ × Column)) (g : Gathered) : Prop where
  cells : g.cells = cols.flatMap fun e => e.2.cells
  presentFiles : g.presentFiles = cols.length
  rowsProfiled : g.rowsProfiled = (cols.map Prod.fst).sum

lemma gather_eq_foldl (frames : List Frame) :
    gather frames = (placed frames).foldl (fun d e => gatherColumn d e.1 e.2) .empty := by
  rw [gather, placed, List.foldl_flatMap]
  congr 1
  funext d f
  rw [gatherFile, List.foldl_map]

lemma get?_gatherColumn (d : Dict String Gathered) (height : ℕ) (c : Column) (name : String) :
    (gatherColumn d height c).get? name =
      if snakeCase c.header = name then (gatherColumn d height c).get? (snakeCase c.header)
      else d.get? name := by
  by_cases h : snakeCase c.header = name
  · rw [if_pos h, h]
  · rw [if_neg h, gatherColumn, Dict.get?_set_ne d _ h]

lemma gatheredFrom_snoc {cols : List (ℕ × Column)} {d : Dict String Gathered} {c : Column}
    (h : GatheredFrom cols ((d.get? (snakeCase c.header)).getD ⟨[], [], 0, 0⟩)) (height : ℕ) :
    GatheredFrom (cols ++ [(height, c)])
      (((gatherColumn d height c).get? (snakeCase c.header)).getD ⟨[], [], 0, 0⟩) := by
  rw [gatherColumn, Dict.get?_set_self, Option.getD_some]
  refine ⟨?_, ?_, ?_⟩
  · simp [h.cells]
  · simp [h.presentFiles]
  · simp [h.rowsProfiled]

/-- **What the loop gathers** under a name is what its columns hold. -/
theorem get?_gather (frames : List Frame) (name : String) :
    ((gather frames).get? name = none ↔ placedUnder frames name = []) ∧
      GatheredFrom (placedUnder frames name)
        (((gather frames).get? name).getD ⟨[], [], 0, 0⟩) := by
  rw [gather_eq_foldl, placedUnder]
  induction placed frames using List.reverseRecOn with
  | nil => exact ⟨by simp, ⟨rfl, rfl, rfl⟩⟩
  | append_singleton cols e ih =>
    obtain ⟨hnone, hfrom⟩ := ih
    rw [List.foldl_append, List.foldl_cons, List.foldl_nil, List.filter_append]
    by_cases h : snakeCase e.2.header = name
    · subst h
      refine ⟨by simp [gatherColumn], ?_⟩
      have hone : [e].filter (fun x => snakeCase x.2.header = snakeCase e.2.header) = [e] := by
        simp
      rw [hone]
      exact gatheredFrom_snoc hfrom e.1
    · rw [get?_gatherColumn, if_neg h]
      have hno : [e].filter (fun x => snakeCase x.2.header = name) = [] := by simp [h]
      rw [hno, List.append_nil]
      exact ⟨hnone, hfrom⟩

variable {D} {frames : List Frame}

lemma eq_profileColumn {col : ProfiledColumn} (h : col ∈ profileCsvs D frames) :
    ∃ g, GatheredFrom (placedUnder frames col.name) g ∧ placedUnder frames col.name ≠ [] ∧
      col = profileColumn D frames.length col.name g := by
  obtain ⟨e, he, rfl⟩ := List.mem_map.mp h
  have hget := (Dict.mem_entries (gather frames) (k := e.1) (v := e.2)).mp he
  obtain ⟨hnone, hfrom⟩ := get?_gather frames e.1
  rw [hget] at hnone hfrom
  exact ⟨e.2, hfrom, fun hnil => Option.some_ne_none _ (hnone.mpr hnil), rfl⟩

lemma exists_profiled {name : String} (h : placedUnder frames name ≠ []) :
    ∃ col ∈ profileCsvs D frames, col.name = name := by
  obtain ⟨g, hg⟩ := Option.ne_none_iff_exists'.mp
    (mt (get?_gather frames name).1.mp h)
  exact ⟨_, List.mem_map_of_mem ((Dict.mem_entries _).mpr hg), rfl⟩

lemma names_nodup : ((profileCsvs D frames).map ProfiledColumn.name).Nodup := by
  have hnames : (profileCsvs D frames).map ProfiledColumn.name =
      (gather frames).entries.map Prod.fst := by
    rw [profileCsvs, List.map_map]
    rfl
  rw [hnames]
  exact (gather frames).nodup

end CortexDis.Profiler
