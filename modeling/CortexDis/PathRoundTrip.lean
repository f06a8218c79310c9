import CortexDis.Numerals
import CortexDis.Runs
import CortexDis.UuidText

/-!
Object paths, built and parsed back.

The builder checks that no part is empty. The parser splits at every slash, and the file name
at its last dot, so that a slash in a part and a dot in the extension do not come back.
-/

namespace CortexDis.PathRoundTrip

open CortexDis.Values CortexDis.Errors CortexDis.ObjectPath CortexDis.UuidText CortexDis.Numerals

/-! ### Times -/

def minInstant : Timestamp := -62135596800000000

def maxInstant : Timestamp := 253402300799999999

/-- A `datetime`: what its clock shows, and how far that is ahead of UTC, if it says. -/
structure Datetime where
  wall : Timestamp
  utcOffset : Option ℤ
  wall_mem : minInstant ≤ wall ∧ wall ≤ maxInstant

/-- `ensure_utc` -/
def ensureUtc (dt : Datetime) : Except Exn Timestamp :=
  match dt.utcOffset with
  | none => .error (.other "NaiveDatetimeError")
  | some offset =>
    let t := dt.wall - offset
    if minInstant ≤ t ∧ t ≤ maxInstant then .ok t else .error (.other "OverflowError")

structure Date where
  year : ℕ
  month : ℕ
  day : ℕ
  deriving DecidableEq, Repr

/-- `_DAYS_BEFORE_MONTH`, from January on -/
def daysBeforeMonth (leap : Bool) (month : ℕ) : ℕ :=
  [0, 31, 59, 90, 120, 151, 181, 212, 243, 273, 304, 334].getD (month - 1) 0 +
    if 2 < month ∧ leap then 1 else 0

/-- Month and day of the `n`-th day of a year, from 0 on. -/
def monthDay (leap : Bool) (n : ℕ) : ℕ × ℕ :=
  let month := (n + 50) / 32
  let month := if n < daysBeforeMonth leap month then month - 1 else month
  (month, n - daysBeforeMonth leap month + 1)

/-- The date of the `n`-th day since the first day of the year 1, in cycles of 400, 100, 4 and
1 years. -/
def dateOf (n : ℕ) : Date :=
  let n400 := n / 146097
  let n100 := n % 146097 / 36524
  let n4 := n % 146097 % 36524 / 1461
  let n1 := n % 146097 % 36524 % 1461 / 365
  let year := n400 * 400 + n100 * 100 + n4 * 4 + n1
  -- the last day of a cycle that ends in a leap year
  if n1 = 4 ∨ n100 = 4 then ⟨year, 12, 31⟩
  else
    let leap := n1 = 3 ∧ (n4 ≠ 24 ∨ n100 = 3)
    let (month, day) := monthDay leap (n % 146097 % 36524 % 1461 % 365)
    ⟨year + 1, month, day⟩

/-- The date of an instant, in UTC. -/
def utcDate (t : Timestamp) : Date := dateOf (t / 86400000000 + 719162).toNat

example : utcDate 0 = ⟨1970, 1, 1⟩ := by decide
example : utcDate 1709164800000000 = ⟨2024, 2, 29⟩ := by decide
example : utcDate minInstant = ⟨1, 1, 1⟩ := by decide
example : utcDate maxInstant = ⟨9999, 12, 31⟩ := by decide

lemma monthDay_lt (leap : Bool) {n : ℕ} (h : n < 366) :
    (monthDay leap n).1 < 100 ∧ (monthDay leap n).2 < 100 := by
  revert n
  cases leap <;> decide +kernel

lemma date_lt {t : Timestamp} (hmin : minInstant ≤ t) (hmax : t ≤ maxInstant) :
    (utcDate t).year < 10000 ∧ (utcDate t).month < 100 ∧ (utcDate t).day < 100 := by
  have hn : (t / 86400000000 + 719162).toNat < 3652059 := by
    have hfirst : (-62135596800000000 : ℤ) ≤ t := hmin
    have hlast : (253402300799999999 : ℤ) ≥ t := hmax
    omega
  rw [utcDate]
  generalize (t / 86400000000 + 719162).toNat = n at hn
  unfold dateOf
  dsimp only
  split_ifs with hlast
  · dsimp only
    omega
  · refine ⟨?_, ?_⟩
    · dsimp only
      omega
    · exact monthDay_lt _ (by omega)

/-! ### The builder -/

/-- An identifier argument: an id or a text. -/
inductive IdArg
  | uuid (u : Uuid)
  | text (s : String)

/-- `str(id).strip()` -/
def IdArg.stripped : IdArg → List Char
  | .uuid u => strip u.chars
  | .text s => strip s.toList

/-- `f"{n:0{width}d}"` -/
def padded (width n : ℕ) : List Char := fixedDigits n (max width (PyDecimal.digitCount n))

/-- The segments between the slashes. -/
def segments (tid : Uuid) (sid : List Char) (date : Date) (trace extension : List Char) :
    List (List Char) :=
  [tenantWord, tid.chars, sourceWord, sid,
    ['y', 'y', 'y', 'y'] ++ ['='] ++ padded 4 date.year,
    ['m', 'm'] ++ ['='] ++ padded 2 date.month, ['d', 'd'] ++ ['='] ++ padded 2 date.day,
    trace ++ '.' :: extension]

/-- `source_id.strip()` -/
def sidOf (sourceId : String) : List Char := strip sourceId.toList

/-- `ext.strip().lstrip(".")` -/
def extensionOf (ext : String) : List Char := (strip ext.toList).dropWhile (· = '.')

section Build

variable (decimalDigit : Char → Option ℕ) (tenantId : IdArg) (sourceId : String) (traceId : IdArg)
  (eventTs : Datetime) (ext : String)

/-- `build_object_path` -/
def buildObjectPath : Except Exn String :=
  let tidRaw := tenantId.stripped
  let sid := sidOf sourceId
  let trace := traceId.stripped
  let extension := extensionOf ext
  if tidRaw = [] ∨ sid = [] ∨ trace = [] ∨ extension = [] then .error storageError
  else
    match uuidOfText decimalDigit tidRaw with
    | none => .error storageError
    | some tid => do
      let ts ← ensureUtc eventTs
      return String.ofList (['/'].intercalate (segments tid sid (utcDate ts) trace extension))

/-- The path parses to what it was built from. -/
def RoundTrips (path : String) : Prop :=
  ∃ tid ts, uuidOfText decimalDigit tenantId.stripped = some tid ∧ ensureUtc eventTs = .ok ts ∧
    parseObjectPath path = .ok {
      tenantId := tid
      sourceId := String.ofList (sidOf sourceId)
      year := (utcDate ts).year
      month := (utcDate ts).month
      day := (utcDate ts).day
      traceId := String.ofList traceId.stripped
      ext := String.ofList (extensionOf ext) }

/-- No part holds a slash, and the extension holds no dot. -/
structure Plain : Prop where
  source : '/' ∉ sidOf sourceId
  trace : '/' ∉ traceId.stripped
  extension : '/' ∉ extensionOf ext
  dot : '.' ∉ extensionOf ext

end Build

/-! ### The parser on built paths -/

lemma length_padded {width n : ℕ} (hw : 0 < width) (h : n < 10 ^ width) :
    (padded width n).length = width := by
  have hlog : Nat.log 10 n < width := Nat.log_lt_of_lt_pow' hw.ne' h
  rw [padded, length_fixedDigits, PyDecimal.digitCount]
  omega

lemma not_mem_padded {c : Char} (hc : c.isDigit = false) (width n : ℕ) : c ∉ padded width n := by
  intro h
  have hdigit := digits_fixedDigits n _ c h
  rw [hc] at hdigit
  cases hdigit

lemma decimalOf_padded {width n : ℕ} (hw : 0 < width) (h : n < 10 ^ width) :
    ObjectPath.decimalOf width (padded width n) = some n := by
  have hdigits : (padded width n).all (fun c => '0' ≤ c && c ≤ '9') = true := by
    rw [List.all_eq_true]
    intro c hc
    have hdigit := digits_fixedDigits n _ c hc
    simpa [Char.isDigit, Char.le_def] using hdigit
  have hvalue : PyDecimal.digitsValue (padded width n) = n := by
    have hlog : Nat.log 10 n < width := Nat.log_lt_of_lt_pow' hw.ne' h
    rw [padded, digitsValue_fixedDigits, PyDecimal.digitCount, max_eq_left (by omega),
      Nat.mod_eq_of_lt h]
  rw [ObjectPath.decimalOf, if_pos ⟨length_padded hw h, hdigits⟩]
  exact congrArg some hvalue

lemma partition_padded {name : List Char} {width n : ℕ} (hw : 0 < width) (h : n < 10 ^ width) :
    partition name width (name ++ ['='] ++ padded width n) = some n := by
  have hprefix : (name ++ ['=']).isPrefixOf (name ++ ['='] ++ padded width n) = true :=
    List.isPrefixOf_iff_prefix.mpr (List.prefix_append _ _)
  have hdrop : (name ++ ['='] ++ padded width n).drop (name.length + 1) = padded width n :=
    List.drop_left' (by simp)
  rw [partition, if_pos hprefix, hdrop, decimalOf_padded hw h]

lemma splitFilename_append {trace extension : List Char} (htrace : trace ≠ [])
    (hext : extension ≠ []) (hdot : '.' ∉ extension) :
    splitFilename (trace ++ '.' :: extension) =
      some (String.ofList trace, String.ofList extension) := by
  have hreverse : (trace ++ '.' :: extension).reverse =
      extension.reverse ++ '.' :: trace.reverse := by simp
  have hall : ∀ c ∈ extension.reverse, decide (c ≠ '.') = true := by
    intro c hc
    exact decide_eq_true fun heq => hdot (heq ▸ List.mem_reverse.mp hc)
  have htake : ((trace ++ '.' :: extension).reverse.takeWhile (· ≠ '.')).reverse = extension := by
    rw [hreverse, List.takeWhile_append_of_pos hall, List.takeWhile_cons_of_neg (by simp),
      List.append_nil, List.reverse_reverse]
  have hdrop : (trace ++ '.' :: extension).reverse.dropWhile (· ≠ '.') = '.' :: trace.reverse := by
    rw [hreverse, List.dropWhile_append_of_pos hall, List.dropWhile_cons_of_neg (by simp)]
  simp only [splitFilename, htake, hdrop]
  rw [if_neg (by simp [htrace, hext]), List.reverse_reverse]

lemma not_mem_of_splitFilename {s : List Char} {trace extension : String}
    (h : splitFilename s = some (trace, extension)) : '.' ∉ extension.toList := by
  unfold splitFilename at h
  dsimp only at h
  split at h
  · cases h
  · split_ifs at h
    cases h
    rw [String.toList_ofList, List.mem_reverse]
    intro hmem
    exact absurd (List.mem_takeWhile_imp hmem) (by simp)

lemma dropWhile_eq_self {α : Type*} {p : α → Bool} {s : List α}
    (h : ∀ c ∈ s.head?, p c = false) : s.dropWhile p = s := by
  cases s with
  | nil => rfl
  | cons c s => exact List.dropWhile_cons_of_neg (by simp [h c rfl])

lemma strip_eq_self {s : List Char} (hfirst : ∀ c ∈ s.head?, isSpace c = false)
    (hlast : ∀ c ∈ s.getLast?, isSpace c = false) : strip s = s := by
  rw [strip, PyText.trim, dropWhile_eq_self hfirst, dropWhile_eq_self, List.reverse_reverse]
  simpa using hlast

lemma getLast?_strip {s : List Char} : ∀ c ∈ (strip s).getLast?, isSpace c = false := by
  intro c hc
  rw [strip, PyText.trim, List.getLast?_reverse] at hc
  have hhead := List.head?_dropWhile_not isSpace (s.dropWhile isSpace).reverse
  rw [hc] at hhead
  simpa using hhead

lemma getLast?_extensionOf {ext : String} :
    ∀ c ∈ (extensionOf ext).getLast?, isSpace c = false := by
  intro c hc
  refine getLast?_strip (s := ext.toList) c ?_
  obtain ⟨t, ht⟩ := List.dropWhile_suffix (l := strip ext.toList) (fun c => decide (c = '.'))
  rw [← ht, List.getLast?_append]
  simp only [extensionOf] at hc
  rw [hc]
  rfl

lemma length_splitOn {α : Type*} [DecidableEq α] (a : α) (s : List α) :
    (s.splitOn a).length = s.count a + 1 := by
  induction s with
  | nil => simp
  | cons x s ih =>
    rw [List.splitOn_cons_eq_if_modifyHead, List.count_cons]
    by_cases h : x = a
    · simp [h, ih]
    · simp [h, ih]

section Parse

variable {tid : Uuid} {sid trace extension : List Char} {date : Date}

/-- The path without its last part. -/
def stem (tid : Uuid) (sid : List Char) (date : Date) (trace : List Char) : List Char :=
  ['e', 'n', 'a', 'n', 't', '/'] ++ tid.chars ++ '/' :: sourceWord ++ '/' :: sid ++
    '/' :: (['y', 'y', 'y', 'y'] ++ ['='] ++ padded 4 date.year) ++
    '/' :: (['m', 'm'] ++ ['='] ++ padded 2 date.month) ++
    '/' :: (['d', 'd'] ++ ['='] ++ padded 2 date.day) ++ '/' :: trace ++ ['.']

lemma intercalate_segments : ['/'].intercalate (segments tid sid date trace extension) =
    't' :: (stem tid sid date trace ++ extension) := by
  simp [segments, List.intercalate, List.intersperse, tenantWord, stem]

lemma matchPath_built (hext : extension ≠ [])
    (hlast : ∀ c ∈ extension.getLast?, isSpace c = false) :
    matchPath (strip (['/'].intercalate (segments tid sid date trace extension))) =
      parseSegments ((['/'].intercalate (segments tid sid date trace extension)).splitOn '/') := by
  have hstrip : strip (['/'].intercalate (segments tid sid date trace extension)) =
      ['/'].intercalate (segments tid sid date trace extension) := by
    rw [intercalate_segments]
    refine strip_eq_self ?_ ?_
    · simp only [List.head?_cons, Option.mem_some_iff, forall_eq']
      decide
    · intro c hc
      rw [← List.cons_append, List.getLast?_append_of_ne_nil _ hext] at hc
      exact hlast c hc
  have hscheme : ¬ scheme.isPrefixOf
      (['/'].intercalate (segments tid sid date trace extension)) = true := by
    rw [intercalate_segments, scheme, List.isPrefixOf_cons_cons]
    simp
  rw [hstrip, matchPath, if_neg hscheme]

lemma splitOn_built (hsid : '/' ∉ sid) (htrace : '/' ∉ trace) (hext : '/' ∉ extension) :
    (['/'].intercalate (segments tid sid date trace extension)).splitOn '/' =
      segments tid sid date trace extension := by
  rw [List.splitOn_intercalate]
  · have huuid : '/' ∉ tid.chars := not_mem_chars tid (by decide) (by decide)
    have hpadded : ∀ width n, '/' ∉ padded width n := not_mem_padded (by decide)
    intro l hl
    simp only [segments, List.mem_cons, List.not_mem_nil, or_false] at hl
    rcases hl with rfl | rfl | rfl | rfl | rfl | rfl | rfl | rfl
    · decide
    · exact huuid
    · decide
    · exact hsid
    · simp [hpadded]
    · simp [hpadded]
    · simp [hpadded]
    · simp [htrace, hext]
  · simp [segments]

lemma slashes_of_length (h : ((['/'].intercalate (segments tid sid date trace extension)).splitOn
    '/').length = 8) : '/' ∉ sid ∧ '/' ∉ trace ∧ '/' ∉ extension := by
  rw [length_splitOn, intercalate_segments, stem] at h
  have hsource : sourceWord.count '/' = 0 := by decide
  simp only [List.count_cons, List.count_append, List.count_nil, hsource] at h
  simp only [beq_iff_eq, Char.reduceEq, if_false, if_true] at h
  refine ⟨?_, ?_, ?_⟩ <;> rw [← List.count_eq_zero] <;> omega

lemma length_of_parseSegments {l : List (List Char)} {parsed : ParsedObjectPath}
    (h : parseSegments l = some parsed) : l.length = 8 := by
  unfold parseSegments at h
  split at h
  · rfl
  · cases h

lemma parseSegments_segments (hsid : sid ≠ [])
    (hdate : date.year < 10000 ∧ date.month < 100 ∧ date.day < 100) :
    parseSegments (segments tid sid date trace extension) =
      (splitFilename (trace ++ '.' :: extension)).map fun e =>
        ⟨tid, String.ofList sid, date.year, date.month, date.day, e.1, e.2⟩ := by
  have hguard : (True ∧ True ∧ sid ≠ []) ↔ True := by simp [hsid]
  have hyear : partition ['y', 'y', 'y', 'y'] 4 (['y', 'y', 'y', 'y'] ++ ['='] ++
      padded 4 date.year) = some date.year := partition_padded (by decide) hdate.1
  have hmonth : partition ['m', 'm'] 2 (['m', 'm'] ++ ['='] ++ padded 2 date.month) =
      some date.month := partition_padded (by decide) hdate.2.1
  have hday : partition ['d', 'd'] 2 (['d', 'd'] ++ ['='] ++ padded 2 date.day) =
      some date.day := partition_padded (by decide) hdate.2.2
  simp only [segments, parseSegments, guard, hguard, if_true, uuidOf_chars, hyear, hmonth, hday,
    Option.bind_eq_bind, Option.pure_def, Option.bind_some]
  cases splitFilename (trace ++ '.' :: extension) <;> rfl

end Parse

section RoundTrip

variable {decimalDigit : Char → Option ℕ} {tenantId : IdArg} {sourceId : String} {traceId : IdArg}
  {eventTs : Datetime} {ext path : String}

lemma of_buildObjectPath
    (h : buildObjectPath decimalDigit tenantId sourceId traceId eventTs ext = .ok path) :
    sidOf sourceId ≠ [] ∧ traceId.stripped ≠ [] ∧ extensionOf ext ≠ [] ∧
      ∃ tid ts, uuidOfText decimalDigit tenantId.stripped = some tid ∧ ensureUtc eventTs = .ok ts ∧
        path = String.ofList (['/'].intercalate
          (segments tid (sidOf sourceId) (utcDate ts) traceId.stripped (extensionOf ext))) := by
  simp only [buildObjectPath] at h
  split_ifs at h with hempty
  push Not at hempty
  cases htid : uuidOfText decimalDigit tenantId.stripped with
  | none =>
    rw [htid] at h
    cases h
  | some tid =>
    rw [htid] at h
    obtain ⟨ts, hts, h⟩ := Runs.of_bind_eq_ok h
    cases h
    exact ⟨hempty.2.1, hempty.2.2.1, hempty.2.2.2, tid, ts, rfl, hts, rfl⟩

lemma date_of_ensureUtc {ts : Timestamp} (h : ensureUtc eventTs = .ok ts) :
    (utcDate ts).year < 10000 ∧ (utcDate ts).month < 100 ∧ (utcDate ts).day < 100 := by
  unfold ensureUtc at h
  split at h
  · cases h
  · dsimp only at h
    split_ifs at h with hrange
    cases h
    exact date_lt hrange.1 hrange.2

lemma parseObjectPath_eq_ok {l : List Char} {parsed : ParsedObjectPath} :
    parseObjectPath (String.ofList l) = .ok parsed ↔ matchPath (strip l) = some parsed := by
  rw [parseObjectPath, String.toList_ofList]
  cases matchPath (strip l) <;> simp

end RoundTrip

/-- **When an object path round trips.** A path that was built parses to what it was built from
exactly when no part holds a slash and the extension holds no dot. -/
theorem path_round_trip_iff (decimalDigit : Char → Option ℕ) (tenantId : IdArg)
    (sourceId : String) (traceId : IdArg) (eventTs : Datetime) (ext path : String)
    (h : buildObjectPath decimalDigit tenantId sourceId traceId eventTs ext = .ok path) :
    RoundTrips decimalDigit tenantId sourceId traceId eventTs ext path ↔
      Plain sourceId traceId ext := by
  obtain ⟨hsid, htrace, hext, tid, ts, htid, hts, rfl⟩ := of_buildObjectPath h
  have hdate := date_of_ensureUtc hts
  have hmatch : matchPath (strip (['/'].intercalate (segments tid (sidOf sourceId) (utcDate ts)
      traceId.stripped (extensionOf ext)))) = _ := matchPath_built hext getLast?_extensionOf
  constructor
  · rintro ⟨tid', ts', -, -, hparse⟩
    rw [parseObjectPath_eq_ok, hmatch] at hparse
    obtain ⟨hsource, hslash, hslash'⟩ := slashes_of_length (length_of_parseSegments hparse)
    rw [splitOn_built hsource hslash hslash', parseSegments_segments hsid hdate,
      Option.map_eq_some_iff] at hparse
    obtain ⟨⟨trace, extension⟩, hsplit, hparsed⟩ := hparse
    have hextension : extension = String.ofList (extensionOf ext) :=
      congrArg ParsedObjectPath.ext hparsed
    have hdot := not_mem_of_splitFilename hsplit
    rw [hextension, String.toList_ofList] at hdot
    exact ⟨hsource, hslash, hslash', hdot⟩
  · intro hplain
    refine ⟨tid, ts, htid, hts, ?_⟩
    rw [parseObjectPath_eq_ok, hmatch, splitOn_built hplain.source hplain.trace hplain.extension,
      parseSegments_segments hsid hdate, splitFilename_append htrace hext hplain.dot]
    rfl

/-! ### Paths of one upload -/

/-- The start of the year 2026, two hours ahead of UTC. -/
def newYear : Datetime := ⟨1767225600000000, some 7200000000, by decide⟩

/-- The path of an upload of the given source, with the given extension. -/
def uploadPath (sourceId ext : String) : Except Exn String :=
  buildObjectPath (fun _ => none) (.uuid (.ofNat 2)) sourceId (.text " tr ") newYear ext

/-- The last part of it, on the day before in UTC. -/
def uploadKey (source file : String) : String :=
  "tenant/00000000-0000-0000-0000-000000000002/source/" ++ source ++
    "/yyyy=2025/mm=12/dd=31/" ++ file

lemma plain_csv : Plain "pos" (.text " tr ") ".csv" where
  source := by decide
  trace := by decide
  extension := by decide
  dot := by decide

theorem csv_path_round_trips :
    uploadPath "pos" ".csv" = .ok (uploadKey "pos" "tr.csv") ∧
      RoundTrips (fun _ => none) (.uuid (.ofNat 2)) "pos" (.text " tr ") newYear ".csv"
        (uploadKey "pos" "tr.csv") := by
  have hbuilt : uploadPath "pos" ".csv" = .ok (uploadKey "pos" "tr.csv") := by decide +kernel
  exact ⟨hbuilt,
    (path_round_trip_iff (fun _ => none) (.uuid (.ofNat 2)) "pos" (.text " tr ") newYear
    ".csv" _ hbuilt).mpr plain_csv⟩

/-- A slash in the source is no path of the scheme, and of the extension `tar.gz` only the end
comes back. -/
theorem path_loses_parts :
    uploadPath "pos/eu" "csv" = .ok (uploadKey "pos/eu" "tr.csv") ∧
      parseObjectPath (uploadKey "pos/eu" "tr.csv") = .error storageError ∧
      uploadPath "pos" "tar.gz" = .ok (uploadKey "pos" "tr.tar.gz") ∧
      parseObjectPath (uploadKey "pos" "tr.tar.gz") =
        .ok ⟨.ofNat 2, "pos", 2025, 12, 31, "tr.tar", "gz"⟩ ∧
      ¬ RoundTrips (fun _ => none) (.uuid (.ofNat 2)) "pos" (.text " tr ") newYear "tar.gz"
        (uploadKey "pos" "tr.tar.gz") := by
  have hparse : parseObjectPath (uploadKey "pos" "tr.tar.gz") =
      .ok ⟨.ofNat 2, "pos", 2025, 12, 31, "tr.tar", "gz"⟩ := by decide +kernel
  refine ⟨by decide +kernel, by decide +kernel, by decide +kernel, hparse, ?_⟩
  rintro ⟨tid, ts, -, -, hround⟩
  have hext : "gz" = String.ofList (extensionOf "tar.gz") :=
    congrArg ParsedObjectPath.ext (Except.ok.inj (hparse.symm.trans hround))
  exact absurd hext (by decide +kernel)

end CortexDis.PathRoundTrip
