import CortexDis.Values
import CortexDis.Errors
import CortexDis.Runs

/-!
What the engine uses of polars and of Python's text functions.

Columns are lists of cells with a data type. Functions whose tables are not under the source
(Unicode classes and case, date formats, zones, number parsing) are fields of `Polars`; they
work cell by cell, null in, null out.
-/

namespace CortexDis.Frames

open CortexDis.PyDict CortexDis.Values CortexDis.Errors CortexDis.Runs

inductive DType
  | string | int32 | int64 | int128 | float64 | boolean | date
  | decimal (precision scale : ℕ)
  | datetimeUtc
  deriving DecidableEq, Repr

/-- A column: its data type and its cells. -/
structure Series where
  dtype : DType
  cells : List Cell
  deriving DecidableEq, Repr

/-- A frame: its height, and its columns by name in order. -/
structure Frame where
  height : ℕ
  columns : Dict String Series

/-- Every column is as long as the frame is high. -/
def Frame.Rect (f : Frame) : Prop :=
  ∀ c s, f.columns.get? c = some s → s.cells.length = f.height

/-- The text a cell holds. -/
def text : Cell → Option String
  | some (.str s) => some s
  | _ => none

/-- The cell of a text. -/
def ofText (t : Option String) : Cell := t.map Value.str

@[simp] lemma text_ofText (t : Option String) : text (ofText t) = t := by
  cases t <;> rfl

/-- A column of text and null. -/
def Series.ofTexts (texts : List (Option String)) : Series :=
  ⟨.string, texts.map ofText⟩

def Series.texts (s : Series) : List (Option String) := s.cells.map text

/-- Every column is text. -/
def Frame.AllText (f : Frame) : Prop :=
  ∀ c s, f.columns.get? c = some s → ∃ texts, s = Series.ofTexts texts

abbrev DatetimeFormat := String

structure Polars where
  /-- the regex class `\d` -/
  isDigit : Char → Bool
  /-- white space, as `\s` and `strip_chars` take it -/
  isSpace : Char → Bool
  /-- `str.isprintable` of one character -/
  isPrintable : Char → Bool
  /-- `str.upper` -/
  upper : String → String
  toUppercase : String → String
  toLowercase : String → String
  /-- what polars raises for a date format it refuses -/
  dateFormatError : String → Option Exn
  /-- what polars raises for a datetime format it refuses -/
  datetimeFormatError : String → Option Exn
  /-- does a column parsed in this format carry a time zone? -/
  awareFormat : String → Bool
  /-- `strptime(pl.Date, format)`, in days -/
  strptimeDate : String → String → Option ℤ
  /-- `strptime(pl.Datetime, format)`: an instant in an aware format, else wall time -/
  strptimeDatetime : String → String → Option ℤ
  knowsZone : String → Bool
  /-- `replace_time_zone(zone, ambiguous="null", non_existent="null")`, as an instant -/
  replaceTimeZone : String → ℤ → Option ℤ
  strftimeDate : ℤ → String
  strftimeDatetime : ℤ → String
  /-- `cast(pl.Int64, strict=False)` -/
  castInt64 : String → Option ℤ
  /-- `cast(pl.Decimal(precision, scale), strict=False)`, unscaled -/
  castDecimal : ℕ → ℕ → String → Option ℤ
  /-- `(d / 100).cast(pl.String)` of a decimal with 18 fraction digits, unscaled -/
  hundredthText : ℤ → Option String
  /-- `str.to_date(format="%Y-%m-%d", strict=False)` -/
  toDate : String → Option ℤ
  /-- the format `str.to_datetime` infers from a column, none when every cell is null -/
  inferDatetime : List (Option String) → Except Exn (Option DatetimeFormat)
  /-- `str.to_datetime(time_zone="UTC", strict=False)` in an inferred format -/
  toDatetime : DatetimeFormat → String → Option ℤ
  /-- what polars raises for a data type it does not have -/
  dtypeError : DType → Option Exn
  /-- `cast` of a value that is not text -/
  castTyped : DType → Value → Cell
  /-- `str` of a value -/
  strValue : Value → String
  /-- the data type of a repeated integer -/
  intDtype : ℤ → Except Exn DType
  /-- the height of a frame after no column is selected -/
  selectNone : ℕ → ℕ
  /-- what polars raises for a column name `^…$` that is no regex -/
  regexError : String → Option Exn
  /-- does the regex match the name of the column? -/
  regexMatch : String → String → Bool

/-! ### Text -/

variable (P : Polars)

/-- `str.replace_all(c, "", literal=True)` -/
def removeAll (c : Char) (s : String) : String := String.ofList (s.toList.filter (· ≠ c))

/-- `str.replace_all(c, ".", literal=True)` -/
def dotFor (c : Char) (s : String) : String :=
  String.ofList (s.toList.map fun x => if x = c then '.' else x)

/-- `str.replace(r"<c>$", "")` -/
def dropEnd (c : Char) (s : String) : String :=
  match s.toList.reverse with
  | [] => s
  | x :: rest => if x = c then String.ofList rest.reverse else s

/-- `str.replace(r"0+$", "")` -/
def dropZeros (s : String) : String :=
  String.ofList (s.toList.reverse.dropWhile (· = '0')).reverse

def Polars.stripChars (s : String) : String :=
  String.ofList (PyText.trim P.isSpace s.toList)

/-- Each run of white space becomes one space; `inside` says a run is being read. -/
def Polars.collapseFrom (inside : Bool) : List Char → List Char
  | [] => []
  | c :: s =>
    if P.isSpace c then
      if inside then collapseFrom true s else ' ' :: collapseFrom true s
    else c :: collapseFrom false s

/-- `str.replace_all(r"\s+", " ")` -/
def Polars.collapse (s : String) : String := String.ofList (P.collapseFrom false s.toList)

def singleQuote : Char := Char.ofNat 39
def doubleQuote : Char := Char.ofNat 34
def backslash : Char := Char.ofNat 92

/-- One character inside `repr`. -/
def Polars.reprChar (quote c : Char) : List Char :=
  if c = quote ∨ c = backslash then [backslash, c]
  else if c.toNat = 10 then [backslash, 'n']
  else if c.toNat = 13 then [backslash, 'r']
  else if c.toNat = 9 then [backslash, 't']
  else if P.isPrintable c then [c]
  else if c.toNat < 0x100 then backslash :: 'x' :: hexDigits c.toNat 2
  else if c.toNat < 0x10000 then backslash :: 'u' :: hexDigits c.toNat 4
  else backslash :: 'U' :: hexDigits c.toNat 8

/-- `repr` of a text: single quotes unless the text has one and no double quote. -/
def Polars.repr (s : String) : String :=
  let quote :=
    if singleQuote ∈ s.toList ∧ doubleQuote ∉ s.toList then doubleQuote else singleQuote
  String.ofList (quote :: s.toList.flatMap (P.reprChar quote) ++ [quote])

/-- `repr` of a list of texts. -/
def Polars.reprList (l : List String) : String := "[" ++ ", ".intercalate (l.map P.repr) ++ "]"

/-! ### Frames -/

/-- `frame.get_column(name)` -/
def Frame.getColumn (f : Frame) (name : String) : Except Exn Series :=
  match f.columns.get? name with
  | some s => .ok s
  | none => .error (.other "ColumnNotFoundError")

/-- `frame.with_columns(series.rename(name))` -/
def Frame.withColumn (f : Frame) (name : String) (s : Series) : Frame :=
  { f with columns := f.columns.set name s }

/-- A column name that polars reads as a regex -/
def isRegex (name : String) : Bool :=
  name.toList.head? = some '^' && name.toList.getLast? = some '$'

/-- A column name that polars reads as a pattern -/
def isPattern (name : String) : Bool := name = "*" || isRegex name

/-- The columns that `pl.col(name)` stands for in a frame with these columns. -/
def Polars.expand (columns : List String) (name : String) : Except Exn (List String) :=
  if name = "*" then .ok columns
  else if isRegex name then
    match P.regexError name with
    | some e => .error e
    | none => .ok (columns.filter (P.regexMatch name))
  else if name ∈ columns then .ok [name]
  else .error (.other "ColumnNotFoundError")

def Polars.expandAll (columns names : List String) : Except Exn (List String) := do
  let picked ← names.mapM (P.expand columns)
  return picked.flatten

/-- What `pl.col(name)` raises in the frame of that one column. -/
def Polars.ownError (name : String) : Option Exn :=
  match P.expand [name] name with
  | .error e => some e
  | .ok [_] => none
  | .ok _ => some (.other "ComputeError")

/-- `frame.select(names)` -/
def Frame.select (f : Frame) (names : List String) : Except Exn Frame := do
  let picked ← P.expandAll f.columns.keys names
  if picked.Nodup then
    let cols ← picked.mapM fun n => do return (n, ← f.getColumn n)
    return ⟨if picked = [] then P.selectNone f.height else f.height, Dict.ofList cols⟩
  else throw (.other "DuplicateError")

/-- The name of a column after `rename(names)`. -/
def renamed (names : Dict String String) (c : String) : String := (names.get? c).getD c

/-- `frame.rename(names)` -/
def Frame.rename (f : Frame) (names : Dict String String) : Except Exn Frame :=
  if names.keys.all (· ∈ f.columns.keys) then
    if (f.columns.keys.map (renamed names)).Nodup then
      .ok { f with
        columns := Dict.ofList (f.columns.entries.map fun e => (renamed names e.1, e.2)) }
    else .error (.other "DuplicateError")
  else .error (.other "ColumnNotFoundError")

/-- `frame[indices]` -/
def Frame.gather (f : Frame) (indices : List ℕ) : Except Exn Frame :=
  if ∃ i ∈ indices, f.height ≤ i then .error (.other "OutOfBoundsError")
  else .ok ⟨indices.length, f.columns.map fun s =>
    ⟨s.dtype, indices.map fun i => (s.cells[i]?).join⟩⟩

/-- `frame.to_dicts()` -/
def Frame.toDicts (f : Frame) : List (Dict String Cell) :=
  (List.range f.height).map fun i => f.columns.map fun s => (s.cells[i]?).join

lemma getColumn_ok {f : Frame} {name : String} {s : Series} (h : f.getColumn name = .ok s) :
    f.columns.get? name = some s := by
  unfold Frame.getColumn at h
  split at h
  · cases h
    assumption
  · cases h

lemma mapM_getColumn {f : Frame} {names : List String} {cols : List (String × Series)}
    (h : (names.mapM fun n => do return (n, ← f.getColumn n)) = Except.ok cols) :
    cols.map Prod.fst = names ∧ ∀ e ∈ cols, f.columns.get? e.1 = some e.2 := by
  have hcol : ∀ n e, (do return (n, ← f.getColumn n)) = (Except.ok e : Except Exn _) →
      n = e.1 ∧ f.columns.get? e.1 = some e.2 := by
    intro n e he
    obtain ⟨s, hs, he⟩ := of_bind_eq_ok he
    cases he
    exact ⟨rfl, getColumn_ok hs⟩
  refine ⟨?_, fun e he => ?_⟩
  · have hnames := (forall₂_of_mapM_eq_ok h).imp fun n e he => (hcol n e he).1
    rw [← List.forall₂_map_right_iff, List.forall₂_eq_eq_eq] at hnames
    exact hnames.symm
  · obtain ⟨n, _, hn⟩ := exists_of_mem_mapM h e he
    exact (hcol n e hn).2

section Names

variable {P} {columns names picked : List String} {name : String}

lemma expand_subset (h : P.expand columns name = .ok picked) : picked ⊆ columns := by
  unfold Polars.expand at h
  split_ifs at h with hstar hregex hmem
  · cases h
    exact List.Subset.refl _
  · split at h
    · cases h
    · cases h
      exact List.filter_subset_self _
  · cases h
    simpa using hmem

lemma expandAll_singleton (columns : List String) (name : String) :
    P.expandAll columns [name] = P.expand columns name := by
  rw [Polars.expandAll, List.mapM_cons, List.mapM_nil]
  cases P.expand columns name with
  | error e => rfl
  | ok picked => exact congrArg Except.ok (List.append_nil picked)

lemma expandAll_subset (h : P.expandAll columns names = .ok picked) : picked ⊆ columns := by
  obtain ⟨parts, hparts, h⟩ := of_bind_eq_ok h
  cases h
  intro c hc
  obtain ⟨part, hpart, hc⟩ := List.mem_flatten.mp hc
  obtain ⟨n, -, hn⟩ := exists_of_mem_mapM hparts part hpart
  exact expand_subset hn hc

/-- Polars reads each name as the column of that name. -/
def Polars.Reads (P : Polars) (columns names : List String) : Prop :=
  ∀ n ∈ names, P.expand columns n = .ok [n]

lemma expand_of_plain (hplain : isPattern name = false) (hmem : name ∈ columns) :
    P.expand columns name = .ok [name] := by
  simp only [isPattern, Bool.or_eq_false_iff, decide_eq_false_iff_not] at hplain
  rw [Polars.expand, if_neg hplain.1, hplain.2, if_neg Bool.false_ne_true, if_pos hmem]

lemma reads_of_plain (hplain : ∀ n ∈ names, isPattern n = false) (hsub : names ⊆ columns) :
    P.Reads columns names := fun n hn => expand_of_plain (hplain n hn) (hsub hn)

lemma Polars.Reads.expandAll (h : P.Reads columns names) :
    P.expandAll columns names = .ok names := by
  have hparts : names.mapM (P.expand columns) = .ok (names.map fun n => [n]) := by
    have hmap := mapM_map_eq_ok (f := P.expand columns) (e := id) (g := fun n => [n]) h
    rwa [List.map_id] at hmap
  have hflat : (names.map fun n => [n]).flatten = names := by
    rw [← List.flatMap_def, List.flatMap_singleton']
  rw [Polars.expandAll, hparts, ok_bind, hflat]
  rfl

lemma ownError_of_expand (h : P.expand columns name = .ok [name]) : P.ownError name = none := by
  have hown : P.expand [name] name = .ok [name] := by
    unfold Polars.expand at h ⊢
    by_cases hstar : name = "*"
    · rw [if_pos hstar]
    by_cases hregex : isRegex name = true
    · simp only [if_neg hstar, if_pos hregex] at h ⊢
      cases herror : P.regexError name with
      | some e => simp [herror] at h
      | none =>
        simp only [herror, Except.ok.injEq] at h ⊢
        have hmem : name ∈ columns.filter (P.regexMatch name) := h ▸ List.mem_cons_self
        simp [(List.mem_filter.mp hmem).2]
    · rw [if_neg hstar, if_neg hregex, if_pos List.mem_cons_self]
  rw [Polars.ownError, hown]

end Names

lemma select_ok {f g : Frame} {names : List String} (h : f.select P names = .ok g) :
    ∃ picked, P.expandAll f.columns.keys names = .ok picked ∧
      g.height = (if picked = [] then P.selectNone f.height else f.height) ∧
      g.columns.keys = picked ∧
      ∀ c s, (c, s) ∈ g.columns.entries → f.columns.get? c = some s := by
  obtain ⟨picked, hpicked, h⟩ := of_bind_eq_ok h
  by_cases hn : picked.Nodup
  swap
  · rw [if_neg hn] at h
    cases h
  rw [if_pos hn] at h
  obtain ⟨cols, hcols, h⟩ := of_bind_eq_ok h
  cases h
  obtain ⟨hkeys, hget⟩ := mapM_getColumn hcols
  have hentries : (Dict.ofList cols).entries = cols := Dict.entries_ofList (hkeys ▸ hn)
  refine ⟨picked, hpicked, rfl, ?_, fun c s hs => ?_⟩
  · rw [Dict.keys, hentries, hkeys]
  · rw [hentries] at hs
    exact hget (c, s) hs

lemma getColumn_of_mem {f : Frame} {name : String} (h : name ∈ f.columns.keys) :
    ∃ s, f.getColumn name = .ok s := by
  cases hs : f.columns.get? name with
  | none => exact absurd h ((f.columns.get?_eq_none name).mp hs)
  | some s => exact ⟨s, by simp [Frame.getColumn, hs]⟩

lemma exists_select_iff {f : Frame} {names : List String} :
    (∃ g, f.select P names = .ok g) ↔
      ∃ picked, P.expandAll f.columns.keys names = .ok picked ∧ picked.Nodup := by
  constructor
  · rintro ⟨g, hg⟩
    obtain ⟨picked, hpicked, -, hkeys, -⟩ := select_ok P hg
    exact ⟨picked, hpicked, hkeys ▸ g.columns.nodup⟩
  · rintro ⟨picked, hpicked, hn⟩
    have hcols : ∀ n ∈ picked, ∃ e : String × Series,
        (do return (n, ← f.getColumn n) : Except Exn (String × Series)) = .ok e := by
      intro n hmem
      obtain ⟨s, hs⟩ := getColumn_of_mem (expandAll_subset hpicked hmem)
      exact ⟨(n, s), by rw [hs]; rfl⟩
    obtain ⟨cols, hcols⟩ := exists_mapM_eq_ok hcols
    exact ⟨_, by rw [Frame.select, hpicked, ok_bind, if_pos hn, hcols]; rfl⟩

lemma rename_ok {f g : Frame} {names : Dict String String} (h : f.rename names = .ok g) :
    names.keys ⊆ f.columns.keys ∧ g.height = f.height ∧
      g.columns.keys = f.columns.keys.map (renamed names) ∧
      ∀ c s, (c, s) ∈ g.columns.entries →
        ∃ c₀, (c₀, s) ∈ f.columns.entries ∧ renamed names c₀ = c := by
  unfold Frame.rename at h
  split_ifs at h with hsub hn
  cases h
  have hnames : (f.columns.entries.map fun e => (renamed names e.1, e.2)).map Prod.fst =
      f.columns.keys.map (renamed names) := by
    rw [Dict.keys, List.map_map, List.map_map]
    rfl
  have hentries := Dict.entries_ofList (hnames ▸ hn)
  refine ⟨fun c hc => of_decide_eq_true (List.all_eq_true.mp hsub c hc), rfl, ?_, ?_⟩
  · rw [Dict.keys, hentries, hnames]
  · intro c s hs
    rw [hentries] at hs
    obtain ⟨e, he, heq⟩ := List.mem_map.mp hs
    obtain ⟨hc, rfl⟩ := Prod.mk.inj heq
    exact ⟨e.1, he, hc⟩

lemma exists_rename_iff {f : Frame} {names : Dict String String} :
    (∃ g, f.rename names = .ok g) ↔
      names.keys ⊆ f.columns.keys ∧ (f.columns.keys.map (renamed names)).Nodup := by
  constructor
  · rintro ⟨g, hg⟩
    obtain ⟨hsub, -, hkeys, -⟩ := rename_ok hg
    exact ⟨hsub, hkeys ▸ g.columns.nodup⟩
  · rintro ⟨hsub, hn⟩
    have hall : names.keys.all (· ∈ f.columns.keys) = true :=
      List.all_eq_true.mpr fun c hc => decide_eq_true (hsub hc)
    exact ⟨_, by rw [Frame.rename, if_pos hall, if_pos hn]⟩

lemma map_renamed_keys (names : Dict String String) :
    names.keys.map (renamed names) = names.values := Dict.map_get?_keys names

lemma exists_gather {f : Frame} (indices : List ℕ) (h : ∀ i ∈ indices, i < f.height) :
    ∃ g, f.gather indices = .ok g := by
  have hin : ¬ ∃ i ∈ indices, f.height ≤ i := by
    rintro ⟨i, hi, hle⟩
    exact absurd (h i hi) (Nat.not_lt.mpr hle)
  exact ⟨_, if_neg hin⟩

lemma gather_ok {f g : Frame} {indices : List ℕ} (h : f.gather indices = .ok g) :
    g.height = indices.length ∧ g.columns.keys = f.columns.keys ∧
      ∀ c s, g.columns.get? c = some s →
        ∃ s₀, f.columns.get? c = some s₀ ∧ s.cells = indices.map fun i => (s₀.cells[i]?).join := by
  unfold Frame.gather at h
  split at h
  · cases h
  · cases h
    refine ⟨rfl, ?_, ?_⟩
    · simp [Dict.keys, Dict.map]
    · intro c s hs
      rw [Dict.get?_map, Option.map_eq_some_iff] at hs
      obtain ⟨s₀, hs₀, rfl⟩ := hs
      exact ⟨s₀, hs₀, rfl⟩

lemma lt_height_of_gather {f g : Frame} {indices : List ℕ} (h : f.gather indices = .ok g) {i : ℕ}
    (hi : i ∈ indices) : i < f.height := by
  unfold Frame.gather at h
  split_ifs at h with hout
  exact Nat.not_le.mp fun hle => hout ⟨i, hi, hle⟩

end CortexDis.Frames
