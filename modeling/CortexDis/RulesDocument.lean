import CortexDis.Errors
import CortexDis.MappingRules
import CortexDis.PyJson
import CortexDis.PyValue

/-!
The `mapping_rules` document: its model, the parser, the dump, and the construction checks.

The texts of a document are Unicode texts. What the model's library reads as a whole number
besides one (a truth value, a whole float, digits) is its own, and so a parameter.
-/

namespace CortexDis.RulesDocument

open CortexDis.PyDict CortexDis.PyText CortexDis.PyJson CortexDis.Errors CortexDis.MappingRules
open CortexDis.Runs

/-! ### The model -/

/-- `TransformSpec` -/
structure TransformSpec where
  op : String
  args : Dict String Json

inductive CastName
  | string | integer | decimal | date | datetime | boolean
  deriving DecidableEq, Repr

def CastName.text : CastName → String
  | string => "string"
  | integer => "integer"
  | decimal => "decimal"
  | date => "date"
  | datetime => "datetime"
  | boolean => "boolean"

/-- `CastSpec` -/
structure CastSpec where
  type : CastName
  precision : Option ℤ
  scale : Option ℤ

/-- `SourceMapping`, as its fields are held -/
structure Document where
  version : ℤ
  rename : Dict String String
  normalize : Dict String (List TransformSpec)
  cast : Dict String CastSpec
  derive : Dict String (List TransformSpec)

/-! ### Parsing -/

/-- The Unicode text of some code points. -/
def text? (s : PyStr) : Option String :=
  if s.all fun c => c < 0xD800 || (0xDFFF < c && c < 0x110000) then
    some (String.ofList (s.map Char.ofNat))
  else none

/-- What a field accepts, or the library's error. -/
def accept {α : Type} (o : Option α) : Except Exn α := o.elim (.error validationError) .ok

/-- `str` -/
def parseText : Json → Except Exn String
  | .str s => accept (text? s)
  | _ => .error validationError

/-- `dict[str, T]` -/
def parseDict {α : Type} (parse : Json → Except Exn α) : Json → Except Exn (Dict String α)
  | .obj members => do
    let entries ← members.mapM fun e => do return (← accept (text? e.1), ← parse e.2)
    return .ofList entries
  | _ => .error validationError

/-- `list[T]` -/
def parseList {α : Type} (parse : Json → Except Exn α) : Json → Except Exn (List α)
  | .arr items => items.mapM parse
  | _ => .error validationError

/-- A member of an object, or the default of its field. -/
def parseMember {α : Type} (key : String) (default : Option α) (parse : Json → Except Exn α)
    (members : List (PyStr × Json)) : Except Exn α :=
  match lookup (pyStr key) members with
  | some v => parse v
  | none => accept default

/-- The members of an object with no other keys: `extra="forbid"`. -/
def parseFields (keys : List String) : Json → Except Exn (List (PyStr × Json))
  | .obj members =>
    if members.all fun e => keys.any fun k => pyStr k = e.1 then .ok members
    else .error validationError
  | _ => .error validationError

variable (lax : Json → Option ℤ)

/-- `int` -/
def parseInt : Json → Except Exn ℤ
  | .int n => .ok n
  | v => accept (lax v)

/-- `int | None` -/
def parseOptInt : Json → Except Exn (Option ℤ)
  | .null => .ok none
  | v => do return some (← parseInt lax v)

def parseTransform (v : Json) : Except Exn TransformSpec := do
  let members ← parseFields ["op", "args"] v
  return ⟨← parseMember "op" none parseText members,
    ← parseMember "args" (some .empty) (parseDict .ok) members⟩

/-- `CastType` -/
def parseCastName (v : Json) : Except Exn CastName := do
  match ← parseText v with
  | "string" => return .string
  | "integer" => return .integer
  | "decimal" => return .decimal
  | "date" => return .date
  | "datetime" => return .datetime
  | "boolean" => return .boolean
  | _ => .error validationError

def parseCast (v : Json) : Except Exn CastSpec := do
  let members ← parseFields ["type", "precision", "scale"] v
  return ⟨← parseMember "type" none parseCastName members,
    ← parseMember "precision" (some none) (parseOptInt lax) members,
    ← parseMember "scale" (some none) (parseOptInt lax) members⟩

/-- The fields of `SourceMapping.model_validate`. -/
def parseDocument (v : Json) : Except Exn Document := do
  let members ← parseFields ["version", "rename", "normalize", "cast", "derive"] v
  return ⟨← parseMember "version" none (parseInt lax) members,
    ← parseMember "rename" (some .empty) (parseDict parseText) members,
    ← parseMember "normalize" (some .empty) (parseDict (parseList parseTransform)) members,
    ← parseMember "cast" (some .empty) (parseDict (parseCast lax)) members,
    ← parseMember "derive" (some .empty) (parseDict (parseList parseTransform)) members⟩

/-! ### Dumping -/

def dumpText (s : String) : Json := .str (pyStr s)

def dumpDict {α : Type} (dump : α → Json) (d : Dict String α) : Json :=
  .obj (d.entries.map fun e => (pyStr e.1, dump e.2))

def dumpOptInt (n : Option ℤ) : Json := n.elim .null .int

def dumpTransform (spec : TransformSpec) : Json :=
  .obj [(pyStr "op", dumpText spec.op), (pyStr "args", dumpDict id spec.args)]

def dumpCast (spec : CastSpec) : Json :=
  .obj [(pyStr "type", dumpText spec.type.text), (pyStr "precision", dumpOptInt spec.precision),
    (pyStr "scale", dumpOptInt spec.scale)]

/-- `model_dump(mode="json")` -/
def dumpDocument (d : Document) : Json :=
  .obj [(pyStr "version", .int d.version), (pyStr "rename", dumpDict dumpText d.rename),
    (pyStr "normalize", dumpDict (fun specs => .arr (specs.map dumpTransform)) d.normalize),
    (pyStr "cast", dumpDict dumpCast d.cast),
    (pyStr "derive", dumpDict (fun specs => .arr (specs.map dumpTransform)) d.derive)]

/-! ### Parsing a dump -/

@[simp] lemma text?_pyStr (s : String) : text? (pyStr s) = some s := by
  have hvalid : (pyStr s).all (fun c => c < 0xD800 || (0xDFFF < c && c < 0x110000)) = true := by
    rw [pyStr, List.all_map, List.all_eq_true]
    intro c _
    have hc : c.toNat < 0xD800 ∨ 0xDFFF < c.toNat ∧ c.toNat < 0x110000 := c.valid
    simpa using hc
  have hchars : (pyStr s).map Char.ofNat = s.toList := by
    rw [pyStr, List.map_map]
    exact (List.map_congr_left fun c _ => Char.ofNat_toNat c).trans (List.map_id _)
  rw [text?, if_pos hvalid, hchars, String.ofList_toList]

@[simp] lemma parseText_dumpText (s : String) : parseText (dumpText s) = .ok s := by
  rw [dumpText, parseText, text?_pyStr]
  rfl

lemma ofList_entries {α : Type} (d : Dict String α) : Dict.ofList d.entries = d := by
  have hext : ∀ a b : Dict String α, a.entries = b.entries → a = b := by
    rintro ⟨_, _⟩ ⟨_, _⟩ rfl
    rfl
  exact hext _ _ (Dict.entries_ofList d.nodup)

lemma parseDict_dumpDict_map {α β : Type} {parse : Json → Except Exn β} {dump : α → Json}
    {f : α → β} {d : Dict String α} (h : ∀ e ∈ d.entries, parse (dump e.2) = .ok (f e.2)) :
    parseDict parse (dumpDict dump d) = .ok (d.map f) := by
  have hentries : (d.entries.map fun e => (pyStr e.1, dump e.2)).mapM
      (fun e => do return (← accept (text? e.1), ← parse e.2) :
        PyStr × Json → Except Exn (String × β)) = .ok (d.entries.map fun e => (e.1, f e.2)) := by
    refine mapM_map_eq_ok fun e he => ?_
    rw [text?_pyStr, h e he]
    rfl
  rw [dumpDict, parseDict, hentries]
  exact congrArg Except.ok (ofList_entries (d.map f))

lemma parseDict_dumpDict {α : Type} {parse : Json → Except Exn α} {dump : α → Json}
    {d : Dict String α} (h : ∀ e ∈ d.entries, parse (dump e.2) = .ok e.2) :
    parseDict parse (dumpDict dump d) = .ok d := by
  have hid : d.map id = d := by
    rw [← ofList_entries (d.map id), Dict.map]
    simpa using ofList_entries d
  rw [parseDict_dumpDict_map (f := id) h, hid]

@[simp] lemma parseOptInt_dumpOptInt (n : Option ℤ) : parseOptInt lax (dumpOptInt n) = .ok n := by
  cases n <;> rfl

@[simp] lemma parseCastName_text (name : CastName) :
    parseCastName (dumpText name.text) = .ok name := by
  rw [parseCastName, parseText_dumpText]
  cases name <;> rfl

lemma parseTransform_dumpTransform (spec : TransformSpec) :
    parseTransform (dumpTransform spec) = .ok spec := by
  have hargs : parseDict .ok (dumpDict id spec.args) = .ok spec.args :=
    parseDict_dumpDict fun _ _ => rfl
  simp [parseTransform, dumpTransform, parseFields, parseMember, lookup, hargs, bind, Except.bind,
    pure, Except.pure]

lemma parseTransforms_dumpTransforms (specs : List TransformSpec) :
    parseList parseTransform (.arr (specs.map dumpTransform)) = .ok specs := by
  rw [parseList, mapM_map_eq_ok (g := id) fun spec _ => parseTransform_dumpTransform spec,
    List.map_id]

lemma parseCast_dumpCast (spec : CastSpec) : parseCast lax (dumpCast spec) = .ok spec := by
  simp [parseCast, dumpCast, parseFields, parseMember, lookup, bind, Except.bind, pure,
    Except.pure]

/-- **A dump parses back** to the document it is of. -/
theorem parseDocument_dumpDocument (d : Document) :
    parseDocument lax (dumpDocument d) = .ok d := by
  have hrename : parseDict parseText (dumpDict dumpText d.rename) = .ok d.rename :=
    parseDict_dumpDict fun _ _ => parseText_dumpText _
  have hcast : parseDict (parseCast lax) (dumpDict dumpCast d.cast) = .ok d.cast :=
    parseDict_dumpDict fun _ _ => parseCast_dumpCast lax _
  have hspecs : ∀ specs : Dict String (List TransformSpec),
      parseDict (parseList parseTransform)
        (dumpDict (fun specs => .arr (specs.map dumpTransform)) specs) = .ok specs :=
    fun specs => parseDict_dumpDict fun _ _ => parseTransforms_dumpTransforms _
  simp [parseDocument, dumpDocument, parseFields, parseMember, lookup, hrename, hcast, hspecs,
    parseInt, bind, Except.bind, pure, Except.pure]

/-! ### The construction checks -/

section Args

variable (args : Dict String Json)

/-- `_require_keys` -/
def hasKeys (required optional : List String) : Bool :=
  required.all (fun k => args.keys.contains k) &&
    args.keys.all fun k => required.contains k || optional.contains k

def textArg (key : String) : Option String :=
  match args.get? key with
  | some (.str s) => text? s
  | _ => none

/-- A text, or an explicit null. -/
def optTextArg (key : String) : Option (Option String) :=
  match args.get? key with
  | some .null => some none
  | _ => (textArg args key).map some

/-- A text of one character. -/
def charArg (key : String) : Option Char := do
  match (← textArg args key).toList with
  | [c] => return c
  | _ => none

def optCharArg (key : String) : Option (Option Char) :=
  match args.get? key with
  | some .null => some none
  | _ => (charArg args key).map some

def textsArg (key : String) : Option (List String) :=
  match args.get? key with
  | some (.arr items) => items.mapM fun v => (parseText v).toOption
  | _ => none

def pairsArg (key : String) : Option (List (String × String)) :=
  match args.get? key with
  | some (.obj members) =>
    members.mapM fun e => do return (← text? e.1, ← (parseText e.2).toOption)
  | _ => none

/-- A truth value, or the default. -/
def boolArg (key : String) (default : Bool) : Option Bool :=
  match args.get? key with
  | none => some default
  | some (.bool b) => some b
  | _ => none

end Args

/-- The operation of the vocabulary that a specification declares, if its arguments have the
required keys and types. -/
def typedOp (spec : TransformSpec) : Option NormalizeOp := do
  let a := spec.args
  match spec.op with
  | "parse_date" =>
    guard (hasKeys a ["format"] [])
    return .parseDate (← textArg a "format")
  | "parse_datetime" =>
    guard (hasKeys a ["format", "timezone"] [])
    return .parseDatetime (← textArg a "format") (← optTextArg a "timezone")
  | "parse_decimal" =>
    guard (hasKeys a ["decimal_separator", "thousands_separator"] [])
    return .parseDecimal (← charArg a "decimal_separator") (← optCharArg a "thousands_separator")
  | "parse_percent" =>
    guard (hasKeys a ["decimal_separator", "thousands_separator"] [])
    return .parsePercent (← charArg a "decimal_separator") (← optCharArg a "thousands_separator")
  | "parse_integer" =>
    guard (hasKeys a ["thousands_separator"] [])
    return .parseInteger (← optCharArg a "thousands_separator")
  | "parse_boolean" =>
    guard (hasKeys a ["true_values", "false_values"] [])
    return .parseBoolean (← textsArg a "true_values") (← textsArg a "false_values")
  | "map_enum" =>
    guard (hasKeys a ["mapping"] ["case_insensitive"])
    return .mapEnum (← pairsArg a "mapping") (← boolArg a "case_insensitive" false)
  | "null_tokens" =>
    guard (hasKeys a ["tokens"] [])
    return .nullTokens (← textsArg a "tokens")
  | "normalize_whitespace" =>
    guard (hasKeys a [] ["trim", "collapse"])
    return .normalizeWhitespace (← boolArg a "trim" true) (← boolArg a "collapse" true)
  | "normalize_case" =>
    guard (hasKeys a ["mode"] [])
    match ← textArg a "mode" with
    | "upper" => return .normalizeCase .upper
    | "lower" => return .normalizeCase .lower
    | _ => none
  | _ => none

/-- The generator that starts a derive list. -/
def typedGenerator (spec : TransformSpec) : Option Generator := do
  let a := spec.args
  match spec.op with
  | "copy" =>
    guard (hasKeys a ["source_column"] [] && textArg a "source_column" != some "")
    return .copy (← textArg a "source_column")
  | "constant" =>
    guard (hasKeys a ["value"] [])
    match a.get? "value" with
    | some (.str s) => return .constant (.str (← text? s))
    | some (.int n) => return .constant (.int n)
    | some (.float literal) => return .constant (.float (← text? literal))
    | some (.bool b) => return .constant (.bool b)
    | _ => none
  | "date_from_datetime" =>
    guard (hasKeys a ["source_column"] [] && textArg a "source_column" != some "")
    return .dateFromDatetime (← textArg a "source_column")
  | _ => none

/-- The type of a cast. Precision and scale are for decimals. -/
def typedCast (spec : CastSpec) : Option CastType :=
  match spec.type, spec.precision, spec.scale with
  | .decimal, some precision, some scale =>
    if 0 ≤ scale then some (.decimal precision.toNat scale.toNat) else none
  | .string, none, none => some .string
  | .integer, none, none => some .integer
  | .date, none, none => some .date
  | .datetime, none, none => some .datetime
  | .boolean, none, none => some .boolean
  | _, _, _ => none

/-- A value that passes its check, or the error that names the column. -/
def checked {α : Type} (column : String) (o : Option α) (valid : α → Bool) : Except Exn α :=
  match o with
  | some a => if valid a then .ok a else .error (.mappingConfig (some column))
  | none => .error (.mappingConfig (some column))

/-- Each entry of a dictionary, checked. -/
def checkDict {α β : Type} (check : String → α → Except Exn β) (d : Dict String α) :
    Except Exn (Dict String β) := do
  return .ofList (← d.entries.mapM fun e => do return (e.1, ← check e.1 e.2))

/-- The first column that is refused. -/
def refuse (columns : List String) (p : String → Bool) : Except Exn Unit :=
  match columns.find? p with
  | some c => .error (.mappingConfig (some c))
  | none => .ok ()

/-- `validate_normalize_args`, on each operation of a column -/
def checkOps (upper : String → String) (column : String) (specs : List TransformSpec) :
    Except Exn (List NormalizeOp) :=
  specs.mapM fun spec => checked column (typedOp spec) (NormalizeOp.valid upper)

/-- `_validate_derive_list`, over the rules without derived columns -/
def checkDerive (upper : String → String) (base : Rules) (column : String) :
    List TransformSpec → Except Exn DeriveSpec
  | [] => .error (.mappingConfig (some column))
  | generator :: rest => do
    let generator ← checked column (typedGenerator generator) fun _ => true
    let rest ← checkOps upper column rest
    checked column (some ⟨generator, rest⟩) (base.validDerive upper)

/-- `_validate_rules`: the document as the engine holds it -/
def checkRules (upper : String → String) (d : Document) : Except Exn Rules := do
  if d.version < 1 then .error (.mappingConfig none)
  else if ¬ d.rename.values.Nodup then .error (.mappingConfig none)
  else
    refuse d.normalize.keys fun c => !d.rename.values.contains c
    refuse d.cast.keys fun c => !d.rename.values.contains c
    refuse d.derive.keys fun c => d.rename.values.contains c
    let normalize ← checkDict (checkOps upper) d.normalize
    let cast ← checkDict (fun c spec => checked c (typedCast spec) CastType.valid) d.cast
    let base : Rules := ⟨d.version, d.rename, normalize, cast, .empty⟩
    let derive ← checkDict (checkDerive upper base) d.derive
    return { base with derive := derive }

/-- `SourceMapping.model_validate` -/
def modelValidate (upper : String → String) (v : Json) : Except Exn (Document × Rules) := do
  let d ← parseDocument lax v
  return (d, ← checkRules upper d)

/-- The columns a document's mapping produces. -/
def Document.targetColumns (d : Document) : List String := d.rename.values ++ d.derive.keys

/-! ### What the checks give -/

variable {lax} {upper : String → String}

lemma checked_entries {α β : Type} {check : String → α → Except Exn β} {es : List (String × α)}
    {es' : List (String × β)}
    (h : List.Forall₂ (fun e e' => e'.1 = e.1 ∧ check e.1 e.2 = .ok e'.2) es es') :
    es'.map Prod.fst = es.map Prod.fst ∧
      ∀ e ∈ es', ∃ a, (e.1, a) ∈ es ∧ check e.1 a = .ok e.2 := by
  induction h with
  | nil => simp
  | @cons e e' es es' he _ ih =>
    refine ⟨by rw [List.map_cons, List.map_cons, he.1, ih.1], List.forall_mem_cons.mpr ⟨?_, ?_⟩⟩
    · exact ⟨e.2, he.1 ▸ List.mem_cons_self, he.1 ▸ he.2⟩
    · intro x hx
      obtain ⟨a, ha, hc⟩ := ih.2 x hx
      exact ⟨a, List.mem_cons_of_mem _ ha, hc⟩

lemma checkDict_eq_ok {α β : Type} {check : String → α → Except Exn β} {d : Dict String α}
    {d' : Dict String β} (h : checkDict check d = .ok d') :
    d'.keys = d.keys ∧ ∀ e ∈ d'.entries, ∃ a, (e.1, a) ∈ d.entries ∧ check e.1 a = .ok e.2 := by
  obtain ⟨entries, hentries, h⟩ := of_bind_eq_ok h
  cases h
  obtain ⟨hkeys, hchecked⟩ := checked_entries ((forall₂_of_mapM_eq_ok hentries).imp
    fun e e' he => show e'.1 = e.1 ∧ check e.1 e.2 = .ok e'.2 by
      obtain ⟨b, hb, he⟩ := of_bind_eq_ok he
      cases he
      exact ⟨rfl, hb⟩)
  have hof : (Dict.ofList entries).entries = entries := Dict.entries_ofList (hkeys ▸ d.nodup)
  rw [Dict.keys, hof]
  exact ⟨hkeys, hchecked⟩

lemma checked_eq_ok {α : Type} {column : String} {o : Option α} {valid : α → Bool} {a : α}
    (h : checked column o valid = .ok a) : o = some a ∧ valid a = true := by
  unfold checked at h
  split at h
  · split_ifs at h with hvalid
    cases h
    exact ⟨rfl, hvalid⟩
  · cases h

lemma of_refuse_eq_ok {columns : List String} {p : String → Bool} {u : Unit}
    (h : refuse columns p = .ok u) : ∀ c ∈ columns, p c = false := by
  unfold refuse at h
  split at h
  · cases h
  · rename_i hnone
    intro c hc
    simpa using List.find?_eq_none.mp hnone c hc

lemma checkOps_valid {column : String} {specs : List TransformSpec} {ops : List NormalizeOp}
    (h : checkOps upper column specs = .ok ops) : ∀ op ∈ ops, op.valid upper = true := by
  intro op hop
  obtain ⟨spec, -, hspec⟩ := exists_of_mem_mapM h op hop
  exact (checked_eq_ok hspec).2

/-- **What passes the checks** is a valid mapping with the columns of the document. -/
theorem checkRules_eq_ok {d : Document} {r : Rules} (h : checkRules upper d = .ok r) :
    r.valid upper = true ∧ r.rename = d.rename ∧ r.targetColumns = d.targetColumns := by
  unfold checkRules at h
  split_ifs at h with hversion hnodup
  -- the checks in the order in which the validator raises
  obtain ⟨_, hnormalizeKeys, h⟩ := of_bind_eq_ok h
  obtain ⟨_, hcastKeys, h⟩ := of_bind_eq_ok h
  obtain ⟨_, hderiveKeys, h⟩ := of_bind_eq_ok h
  obtain ⟨normalize, hnormalize, h⟩ := of_bind_eq_ok h
  obtain ⟨cast, hcast, h⟩ := of_bind_eq_ok h
  obtain ⟨derive, hderive, h⟩ := of_bind_eq_ok h
  cases h
  obtain ⟨hnk, hnv⟩ := checkDict_eq_ok hnormalize
  obtain ⟨hck, hcv⟩ := checkDict_eq_ok hcast
  obtain ⟨hdk, hdv⟩ := checkDict_eq_ok hderive
  have hnormalizeMem := of_refuse_eq_ok hnormalizeKeys
  have hcastMem := of_refuse_eq_ok hcastKeys
  have hderiveMem := of_refuse_eq_ok hderiveKeys
  refine ⟨?_, rfl, ?_⟩
  · simp only [Rules.valid, Rules.renameTargets, Bool.and_eq_true, decide_eq_true_eq,
      List.all_eq_true, hnk, hck, hdk]
    refine ⟨⟨⟨⟨⟨⟨⟨by omega, decide_eq_true hnodup⟩, fun c hc => ?_⟩, fun c hc => ?_⟩,
      fun c hc => ?_⟩, fun ops hops => ?_⟩, fun type htype => ?_⟩, fun spec hspec => ?_⟩
    · exact decide_eq_true (by simpa using hnormalizeMem c hc)
    · exact decide_eq_true (by simpa using hcastMem c hc)
    · exact decide_eq_true (by simpa using hderiveMem c hc)
    · obtain ⟨e, he, rfl⟩ := List.mem_map.mp hops
      obtain ⟨specs, -, hcheck⟩ := hnv e he
      exact checkOps_valid hcheck
    · obtain ⟨e, he, rfl⟩ := List.mem_map.mp htype
      obtain ⟨spec, -, hcheck⟩ := hcv e he
      exact (checked_eq_ok hcheck).2
    · obtain ⟨e, he, rfl⟩ := List.mem_map.mp hspec
      obtain ⟨specs, -, hcheck⟩ := hdv e he
      cases specs with
      | nil => cases hcheck
      | cons generator rest =>
        obtain ⟨_, -, hcheck⟩ := of_bind_eq_ok hcheck
        obtain ⟨_, -, hcheck⟩ := of_bind_eq_ok hcheck
        obtain ⟨hsome, hvalid⟩ := checked_eq_ok hcheck
        exact hvalid
  · rw [Rules.targetColumns, Document.targetColumns, hdk]

end CortexDis.RulesDocument
