import CortexDis.SchemaIr

/-!
Loading a document that was serialized from a loaded one.

The loader gives back the schema that was serialized, less the length bounds of inline field
types: `_field_to_dict` writes the base, the precision and the scale of an inline type, and
`_type_ir_from_dict` reads two more constraints.
-/

namespace CortexDis.IrCodec

open CortexDis.PyText CortexDis.PyValue CortexDis.SchemaIr CortexDis.Runs

variable {ω : Type} (py : Builtins ω)

/-! ### What is lost -/

/-- An inline type as it is serialized. -/
def withoutLengths (t : TypeIR ω) : TypeIR ω := { t with maxLength := .none, minLength := .none }

def fieldWithoutLengths (f : FieldIR ω) : FieldIR ω :=
  { f with inlineType := f.inlineType.map withoutLengths }

def tableWithoutLengths (t : TableIR ω) : TableIR ω :=
  { t with fields := t.fields.map fieldWithoutLengths }

def schemaWithoutLengths (s : SchemaIR ω) : SchemaIR ω :=
  { s with tables := s.tables.map tableWithoutLengths }

/-- A field with an inline type is named after its base. -/
def NamesBase (f : FieldIR ω) : Prop := ∀ t, f.inlineType = some t → f.typeRef = t.base

/-- The fields of a schema. -/
def AllFields (P : FieldIR ω → Prop) (s : SchemaIR ω) : Prop := ∀ t ∈ s.tables, ∀ f ∈ t.fields, P f

/-! ### Each level of the document -/

lemma producedByOf_value (p : ProducedBy) : producedByOf (.str p.value : Value ω) = .ok p := by
  cases p <;> simp [producedByOf, ProducedBy.value]

lemma typeIrFromDict_typeToDict (t : TypeIR ω) : typeIrFromDict py (typeToDict t) = .ok t := by
  simp [typeIrFromDict, typeToDict, record]

lemma typeEntry_typeToDict (e : Value ω × TypeIR ω) :
    typeEntry py (e.1, typeToDict e.2) = .ok e := by
  simp [typeEntry, typeIrFromDict_typeToDict]

lemma mapM_str (l : List PyStr) : (l.map (.str : PyStr → Value ω)).mapM py.str = .ok l := by
  rw [mapM_map_eq_ok (g := id) fun s _ => py.str_str s, List.map_id]

lemma enumEntry_list (e : Value ω × List PyStr) :
    enumEntry py (e.1, .list (e.2.map .str)) = .ok e := by
  rw [enumEntry, items_list, ok_bind, mapM_str]
  rfl

lemma provenanceFromDict_toDict (p : Option (FieldProvenance ω)) :
    provenanceFromDict py ((p.map provenanceToDict).getD .none) = .ok p := by
  cases p with
  | none => rfl
  | some p => simp [provenanceFromDict, provenanceToDict, record]

lemma fieldTypeFromDict_toDict {f : FieldIR ω} (h : NamesBase f) :
    fieldTypeFromDict py (fieldTypeToDict f) =
      .ok (f.inlineType.map withoutLengths, f.typeRef) := by
  cases hi : f.inlineType with
  | none => simp [fieldTypeFromDict, fieldTypeToDict, hi]
  | some t =>
    simp [fieldTypeFromDict, fieldTypeToDict, hi, typeIrFromDict, record, withoutLengths, h t hi]

lemma find_candidate (k : String) (c : List (Value ω)) :
    find (pyStr k) (if c.isEmpty then [] else record [("enum_candidate", .list c)]) =
      if "enum_candidate" = k ∧ c.isEmpty = false then some (.list c) else none := by
  cases c <;> simp [record]

lemma find_provenance (k : String) (p : Option (FieldProvenance ω)) :
    find (pyStr k) (p.elim [] fun p => record [("provenance", provenanceToDict p)]) =
      if "provenance" = k then p.map provenanceToDict else none := by
  cases p <;> simp [record]

lemma getD_candidate (c : List (Value ω)) :
    (if c = [] then none else some (Value.list c)).getD (.list []) = .list c := by
  cases c <;> simp

lemma fieldFromDict_fieldToDict {f : FieldIR ω} (h : NamesBase f) :
    fieldFromDict py (fieldToDict f) = .ok (fieldWithoutLengths f) := by
  simp only [fieldFromDict, fieldToDict, find_append, find_candidate, find_provenance, get_dict]
  simp [record, fieldTypeFromDict_toDict py h, producedByOf_value, getD_candidate,
    provenanceFromDict_toDict, fieldWithoutLengths]

lemma tableFromDict_tableToDict {t : TableIR ω} (h : ∀ f ∈ t.fields, NamesBase f) :
    tableFromDict py (tableToDict t) = .ok (tableWithoutLengths t) := by
  have hfields : (t.fields.map fieldToDict).mapM (fieldFromDict py) =
      .ok (t.fields.map fieldWithoutLengths) :=
    mapM_map_eq_ok fun f hf => fieldFromDict_fieldToDict py (h f hf)
  simp [tableFromDict, tableToDict, record, -List.mapM_map, mapM_str, hfields,
    tableWithoutLengths]

/-- Serializing and loading again. -/
theorem parseIr_schemaToDocument {s : SchemaIR ω} (h : AllFields NamesBase s) :
    parseIr py (schemaToDocument s) = .ok (schemaWithoutLengths s) := by
  have htypes : (s.types.map fun e => (e.1, typeToDict e.2)).mapM (typeEntry py) =
      .ok (s.types.map id) := mapM_map_eq_ok fun e _ => typeEntry_typeToDict py e
  have henums : (s.enums.map fun e => (e.1, Value.list (e.2.map .str))).mapM (enumEntry py) =
      .ok (s.enums.map id) := mapM_map_eq_ok fun e _ => enumEntry_list py e
  have htables : (s.tables.map tableToDict).mapM (tableFromDict py) =
      .ok (s.tables.map tableWithoutLengths) :=
    mapM_map_eq_ok fun t ht => tableFromDict_tableToDict py (h t ht)
  rw [List.map_id] at htypes henums
  simp [parseIr, schemaToDocument, record, -List.mapM_map, htypes, henums, htables,
    schemaWithoutLengths]

/-! ### The documents that come back whole -/

/-- A `type` entry that is a type of its own with a length bound. -/
def BoundsLength (rawType : Value ω) : Prop :=
  ∃ items, rawType = .dict items ∧
    ¬ ((find (pyStr "max_length") items).getD .none = .none ∧
      (find (pyStr "min_length") items).getD .none = .none)

/-- The condition on a field of the document. -/
def FieldUnbounded (raw : Value ω) : Prop :=
  ∀ rawType, raw.getItem (pyStr "type") = .ok rawType → ¬ BoundsLength rawType

def TableUnbounded (raw : Value ω) : Prop :=
  ∀ rawFields fields, raw.getItem (pyStr "fields") = .ok rawFields →
    py.items rawFields = .ok fields → ∀ f ∈ fields, FieldUnbounded f

/-- No field of any table of the document has an inline type with a length bound. -/
def Unbounded (document : Value ω) : Prop :=
  ∀ rawTables tables, document.get (pyStr "tables") (.list []) = .ok rawTables →
    py.items rawTables = .ok tables → ∀ t ∈ tables, TableUnbounded py t

variable {py}

lemma typeIrFromDict_lengths {items : List (Value ω × Value ω)} {t : TypeIR ω}
    (h : typeIrFromDict py (.dict items) = .ok t) :
    t.maxLength = (find (pyStr "max_length") items).getD .none ∧
      t.minLength = (find (pyStr "min_length") items).getD .none := by
  rw [typeIrFromDict] at h
  obtain ⟨rawBase, -, h⟩ := of_bind_eq_ok h
  obtain ⟨base, -, h⟩ := of_bind_eq_ok h
  simp only [get_dict, ok_bind] at h
  cases h
  exact ⟨rfl, rfl⟩

lemma withoutLengths_eq_self_iff (t : TypeIR ω) :
    withoutLengths t = t ↔ t.maxLength = .none ∧ t.minLength = .none := by
  cases t
  simp [withoutLengths, eq_comm]

lemma fieldTypeFromDict_spec {rawType : Value ω} {inline : Option (TypeIR ω)} {ref : PyStr}
    (h : fieldTypeFromDict py rawType = .ok (inline, ref)) :
    (∀ t, inline = some t → ref = t.base) ∧
      (inline.map withoutLengths = inline ↔ ¬ BoundsLength rawType) := by
  cases rawType with
  | dict items =>
    rw [fieldTypeFromDict] at h
    obtain ⟨t, ht, h⟩ := of_bind_eq_ok h
    cases h
    obtain ⟨hmax, hmin⟩ := typeIrFromDict_lengths ht
    constructor
    · rintro _ ⟨⟩
      rfl
    · simp [BoundsLength, withoutLengths_eq_self_iff, hmax, hmin]
  | _ =>
    rw [fieldTypeFromDict.eq_2 py _ (by simp)] at h
    obtain ⟨s, -, h⟩ := of_bind_eq_ok h
    cases h
    simp [BoundsLength]

lemma fieldFromDict_type {raw : Value ω} {f : FieldIR ω} (h : fieldFromDict py raw = .ok f) :
    ∃ rawType, raw.getItem (pyStr "type") = .ok rawType ∧
      fieldTypeFromDict py rawType = .ok (f.inlineType, f.typeRef) := by
  rw [fieldFromDict] at h
  obtain ⟨rawType, hraw, h⟩ := of_bind_eq_ok h
  obtain ⟨⟨inline, ref⟩, htype, h⟩ := of_bind_eq_ok h
  refine ⟨rawType, hraw, htype.trans ?_⟩
  -- the rest reads the other entries and keeps the two
  repeat
    obtain ⟨_, -, h⟩ := of_bind_eq_ok h
  cases h
  rfl

lemma namesBase_of_fieldFromDict {raw : Value ω} {f : FieldIR ω}
    (h : fieldFromDict py raw = .ok f) : NamesBase f := by
  obtain ⟨rawType, -, htype⟩ := fieldFromDict_type h
  exact (fieldTypeFromDict_spec htype).1

lemma fieldWithoutLengths_eq_self_iff {raw : Value ω} {f : FieldIR ω}
    (h : fieldFromDict py raw = .ok f) : fieldWithoutLengths f = f ↔ FieldUnbounded raw := by
  obtain ⟨rawType, hraw, htype⟩ := fieldFromDict_type h
  have hspec := (fieldTypeFromDict_spec htype).2
  have hfield : fieldWithoutLengths f = f ↔ f.inlineType.map withoutLengths = f.inlineType := by
    cases f
    simp [fieldWithoutLengths]
  rw [hfield, hspec]
  constructor
  · intro hb rawType' hraw'
    cases hraw.symm.trans hraw'
    exact hb
  · intro hall
    exact hall rawType hraw

lemma tableFromDict_fields {raw : Value ω} {t : TableIR ω} (h : tableFromDict py raw = .ok t) :
    ∃ rawFields fields, raw.getItem (pyStr "fields") = .ok rawFields ∧
      py.items rawFields = .ok fields ∧ fields.mapM (fieldFromDict py) = .ok t.fields := by
  rw [tableFromDict] at h
  iterate 11
    obtain ⟨_, -, h⟩ := of_bind_eq_ok h
  obtain ⟨rawFields, hraw, h⟩ := of_bind_eq_ok h
  obtain ⟨fields, hitems, h⟩ := of_bind_eq_ok h
  obtain ⟨fs, hfs, h⟩ := of_bind_eq_ok h
  cases h
  exact ⟨rawFields, fields, hraw, hitems, hfs⟩

lemma tableWithoutLengths_eq_self_iff {raw : Value ω} {t : TableIR ω}
    (h : tableFromDict py raw = .ok t) :
    tableWithoutLengths t = t ↔ TableUnbounded py raw := by
  obtain ⟨rawFields, fields, hraw, hitems, hfields⟩ := tableFromDict_fields h
  have htable : tableWithoutLengths t = t ↔ t.fields.map fieldWithoutLengths = t.fields := by
    cases t
    simp [tableWithoutLengths]
  rw [htable, map_eq_self_iff_of_mapM (fun _ _ => fieldWithoutLengths_eq_self_iff) hfields]
  constructor
  · intro hall rawFields' fields' hraw' hitems'
    cases hraw.symm.trans hraw'
    cases hitems.symm.trans hitems'
    exact hall
  · intro hall
    exact hall rawFields fields hraw hitems

lemma parseIr_tables {document : Value ω} {s : SchemaIR ω} (h : parseIr py document = .ok s) :
    ∃ rawTables tables, document.get (pyStr "tables") (.list []) = .ok rawTables ∧
      py.items rawTables = .ok tables ∧ tables.mapM (tableFromDict py) = .ok s.tables := by
  rw [parseIr] at h
  iterate 14
    obtain ⟨_, -, h⟩ := of_bind_eq_ok h
  obtain ⟨rawTables, hraw, h⟩ := of_bind_eq_ok h
  obtain ⟨tables, hitems, h⟩ := of_bind_eq_ok h
  obtain ⟨ts, hts, h⟩ := of_bind_eq_ok h
  cases h
  exact ⟨rawTables, tables, hraw, hitems, hts⟩

lemma schemaWithoutLengths_eq_self_iff {document : Value ω} {s : SchemaIR ω}
    (h : parseIr py document = .ok s) :
    schemaWithoutLengths s = s ↔ Unbounded py document := by
  obtain ⟨rawTables, tables, hraw, hitems, htables⟩ := parseIr_tables h
  have hschema : schemaWithoutLengths s = s ↔ s.tables.map tableWithoutLengths = s.tables := by
    cases s
    simp [schemaWithoutLengths]
  rw [hschema, map_eq_self_iff_of_mapM (fun _ _ => tableWithoutLengths_eq_self_iff) htables]
  constructor
  · intro hall rawTables' tables' hraw' hitems'
    cases hraw.symm.trans hraw'
    cases hitems.symm.trans hitems'
    exact hall
  · intro hall
    exact hall rawTables tables hraw hitems

lemma namesBase_of_parseIr {document : Value ω} {s : SchemaIR ω}
    (h : parseIr py document = .ok s) : AllFields NamesBase s := by
  obtain ⟨_, tables, -, -, htables⟩ := parseIr_tables h
  intro t ht f hf
  obtain ⟨rawTable, -, htable⟩ := exists_of_mem_mapM htables t ht
  obtain ⟨_, fields, -, -, hfields⟩ := tableFromDict_fields htable
  obtain ⟨rawField, -, hfield⟩ := exists_of_mem_mapM hfields f hf
  exact namesBase_of_fieldFromDict hfield

/-- **The codec loses nothing but the length bounds of inline types**: a document comes back
as it was loaded exactly when no field has an inline type with such a bound. -/
theorem codec_lossless_iff {document : Value ω} {s : SchemaIR ω}
    (h : parseIr py document = .ok s) :
    parseIr py (schemaToDocument s) = parseIr py document ↔ Unbounded py document := by
  rw [parseIr_schemaToDocument py (namesBase_of_parseIr h), h, Except.ok.injEq,
    schemaWithoutLengths_eq_self_iff h]

/-- A document of one table with one field of the given type. -/
def oneField (rawType : Value Empty) : Value Empty :=
  .dict (record [("vertical", .str (pyStr "retail")), ("schema_version", .int 1),
    ("status", .str (pyStr "draft")), ("system_profile", .str (pyStr "dis.v1")),
    ("tables", .list [.dict (record [("key", .str (pyStr "position")),
      ("template_type", .str (pyStr "snapshot")), ("semantics", .str (pyStr "merge_upsert")),
      ("sink", .str (pyStr "canonical.position")),
      ("fields", .list [.dict (record [("name", .str (pyStr "currency")), ("type", rawType),
        ("produced_by", .str (pyStr "mapping_produced"))])])])])])

def oneFieldSchema (inlineType : Option (TypeIR Empty)) (typeRef : PyStr) : SchemaIR Empty where
  vertical := pyStr "retail"
  schemaVersion := 1
  status := pyStr "draft"
  systemProfile := pyStr "dis.v1"
  types := []
  enums := []
  tables := [{
    key := pyStr "position"
    templateType := pyStr "snapshot"
    semantics := pyStr "merge_upsert"
    sink := pyStr "canonical.position"
    naturalKey := []
    fields := [{
      name := pyStr "currency"
      producedBy := .mappingProduced
      typeRef := typeRef
      nullable := false
      default := .none
      mandatory := false
      maxLength := .none
      inlineType := inlineType
      enumRef := .none
      origin := .none
      displayName := .none
      description := .none
      fieldSection := .none
      pii := .none
      enumCandidate := []
      provenance := none }] }]

lemma parseIr_oneField {rawType : Value Empty} {inlineType : Option (TypeIR Empty)}
    {typeRef : PyStr} (h : fieldTypeFromDict scalars rawType = .ok (inlineType, typeRef)) :
    parseIr scalars (oneField rawType) = .ok (oneFieldSchema inlineType typeRef) := by
  have hproduced : producedByOf (.str (pyStr "mapping_produced") : Value Empty) =
      .ok .mappingProduced := producedByOf_value .mappingProduced
  simp only [parseIr, oneField, record, List.map, get_dict, getItem_dict, find_cons_str, find_nil,
    pyStr_inj, String.reduceEq, if_false, if_true, Option.getD, entries_dict, items_list, ok_bind,
    tableFromDict, fieldFromDict, h, hproduced, List.mapM_cons, List.mapM_nil, scalars.str_str,
    scalars.int_int, bool_bool, provenanceFromDict]
  rfl

/-- An inline type as a document writes it, with the given length bound. -/
def inlineText (maxLength : Value Empty) : Value Empty :=
  .dict (record [("base", .str (pyStr "str")), ("max_length", maxLength)])

lemma fieldTypeFromDict_inlineText (maxLength : Value Empty) :
    fieldTypeFromDict scalars (inlineText maxLength) =
      .ok (some ⟨pyStr "str", .none, .none, maxLength, .none⟩, pyStr "str") := by
  simp [fieldTypeFromDict, inlineText, typeIrFromDict, record]

/-- An inline type without bounds: the document is accepted and comes back. -/
theorem unbounded_inline_lossless :
    ∃ s, parseIr scalars (oneField (inlineText .none)) = .ok s ∧
      parseIr scalars (schemaToDocument s) = parseIr scalars (oneField (inlineText .none)) := by
  have h := parseIr_oneField (fieldTypeFromDict_inlineText .none)
  refine ⟨_, h, (codec_lossless_iff h).mpr ?_⟩
  exact (schemaWithoutLengths_eq_self_iff h).mp rfl

/-- A three-letter code as an inline type: the bound is gone when the document is loaded
again. -/
theorem inline_length_lost :
    ∃ s, parseIr scalars (oneField (inlineText (.int 3))) = .ok s ∧
      parseIr scalars (schemaToDocument s) ≠ parseIr scalars (oneField (inlineText (.int 3))) := by
  have h := parseIr_oneField (fieldTypeFromDict_inlineText (.int 3))
  refine ⟨_, h, ?_⟩
  rw [parseIr_schemaToDocument scalars (namesBase_of_parseIr h), h]
  intro heq
  injection heq with heq
  simp [schemaWithoutLengths, tableWithoutLengths, fieldWithoutLengths, withoutLengths,
    oneFieldSchema] at heq

end CortexDis.IrCodec
