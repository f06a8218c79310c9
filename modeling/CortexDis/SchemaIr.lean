import CortexDis.PyValue

/-!
The canonical-schema document: its dataclasses, the loader `parse_ir`, the serializer
`schema_to_document` and the gate a draft passes to be published.

A field annotated `int | None` or `str | None` is taken from the document as it stands, so it
is any object. Dictionaries keep their items in order.
-/

namespace CortexDis.SchemaIr

open CortexDis.PyText CortexDis.PyValue

/-- The runtime production class. -/
inductive ProducedBy
  | consumerInjected
  | dbGenerated
  | computeOwned
  | enrichmentProduced
  | mappingProduced
  deriving DecidableEq, Repr

def ProducedBy.value : ProducedBy → PyStr
  | consumerInjected => pyStr "consumer_injected"
  | dbGenerated => pyStr "db_generated"
  | computeOwned => pyStr "compute_owned"
  | enrichmentProduced => pyStr "enrichment_produced"
  | mappingProduced => pyStr "mapping_produced"

structure TypeIR (ω : Type) where
  base : PyStr
  precision : Value ω
  scale : Value ω
  maxLength : Value ω
  minLength : Value ω

structure FieldProvenance (ω : Type) where
  introducedIn : ℤ
  sourceHeaders : List (Value ω)
  presentInFiles : ℤ
  totalFiles : ℤ
  rowsProfiled : ℤ

structure FieldIR (ω : Type) where
  name : PyStr
  producedBy : ProducedBy
  typeRef : PyStr
  nullable : Bool
  default : Value ω
  mandatory : Bool
  maxLength : Value ω
  inlineType : Option (TypeIR ω)
  enumRef : Value ω
  origin : Value ω
  displayName : Value ω
  description : Value ω
  fieldSection : Value ω
  pii : Value ω
  enumCandidate : List (Value ω)
  provenance : Option (FieldProvenance ω)

structure TableIR (ω : Type) where
  key : PyStr
  templateType : PyStr
  semantics : PyStr
  sink : PyStr
  naturalKey : List PyStr
  fields : List (FieldIR ω)

structure SchemaIR (ω : Type) where
  vertical : PyStr
  schemaVersion : ℤ
  status : PyStr
  systemProfile : PyStr
  types : List (Value ω × TypeIR ω)
  enums : List (Value ω × List PyStr)
  tables : List (TableIR ω)

variable {ω : Type}

/-! ### The loader -/

/-- `ProducedBy(raw)`: the member of that value. -/
def producedByOf : Value ω → Except PyError ProducedBy
  | .str s =>
    if s = ProducedBy.consumerInjected.value then .ok .consumerInjected
    else if s = ProducedBy.dbGenerated.value then .ok .dbGenerated
    else if s = ProducedBy.computeOwned.value then .ok .computeOwned
    else if s = ProducedBy.enrichmentProduced.value then .ok .enrichmentProduced
    else if s = ProducedBy.mappingProduced.value then .ok .mappingProduced
    else .error .valueError
  | _ => .error .valueError

/-- `_type_ir_from_dict` -/
def typeIrFromDict (py : Builtins ω) (raw : Value ω) : Except PyError (TypeIR ω) := do
  return {
    base := ← py.str (← raw.getItem (pyStr "base"))
    precision := ← raw.get (pyStr "precision") .none
    scale := ← raw.get (pyStr "scale") .none
    maxLength := ← raw.get (pyStr "max_length") .none
    minLength := ← raw.get (pyStr "min_length") .none }

/-- `_provenance_from_dict` -/
def provenanceFromDict (py : Builtins ω) (raw : Value ω) :
    Except PyError (Option (FieldProvenance ω)) :=
  match raw with
  | .none => .ok none
  | raw => do
    return some {
      introducedIn := ← py.int (← raw.get (pyStr "introduced_in") (.int 1))
      sourceHeaders := ← py.items (← raw.get (pyStr "source_headers") (.list []))
      presentInFiles := ← py.int (← raw.get (pyStr "present_in_files") (.int 0))
      totalFiles := ← py.int (← raw.get (pyStr "total_files") (.int 0))
      rowsProfiled := ← py.int (← raw.get (pyStr "rows_profiled") (.int 0)) }

/-- The first lines of `_field_from_dict`: an inline type and the name of its base, or the
name of a type. -/
def fieldTypeFromDict (py : Builtins ω) (rawType : Value ω) :
    Except PyError (Option (TypeIR ω) × PyStr) :=
  match rawType with
  | .dict items => do
    let inlineType ← typeIrFromDict py (.dict items)
    return (some inlineType, inlineType.base)
  | rawType => do return (none, ← py.str rawType)

/-- `_field_from_dict` -/
def fieldFromDict (py : Builtins ω) (raw : Value ω) : Except PyError (FieldIR ω) := do
  let (inlineType, typeRef) ← fieldTypeFromDict py (← raw.getItem (pyStr "type"))
  return {
    name := ← py.str (← raw.getItem (pyStr "name"))
    producedBy := ← producedByOf (← raw.getItem (pyStr "produced_by"))
    typeRef := typeRef
    nullable := py.bool (← raw.get (pyStr "nullable") (.bool false))
    default := ← raw.get (pyStr "default") .none
    mandatory := py.bool (← raw.get (pyStr "mandatory") (.bool false))
    maxLength := ← raw.get (pyStr "max_length") .none
    inlineType := inlineType
    enumRef := ← raw.get (pyStr "enum_ref") .none
    origin := ← raw.get (pyStr "origin") .none
    displayName := ← raw.get (pyStr "display_name") .none
    description := ← raw.get (pyStr "description") .none
    fieldSection := ← raw.get (pyStr "section") .none
    pii := ← raw.get (pyStr "pii") .none
    enumCandidate := ← py.items (← raw.get (pyStr "enum_candidate") (.list []))
    provenance := ← provenanceFromDict py (← raw.get (pyStr "provenance") .none) }

/-- `_table_from_dict` -/
def tableFromDict (py : Builtins ω) (raw : Value ω) : Except PyError (TableIR ω) := do
  return {
    key := ← py.str (← raw.getItem (pyStr "key"))
    templateType := ← py.str (← raw.getItem (pyStr "template_type"))
    semantics := ← py.str (← raw.getItem (pyStr "semantics"))
    sink := ← py.str (← raw.getItem (pyStr "sink"))
    naturalKey := ← (← py.items (← raw.get (pyStr "natural_key") (.list []))).mapM py.str
    fields := ← (← py.items (← raw.getItem (pyStr "fields"))).mapM (fieldFromDict py) }

/-- One item of the `types` block. -/
def typeEntry (py : Builtins ω) (e : Value ω × Value ω) :
    Except PyError (Value ω × TypeIR ω) := do
  return (e.1, ← typeIrFromDict py e.2)

/-- One item of the `enums` block. -/
def enumEntry (py : Builtins ω) (e : Value ω × Value ω) :
    Except PyError (Value ω × List PyStr) := do
  return (e.1, ← (← py.items e.2).mapM py.str)

/-- `parse_ir` -/
def parseIr (py : Builtins ω) (document : Value ω) : Except PyError (SchemaIR ω) := do
  let types ← (← (← document.get (pyStr "types") (.dict [])).entries).mapM (typeEntry py)
  let enums ← (← (← document.get (pyStr "enums") (.dict [])).entries).mapM (enumEntry py)
  return {
    vertical := ← py.str (← document.getItem (pyStr "vertical"))
    schemaVersion := ← py.int (← document.getItem (pyStr "schema_version"))
    status := ← py.str (← document.getItem (pyStr "status"))
    systemProfile := ← py.str (← document.getItem (pyStr "system_profile"))
    types := types
    enums := enums
    tables := ←
      (← py.items (← document.get (pyStr "tables") (.list []))).mapM (tableFromDict py) }

/-! ### The serializer -/

/-- A dictionary with literal keys. -/
def record (items : List (String × Value ω)) : List (Value ω × Value ω) :=
  items.map fun e => (.str (pyStr e.1), e.2)

/-- The value of `out["type"]` in `_field_to_dict`. -/
def fieldTypeToDict (f : FieldIR ω) : Value ω :=
  match f.inlineType with
  | some t =>
    .dict (record [("base", .str t.base), ("precision", t.precision), ("scale", t.scale)])
  | none => .str f.typeRef

def provenanceToDict (p : FieldProvenance ω) : Value ω :=
  .dict (record [("introduced_in", .int p.introducedIn),
    ("source_headers", .list p.sourceHeaders), ("present_in_files", .int p.presentInFiles),
    ("total_files", .int p.totalFiles), ("rows_profiled", .int p.rowsProfiled)])

/-- `_field_to_dict`: the keys in the order they are set. -/
def fieldToDict (f : FieldIR ω) : Value ω :=
  .dict (record [("name", .str f.name), ("type", fieldTypeToDict f)]
    ++ present (pyStr "max_length") f.maxLength
    ++ record [("nullable", .bool f.nullable)]
    ++ present (pyStr "default") f.default
    ++ record [("mandatory", .bool f.mandatory),
      ("produced_by", .str f.producedBy.value), ("origin", f.origin)]
    ++ present (pyStr "enum_ref") f.enumRef
    ++ present (pyStr "display_name") f.displayName
    ++ present (pyStr "description") f.description
    ++ present (pyStr "section") f.fieldSection
    ++ present (pyStr "pii") f.pii
    ++ (if f.enumCandidate.isEmpty then []
      else record [("enum_candidate", .list f.enumCandidate)])
    ++ f.provenance.elim [] fun p => record [("provenance", provenanceToDict p)])

/-- `_table_to_dict` -/
def tableToDict (t : TableIR ω) : Value ω :=
  .dict (record [("key", .str t.key), ("template_type", .str t.templateType),
    ("semantics", .str t.semantics), ("sink", .str t.sink),
    ("natural_key", .list (t.naturalKey.map .str)), ("fields", .list (t.fields.map fieldToDict))])

/-- One value of the `types` block. -/
def typeToDict (t : TypeIR ω) : Value ω :=
  .dict (record [("base", .str t.base), ("precision", t.precision), ("scale", t.scale),
    ("max_length", t.maxLength), ("min_length", t.minLength)])

/-- `schema_to_document` -/
def schemaToDocument (schema : SchemaIR ω) : Value ω :=
  .dict (record [("vertical", .str schema.vertical), ("schema_version", .int schema.schemaVersion),
    ("status", .str schema.status), ("system_profile", .str schema.systemProfile),
    ("types", .dict (schema.types.map fun e => (e.1, typeToDict e.2))),
    ("enums", .dict (schema.enums.map fun e => (e.1, .list (e.2.map .str)))),
    ("tables", .list (schema.tables.map tableToDict))])

/-! ### The publish gate -/

/-- `is_curated_bearing` -/
def isCuratedBearing (field : FieldIR ω) (table : TableIR ω) : Bool :=
  table.naturalKey.contains field.name || field.mandatory || !field.enumCandidate.isEmpty ||
    (!field.pii.isNone && !field.pii.isStr (pyStr "none"))

/-- The violations `ratify_violations` appends for one table. -/
def tableViolations (table : TableIR ω) : List PyStr :=
  (table.fields.filter fun f => isCuratedBearing f table && !f.origin.isStr (pyStr "human")).map
      (fun f => table.key ++ pyStr "." ++ f.name ++
        pyStr ": curated attribute still origin: inferred (needs ratification)")
    ++ if table.semantics = pyStr "merge_upsert" && table.naturalKey.isEmpty
      then [table.key ++ pyStr ": merge_upsert table has no ratified natural_key"] else []

/-- `ratify_violations`: the reasons a draft is not publishable. -/
def ratifyViolations (schema : SchemaIR ω) : List PyStr := schema.tables.flatMap tableViolations

end CortexDis.SchemaIr
