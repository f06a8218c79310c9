import CortexDis.SchemaIr

/-!
The drafts of the console: assembly from a profile and the edits of a patch.

The texts of a request, of the profiled files and of a proposal are Unicode texts. A draft
holds no object other than texts, numbers, truth values, lists and dictionaries.
-/

namespace CortexDis.DraftIr

open CortexDis.PyText CortexDis.PyValue CortexDis.SchemaIr

abbrev Schema := SchemaIR Empty

/-! ### Assembly -/

/-- One column of the profile, as `columns_to_payload` hands it over. -/
structure ProfiledColumn where
  name : String
  base : String
  nullable : Bool
  maxLength : Option ℤ
  precision : Option ℤ
  scale : Option ℤ
  distinctValues : List String
  presentInFiles : ℤ
  totalFiles : ℤ
  rowsProfiled : ℤ
  sourceHeaders : List String

/-- One proposal, as `proposals_to_payload` hands it over. -/
structure ColumnProposal where
  sourceColumn : String
  canonicalName : Option String
  enumValues : Option (List String)
  pii : Option String
  displayName : Option String
  description : Option String

def text (s : String) : Value Empty := .str (pyStr s)
def optText (s : Option String) : Value Empty := s.elim .none text
def optInt (n : Option ℤ) : Value Empty := n.elim .none .int

/-- A field of the system profile: locked, and owned by the platform. -/
def systemField (name : String) (producedBy : ProducedBy) (typeRef : String) (nullable : Bool)
    (default maxLength : Value Empty) : FieldIR Empty where
  name := pyStr name
  producedBy := producedBy
  typeRef := pyStr typeRef
  nullable := nullable
  default := default
  mandatory := false
  maxLength := maxLength
  inlineType := none
  enumRef := .none
  origin := text "human"
  displayName := .none
  description := .none
  fieldSection := .none
  pii := .none
  enumCandidate := []
  provenance := none

/-- `SNAPSHOT_SYSTEM_PROFILE` -/
def snapshotSystemProfile : List (FieldIR Empty) :=
  [systemField "id" .dbGenerated "uuid" false (text "uuidv7()") .none,
    systemField "tenant_id" .consumerInjected "uuid" false .none .none,
    systemField "store_id" .consumerInjected "uuid" false .none .none,
    systemField "last_source_event_at" .consumerInjected "timestamptz" true .none .none,
    systemField "mapping_version_id" .consumerInjected "bigint" false .none .none,
    systemField "trace_id" .consumerInjected "uuid" false .none .none,
    systemField "dis_channel" .consumerInjected "str" false .none (.int 32),
    systemField "last_updated_at" .dbGenerated "timestamptz" false (text "now()") .none,
    systemField "ingest_metadata" .consumerInjected "jsonb" true .none .none]

/-- The proposal for a column: the last one that names it. -/
def proposalFor (proposals : List ColumnProposal) (name : String) : Option ColumnProposal :=
  proposals.reverse.find? fun p => p.sourceColumn = name

/-- `a or b` on texts and lists of texts that may be missing. -/
def orName (a : Option String) (b : String) : String :=
  match a with
  | some s => if s = "" then b else s
  | none => b

def orValues (a : Option (List String)) (b : List String) : List String :=
  match a with
  | some l => if l = [] then b else l
  | none => b

/-- `_business_field` -/
def businessField (col : ProfiledColumn) (proposal : Option ColumnProposal) :
    FieldIR Empty where
  name := pyStr (orName (proposal.bind (·.canonicalName)) col.name)
  producedBy := .mappingProduced
  typeRef := pyStr col.base
  nullable := col.nullable
  default := .none
  mandatory := false
  maxLength := if col.base = "str" then optInt col.maxLength else .none
  inlineType :=
    if col.base = "decimal" then
      some ⟨pyStr "decimal", optInt col.precision, optInt col.scale, .none, .none⟩
    else none
  enumRef := .none
  origin := text "inferred"
  displayName := optText (proposal.bind (·.displayName))
  description := optText (proposal.bind (·.description))
  fieldSection := .none
  pii := optText (proposal.bind (·.pii))
  enumCandidate := (orValues (proposal.bind (·.enumValues)) col.distinctValues).map text
  provenance := some ⟨1, col.sourceHeaders.map text, col.presentInFiles, col.totalFiles,
    col.rowsProfiled⟩

/-- `assemble_draft_ir` -/
def assembleDraftIr (vertical tableKey : String) (columns : List ProfiledColumn)
    (proposals : List ColumnProposal) : Schema where
  vertical := pyStr vertical
  schemaVersion := 1
  status := pyStr "draft"
  systemProfile := pyStr "dis.v1"
  types := []
  enums := []
  tables := [{
    key := pyStr tableKey
    templateType := pyStr "snapshot"
    semantics := pyStr "merge_upsert"
    sink := pyStr ("canonical." ++ tableKey)
    naturalKey := []
    fields := snapshotSystemProfile ++
      columns.map fun col => businessField col (proposalFor proposals col.name) }]

/-- The check of `validate_fresh_draft` on one field. -/
def freshField (f : FieldIR Empty) : Bool :=
  if f.producedBy = .mappingProduced then f.origin.isStr (pyStr "inferred")
  else f.origin.isStr (pyStr "human")

/-- `validate_fresh_draft` passes. -/
def freshDraft (schema : Schema) : Bool := schema.tables.all fun t => t.fields.all freshField

/-- Assembly stamps each origin as the check wants it. -/
theorem freshDraft_assemble (vertical tableKey : String) (columns : List ProfiledColumn)
    (proposals : List ColumnProposal) :
    freshDraft (assembleDraftIr vertical tableKey columns proposals) = true := by
  have hsystem : snapshotSystemProfile.all freshField = true := by decide
  simp [freshDraft, assembleDraftIr, hsystem, freshField, businessField, text, Value.isStr]

/-! ### Edits -/

/-- The origins a request may set. -/
inductive Origin
  | inferred
  | human
  deriving DecidableEq, Repr

def Origin.text : Origin → Value Empty
  | inferred => DraftIr.text "inferred"
  | human => DraftIr.text "human"

/-- One field edit: only the attributes that are given change. -/
structure FieldEdit where
  name : String
  nullable : Option Bool
  mandatory : Option Bool
  pii : Option String
  enumCandidate : Option (List String)
  origin : Option Origin
  deriving DecidableEq

structure DraftPatch where
  naturalKey : Option (List String)
  fields : List FieldEdit
  deriving DecidableEq

/-- Why a `DraftStateConflictError` is raised. -/
inductive Conflict
  /-- cannot edit a non-draft version (published versions are immutable) -/
  | editNonDraft (actual : PyStr)
  /-- update cannot change draft status; freeze is the only publish transition -/
  | changeStatus (actual : PyStr)
  /-- only a draft can be frozen -/
  | freezeNonDraft (actual : PyStr)
  /-- the field is a locked system field and cannot be edited -/
  | lockedField (name : String)
  deriving DecidableEq, Repr

/-- What a statement is refused for. -/
inductive DriverError
  | invalidUuid
  | uniqueViolation
  | checkViolation
  /-- atlas.schema_drafts row is published and immutable -/
  | raiseException
  /-- a value too long or out of range, or a text that cannot be stored -/
  | dataError
  deriving DecidableEq, Repr

/-- The errors of the store and of the handlers. -/
inductive AtlasError
  /-- atlas draft not found -/
  | draftNotFound (identifier : PyStr)
  /-- field not in draft -/
  | fieldNotFound (identifier : String)
  | stateConflict (draftId : PyStr) (why : Conflict)
  /-- the gate of the handler: draft has unratified curated attributes; ratify them before
  publishing -/
  | notRatified (violations : List PyStr)
  /-- the gate of `freeze`: draft is not ratified for publish -/
  | valueError (violations : List PyStr)
  | indexError
  /-- `validate_fresh_draft` -/
  | notFresh
  | driver (e : DriverError)
  | parse (e : PyError)
  deriving DecidableEq

/-- `by_name`: the index of the last field of that name. -/
def byName (name : PyStr) : List (FieldIR Empty) → Option ℕ
  | [] => none
  | f :: fields =>
    match byName name fields with
    | some i => some (i + 1)
    | none => if f.name = name then some 0 else none

/-- The attributes an edit gives, set on a field. -/
def editField (edit : FieldEdit) (f : FieldIR Empty) : FieldIR Empty :=
  { f with
    nullable := edit.nullable.getD f.nullable
    mandatory := edit.mandatory.getD f.mandatory
    pii := edit.pii.elim f.pii text
    enumCandidate := edit.enumCandidate.elim f.enumCandidate fun l => l.map text
    origin := edit.origin.elim f.origin Origin.text }

/-- One turn of the loop of `_apply_patch`; the indices are those of the table's own fields. -/
def applyEdit (draftId : PyStr) (own fields : List (FieldIR Empty)) (edit : FieldEdit) :
    Except AtlasError (List (FieldIR Empty)) :=
  match byName (pyStr edit.name) own with
  | none => .error (.fieldNotFound edit.name)
  | some i =>
    match fields[i]? with
    | none => .error .indexError
    | some f =>
      if f.producedBy = .mappingProduced then .ok (fields.set i (editField edit f))
      else .error (.stateConflict draftId (.lockedField edit.name))

/-- `_apply_patch` -/
def applyPatch (draft : Schema) (patch : DraftPatch) (draftId : PyStr) :
    Except AtlasError Schema :=
  match draft.tables with
  | [] => .error .indexError
  | table :: _ => do
    let fields ← patch.fields.foldlM (applyEdit draftId table.fields) table.fields
    let naturalKey := patch.naturalKey.elim table.naturalKey fun l => l.map pyStr
    return { draft with tables := [{ table with fields := fields, naturalKey := naturalKey }] }

end CortexDis.DraftIr
