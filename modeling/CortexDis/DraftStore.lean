import CortexDis.DraftIr
import CortexDis.Jsonb
import CortexDis.PyDict

/-!
The two draft stores and the handlers over the durable one.

The in-memory store is a dictionary from the text of an id to a draft. The durable store is
the table `atlas.schema_drafts`: its ids are UUIDs, the draft is a JSONB document, a trigger
refuses to change a published row, and the published rows of one vertical, table and version
are unique. Every store operation reads in one transaction and writes in another.
-/

namespace CortexDis.DraftStore

open CortexDis.PyText CortexDis.PyValue CortexDis.SchemaIr CortexDis.DraftIr CortexDis.Jsonb
open CortexDis.PyDict CortexDis.Runs

/-- The ids: `uuidOf` is the cast of a text to `UUID`, `textOf` is `str(uuid)`. -/
structure Uuids (υ : Type) where
  uuidOf : PyStr → Option υ
  textOf : υ → PyStr
  uuidOf_textOf : ∀ u, uuidOf (textOf u) = some u

attribute [simp] Uuids.uuidOf_textOf

lemma Uuids.textOf_injective {υ : Type} (ids : Uuids υ) : Function.Injective ids.textOf := by
  intro u v h
  have huv : ids.uuidOf (ids.textOf u) = ids.uuidOf (ids.textOf v) := by rw [h]
  simpa using huv

/-- Ids written in their canonical form, each text its own UUID. -/
def canonicalIds : Uuids PyStr := ⟨some, id, fun _ => rfl⟩

/-- The checks of `update`, of the row's draft and of the one to be saved. -/
def checkUpdate (draftId : PyStr) (current draft : Schema) : Except AtlasError Unit :=
  if current.status ≠ pyStr "draft" then
    .error (.stateConflict draftId (.editNonDraft current.status))
  else if draft.status ≠ pyStr "draft" then
    .error (.stateConflict draftId (.changeStatus draft.status))
  else .ok ()

/-- `replace(current, status="published", schema_version=version)` -/
def frozen (current : Schema) (version : ℤ) : Schema :=
  { current with status := pyStr "published", schemaVersion := version }

/-- The checks of `freeze`; the second is `assert_ratified_for_publish`. -/
def checkFreeze (draftId : PyStr) (current : Schema) : Except AtlasError Unit :=
  if current.status ≠ pyStr "draft" then
    .error (.stateConflict draftId (.freezeNonDraft current.status))
  else if ratifyViolations current ≠ [] then .error (.valueError (ratifyViolations current))
  else .ok ()

/-! ### In memory -/

abbrev Drafts := Dict PyStr Schema

namespace Memory

def get (drafts : Drafts) (draftId : PyStr) : Except AtlasError Schema :=
  match drafts.get? draftId with
  | some s => .ok s
  | none => .error (.draftNotFound draftId)

/-- `create`, with the id it mints. -/
def create (drafts : Drafts) (draftId : PyStr) (draft : Schema) : Drafts := drafts.set draftId draft

def update (drafts : Drafts) (draftId : PyStr) (draft : Schema) : Except AtlasError Drafts := do
  let current ← get drafts draftId
  checkUpdate draftId current draft
  return drafts.set draftId draft

def freeze (drafts : Drafts) (draftId : PyStr) (version : ℤ) :
    Except AtlasError (Drafts × Schema) := do
  let current ← get drafts draftId
  checkFreeze draftId current
  return (drafts.set draftId (frozen current version), frozen current version)

end Memory

/-! ### The table -/

/-- A row of `atlas.schema_drafts`; the timestamps and the author are left out. -/
structure Row where
  vertical : PyStr
  tableKey : PyStr
  status : PyStr
  schemaVersion : ℤ
  ir : Json

section Rows

variable {υ : Type} [DecidableEq υ]

abbrev Table (υ : Type) := Dict υ Row

/-- A text in a `VARCHAR(n)` column: spaces beyond the length are cut, anything else beyond
it is refused. A text with a NUL or a surrogate cannot be sent. -/
def varchar (n : ℕ) (s : PyStr) : Except AtlasError PyStr :=
  if s.any fun c => c = 0 || isHigh c || isLow c then .error (.driver .dataError)
  else if s.length ≤ n then .ok s
  else if (s.drop n).all (· = 32) then .ok (s.take n)
  else .error (.driver .dataError)

/-- A number in an `INT` column. -/
def int4 (n : ℤ) : Except AtlasError ℤ :=
  if -2 ^ 31 ≤ n ∧ n < 2 ^ 31 then .ok n else .error (.driver .dataError)

/-- `CAST(json.dumps(schema_to_document(draft)) AS JSONB)` -/
def saveIr (draft : Schema) : Except AtlasError Json :=
  match toJsonb (schemaToDocument draft) with
  | .ok v => .ok v
  | .error _ => .error (.driver .dataError)

/-- The row would be a second published one of its vertical, table and version. -/
def duplicate (table : Table υ) (u : υ) (row : Row) : Bool :=
  row.status = pyStr "published" && table.entries.any fun e =>
    e.1 ≠ u && e.2.status = pyStr "published" && e.2.vertical = row.vertical &&
      e.2.tableKey = row.tableKey && e.2.schemaVersion = row.schemaVersion

/-- `uq_schema_drafts_published_version` -/
def putRow (table : Table υ) (u : υ) (row : Row) : Except AtlasError (Table υ) :=
  if duplicate table u row then .error (.driver .uniqueViolation) else .ok (table.set u row)

/-- A text is compared with the column as a UUID. -/
def castUuid (ids : Uuids υ) (draftId : PyStr) : Except AtlasError υ :=
  match ids.uuidOf draftId with
  | some u => .ok u
  | none => .error (.driver .invalidUuid)

/-- The `INSERT` of `create`. -/
def insertStmt (table : Table υ) (u : υ) (draft : Schema) : Except AtlasError (Table υ) :=
  match draft.tables with
  | [] => .error .indexError
  | first :: _ => do
    let ir ← saveIr draft
    let vertical ← varchar 64 draft.vertical
    let tableKey ← varchar 128 first.key
    let status ← varchar 16 draft.status
    let schemaVersion ← int4 draft.schemaVersion
    if ¬ (status = pyStr "draft" ∨ status = pyStr "published" ∨ status = pyStr "superseded") then
      .error (.driver .checkViolation)
    else if (table.get? u).isSome then .error (.driver .uniqueViolation)
    else putRow table u ⟨vertical, tableKey, status, schemaVersion, ir⟩

/-- `trg_schema_drafts_immutable_published`: the row before the update must not be published. -/
def beforeUpdate (row : Row) : Except AtlasError Unit :=
  if row.status = pyStr "published" then .error (.driver .raiseException) else .ok ()

/-- The `UPDATE` of `update`. Where no row has the id, nothing is changed. -/
def updateStmt (ids : Uuids υ) (table : Table υ) (draftId : PyStr) (draft : Schema) :
    Except AtlasError (Table υ) := do
  let ir ← saveIr draft
  let u ← castUuid ids draftId
  match table.get? u with
  | none => return table
  | some row =>
    beforeUpdate row
    putRow table u { row with ir := ir }

/-- The `UPDATE` of `freeze`. -/
def freezeStmt (ids : Uuids υ) (table : Table υ) (draftId : PyStr) (draft : Schema)
    (version : ℤ) : Except AtlasError (Table υ) := do
  let ir ← saveIr draft
  let schemaVersion ← int4 version
  let u ← castUuid ids draftId
  match table.get? u with
  | none => return table
  | some row =>
    beforeUpdate row
    putRow table u
      { row with status := pyStr "published", schemaVersion := schemaVersion, ir := ir }

/-- `parse_ir(dict(row["ir"]))` -/
def loadIr (py : Builtins Empty) (row : Row) : Except AtlasError Schema :=
  match parseIr py row.ir with
  | .ok s => .ok s
  | .error e => .error (.parse e)

/-- `get` -/
def get (py : Builtins Empty) (ids : Uuids υ) (table : Table υ) (draftId : PyStr) :
    Except AtlasError Schema := do
  let u ← castUuid ids draftId
  match table.get? u with
  | none => .error (.draftNotFound draftId)
  | some row => loadIr py row

/-- `update`, with no other request between its transactions. -/
def update (py : Builtins Empty) (ids : Uuids υ) (table : Table υ) (draftId : PyStr)
    (draft : Schema) : Except AtlasError (Table υ) := do
  let current ← get py ids table draftId
  checkUpdate draftId current draft
  updateStmt ids table draftId draft

/-- `freeze`, with no other request between its transactions. -/
def freeze (py : Builtins Empty) (ids : Uuids υ) (table : Table υ) (draftId : PyStr)
    (version : ℤ) : Except AtlasError (Table υ × Schema) := do
  let current ← get py ids table draftId
  checkFreeze draftId current
  return (← freezeStmt ids table draftId (frozen current version) version, frozen current version)

end Rows

/-! ### What a statement does -/

lemma castUuid_eq_ok {υ : Type} {ids : Uuids υ} {draftId : PyStr} {u : υ}
    (h : castUuid ids draftId = .ok u) : ids.uuidOf draftId = some u := by
  unfold castUuid at h
  split at h
  next v hv =>
    cases h
    exact hv
  · cases h

section Statements

variable {υ : Type} [DecidableEq υ] {table table' : Table υ} {draft : Schema}

lemma putRow_eq_ok {u : υ} {row : Row} (h : putRow table u row = .ok table') :
    duplicate table u row = false ∧ table' = table.set u row := by
  unfold putRow at h
  split at h
  · cases h
  next hd =>
    cases h
    exact ⟨by simpa using hd, rfl⟩

lemma int4_eq_ok {n m : ℤ} (h : int4 n = .ok m) : m = n := by
  unfold int4 at h
  split at h
  · cases h
    rfl
  · cases h

lemma beforeUpdate_eq_ok {row : Row} {x : Unit} (h : beforeUpdate row = .ok x) :
    row.status ≠ pyStr "published" := by
  unfold beforeUpdate at h
  split at h
  · cases h
  · assumption

lemma insertStmt_eq_ok {u : υ} (h : insertStmt table u draft = .ok table') :
    ∃ row, table.get? u = none ∧ varchar 16 draft.status = .ok row.status ∧
      saveIr draft = .ok row.ir ∧ table' = table.set u row := by
  unfold insertStmt at h
  split at h
  · cases h
  obtain ⟨ir, hir, h⟩ := of_bind_eq_ok h
  obtain ⟨vertical, -, h⟩ := of_bind_eq_ok h
  obtain ⟨tableKey, -, h⟩ := of_bind_eq_ok h
  obtain ⟨status, hs, h⟩ := of_bind_eq_ok h
  obtain ⟨schemaVersion, -, h⟩ := of_bind_eq_ok h
  split at h
  · cases h
  split at h
  · cases h
  next hfresh =>
    obtain ⟨-, rfl⟩ := putRow_eq_ok h
    exact ⟨_, by simpa using hfresh, hs, hir, rfl⟩

lemma updateStmt_eq_ok {ids : Uuids υ} {draftId : PyStr}
    (h : updateStmt ids table draftId draft = .ok table') :
    ∃ u ir, ids.uuidOf draftId = some u ∧ saveIr draft = .ok ir ∧
      ((table.get? u = none ∧ table' = table) ∨
        ∃ row, table.get? u = some row ∧ row.status ≠ pyStr "published" ∧
          table' = table.set u { row with ir := ir }) := by
  unfold updateStmt at h
  obtain ⟨ir, hir, h⟩ := of_bind_eq_ok h
  obtain ⟨u, hu, h⟩ := of_bind_eq_ok h
  refine ⟨u, ir, castUuid_eq_ok hu, hir, ?_⟩
  split at h
  next hnone =>
    cases h
    exact .inl ⟨hnone, rfl⟩
  next row hrow =>
    obtain ⟨_, hbefore, h⟩ := of_bind_eq_ok h
    exact .inr ⟨row, hrow, beforeUpdate_eq_ok hbefore, (putRow_eq_ok h).2⟩

lemma freezeStmt_eq_ok {ids : Uuids υ} {draftId : PyStr} {version : ℤ}
    (h : freezeStmt ids table draftId draft version = .ok table') :
    ∃ u ir, ids.uuidOf draftId = some u ∧ saveIr draft = .ok ir ∧
      ((table.get? u = none ∧ table' = table) ∨
        ∃ row, table.get? u = some row ∧ row.status ≠ pyStr "published" ∧
          table' = table.set u { row with
            status := pyStr "published", schemaVersion := version, ir := ir }) := by
  unfold freezeStmt at h
  obtain ⟨ir, hir, h⟩ := of_bind_eq_ok h
  obtain ⟨v, hv, h⟩ := of_bind_eq_ok h
  obtain ⟨u, hu, h⟩ := of_bind_eq_ok h
  cases int4_eq_ok hv
  refine ⟨u, ir, castUuid_eq_ok hu, hir, ?_⟩
  split at h
  next hnone =>
    cases h
    exact .inl ⟨hnone, rfl⟩
  next row hrow =>
    obtain ⟨_, hbefore, h⟩ := of_bind_eq_ok h
    exact .inr ⟨row, hrow, beforeUpdate_eq_ok hbefore, (putRow_eq_ok h).2⟩

lemma get_eq_ok {py : Builtins Empty} {ids : Uuids υ} {draftId : PyStr}
    (h : get py ids table draftId = .ok draft) :
    ∃ u row, ids.uuidOf draftId = some u ∧ table.get? u = some row ∧ loadIr py row = .ok draft := by
  unfold DraftStore.get at h
  obtain ⟨u, hu, h⟩ := of_bind_eq_ok h
  split at h
  · cases h
  next row hrow => exact ⟨u, row, castUuid_eq_ok hu, hrow, h⟩

end Statements

lemma checkUpdate_eq_ok {draftId : PyStr} {current draft : Schema} {x : Unit}
    (h : checkUpdate draftId current draft = .ok x) :
    current.status = pyStr "draft" ∧ draft.status = pyStr "draft" := by
  unfold checkUpdate at h
  split at h
  · cases h
  split at h
  · cases h
  · exact ⟨not_not.mp ‹_›, not_not.mp ‹_›⟩

lemma checkFreeze_eq_ok {draftId : PyStr} {current : Schema} {x : Unit}
    (h : checkFreeze draftId current = .ok x) :
    current.status = pyStr "draft" ∧ ratifyViolations current = [] := by
  unfold checkFreeze at h
  split at h
  · cases h
  split at h
  · cases h
  · exact ⟨not_not.mp ‹_›, not_not.mp ‹_›⟩

end CortexDis.DraftStore
