import CortexDis.DraftDocs

/-!
The draft handlers as interleaved requests over one table.

A handler is a sequence of transactions with pure code between them. `advance` runs one
transaction of a request together with the code up to its next one; a schedule says which
request runs next. A request that is never scheduled again has failed or is still waiting.
-/

namespace CortexDis.AtlasRuns

open CortexDis.PyText CortexDis.PyValue CortexDis.SchemaIr CortexDis.DraftIr CortexDis.DraftStore
open CortexDis.DraftDocs CortexDis.Runs CortexDis.PyDict

variable {υ ι : Type}

/-- A request to the console. A create request carries the id it mints. -/
inductive Request (υ : Type)
  | create (u : υ) (vertical : String) (tableKey : Option String)
      (columns : List ProfiledColumn) (proposals : List ColumnProposal)
  | patch (draftId : PyStr) (patch : DraftPatch)
  | publish (draftId : PyStr)

/-- Where a request stands: the transaction it runs next, with its local variables. -/
inductive Phase (υ : Type)
  /-- the `INSERT` of `create` -/
  | insert (u : υ) (draft : Schema)
  /-- the `get` of `patch_draft` -/
  | patchRead (draftId : PyStr) (patch : DraftPatch)
  /-- the `get` of `update` -/
  | updateRead (draftId : PyStr) (patch : DraftPatch) (draft updated : Schema)
  /-- the `UPDATE` of `update` -/
  | updateWrite (draftId : PyStr) (patch : DraftPatch) (draft updated : Schema)
  /-- the `get` of `publish_draft` -/
  | publishRead (draftId : PyStr)
  /-- the `get` of `freeze` -/
  | freezeRead (draftId : PyStr) (version : ℤ)
  /-- the `UPDATE` of `freeze` -/
  | freezeWrite (draftId : PyStr) (current : Schema) (version : ℤ)
  | done (result : Except AtlasError Schema)

/-- The code of a handler before its first transaction. -/
def start : Request υ → Phase υ
  | .create u vertical tableKey columns proposals =>
    let draft :=
      assembleDraftIr vertical (orName tableKey (vertical ++ "_snapshot")) columns proposals
    if freshDraft draft then .insert u draft else .done (.error .notFresh)
  | .patch draftId patch => .patchRead draftId patch
  | .publish draftId => .publishRead draftId

/-- The phase after a read. -/
def afterRead (r : Except AtlasError (Phase υ)) : Phase υ :=
  match r with
  | .ok p => p
  | .error e => .done (.error e)

lemma afterRead_ok {P : Phase υ → Prop} (hdone : ∀ r, P (.done r))
    {r : Except AtlasError (Phase υ)} (h : ∀ p, r = .ok p → P p) : P (afterRead r) := by
  cases r with
  | error e => exact hdone _
  | ok p => exact h p rfl

/-- The table and the phase after a write: a failed statement changes nothing. -/
def afterWrite (table : Table υ) (result : Schema) (r : Except AtlasError (Table υ)) :
    Table υ × Phase υ :=
  match r with
  | .ok table' => (table', .done (.ok result))
  | .error e => (table, .done (.error e))

variable [DecidableEq υ] (py : Builtins Empty) (ids : Uuids υ)

/-- One transaction of a request, and the code up to the next. -/
def advance (table : Table υ) : Phase υ → Table υ × Phase υ
  | .insert u draft => afterWrite table draft (insertStmt table u draft)
  | .patchRead draftId patch => (table, afterRead do
      let draft ← get py ids table draftId
      let updated ← applyPatch draft patch draftId
      return .updateRead draftId patch draft updated)
  | .updateRead draftId patch draft updated => (table, afterRead do
      let current ← get py ids table draftId
      checkUpdate draftId current updated
      return .updateWrite draftId patch draft updated)
  | .updateWrite draftId _ _ updated =>
    afterWrite table updated (updateStmt ids table draftId updated)
  | .publishRead draftId => (table, afterRead do
      let draft ← get py ids table draftId
      if ratifyViolations draft ≠ [] then .error (.notRatified (ratifyViolations draft))
      else return .freezeRead draftId draft.schemaVersion)
  | .freezeRead draftId version => (table, afterRead do
      let current ← get py ids table draftId
      checkFreeze draftId current
      return .freezeWrite draftId current version)
  | .freezeWrite draftId current version =>
    afterWrite table (frozen current version)
      (freezeStmt ids table draftId (frozen current version) version)
  | .done result => (table, .done result)

/-- The table and the requests in flight. -/
structure State (υ ι : Type) where
  table : Table υ
  phase : ι → Phase υ

variable [DecidableEq ι]

/-- The scheduled request runs its next transaction. -/
def step (s : State υ ι) (i : ι) : State υ ι :=
  let r := advance py ids s.table (s.phase i)
  ⟨r.1, Function.update s.phase i r.2⟩

def run (s : State υ ι) (schedule : List ι) : State υ ι := schedule.foldl (step py ids) s

/-- An empty table, and no request has begun. -/
def init (requests : ι → Request υ) : State υ ι := ⟨Dict.empty, fun i => start (requests i)⟩

end CortexDis.AtlasRuns
