import CortexDis.ObjectPath
import CortexDis.Runs
import CortexDis.Templates

/-!
The template requests of the console, one at a time, and whose rows they read and write.

The identity comes from the verified token. A read is pinned to the token's tenant or, for a
platform user with the ops role, sees every tenant. A write acts for one tenant: the token's,
or the one a platform user names in the body. The transaction's settings decide what the
row-level policy lets it see (`USING`) and write (`WITH CHECK`).
-/

namespace CortexDis.TemplateScope

open CortexDis.Values CortexDis.Errors CortexDis.Templates CortexDis.Runs

/-! ### Identities -/

inductive UserType
  | tenant | platform
  deriving DecidableEq, Repr

/-- What the verified token asserts; the verifier refuses a tenant user without a tenant and
a platform user with one. -/
structure Identity where
  userId : String
  tenantId : Option String
  roles : List String
  userType : UserType
  tenant_some : userType = .tenant → ∃ t, tenantId = some t ∧ t ≠ ""
  platform_none : userType = .platform → tenantId = none ∨ tenantId = some ""

def opsRole : String := "dis:ops"

/-- The constraints of `config.source_mappings`. -/
inductive Constraint
  | templateNamePerSource | seqPerSource | activePerSource | tenant
  deriving DecidableEq, Repr

inductive ApiError
  | opsRoleRequired
  | tenantScope
  | resourceNotFound (templateId : Uuid) (tenantId : Option Uuid)
  | templateNameConflict
  | mappingStateConflict
  /-- the rules or the type are refused before any statement -/
  | invalidRules (e : Exn)
  /-- a row violates the policy's `WITH CHECK` -/
  | rowSecurity
  /-- the sequence number is beyond `SMALLINT` -/
  | outOfRange
  /-- an `IntegrityError` that is raised on -/
  | integrity (c : Constraint)
  deriving DecidableEq

/-- `tenant_uuid_of`; `uuidOf` is the constructor `UUID(text)`. -/
def tenantUuidOf (uuidOf : String → Option Uuid) (identity : Identity) : Except ApiError Uuid :=
  match identity.tenantId with
  | none => .error .tenantScope
  | some text =>
    match uuidOf text with
    | some t => .ok t
    | none => .error .tenantScope

structure ReadScope where
  isPlatform : Bool
  tenantId : Option Uuid
  deriving DecidableEq

structure WriteScope where
  userType : UserType
  tokenTenant : Option Uuid
  hasOps : Bool
  deriving DecidableEq

/-- `require_read_scope` -/
def requireReadScope (uuidOf : String → Option Uuid) (identity : Identity) :
    Except ApiError ReadScope :=
  match identity.userType with
  | .platform =>
    if identity.roles.contains opsRole then .ok ⟨true, none⟩ else .error .opsRoleRequired
  | .tenant => do return ⟨false, some (← tenantUuidOf uuidOf identity)⟩

/-- `require_write_scope` -/
def requireWriteScope (uuidOf : String → Option Uuid) (identity : Identity) :
    Except ApiError WriteScope :=
  match identity.userType with
  | .tenant => do
    let tokenTenant ← tenantUuidOf uuidOf identity
    return ⟨.tenant, some tokenTenant, identity.roles.contains opsRole⟩
  | .platform => .ok ⟨.platform, none, identity.roles.contains opsRole⟩

/-- `resolve_acted_for` -/
def resolveActedFor (scope : WriteScope) (bodyTenantId : Option Uuid) : Except ApiError Uuid :=
  match scope.userType with
  | .tenant =>
    match bodyTenantId, scope.tokenTenant with
    | some _, _ => .error .tenantScope
    | none, none => .error .tenantScope
    | none, some t => .ok t
  | .platform =>
    if !scope.hasOps then .error .opsRoleRequired
    else
      match bodyTenantId with
      | none => .error .tenantScope
      | some t => .ok t

/-! ### Statements -/

variable {ρ : Type}

/-- The committed rows, the next key of the sequence, and the mirrored tenants. -/
structure Db (ρ : Type) where
  rows : List (SourceMappingRow ρ)
  nextVersionId : ℕ
  tenants : List Uuid

/-- The rows a read sees. -/
def readSession (scope : ReadScope) : Except ApiError (SourceMappingRow ρ → Bool) :=
  if scope.isPlatform then .ok fun _ => true
  else
    match scope.tenantId with
    | none => .error .tenantScope
    | some t => .ok (Session.sees ⟨false, t⟩)

/-- The order of `list_template_rows`. -/
def listOrder (a b : SourceMappingRow ρ) : Bool :=
  a.sourceId < b.sourceId || (a.sourceId = b.sourceId && (a.templateName < b.templateName ||
    (a.templateName = b.templateName && (a.templateId.bits < b.templateId.bits ||
      (a.templateId = b.templateId && b.versionSeqPerSource ≤ a.versionSeqPerSource)))))

/-- `list_template_rows` -/
def listTemplateRows (db : Db ρ) (scope : ReadScope) (sourceId : Option String) :
    Except ApiError (List (SourceMappingRow ρ)) := do
  let sees ← readSession scope
  return ((db.rows.filter sees).filter fun r => sourceId.all fun s => r.sourceId = s).insertionSort
    fun a b => listOrder a b

/-- `get_template_rows` -/
def getTemplateRows (db : Db ρ) (scope : ReadScope) (templateId : Uuid) :
    Except ApiError (List (SourceMappingRow ρ)) := do
  let sees ← readSession scope
  return ((db.rows.filter sees).filter fun r => r.templateId = templateId).insertionSort
    fun a b => b.versionSeqPerSource ≤ a.versionSeqPerSource

/-- Another template of the tenant and source has the row's name. Constraints look at every
row, whatever the policy. -/
def nameTaken (rows : List (SourceMappingRow ρ)) (row : SourceMappingRow ρ) : Bool :=
  row.status ≠ .deprecated && rows.any fun r => r.status ≠ .deprecated &&
    r.tenantId = row.tenantId && r.sourceId = row.sourceId &&
    r.templateName = row.templateName && r.templateId ≠ row.templateId

/-- The first constraint that an inserted row violates. -/
def insertViolation (db : Db ρ) (row : SourceMappingRow ρ) : Option Constraint :=
  let same := db.rows.filter fun r => r.tenantId = row.tenantId && r.sourceId = row.sourceId &&
    r.templateId = row.templateId
  if same.any fun r => r.versionSeqPerSource = row.versionSeqPerSource then some .seqPerSource
  else if row.status = .active && same.any fun r => r.status = .active then some .activePerSource
  else if nameTaken db.rows row then some .templateNamePerSource
  else if !db.tenants.contains row.tenantId then some .tenant
  else none

/-- An `INSERT`; `translate` is what the caller makes of a violated constraint. -/
def insertRow (s : Session) (translate : Constraint → ApiError) (db : Db ρ)
    (row : SourceMappingRow ρ) : Except ApiError (Db ρ) :=
  if !s.admits row then .error .rowSecurity
  else if maxSmallint < row.versionSeqPerSource then .error .outOfRange
  else
    match insertViolation db row with
    | some c => .error (translate c)
    | none => .ok { db with rows := db.rows ++ [row], nextVersionId := db.nextVersionId + 1 }

/-- An `UPDATE` of the rows that the session sees and `where` picks. -/
def updateRows (s : Session) (db : Db ρ) (pick : SourceMappingRow ρ → Bool)
    (set : SourceMappingRow ρ → SourceMappingRow ρ) : Except ApiError (Db ρ) :=
  if (db.rows.filter fun r => s.sees r && pick r).all fun r => s.admits (set r) then
    .ok { db with rows := db.rows.map fun r => if s.sees r && pick r then set r else r }
  else .error .rowSecurity

/-- `create_template` -/
def createTemplate (c : CreateTemplate ρ) (db : Db ρ) :
    Except ApiError (Db ρ × List (SourceMappingRow ρ)) := do
  let row := c.row db.rows db.nextVersionId
  let translate : Constraint → ApiError
    | .templateNamePerSource => .templateNameConflict
    | .tenant => .tenantScope
    | v => .integrity v
  return (← insertRow c.session translate db row, [row])

/-- The `UPDATE` of the names of a lineage. -/
def renameStmt (p : PatchTemplate ρ) (templateName : String) (db : Db ρ) :
    Except ApiError (Db ρ) := do
  let db' ← updateRows p.session db (fun r => r.templateId = p.templateId)
    fun r => { r with templateName }
  let touched := db'.rows.filter fun r => p.session.sees r && r.templateId = p.templateId
  if touched.any (nameTaken db'.rows) then .error .templateNameConflict
  else return db'

/-- The rename part of `patch_template`: only a new name is written. -/
def renameLineage (p : PatchTemplate ρ) (effectiveName templateName : String) (db : Db ρ) :
    Except ApiError (Db ρ) :=
  if templateName ≠ effectiveName then renameStmt p templateName db else .ok db

/-- `_apply_rules_edit` -/
def applyRules (p : PatchTemplate ρ) (locked : List (SourceMappingRow ρ)) (templateName : String)
    (mappingRules : ρ) (db : Db ρ) : Except ApiError (Db ρ) :=
  match applyRulesEdit locked with
  | .error _ => .error .mappingStateConflict
  | .ok (.inPlace draft) =>
    updateRows p.session db (fun r => r.mappingVersionId = draft.mappingVersionId)
      fun r => { r with mappingRules }
  | .ok (.chain head) =>
    let translate : Constraint → ApiError
      | .seqPerSource => .mappingStateConflict
      | v => .integrity v
    insertRow p.session translate db
      (p.draftRow db.rows db.nextVersionId templateName head mappingRules)

/-- The rules part of `patch_template`. -/
def editRules (p : PatchTemplate ρ) (locked : List (SourceMappingRow ρ)) (templateName : String)
    (db : Db ρ) : Except ApiError (Db ρ) :=
  match p.mappingRules with
  | none => .ok db
  | some rules => applyRules p locked templateName rules db

/-- `patch_template` -/
def patchTemplate (p : PatchTemplate ρ) (db : Db ρ) :
    Except ApiError (Db ρ × List (SourceMappingRow ρ)) :=
  match lineageStmt p.session p.templateId db.rows with
  | [] => .error (.resourceNotFound p.templateId (some p.session.tenantId))
  | first :: rest => do
    let templateName := p.templateName.getD first.templateName
    let renamed ← renameLineage p first.templateName templateName db
    let edited ← editRules p (first :: rest) templateName renamed
    return (edited, lineageStmt p.session p.templateId edited.rows)

/-! ### Requests -/

variable {β γ : Type}

structure MappingTemplateCreate (γ : Type) where
  sourceId : String
  templateName : String
  templateType : String
  columns : γ
  actingForTenantId : Option Uuid

structure MappingTemplatePatch (β : Type) where
  templateName : Option String
  mappingRules : Option β
  actingForTenantId : Option Uuid
  at_least_one : templateName ≠ none ∨ mappingRules ≠ none

/-- A request; `create` carries the template id it mints. -/
inductive TemplateRequest (β γ : Type)
  | list (sourceId : Option String)
  | get (templateId : Uuid)
  | create (templateId : Uuid) (body : MappingTemplateCreate γ)
  | patch (templateId : Uuid) (body : MappingTemplatePatch β)

/-- The checks of the rules, which read no table: the documents they give for a new template
and for an edit of one of the given type, or why they refuse it. -/
structure RulesGate (β γ ρ : Type) where
  createRules : MappingTemplateCreate γ → Except Exn ρ
  patchRules : String → β → Except Exn ρ

def RulesGate.lift {α : Type} (r : Except Exn α) : Except ApiError α := r.mapError .invalidRules

variable (uuidOf : String → Option Uuid) (gate : RulesGate β γ ρ)

/-- The first part of a PATCH: rules are checked against the type of the template, which is
read as the acted-for tenant. Without rules there is no such read. -/
def checkedRules (db : Db ρ) (actedFor templateId : Uuid) (raw : Option β) :
    Except ApiError (Option ρ) :=
  match raw with
  | none => .ok none
  | some raw => do
    let rows ← getTemplateRows db ⟨false, some actedFor⟩ templateId
    match rows with
    | [] => .error (.resourceNotFound templateId (some actedFor))
    | first :: _ => do return some (← RulesGate.lift (gate.patchRules first.templateType raw))

/-- The four handlers: the rows afterwards and the rows of the response. -/
def respond (identity : Identity) (db : Db ρ) :
    TemplateRequest β γ → Except ApiError (Db ρ × List (SourceMappingRow ρ))
  | .list sourceId => do
    let scope ← requireReadScope uuidOf identity
    return (db, ← listTemplateRows db scope sourceId)
  | .get templateId => do
    let scope ← requireReadScope uuidOf identity
    let rows ← getTemplateRows db scope templateId
    if rows.isEmpty then .error (.resourceNotFound templateId scope.tenantId) else return (db, rows)
  | .create templateId body => do
    let scope ← requireWriteScope uuidOf identity
    let actedFor ← resolveActedFor scope body.actingForTenantId
    let rules ← RulesGate.lift (gate.createRules body)
    createTemplate ⟨⟨scope.userType = .platform, actedFor⟩, templateId, body.sourceId,
      body.templateName, body.templateType, rules⟩ db
  | .patch templateId body => do
    let scope ← requireWriteScope uuidOf identity
    let actedFor ← resolveActedFor scope body.actingForTenantId
    let rules ← checkedRules gate db actedFor templateId body.mappingRules
    patchTemplate ⟨⟨scope.userType = .platform, actedFor⟩, templateId, body.templateName, rules⟩ db

/-- A request that fails leaves the rows as they are. -/
def handle (identity : Identity) (db : Db ρ) (request : TemplateRequest β γ) :
    Db ρ × Except ApiError (List (SourceMappingRow ρ)) :=
  match respond uuidOf gate identity db request with
  | .ok (db', rows) => (db', .ok rows)
  | .error e => (db, .error e)

/-! ### Whose rows a write changes -/

/-- The rows of every other tenant are the same. -/
def KeepsOthers (t : Uuid) (db db' : Db ρ) : Prop :=
  db'.rows.filter (fun r => r.tenantId ≠ t) = db.rows.filter fun r => r.tenantId ≠ t

lemma KeepsOthers.refl (t : Uuid) (db : Db ρ) : KeepsOthers t db db := rfl

lemma KeepsOthers.trans {t : Uuid} {db₁ db₂ db₃ : Db ρ} (h : KeepsOthers t db₁ db₂)
    (h' : KeepsOthers t db₂ db₃) : KeepsOthers t db₁ db₃ := by
  rw [KeepsOthers, h', h]

lemma updateRows_keeps {s : Session} {db db' : Db ρ} {pick : SourceMappingRow ρ → Bool}
    {set : SourceMappingRow ρ → SourceMappingRow ρ} (h : updateRows s db pick set = .ok db')
    (hset : ∀ r, (set r).tenantId = r.tenantId) : KeepsOthers s.tenantId db db' := by
  unfold updateRows at h
  split at h
  next hall =>
    cases h
    rw [List.all_eq_true] at hall
    have hown : ∀ r ∈ db.rows, (s.sees r && pick r) = true → r.tenantId = s.tenantId := by
      intro r hr hp
      have hadmits := hall r (List.mem_filter.mpr ⟨hr, hp⟩)
      simpa [Session.admits, hset r] using hadmits
    simp only [KeepsOthers]
    generalize db.rows = rows at hown
    induction rows with
    | nil => rfl
    | cons r rows ih =>
      have ih := ih fun r hr => hown r (List.mem_cons_of_mem _ hr)
      rw [List.map_cons, List.filter_cons, List.filter_cons, ih]
      by_cases hp : (s.sees r && pick r) = true
      · have hr := hown r List.mem_cons_self hp
        simp [hp, hset r, hr]
      · simp [hp]
  · cases h

lemma insertRow_keeps {s : Session} {translate : Constraint → ApiError} {db db' : Db ρ}
    {row : SourceMappingRow ρ} (h : insertRow s translate db row = .ok db') :
    KeepsOthers s.tenantId db db' := by
  unfold insertRow at h
  split at h
  · cases h
  next hadmits =>
    split at h
    · cases h
    split at h
    · cases h
    · cases h
      have hown : row.tenantId = s.tenantId := by simpa [Session.admits] using hadmits
      simp [KeepsOthers, hown]

lemma renameLineage_keeps {p : PatchTemplate ρ} {effectiveName templateName : String}
    {db db' : Db ρ} (h : renameLineage p effectiveName templateName db = .ok db') :
    KeepsOthers p.session.tenantId db db' := by
  unfold renameLineage at h
  split at h
  · obtain ⟨db₁, h₁, h⟩ := of_bind_eq_ok h
    dsimp only at h
    split at h
    · cases h
    · cases h
      exact updateRows_keeps h₁ fun _ => rfl
  · cases h
    exact .refl _ _

lemma editRules_keeps {p : PatchTemplate ρ} {locked : List (SourceMappingRow ρ)}
    {templateName : String} {db db' : Db ρ} (h : editRules p locked templateName db = .ok db') :
    KeepsOthers p.session.tenantId db db' := by
  unfold editRules at h
  split at h
  · cases h
    exact .refl _ _
  unfold applyRules at h
  split at h
  · cases h
  · exact updateRows_keeps h fun _ => rfl
  · exact insertRow_keeps h

lemma patchTemplate_keeps {p : PatchTemplate ρ} {db db' : Db ρ} {rows : List (SourceMappingRow ρ)}
    (h : patchTemplate p db = .ok (db', rows)) : KeepsOthers p.session.tenantId db db' := by
  unfold patchTemplate at h
  split at h
  · cases h
  obtain ⟨db₁, h₁, h⟩ := of_bind_eq_ok h
  obtain ⟨db₂, h₂, h⟩ := of_bind_eq_ok h
  cases h
  exact (renameLineage_keeps h₁).trans (editRules_keeps h₂)

lemma createTemplate_keeps {c : CreateTemplate ρ} {db db' : Db ρ}
    {rows : List (SourceMappingRow ρ)} (h : createTemplate c db = .ok (db', rows)) :
    KeepsOthers c.session.tenantId db db' := by
  unfold createTemplate at h
  obtain ⟨db₁, h₁, h⟩ := of_bind_eq_ok h
  cases h
  exact insertRow_keeps h₁

/-! ### Whose rows a read sees -/

/-- The two databases have the same rows of the tenant. -/
def AgreeOn (t : Uuid) (db db' : Db ρ) : Prop :=
  db.rows.filter (fun r => r.tenantId = t) = db'.rows.filter fun r => r.tenantId = t

lemma filter_sees_pinned (t : Uuid) (rows : List (SourceMappingRow ρ)) :
    rows.filter (Session.sees ⟨false, t⟩) = rows.filter fun r => r.tenantId = t := by
  refine List.filter_congr fun r _ => ?_
  simp [Session.sees]

lemma listTemplateRows_congr {t : Uuid} {db db' : Db ρ} (h : AgreeOn t db db')
    (sourceId : Option String) :
    listTemplateRows db ⟨false, some t⟩ sourceId =
      listTemplateRows db' ⟨false, some t⟩ sourceId := by
  rw [AgreeOn] at h
  simp only [listTemplateRows, readSession, Bool.false_eq_true, if_false, ok_bind,
    filter_sees_pinned, h]

lemma getTemplateRows_congr {t : Uuid} {db db' : Db ρ} (h : AgreeOn t db db') (templateId : Uuid) :
    getTemplateRows db ⟨false, some t⟩ templateId =
      getTemplateRows db' ⟨false, some t⟩ templateId := by
  rw [AgreeOn] at h
  simp only [getTemplateRows, readSession, Bool.false_eq_true, if_false, ok_bind,
    filter_sees_pinned, h]

/-! ### Tenant scoping -/

def TemplateRequest.isRead : TemplateRequest β γ → Bool
  | .list _ | .get _ => true
  | _ => false

/-- The tenant the body of a write names. -/
def TemplateRequest.bodyTenant : TemplateRequest β γ → Option Uuid
  | .create _ body => body.actingForTenantId
  | .patch _ body => body.actingForTenantId
  | _ => none

/-- The tenant whose rows an identity may write with a request. -/
def writeTenant (identity : Identity) (request : TemplateRequest β γ) : Option Uuid :=
  match identity.userType with
  | .tenant => identity.tenantId.bind uuidOf
  | .platform => request.bodyTenant

/-- The tenant a write acts for, when its scope is resolved. -/
def actedFor (identity : Identity) (bodyTenantId : Option Uuid) : Except ApiError Uuid := do
  resolveActedFor (← requireWriteScope uuidOf identity) bodyTenantId

/-- The tenant has no version of the template. -/
def NoRow (db : Db ρ) (t templateId : Uuid) : Prop :=
  ∀ r ∈ db.rows, r.templateId = templateId → r.tenantId ≠ t

/-- Tenant scoping of one request. -/
structure Scoped (identity : Identity) (db : Db ρ) (request : TemplateRequest β γ) : Prop where
  /-- A tenant's read depends on its own rows. -/
  read : identity.userType = .tenant → request.isRead → ∀ t, identity.tenantId.bind uuidOf =
    some t →
    ∀ db', AgreeOn t db db' →
      (handle uuidOf gate identity db request).2 = (handle uuidOf gate identity db' request).2
  /-- A write changes rows of the tenant it may write. -/
  write : ∀ t, writeTenant uuidOf identity request = some t →
    KeepsOthers t db (handle uuidOf gate identity db request).1
  /-- Without such a tenant nothing is written. -/
  noTenant : writeTenant uuidOf identity request = none →
    (handle uuidOf gate identity db request).1 = db
  /-- A PATCH of a template that the acted-for tenant does not have is not found. -/
  notFound : ∀ templateId body t, request = .patch templateId body →
    actedFor uuidOf identity body.actingForTenantId = .ok t → NoRow db t templateId →
    handle uuidOf gate identity db request = (db, .error (.resourceNotFound templateId (some t)))

/-- A platform user patches a template's name, and only another tenant has the template. -/
def Unpinned (identity : Identity) (db : Db ρ) (request : TemplateRequest β γ) : Prop :=
  identity.userType = .platform ∧ opsRole ∈ identity.roles ∧ ∃ templateId body t,
    request = .patch templateId body ∧ body.actingForTenantId = some t ∧
    body.mappingRules = none ∧ NoRow db t templateId ∧ ∃ r ∈ db.rows, r.templateId = templateId

variable {uuidOf gate}

lemma requireWriteScope_userType {identity : Identity} {scope : WriteScope}
    (h : requireWriteScope uuidOf identity = .ok scope) : scope.userType = identity.userType := by
  unfold requireWriteScope at h
  split at h
  next ht =>
    obtain ⟨t, -, h⟩ := of_bind_eq_ok h
    cases h
    exact ht.symm
  next hp =>
    cases h
    exact hp.symm

lemma tenantUuidOf_eq_ok {identity : Identity} {t : Uuid}
    (h : tenantUuidOf uuidOf identity = .ok t) : identity.tenantId.bind uuidOf = some t := by
  unfold tenantUuidOf at h
  split at h
  · cases h
  next text htext =>
    split at h
    next u hu =>
      cases h
      simp [htext, hu]
    · cases h

lemma actedFor_eq_ok {identity : Identity} {bodyTenantId : Option Uuid} {t : Uuid}
    (h : actedFor uuidOf identity bodyTenantId = .ok t) :
    (identity.userType = .tenant ∧ identity.tenantId.bind uuidOf = some t) ∨
      (identity.userType = .platform ∧ opsRole ∈ identity.roles ∧ bodyTenantId = some t) := by
  unfold actedFor requireWriteScope at h
  cases hu : identity.userType with
  | tenant =>
    rw [hu] at h
    obtain ⟨scope, hscope, h⟩ := of_bind_eq_ok h
    obtain ⟨token, htoken, hscope⟩ := of_bind_eq_ok hscope
    cases hscope
    refine .inl ⟨rfl, ?_⟩
    cases bodyTenantId with
    | some b => cases h
    | none =>
      cases h
      exact tenantUuidOf_eq_ok htoken
  | platform =>
    rw [hu, ok_bind] at h
    refine .inr ⟨rfl, ?_⟩
    by_cases hops : opsRole ∈ identity.roles
    · refine ⟨hops, ?_⟩
      cases bodyTenantId with
      | none => simp [resolveActedFor, hops] at h
      | some b =>
        have hb : b = t := by simpa [resolveActedFor, hops] using h
        rw [hb]
    · simp [resolveActedFor, hops] at h

lemma respond_create (identity : Identity) (db : Db ρ) (templateId : Uuid)
    (body : MappingTemplateCreate γ) :
    respond uuidOf gate identity db (.create templateId body) =
      actedFor uuidOf identity body.actingForTenantId >>= fun t =>
        RulesGate.lift (gate.createRules body) >>= fun rules =>
          createTemplate ⟨⟨identity.userType = .platform, t⟩, templateId, body.sourceId,
            body.templateName, body.templateType, rules⟩ db := by
  rw [respond, actedFor, bind_assoc]
  cases hscope : requireWriteScope uuidOf identity with
  | error e => rfl
  | ok scope => rw [ok_bind, ok_bind, requireWriteScope_userType hscope]

lemma respond_patch (identity : Identity) (db : Db ρ) (templateId : Uuid)
    (body : MappingTemplatePatch β) :
    respond uuidOf gate identity db (.patch templateId body) =
      actedFor uuidOf identity body.actingForTenantId >>= fun t =>
        checkedRules gate db t templateId body.mappingRules >>= fun rules =>
          patchTemplate ⟨⟨identity.userType = .platform, t⟩, templateId, body.templateName,
            rules⟩ db := by
  rw [respond, actedFor, bind_assoc]
  cases hscope : requireWriteScope uuidOf identity with
  | error e => rfl
  | ok scope => rw [ok_bind, ok_bind, requireWriteScope_userType hscope]

lemma handle_of_error {identity : Identity} {db : Db ρ} {request : TemplateRequest β γ}
    {e : ApiError}
    (h : respond uuidOf gate identity db request = .error e) :
    handle uuidOf gate identity db request = (db, .error e) := by
  simp [handle, h]

lemma respond_keeps {identity : Identity} {db db' : Db ρ} {request : TemplateRequest β γ}
    {rows : List (SourceMappingRow ρ)}
    (h : respond uuidOf gate identity db request = .ok (db', rows)) :
    db' = db ∨ ∃ t, writeTenant uuidOf identity request = some t ∧ KeepsOthers t db db' := by
  cases request with
  | list sourceId =>
    obtain ⟨scope, -, h⟩ := of_bind_eq_ok h
    obtain ⟨rows, -, h⟩ := of_bind_eq_ok h
    cases h
    exact .inl rfl
  | get templateId =>
    obtain ⟨scope, -, h⟩ := of_bind_eq_ok h
    obtain ⟨rows, -, h⟩ := of_bind_eq_ok h
    split at h
    · cases h
    · cases h
      exact .inl rfl
  | create templateId body =>
    rw [respond_create] at h
    obtain ⟨t, ht, h⟩ := of_bind_eq_ok h
    obtain ⟨rules, -, h⟩ := of_bind_eq_ok h
    refine .inr ⟨t, ?_, createTemplate_keeps h⟩
    -- a tenant acts for itself, a platform user for the tenant of the body
    rcases actedFor_eq_ok ht with ⟨hu, htenant⟩ | ⟨hu, -, hbody⟩
    · simp [writeTenant, hu, htenant]
    · simp [writeTenant, hu, TemplateRequest.bodyTenant, hbody]
  | patch templateId body =>
    rw [respond_patch] at h
    obtain ⟨t, ht, h⟩ := of_bind_eq_ok h
    obtain ⟨rules, -, h⟩ := of_bind_eq_ok h
    refine .inr ⟨t, ?_, patchTemplate_keeps h⟩
    rcases actedFor_eq_ok ht with ⟨hu, htenant⟩ | ⟨hu, -, hbody⟩
    · simp [writeTenant, hu, htenant]
    · simp [writeTenant, hu, TemplateRequest.bodyTenant, hbody]

lemma respond_read_congr {identity : Identity} {db db' : Db ρ} {request : TemplateRequest β γ}
    {t : Uuid} (hu : identity.userType = .tenant) (hread : request.isRead)
    (ht : identity.tenantId.bind uuidOf = some t) (h : AgreeOn t db db') :
    (handle uuidOf gate identity db request).2 = (handle uuidOf gate identity db' request).2 := by
  obtain ⟨text, htext, hparse⟩ := Option.bind_eq_some_iff.mp ht
  have hscope : requireReadScope uuidOf identity = .ok ⟨false, some t⟩ := by
    simp only [requireReadScope, hu, tenantUuidOf, htext, hparse, ok_bind]
    rfl
  cases request with
  | list sourceId =>
    simp only [handle, respond, hscope, ok_bind, listTemplateRows_congr h sourceId]
    cases listTemplateRows db' ⟨false, some t⟩ sourceId <;> rfl
  | get templateId =>
    simp only [handle, respond, hscope, ok_bind, getTemplateRows_congr h templateId]
    cases getTemplateRows db' ⟨false, some t⟩ templateId with
    | error e => rfl
    | ok rows =>
      simp only [ok_bind]
      cases rows.isEmpty <;> rfl
  | create templateId body => cases hread
  | patch templateId body => cases hread

lemma checkedRules_notFound {db : Db ρ} {t templateId : Uuid} (h : NoRow db t templateId)
    (raw : β) :
    checkedRules gate db t templateId (some raw) =
      .error (.resourceNotFound templateId (some t)) := by
  have hnone : (db.rows.filter (Session.sees ⟨false, t⟩)).filter
      (fun r => r.templateId = templateId) = [] := by
    rw [filter_sees_pinned, List.filter_filter, List.filter_eq_nil_iff]
    intro r hr hrow
    simp only [Bool.and_eq_true, decide_eq_true_eq] at hrow
    exact h r hr hrow.1 hrow.2
  simp only [checkedRules, getTemplateRows, readSession, Bool.false_eq_true, if_false, ok_bind,
    hnone]
  rfl

lemma mem_lineageStmt {s : Session} {templateId : Uuid} {rows : List (SourceMappingRow ρ)}
    {r : SourceMappingRow ρ} :
    r ∈ lineageStmt s templateId rows ↔ r ∈ rows ∧ r.templateId = templateId ∧ s.sees r := by
  simp only [lineageStmt, lineage, List.mem_insertionSort, List.mem_filter, decide_eq_true_eq,
    and_assoc]

lemma patchTemplate_notFound {p : PatchTemplate ρ} {db : Db ρ}
    (h : ∀ r ∈ db.rows, r.templateId = p.templateId → ¬ p.session.sees r) :
    patchTemplate p db = .error (.resourceNotFound p.templateId (some p.session.tenantId)) := by
  have hnone : lineageStmt p.session p.templateId db.rows = [] := by
    rw [List.eq_nil_iff_forall_not_mem]
    intro r hr
    obtain ⟨hmem, hid, hsees⟩ := mem_lineageStmt.mp hr
    exact h r hmem hid hsees
  simp only [patchTemplate, hnone]

lemma renameLineage_ne_notFound (p : PatchTemplate ρ) (effectiveName templateName : String)
    (db : Db ρ) (i : Uuid) (t : Option Uuid) :
    renameLineage p effectiveName templateName db ≠ .error (.resourceNotFound i t) := by
  intro h
  unfold renameLineage at h
  split at h
  · unfold renameStmt updateRows at h
    split at h
    · rw [ok_bind] at h
      dsimp only at h
      split at h <;> cases h
    · cases h
  · cases h

lemma patchTemplate_name_ne_notFound {p : PatchTemplate ρ} {db : Db ρ} {r : SourceMappingRow ρ}
    (hrules : p.mappingRules = none) (hr : r ∈ lineageStmt p.session p.templateId db.rows)
    (i : Uuid) (t : Option Uuid) : patchTemplate p db ≠ .error (.resourceNotFound i t) := by
  intro h
  unfold patchTemplate at h
  split at h
  next hnil => simp [hnil] at hr
  next first rest _ =>
    simp only [editRules, hrules, ok_bind] at h
    cases hrename :
        renameLineage p first.templateName (p.templateName.getD first.templateName) db with
    | ok renamed => rw [hrename] at h; cases h
    | error e =>
      rw [hrename] at h
      cases h
      exact renameLineage_ne_notFound _ _ _ _ _ _ hrename

/-- A PATCH of a template that the acted-for tenant does not have is not found, unless it runs
with the platform's view and without the read that pins the tenant. -/
lemma respond_patch_notFound {identity : Identity} {db : Db ρ} {templateId t : Uuid}
    {body : MappingTemplatePatch β}
    (hpinned : ¬ Unpinned identity db (.patch (γ := γ) templateId body))
    (hacted : actedFor uuidOf identity body.actingForTenantId = .ok t)
    (hno : NoRow db t templateId) :
    respond uuidOf gate identity db (.patch templateId body) =
      .error (.resourceNotFound templateId (some t)) := by
  rw [respond_patch, hacted, ok_bind]
  cases hrules : body.mappingRules with
  | some raw => rw [checkedRules_notFound hno, error_bind]
  | none =>
    rw [checkedRules, ok_bind]
    refine patchTemplate_notFound fun r hr hid hsees => ?_
    rcases actedFor_eq_ok hacted with ⟨hu, -⟩ | ⟨hu, hops, hbody⟩
    · have hown : r.tenantId = t := by simpa [Session.sees, hu] using hsees
      exact hno r hr hid hown
    · exact hpinned ⟨hu, hops, templateId, body, t, rfl, hbody, hrules, hno, r, hr, hid⟩

lemma Unpinned.not_scoped {identity : Identity} {db : Db ρ} {request : TemplateRequest β γ}
    (h : Unpinned identity db request) : ¬ Scoped uuidOf gate identity db request := by
  obtain ⟨hu, hops, templateId, body, t, rfl, hbody, hrules, hno, r, hr, hid⟩ := h
  intro hscoped
  have hacted : actedFor uuidOf identity body.actingForTenantId = .ok t := by
    simp [actedFor, requireWriteScope, hu, resolveActedFor, hops, hbody, ok_bind]
  have hfound := congrArg Prod.snd (hscoped.notFound templateId body t rfl hacted hno)
  have hlocked : r ∈ lineageStmt ⟨identity.userType = .platform, t⟩ templateId db.rows :=
    mem_lineageStmt.mpr ⟨hr, hid, by simp [Session.sees, hu]⟩
  have hresp : respond uuidOf gate identity db (.patch templateId body) =
      patchTemplate ⟨⟨identity.userType = .platform, t⟩, templateId, body.templateName, none⟩
        db := by
    rw [respond_patch, hacted, ok_bind, hrules, checkedRules, ok_bind]
  simp only [handle, hresp] at hfound
  split at hfound
  · cases hfound
  next e he =>
    cases hfound
    exact patchTemplate_name_ne_notFound rfl hlocked _ _ he

/-- Tenant scoping holds of every request except a platform user's PATCH of the name alone of a
template that only other tenants have. -/
theorem scoped_iff (identity : Identity) (db : Db ρ) (request : TemplateRequest β γ) :
    Scoped uuidOf gate identity db request ↔ ¬ Unpinned identity db request := by
  refine ⟨fun h hun => hun.not_scoped h, fun hpinned => ⟨?_, ?_, ?_, ?_⟩⟩
  · intro hu hread t ht db' hagree
    exact respond_read_congr hu hread ht hagree
  · intro t ht
    unfold handle
    split
    next db' rows hok =>
      rcases respond_keeps hok with rfl | ⟨t', ht', hkeeps⟩
      · exact .refl _ _
      · obtain rfl : t = t' := by simpa [ht] using ht'
        exact hkeeps
    · exact .refl _ _
  · intro hnone
    unfold handle
    split
    next db' rows hok =>
      rcases respond_keeps hok with rfl | ⟨t', ht', -⟩
      · rfl
      · simp [hnone] at ht'
    · rfl
  · rintro templateId body t rfl hacted hno
    exact handle_of_error (respond_patch_notFound hpinned hacted hno)

/-- A platform user with the ops role. -/
def opsUser : Identity where
  userId := "ops-1"
  tenantId := none
  roles := [opsRole]
  userType := .platform
  tenant_some := by decide
  platform_none := fun _ => .inl rfl

/-- Tenant 1 has one template, 7, named `sales`. -/
def oneTemplate : Db String where
  rows := [⟨1, .ofNat 1, "pos", .ofNat 7, "sales", 1, .draft, "rules", none, "POS_SALES"⟩]
  nextVersionId := 2
  tenants := [.ofNat 1, .ofNat 2]

/-- A PATCH of template 7 for tenant 2 that gives only a name. -/
def namePatch (name : String) : TemplateRequest String Unit :=
  .patch (.ofNat 7) ⟨some name, none, some (.ofNat 2), .inl (by simp)⟩

/-- Acting for tenant 2, the ops user is shown the template of tenant 1; a new name is refused
by the policy. Neither is answered with not found. -/
theorem name_patch_not_scoped :
    ¬ Scoped (fun text => ObjectPath.uuidOf text.toList) ⟨fun _ => .ok "rules", fun _ => .ok⟩
      opsUser oneTemplate (namePatch "sales") ∧
    handle (fun text => ObjectPath.uuidOf text.toList) ⟨fun _ => .ok "rules", fun _ => .ok⟩
      opsUser oneTemplate (namePatch "sales") = (oneTemplate, .ok oneTemplate.rows) ∧
    handle (fun text => ObjectPath.uuidOf text.toList) ⟨fun _ => .ok "rules", fun _ => .ok⟩
      opsUser oneTemplate (namePatch "orders") = (oneTemplate, .error .rowSecurity) := by
  refine ⟨Unpinned.not_scoped ?_, by rfl, by rfl⟩
  refine ⟨rfl, by decide, .ofNat 7, _, .ofNat 2, rfl, rfl, rfl, ?_, _, List.mem_cons_self, rfl⟩
  intro r hr _
  obtain rfl := List.mem_singleton.mp hr
  decide

end CortexDis.TemplateScope
