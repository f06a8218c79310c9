import CortexDis.Errors
import CortexDis.Values

/-!
Mapping templates: the requests that create and edit them, run concurrently over
`config.source_mappings`.

A template's versions are the rows of its id, its lineage. At READ COMMITTED each statement has
a snapshot of its own, taken when it starts. A statement that locks rows takes the locks one
after another and may wait at each; it goes on with the rows of its snapshot, each in its
latest committed version. Locks are held until the transaction ends. A transaction that raises,
loses its connection or is the victim of a deadlock ends without an effect.
-/

namespace CortexDis.Templates

open CortexDis.Values CortexDis.Errors

inductive Status
  | draft | staged | active | deprecated
  deriving DecidableEq, Repr

/-- A row of `config.source_mappings`; `ρ` is the type of its rules document. -/
structure SourceMappingRow (ρ : Type) where
  mappingVersionId : ℕ
  tenantId : Uuid
  sourceId : String
  templateId : Uuid
  templateName : String
  versionSeqPerSource : ℕ
  status : Status
  mappingRules : ρ
  predecessorVersionId : Option ℕ
  templateType : String
  deriving DecidableEq, Repr

variable {ρ : Type}

/-- The settings `app.user_type` and `app.tenant_id` of a transaction. -/
structure Session where
  isPlatform : Bool
  tenantId : Uuid
  deriving DecidableEq, Repr

/-- The policy's `USING` -/
def Session.sees (s : Session) (r : SourceMappingRow ρ) : Bool :=
  s.isPlatform || r.tenantId = s.tenantId

/-- The policy's `WITH CHECK` -/
def Session.admits (s : Session) (r : SourceMappingRow ρ) : Bool := r.tenantId = s.tenantId

/-- The arguments of `create_template`. -/
structure CreateTemplate (ρ : Type) where
  session : Session
  templateId : Uuid
  sourceId : String
  templateName : String
  templateType : String
  mappingRules : ρ

/-- The arguments of `patch_template`. -/
structure PatchTemplate (ρ : Type) where
  session : Session
  templateId : Uuid
  templateName : Option String
  mappingRules : Option ρ

inductive Request (ρ : Type)
  | create (c : CreateTemplate ρ)
  | patch (p : PatchTemplate ρ)

/-! ### Statements -/

/-- The versions of a template, in the order of their commits. -/
def lineage (templateId : Uuid) (rows : List (SourceMappingRow ρ)) : List (SourceMappingRow ρ) :=
  rows.filter fun r => r.templateId = templateId

/-- The rows of `lineage_stmt`: the versions the session sees, newest first. -/
def lineageStmt (s : Session) (templateId : Uuid) (rows : List (SourceMappingRow ρ)) :
    List (SourceMappingRow ρ) :=
  ((lineage templateId rows).filter s.sees).insertionSort
    fun a b => b.versionSeqPerSource ≤ a.versionSeqPerSource

/-- `config.set_csm_version_seq` on a row without a sequence number: one more than the largest
that the session sees for the row's tenant, source and template. -/
def setCsmVersionSeq (s : Session) (rows : List (SourceMappingRow ρ)) (new : SourceMappingRow ρ) :
    SourceMappingRow ρ :=
  let seqs := (rows.filter fun r => s.sees r && r.tenantId = new.tenantId &&
    r.sourceId = new.sourceId && r.templateId = new.templateId).map (·.versionSeqPerSource)
  { new with versionSeqPerSource := seqs.foldl max 0 + 1 }

/-- The largest `SMALLINT` -/
def maxSmallint : ℕ := 32767

/-- The row `create_template` inserts, with its key. -/
def CreateTemplate.row (c : CreateTemplate ρ) (rows : List (SourceMappingRow ρ))
    (mappingVersionId : ℕ) : SourceMappingRow ρ :=
  setCsmVersionSeq c.session rows
    { mappingVersionId
      tenantId := c.session.tenantId
      sourceId := c.sourceId
      templateId := c.templateId
      templateName := c.templateName
      versionSeqPerSource := 0
      status := .active
      mappingRules := c.mappingRules
      predecessorVersionId := none
      templateType := c.templateType }

/-- What `_apply_rules_edit` does: the draft whose rules it sets, or the head it chains a new
draft to. -/
inductive RulesEdit (ρ : Type)
  | inPlace (draft : SourceMappingRow ρ)
  | chain (head : SourceMappingRow ρ)

/-- The decision of `_apply_rules_edit` -/
def applyRulesEdit (locked : List (SourceMappingRow ρ)) : Except Exn (RulesEdit ρ) :=
  match locked.find? fun r => r.status = .draft with
  | some draft => .ok (.inPlace draft)
  | none =>
    match locked.filter fun r => r.status ≠ .deprecated with
    | head :: _ => .ok (.chain head)
    | [] => .error (.other "MappingStateConflictError")

/-- The draft it inserts, with its key. -/
def PatchTemplate.draftRow (p : PatchTemplate ρ) (rows : List (SourceMappingRow ρ))
    (mappingVersionId : ℕ) (templateName : String) (head : SourceMappingRow ρ)
    (mappingRules : ρ) : SourceMappingRow ρ :=
  setCsmVersionSeq p.session rows
    { mappingVersionId
      tenantId := p.session.tenantId
      sourceId := head.sourceId
      templateId := p.templateId
      templateName
      versionSeqPerSource := 0
      status := .draft
      mappingRules
      predecessorVersionId := some head.mappingVersionId
      templateType := head.templateType }

/-! ### Transactions -/

/-- An effect that waits for its commit. -/
inductive Write (ρ : Type)
  | setName (mappingVersionId : ℕ) (templateName : String)
  | setRules (mappingVersionId : ℕ) (mappingRules : ρ)
  | insert (row : SourceMappingRow ρ)

def Write.apply (rows : List (SourceMappingRow ρ)) : Write ρ → List (SourceMappingRow ρ)
  | .setName id templateName =>
    rows.map fun r => if r.mappingVersionId = id then { r with templateName } else r
  | .setRules id mappingRules =>
    rows.map fun r => if r.mappingVersionId = id then { r with mappingRules } else r
  | .insert row => rows ++ [row]

/-- Where a request stands. A statement that locks rows has the keys still to be locked in
`todo`; `locked` are the rows the second statement has returned. -/
inductive Phase (ρ : Type)
  /-- not begun -/
  | idle
  /-- in its transaction, before the first statement -/
  | opened
  | first (todo : List ℕ)
  | second (todo : List ℕ) (locked : List (SourceMappingRow ρ))
  | updating (todo : List ℕ) (locked : List (SourceMappingRow ρ)) (templateName : String)
  /-- before `_apply_rules_edit` -/
  | editing (locked : List (SourceMappingRow ρ)) (templateName : String)
  /-- before the commit -/
  | ready
  | ended

structure Tx (ρ : Type) where
  phase : Phase ρ
  locks : List ℕ
  writes : List (Write ρ)

def Tx.idle : Tx ρ := ⟨.idle, [], []⟩
def Tx.ended : Tx ρ := ⟨.ended, [], []⟩

/-- The committed rows, in the order of their commits; the next key of the sequence; and the
requests' transactions. -/
structure State (ι ρ : Type) where
  rows : List (SourceMappingRow ρ)
  nextVersionId : ℕ
  txs : ι → Tx ρ

variable {ι : Type} [DecidableEq ι]

def State.set (s : State ι ρ) (i : ι) (tx : Tx ρ) : State ι ρ :=
  { s with txs := Function.update s.txs i tx }

/-- No other transaction holds the row. -/
def Free (s : State ι ρ) (i : ι) (id : ℕ) : Prop := ∀ j, j ≠ i → id ∉ (s.txs j).locks

/-- One step of one request. A constraint that a statement violates makes it raise, which is an
`abort`; the steps below do not ask whether the name and the status constraints hold. -/
inductive Step (requests : ι → Request ρ) : State ι ρ → State ι ρ → Prop
  /-- `create_template` inserts its row. -/
  | create {s : State ι ρ} {i : ι} {c : CreateTemplate ρ} (hreq : requests i = .create c)
    (hphase : (s.txs i).phase = .idle)
    (hrange : (c.row s.rows s.nextVersionId).versionSeqPerSource ≤ maxSmallint) :
    Step requests s { s.set i ⟨.ready, [], [.insert (c.row s.rows s.nextVersionId)]⟩ with
      nextVersionId := s.nextVersionId + 1 }
  /-- The handler of a PATCH that edits rules reads the lineage as the tenant, and answers 404
  when it has no row. -/
  | read {s : State ι ρ} {i : ι} {p : PatchTemplate ρ} (hreq : requests i = .patch p)
    (hphase : (s.txs i).phase = .idle)
    (hfound : p.mappingRules.isSome →
      lineageStmt ⟨false, p.session.tenantId⟩ p.templateId s.rows ≠ []) :
    Step requests s (s.set i ⟨.opened, [], []⟩)
  | snapshotFirst {s : State ι ρ} {i : ι} {p : PatchTemplate ρ} (hreq : requests i = .patch p)
    (hphase : (s.txs i).phase = .opened) :
    Step requests s (s.set i { s.txs i with
      phase := .first ((lineageStmt p.session p.templateId s.rows).map (·.mappingVersionId)) })
  | lockFirst {s : State ι ρ} {i : ι} {id : ℕ} {todo : List ℕ}
    (hphase : (s.txs i).phase = .first (id :: todo)) (hfree : Free s i id) :
    Step requests s (s.set i { s.txs i with phase := .first todo, locks := id :: (s.txs i).locks })
  | snapshotSecond {s : State ι ρ} {i : ι} {p : PatchTemplate ρ} (hreq : requests i = .patch p)
    (hphase : (s.txs i).phase = .first []) :
    Step requests s (s.set i { s.txs i with
      phase := .second ((lineageStmt p.session p.templateId s.rows).map (·.mappingVersionId)) [] })
  | lockSecond {s : State ι ρ} {i : ι} {r : SourceMappingRow ρ} {todo : List ℕ}
    {locked : List (SourceMappingRow ρ)}
    (hphase : (s.txs i).phase = .second (r.mappingVersionId :: todo) locked) (hrow : r ∈ s.rows)
    (hfree : Free s i r.mappingVersionId) :
    Step requests s (s.set i { s.txs i with
      phase := .second todo (locked ++ [r]), locks := r.mappingVersionId :: (s.txs i).locks })
  /-- The name is the lineage's own, or none is given. -/
  | keepName {s : State ι ρ} {i : ι} {p : PatchTemplate ρ} {r : SourceMappingRow ρ}
    {locked : List (SourceMappingRow ρ)} (hreq : requests i = .patch p)
    (hphase : (s.txs i).phase = .second [] (r :: locked))
    (hname : p.templateName.getD r.templateName = r.templateName) :
    Step requests s (s.set i { s.txs i with phase := .editing (r :: locked) r.templateName })
  /-- The update of the names begins; it meets the rows in any order. -/
  | rename {s : State ι ρ} {i : ι} {p : PatchTemplate ρ} {r : SourceMappingRow ρ}
    {locked : List (SourceMappingRow ρ)} {templateName : String} {todo : List ℕ}
    (hreq : requests i = .patch p) (hphase : (s.txs i).phase = .second [] (r :: locked))
    (hname : p.templateName = some templateName) (hne : templateName ≠ r.templateName)
    (hscan : todo.Perm
      ((lineageStmt p.session p.templateId s.rows).map (·.mappingVersionId))) :
    Step requests s (s.set i { s.txs i with phase := .updating todo (r :: locked) templateName })
  | setName {s : State ι ρ} {i : ι} {p : PatchTemplate ρ} {r : SourceMappingRow ρ} {todo : List ℕ}
    {locked : List (SourceMappingRow ρ)} {templateName : String} (hreq : requests i = .patch p)
    (hphase : (s.txs i).phase = .updating (r.mappingVersionId :: todo) locked templateName)
    (hrow : r ∈ s.rows) (hadmits : p.session.admits r) (hfree : Free s i r.mappingVersionId) :
    Step requests s (s.set i
      { phase := .updating todo locked templateName
        locks := r.mappingVersionId :: (s.txs i).locks
        writes := (s.txs i).writes ++ [.setName r.mappingVersionId templateName] })
  | renamed {s : State ι ρ} {i : ι} {locked : List (SourceMappingRow ρ)} {templateName : String}
    (hphase : (s.txs i).phase = .updating [] locked templateName) :
    Step requests s (s.set i { s.txs i with phase := .editing locked templateName })
  | noRules {s : State ι ρ} {i : ι} {p : PatchTemplate ρ} {locked : List (SourceMappingRow ρ)}
    {templateName : String} (hreq : requests i = .patch p)
    (hphase : (s.txs i).phase = .editing locked templateName) (hrules : p.mappingRules = none) :
    Step requests s (s.set i { s.txs i with phase := .ready })
  | inPlace {s : State ι ρ} {i : ι} {p : PatchTemplate ρ} {locked : List (SourceMappingRow ρ)}
    {templateName : String} {rules : ρ} {draft : SourceMappingRow ρ}
    (hreq : requests i = .patch p) (hphase : (s.txs i).phase = .editing locked templateName)
    (hrules : p.mappingRules = some rules) (hedit : applyRulesEdit locked = .ok (.inPlace draft))
    (hadmits : p.session.admits draft) :
    Step requests s (s.set i { s.txs i with
      phase := .ready, writes := (s.txs i).writes ++ [.setRules draft.mappingVersionId rules] })
  | chain {s : State ι ρ} {i : ι} {p : PatchTemplate ρ} {locked : List (SourceMappingRow ρ)}
    {templateName : String} {rules : ρ} {head : SourceMappingRow ρ}
    (hreq : requests i = .patch p) (hphase : (s.txs i).phase = .editing locked templateName)
    (hrules : p.mappingRules = some rules) (hedit : applyRulesEdit locked = .ok (.chain head))
    (hrange : (p.draftRow s.rows s.nextVersionId templateName head rules).versionSeqPerSource ≤
      maxSmallint) :
    Step requests s { s.set i { s.txs i with
        phase := .ready
        writes := (s.txs i).writes ++
          [.insert (p.draftRow s.rows s.nextVersionId templateName head rules)] } with
      nextVersionId := s.nextVersionId + 1 }
  | commit {s : State ι ρ} {i : ι} (hphase : (s.txs i).phase = .ready) :
    Step requests s { s.set i .ended with rows := (s.txs i).writes.foldl Write.apply s.rows }
  | abort {s : State ι ρ} {i : ι} : Step requests s (s.set i .ended)

def Reaches (requests : ι → Request ρ) : State ι ρ → State ι ρ → Prop :=
  Relation.ReflTransGen (Step requests)

/-! ### A scheduler -/

section Scheduler

variable [Fintype ι] (requests : ι → Request ρ)

instance (s : State ι ρ) (i : ι) (id : ℕ) : Decidable (Free s i id) :=
  inferInstanceAs (Decidable (∀ _, _))

/-- The next step of a request; none when it has to wait, or cannot but raise. -/
def advance (s : State ι ρ) (i : ι) : Option (State ι ρ) :=
  let tx := s.txs i
  match requests i, tx.phase with
  | .create c, .idle =>
    let row := c.row s.rows s.nextVersionId
    if row.versionSeqPerSource ≤ maxSmallint then
      some { s.set i ⟨.ready, [], [.insert row]⟩ with nextVersionId := s.nextVersionId + 1 }
    else none
  | .patch p, .idle =>
    if p.mappingRules.isSome ∧
        (lineageStmt ⟨false, p.session.tenantId⟩ p.templateId s.rows).isEmpty then none
    else some (s.set i ⟨.opened, [], []⟩)
  | .patch p, .opened =>
    some (s.set i { tx with
      phase := .first ((lineageStmt p.session p.templateId s.rows).map (·.mappingVersionId)) })
  | .patch _, .first (id :: todo) =>
    if Free s i id then some (s.set i { tx with phase := .first todo, locks := id :: tx.locks })
    else none
  | .patch p, .first [] =>
    some (s.set i { tx with
      phase := .second ((lineageStmt p.session p.templateId s.rows).map (·.mappingVersionId)) [] })
  | .patch _, .second (id :: todo) locked =>
    match s.rows.find? fun r => r.mappingVersionId = id with
    | some r =>
      if Free s i id then
        some (s.set i { tx with phase := .second todo (locked ++ [r]), locks := id :: tx.locks })
      else none
    | none => none
  | .patch p, .second [] (r :: locked) =>
    if p.templateName.getD r.templateName = r.templateName then
      some (s.set i { tx with phase := .editing (r :: locked) r.templateName })
    else
      let todo := (lineageStmt p.session p.templateId s.rows).map (·.mappingVersionId)
      some (s.set i { tx with
        phase := .updating todo (r :: locked) (p.templateName.getD r.templateName) })
  | .patch p, .updating (id :: todo) locked templateName =>
    match s.rows.find? fun r => r.mappingVersionId = id with
    | some r =>
      if p.session.admits r ∧ Free s i id then
        some (s.set i
          { phase := .updating todo locked templateName, locks := id :: tx.locks
            writes := tx.writes ++ [.setName id templateName] })
      else none
    | none => none
  | .patch _, .updating [] locked templateName =>
    some (s.set i { tx with phase := .editing locked templateName })
  | .patch p, .editing locked templateName =>
    match p.mappingRules, applyRulesEdit locked with
    | none, _ => some (s.set i { tx with phase := .ready })
    | some rules, .ok (.inPlace draft) =>
      if p.session.admits draft then
        some (s.set i { tx with
          phase := .ready, writes := tx.writes ++ [.setRules draft.mappingVersionId rules] })
      else none
    | some rules, .ok (.chain head) =>
      let row := p.draftRow s.rows s.nextVersionId templateName head rules
      if row.versionSeqPerSource ≤ maxSmallint then
        some { s.set i { tx with phase := .ready, writes := tx.writes ++ [.insert row] } with
          nextVersionId := s.nextVersionId + 1 }
      else none
    | some _, .error _ => none
  | _, .ready => some { s.set i .ended with rows := tx.writes.foldl Write.apply s.rows }
  | _, _ => none

lemma step_of_advance {s s' : State ι ρ} {i : ι} (h : advance requests s i = some s') :
    Step requests s s' := by
  cases hreq : requests i with
  | create c =>
    cases hphase : (s.txs i).phase with
    | idle =>
      simp only [advance, hreq, hphase, Option.ite_none_right_eq_some, Option.some.injEq] at h
      obtain ⟨hrange, rfl⟩ := h
      exact .create hreq hphase hrange
    | ready =>
      simp only [advance, hreq, hphase, Option.some.injEq] at h
      subst h
      exact .commit hphase
    | _ => simp [advance, hreq, hphase] at h
  | patch p =>
    cases hphase : (s.txs i).phase with
    | idle =>
      simp only [advance, hreq, hphase, Option.ite_none_left_eq_some, Option.some.injEq] at h
      obtain ⟨hfound, rfl⟩ := h
      refine .read hreq hphase fun hsome hnil => hfound ⟨hsome, ?_⟩
      rw [hnil]
      rfl
    | opened =>
      simp only [advance, hreq, hphase, Option.some.injEq] at h
      subst h
      exact .snapshotFirst hreq hphase
    | first todo =>
      cases todo with
      | nil =>
        simp only [advance, hreq, hphase, Option.some.injEq] at h
        subst h
        exact .snapshotSecond hreq hphase
      | cons id todo =>
        simp only [advance, hreq, hphase, Option.ite_none_right_eq_some, Option.some.injEq] at h
        obtain ⟨hfree, rfl⟩ := h
        exact .lockFirst hphase hfree
    | second todo locked =>
      cases todo with
      | cons id todo =>
        simp only [advance, hreq, hphase] at h
        split at h
        · rename_i r hfind
          obtain rfl : r.mappingVersionId = id := by simpa using List.find?_some hfind
          simp only [Option.ite_none_right_eq_some, Option.some.injEq] at h
          obtain ⟨hfree, rfl⟩ := h
          exact .lockSecond hphase (List.mem_of_find?_eq_some hfind) hfree
        · cases h
      | nil =>
        cases locked with
        | nil => simp [advance, hreq, hphase] at h
        | cons r locked =>
          simp only [advance, hreq, hphase] at h
          split at h
          · -- the name is the stored one, or none was given
            rename_i hname
            cases h
            exact .keepName hreq hphase hname
          · rename_i hname
            cases h
            cases hgiven : p.templateName with
            | none => simp [hgiven] at hname
            | some templateName =>
              rw [hgiven] at hname
              exact .rename hreq hphase hgiven hname (List.Perm.refl _)
    | updating todo locked templateName =>
      cases todo with
      | nil =>
        simp only [advance, hreq, hphase, Option.some.injEq] at h
        subst h
        exact .renamed hphase
      | cons id todo =>
        simp only [advance, hreq, hphase] at h
        split at h
        · rename_i r hfind
          obtain rfl : r.mappingVersionId = id := by simpa using List.find?_some hfind
          simp only [Option.ite_none_right_eq_some, Option.some.injEq] at h
          obtain ⟨⟨hadmits, hfree⟩, rfl⟩ := h
          exact .setName hreq hphase (List.mem_of_find?_eq_some hfind) hadmits hfree
        · cases h
    | editing locked templateName =>
      simp only [advance, hreq, hphase] at h
      split at h
      · rename_i hrules
        cases h
        exact .noRules hreq hphase hrules
      · rename_i rules draft hrules hedit
        simp only [Option.ite_none_right_eq_some, Option.some.injEq] at h
        obtain ⟨hadmits, rfl⟩ := h
        exact .inPlace hreq hphase hrules hedit hadmits
      · rename_i rules head hrules hedit
        simp only [Option.ite_none_right_eq_some, Option.some.injEq] at h
        obtain ⟨hrange, rfl⟩ := h
        exact .chain hreq hphase hrules hedit hrange
      · cases h
    | ready =>
      simp only [advance, hreq, hphase, Option.some.injEq] at h
      subst h
      exact .commit hphase
    | ended => simp [advance, hreq, hphase] at h

/-- The requests take steps in the given order. -/
def runSchedule (schedule : List ι) (s : State ι ρ) : Option (State ι ρ) :=
  schedule.foldlM (advance requests) s

lemma reaches_of_runSchedule {schedule : List ι} {s s' : State ι ρ}
    (h : runSchedule requests schedule s = some s') : Reaches requests s s' := by
  induction schedule generalizing s with
  | nil =>
    cases h
    exact .refl
  | cons i schedule ih =>
    obtain ⟨mid, hmid, hrest⟩ := Option.bind_eq_some_iff.mp h
    exact .head (step_of_advance requests hmid) (ih hrest)

end Scheduler

end CortexDis.Templates
