import CortexDis.RowSecurity
import CortexDis.UuidText

/-!
Tenant sessions over pooled connections.

A session is a transaction on a connection of the pool that sets two variables for its
duration, and the policies of the tables read them. Sessions come and go on every connection, and
those of different connections interleave between any two statements. A connection may be
found with variables of its own, and is left with an empty text where a session had set one.
-/

namespace CortexDis.RlsSessions

open CortexDis.Values CortexDis.Sql CortexDis.RowSecurity CortexDis.Runs

/-! ### Policies -/

/-- What the code relies on of the `uuid` type of PostgreSQL. -/
structure UuidType where
  read : String → Option Uuid
  read_str : ∀ u, read u.str = some u
  read_empty : read "" = none

/-- The cast `::uuid` of a text that is none. -/
inductive CastError
  | invalidText
  deriving DecidableEq

/-- `app.user_type` and `app.tenant_id`; none is a variable that was never set. -/
structure Settings where
  userType : Option String
  tenantId : Option String
  deriving DecidableEq

/-- The two kinds of policy on tenant-scoped tables. -/
inductive Table
  /-- `tenant_isolation` -/
  | isolated
  /-- `rls_audit_events_tenant` -/
  | audit
  deriving DecidableEq

section Policies

variable {ρ : Type} (T : UuidType) (tenantOf : ρ → Option Uuid)

/-- `NULLIF(current_setting('app.tenant_id', true), '')::uuid` -/
def scopedTenant (s : Settings) : Except CastError (Option Uuid) :=
  match s.tenantId with
  | none => .ok none
  | some text =>
    if text = "" then .ok none
    else
      match T.read text with
      | some t => .ok (some t)
      | none => .error .invalidText

/-- `tenant_id = NULLIF(current_setting('app.tenant_id', true), '')::uuid` -/
def tenantMatch (s : Settings) (r : ρ) : Except CastError Truth :=
  (scopedTenant T s).map fun t => compare (fun a b => a == b) (tenantOf r) t

/-- `current_setting('app.user_type', true) = 'PLATFORM'` -/
def isPlatform (s : Settings) : Truth :=
  compare (fun a b => a == b) s.userType (some "PLATFORM")

/-- The policy `tenant_isolation` -/
def tenantIsolation : Policy Settings ρ CastError where
  visible s r := (tenantMatch T tenantOf s r).map fun t => t.or (isPlatform s)
  check s r := tenantMatch T tenantOf s r

/-- The condition of `rls_audit_events_tenant` -/
def auditCondition (s : Settings) (r : ρ) : Except CastError Truth :=
  (tenantMatch T tenantOf s r).map fun t => (t.or (isNull (tenantOf r))).or (isPlatform s)

/-- The policy `rls_audit_events_tenant`, which has no `WITH CHECK` -/
def auditEvents : Policy Settings ρ CastError where
  visible := auditCondition T tenantOf
  check := auditCondition T tenantOf

def policyOf : Table → Policy Settings ρ CastError
  | .isolated => tenantIsolation T tenantOf
  | .audit => auditEvents T tenantOf

/-- What a role that bypasses row-level security is subject to. -/
def noPolicy : Policy Settings ρ CastError where
  visible _ _ := .ok (some true)
  check _ _ := .ok (some true)

end Policies

/-! ### Sessions -/

/-- `rls_session` of a tenant, `rls_platform_session` with or without one. -/
inductive Mode
  | tenant (tenantId : String)
  | platform (tenantId : Option Uuid)
  deriving DecidableEq

def Mode.userType : Mode → String
  | .tenant _ => "TENANT"
  | .platform _ => "PLATFORM"

/-- The text that `app.tenant_id` is set to. -/
def Mode.tenantText : Mode → String
  | .tenant tenantId => tenantId
  | .platform none => ""
  | .platform (some tenantId) => tenantId.str

/-- The variables of a session. -/
def Mode.settings (m : Mode) : Settings := ⟨some m.userType, some m.tenantText⟩

/-- Where a connection is between its checkout and its return. -/
inductive Phase
  | idle
  | begun (m : Mode)
  | typed (m : Mode)
  /-- the caller has the connection -/
  | opened (m : Mode)
  /-- a statement failed, and the transaction takes no other -/
  | failed
  deriving DecidableEq

structure Connection where
  /-- the variables outside of a transaction -/
  outside : Settings
  /-- the variables the transaction has set -/
  inside : Settings
  phase : Phase

/-- `current_setting(_, true)` -/
def Connection.current (c : Connection) : Settings :=
  ⟨c.inside.userType.or c.outside.userType, c.inside.tenantId.or c.outside.tenantId⟩

/-- What a variable is after the transaction that may have set it. -/
def settled (inside outside : Option String) : Option String :=
  match inside with
  | none => outside
  | some _ => some (outside.getD "")

/-- The connection after a commit or a rollback. -/
def Connection.ended (c : Connection) : Connection where
  outside := ⟨settled c.inside.userType c.outside.userType,
    settled c.inside.tenantId c.outside.tenantId⟩
  inside := ⟨none, none⟩
  phase := .idle

/-- The database an engine reaches, and its role. -/
structure Posture where
  database : String
  rolsuper : Bool
  rolbypassrls : Bool

/-- `_check_posture` -/
def checkPosture (p : Posture) : Bool :=
  p.database = "ithina_dis_db" && !(p.rolsuper || p.rolbypassrls)

structure Deployment (ρ : Type) where
  uuidType : UuidType
  tenantOf : ρ → Option Uuid
  /-- the engine of a connection -/
  engineOf : ℕ → ℕ
  posture : ℕ → Posture

/-- A statement of a session: over which rows it ran, and what came of it. -/
structure Entry (ρ : Type) where
  mode : Mode
  table : Table
  snapshot : List ρ
  stmt : Statement ρ
  result : Except (Failure CastError) (Outcome ρ)

structure State (ρ : Type) where
  /-- `_VERIFIED_ENGINES` -/
  verified : List ℕ
  connections : ℕ → Connection
  log : List (Entry ρ)

inductive Action (ρ : Type)
  /-- checkout, `BEGIN`, and the check of an engine at its first use -/
  | enter (c : ℕ) (m : Mode)
  | setUserType (c : ℕ)
  | setTenantId (c : ℕ)
  | execute (c : ℕ) (table : Table) (snapshot : List ρ) (stmt : Statement ρ)
  /-- commit or rollback, and the return to the pool -/
  | leave (c : ℕ)

section System

variable {ρ : Type} (v : Deployment ρ)

/-- A connection is replaced. -/
def State.put (s : State ρ) (c : ℕ) (conn : Connection) : State ρ :=
  { s with connections := Function.update s.connections c conn }

/-- A statement on a connection of the engine. -/
def statement (engine : ℕ) (settings : Settings) (table : Table) (snapshot : List ρ)
    (stmt : Statement ρ) : Except (Failure CastError) (Outcome ρ) :=
  if (v.posture engine).rolsuper || (v.posture engine).rolbypassrls then
    exec noPolicy settings snapshot stmt
  else exec (policyOf v.uuidType v.tenantOf table) settings snapshot stmt

/-- One step; a step that a connection is not ready for does nothing. -/
def step (s : State ρ) : Action ρ → State ρ
  | .enter c m =>
    if (s.connections c).phase = .idle then
      if s.verified.contains (v.engineOf c) then
        s.put c { s.connections c with phase := .begun m }
      else if checkPosture (v.posture (v.engineOf c)) then
        { s.put c { s.connections c with phase := .begun m } with
          verified := v.engineOf c :: s.verified }
      else s
    else s
  | .setUserType c =>
    match (s.connections c).phase with
    | .begun m =>
      s.put c { s.connections c with
        inside := { (s.connections c).inside with userType := some m.userType }
        phase := .typed m }
    | _ => s
  | .setTenantId c =>
    match (s.connections c).phase with
    | .typed m =>
      s.put c { s.connections c with
        inside := { (s.connections c).inside with tenantId := some m.tenantText }
        phase := .opened m }
    | _ => s
  | .execute c table snapshot stmt =>
    match (s.connections c).phase with
    | .opened m =>
      let result := statement v (v.engineOf c) (s.connections c).current table snapshot stmt
      let after := match result with
        | .ok _ => s
        | .error _ => s.put c { s.connections c with phase := .failed }
      { after with log := s.log ++ [⟨m, table, snapshot, stmt, result⟩] }
    | _ => s
  | .leave c => s.put c (s.connections c).ended

def run (actions : List (Action ρ)) (s : State ρ) : State ρ := actions.foldl (step v) s

/-- A fresh process over connections with any variables of their own. -/
def start (outside : ℕ → Settings) : State ρ :=
  ⟨[], fun c => ⟨outside c, ⟨none, none⟩, .idle⟩, []⟩

end System

/-! ### Scopes -/

section Scopes

variable {ρ : Type} (T : UuidType) (tenantOf : ρ → Option Uuid)

/-- The row is of the tenant that the session acts for. -/
def Mode.Owns (m : Mode) (r : ρ) : Prop :=
  ∃ t, T.read m.tenantText = some t ∧ tenantOf r = some t

/-- The rows a session can see. -/
def Mode.Reads (m : Mode) (table : Table) (r : ρ) : Prop :=
  m.userType = "PLATFORM" ∨ m.Owns T tenantOf r ∨ table = .audit ∧ tenantOf r = none

/-- The rows a session can write. -/
def Mode.Writes (m : Mode) (table : Table) (r : ρ) : Prop :=
  m.Owns T tenantOf r ∨ table = .audit ∧ m.Reads T tenantOf table r

variable {T tenantOf} {m : Mode} {r : ρ}

lemma compare_eq_true {a b : Option Uuid}
    (h : Sql.compare (fun a b => a == b) a b = some true) : ∃ t, a = some t ∧ b = some t := by
  cases a with
  | none => simp [Sql.compare] at h
  | some t =>
    cases b with
    | none => simp [Sql.compare] at h
    | some t' =>
      have heq : t = t' := by simpa [Sql.compare] using h
      exact ⟨t, rfl, by rw [heq]⟩

lemma owns_of_tenantMatch (h : tenantMatch T tenantOf m.settings r = .ok (some true)) :
    m.Owns T tenantOf r := by
  have hscoped : scopedTenant T m.settings = if m.tenantText = "" then .ok none else
      match T.read m.tenantText with
      | some t => .ok (some t)
      | none => .error .invalidText := rfl
  rw [tenantMatch, hscoped] at h
  split at h
  · obtain ⟨t, -, hnone⟩ := compare_eq_true (Except.ok.inj h)
    cases hnone
  · split at h
    · rename_i t hread
      obtain ⟨t', htenant, ht⟩ := compare_eq_true (Except.ok.inj h)
      cases ht
      exact ⟨t, hread, htenant⟩
    · cases h

lemma or_eq_true {a b : Truth} (h : a.or b = some true) : a = some true ∨ b = some true := by
  rcases a with _ | _ | _ <;> rcases b with _ | _ | _ <;> simp_all [Truth.or]

lemma platform_of_isPlatform (h : isPlatform m.settings = some true) : m.userType = "PLATFORM" := by
  simpa [isPlatform, Mode.settings, Sql.compare] using h

lemma map_eq_ok {f : Truth → Truth} {t : Except CastError Truth}
    (h : t.map f = .ok (some true)) : ∃ a, t = .ok a ∧ f a = some true := by
  cases t with
  | error e => cases h
  | ok a => exact ⟨a, rfl, Except.ok.inj h⟩

lemma reads_of_auditCondition {table : Table} (htable : table = .audit)
    (h : auditCondition T tenantOf m.settings r = .ok (some true)) :
    m.Reads T tenantOf table r := by
  obtain ⟨a, ha, hor⟩ := map_eq_ok h
  rcases or_eq_true hor with hor | hplatform
  · rcases or_eq_true hor with rfl | hnull
    · exact .inr (.inl (owns_of_tenantMatch ha))
    · exact .inr (.inr ⟨htable, by simpa [isNull] using hnull⟩)
  · exact .inl (platform_of_isPlatform hplatform)

lemma reads_of_visible {table : Table}
    (h : Holds ((policyOf T tenantOf table).visible m.settings) r) :
    m.Reads T tenantOf table r := by
  cases table with
  | isolated =>
    obtain ⟨a, ha, hor⟩ := map_eq_ok h
    rcases or_eq_true hor with rfl | hplatform
    · exact .inr (.inl (owns_of_tenantMatch ha))
    · exact .inl (platform_of_isPlatform hplatform)
  | audit => exact reads_of_auditCondition rfl h

lemma writes_of_check {table : Table}
    (h : Holds ((policyOf T tenantOf table).check m.settings) r) :
    m.Writes T tenantOf table r := by
  cases table with
  | isolated => exact .inl (owns_of_tenantMatch h)
  | audit => exact .inr ⟨rfl, reads_of_auditCondition rfl h⟩

end Scopes

/-! ### Runs -/

section Runs

variable {ρ : Type} {v : Deployment ρ}

/-- What a connection has set is what its session asked for so far. -/
def Scoped (c : Connection) : Prop :=
  match c.phase with
  | .typed m => c.inside = ⟨some m.userType, none⟩
  | .opened m => c.inside = ⟨some m.userType, some m.tenantText⟩
  | .failed => True
  | _ => c.inside = ⟨none, none⟩

/-- The statement came out as the policy says for the variables of its session. -/
def Entry.Correct (v : Deployment ρ) (e : Entry ρ) : Prop :=
  e.result = exec (policyOf v.uuidType v.tenantOf e.table) e.mode.settings e.snapshot e.stmt

lemma Entry.Correct.within {e : Entry ρ} (h : e.Correct v) {o : Outcome ρ} (ho : e.result = .ok o) :
    Within (e.mode.Reads v.uuidType v.tenantOf e.table)
      (e.mode.Writes v.uuidType v.tenantOf e.table) o := by
  rw [h] at ho
  exact (exec_within ho).mono (fun r hr => reads_of_visible hr) fun r hr => writes_of_check hr

structure Invariant (v : Deployment ρ) (s : State ρ) : Prop where
  verified : ∀ engine ∈ s.verified, checkPosture (v.posture engine) = true
  inside : ∀ c, Scoped (s.connections c)
  engines : ∀ c, (s.connections c).phase ≠ .idle →
    checkPosture (v.posture (v.engineOf c)) = true
  log : ∀ e ∈ s.log, e.Correct v

lemma Invariant.put {s : State ρ} (hs : Invariant v s) {c : ℕ} {conn : Connection}
    (hscoped : Scoped conn)
    (hengine : conn.phase ≠ .idle → checkPosture (v.posture (v.engineOf c)) = true) :
    Invariant v (s.put c conn) := by
  refine ⟨hs.verified, fun c' => ?_, fun c' hphase => ?_, hs.log⟩
  · by_cases hc : c' = c
    · subst hc
      simpa [State.put] using hscoped
    · simpa [State.put, hc] using hs.inside c'
  · by_cases hc : c' = c
    · subst hc
      exact hengine (by simpa [State.put] using hphase)
    · exact hs.engines c' (by simpa [State.put, hc] using hphase)

lemma statement_checked {engine : ℕ} (h : checkPosture (v.posture engine) = true)
    (settings : Settings) (table : Table) (snapshot : List ρ) (stmt : Statement ρ) :
    statement v engine settings table snapshot stmt =
      exec (policyOf v.uuidType v.tenantOf table) settings snapshot stmt := by
  simp only [checkPosture, Bool.and_eq_true, Bool.not_eq_true'] at h
  rw [statement, h.2, if_neg Bool.false_ne_true]

lemma step_keeps {s : State ρ} (hs : Invariant v s) (a : Action ρ) : Invariant v (step v s a) := by
  cases a with
  | enter c m =>
    dsimp only [step]
    have hidle : (s.connections c).phase = .idle → (s.connections c).inside = ⟨none, none⟩ := by
      intro h
      have := hs.inside c
      rwa [Scoped, h] at this
    split
    · rename_i hphase
      have hscoped : Scoped { s.connections c with phase := .begun m } := hidle hphase
      split
      · rename_i hverified
        exact hs.put hscoped fun _ =>
          hs.verified _ (List.contains_iff_mem.mp hverified)
      · split
        · rename_i hposture
          have hput := hs.put (c := c) hscoped fun _ => hposture
          refine ⟨fun engine hengine => ?_, hput.inside, hput.engines, hput.log⟩
          rcases List.mem_cons.mp hengine with rfl | hengine
          · exact hposture
          · exact hs.verified engine hengine
        · exact hs
    · exact hs
  | setUserType c =>
    dsimp only [step]
    split
    · rename_i m hphase
      have hinside := hs.inside c
      rw [Scoped, hphase] at hinside
      refine hs.put ?_ fun _ => hs.engines c (by rw [hphase]; simp)
      simp only [Scoped]
      rw [hinside]
    · exact hs
  | setTenantId c =>
    dsimp only [step]
    split
    · rename_i m hphase
      have hinside := hs.inside c
      rw [Scoped, hphase] at hinside
      refine hs.put ?_ fun _ => hs.engines c (by rw [hphase]; simp)
      simp only [Scoped]
      rw [hinside]
    · exact hs
  | execute c table snapshot stmt =>
    dsimp only [step]
    split
    · rename_i m hphase
      have hengine := hs.engines c (by rw [hphase]; simp)
      have hinside := hs.inside c
      rw [Scoped, hphase] at hinside
      -- both variables were set before a statement may run
      have hcurrent : (s.connections c).current = m.settings := by
        simp [Connection.current, hinside, Mode.settings]
      rw [statement_checked hengine, hcurrent]
      have hafter : Invariant v (match exec (policyOf v.uuidType v.tenantOf table) m.settings
          snapshot stmt with
        | .ok _ => s
        | .error _ => s.put c { s.connections c with phase := .failed }) := by
        split
        · exact hs
        · exact hs.put trivial fun _ => hengine
      refine ⟨hafter.verified, hafter.inside, hafter.engines, fun e he => ?_⟩
      rcases List.mem_append.mp he with he | he
      · exact hs.log e he
      · rw [List.mem_singleton.mp he]
        rfl
    · exact hs
  | leave c => exact hs.put rfl fun h => absurd rfl h

lemma invariant_start (outside : ℕ → Settings) : Invariant v (start outside) :=
  ⟨by simp [start], fun _ => rfl, fun _ h => absurd rfl h, by simp [start]⟩

lemma run_keeps (actions : List (Action ρ)) {s : State ρ} (hs : Invariant v s) :
    Invariant v (run v actions s) := by
  induction actions generalizing s with
  | nil => exact hs
  | cons a actions ih => exact ih (step_keeps hs a)

/-- The session a connection serves. -/
def Phase.mode : Phase → Option Mode
  | .begun m | .typed m | .opened m => some m
  | _ => none

lemma mode_put {s : State ρ} {c c' : ℕ} {conn : Connection} {m : Mode}
    (hconn : conn.phase.mode = some m → (s.connections c).phase.mode = some m)
    (h : ((s.put c conn).connections c').phase.mode = some m) :
    (s.connections c').phase.mode = some m := by
  by_cases hc : c' = c
  · subst hc
    exact hconn (by simpa [State.put] using h)
  · simpa [State.put, hc] using h

lemma step_mode {s : State ρ} {a : Action ρ} {c : ℕ} {m : Mode}
    (h : ((step v s a).connections c).phase.mode = some m) :
    (s.connections c).phase.mode = some m ∨ a = .enter c m := by
  cases a with
  | enter c' m' =>
    -- only entering gives a connection another session
    have hput : ((s.put c' { s.connections c' with phase := .begun m' }).connections c).phase.mode =
        some m → (s.connections c).phase.mode = some m ∨
          Action.enter (ρ := ρ) c' m' = .enter c m := by
      intro h
      by_cases hc : c = c'
      · subst hc
        simp only [State.put, Function.update_self] at h
        cases h
        exact .inr rfl
      · exact .inl (by simpa [State.put, hc] using h)
    dsimp only [step] at h
    split at h
    · split at h
      · exact hput h
      · split at h
        · exact hput h
        · exact .inl h
    · exact .inl h
  | setUserType c' =>
    dsimp only [step] at h
    split at h
    · rename_i m' hphase
      exact .inl (mode_put (fun h => by rw [hphase]; exact h) h)
    · exact .inl h
  | setTenantId c' =>
    dsimp only [step] at h
    split at h
    · rename_i m' hphase
      exact .inl (mode_put (fun h => by rw [hphase]; exact h) h)
    · exact .inl h
  | execute c' table snapshot stmt =>
    dsimp only [step] at h
    split at h
    · dsimp only at h
      split at h
      · exact .inl h
      · exact .inl (mode_put (fun h => by cases h) h)
    · exact .inl h
  | leave c' => exact .inl (mode_put (fun h => by cases h) h)

lemma step_execute_log (s : State ρ) (c : ℕ) (table : Table) (snapshot : List ρ)
    (stmt : Statement ρ) :
    (step v s (.execute c table snapshot stmt)).log = s.log ∨
      ∃ e, (step v s (.execute c table snapshot stmt)).log = s.log ++ [e] ∧
        (s.connections c).phase.mode = some e.mode ∧ e.table = table ∧ e.stmt = stmt := by
  dsimp only [step]
  split
  · rename_i m hphase
    exact .inr ⟨_, rfl, by rw [hphase]; rfl, rfl, rfl⟩
  · exact .inl rfl

lemma step_log {s : State ρ} {a : Action ρ}
    (ha : ∀ c table snapshot stmt, a ≠ .execute c table snapshot stmt) :
    (step v s a).log = s.log := by
  cases a with
  | enter c m =>
    dsimp only [step]
    split
    · split
      · rfl
      · split <;> rfl
    · rfl
  | setUserType c =>
    dsimp only [step]
    split <;> rfl
  | setTenantId c =>
    dsimp only [step]
    split <;> rfl
  | execute c table snapshot stmt => exact absurd rfl (ha c table snapshot stmt)
  | leave c => rfl

end Runs

variable {ρ : Type}

/-- **Sessions are scoped.** In every run of the pool, whatever sessions the connections served
before and serve meanwhile, each statement comes out as the policies say for the variables of
its own session. It sees rows of the session's tenant, or any in a platform session, and the
rows it writes to a table under `tenant_isolation` are of the tenant that the session acts for.
The policy of `audit.events` has no `WITH CHECK`: its condition on the rows that are there is
also the one on the rows that are written, so a platform session writes rows of any tenant, and
a tenant's session rows of no tenant as well as its own. -/
theorem sessions_scoped (v : Deployment ρ) (outside : ℕ → Settings) (actions : List (Action ρ)) :
    ∀ e ∈ (run v actions (start outside)).log,
      e.result = exec (policyOf v.uuidType v.tenantOf e.table) e.mode.settings e.snapshot
        e.stmt ∧
      ∀ o, e.result = .ok o →
        Within (e.mode.Reads v.uuidType v.tenantOf e.table)
          (e.mode.Writes v.uuidType v.tenantOf e.table) o := by
  intro e he
  have hcorrect := (run_keeps actions (invariant_start outside)).log e he
  exact ⟨hcorrect, fun o ho => hcorrect.within ho⟩

/-! ### Sessions that see all -/

lemma visible_of_platform (T : UuidType) (tenantOf : ρ → Option Uuid) (table : Table) (r : ρ) :
    (policyOf T tenantOf table).visible (Mode.platform none).settings r = .ok (some true) := by
  have hmatch : tenantMatch T tenantOf (Mode.platform none).settings r = .ok none := by
    have hnull : Sql.compare (fun a b : Uuid => a == b) (tenantOf r) none = none := by
      cases tenantOf r <;> rfl
    rw [← hnull]
    rfl
  have hplatform : isPlatform (Mode.platform none).settings = some true := rfl
  cases table with
  | isolated =>
    simp only [policyOf, tenantIsolation, hmatch, hplatform]
    rfl
  | audit =>
    simp only [policyOf, auditEvents, auditCondition, hmatch, hplatform]
    cases tenantOf r <;> rfl

lemma not_owns_platform (T : UuidType) (tenantOf : ρ → Option Uuid) (r : ρ) :
    ¬ (Mode.platform none).Owns T tenantOf r := by
  rintro ⟨t, hread, -⟩
  rw [Mode.tenantText, T.read_empty] at hread
  cases hread

/-- **A session that sees all writes nothing but deletes.** In every run of the pool, a platform
session without a tenant inserts and updates no row of a tenant's table; the rows that it deletes
are checked against `USING` alone, so its `DELETE` takes every row it picks, of any tenant. -/
theorem see_all_session_only_deletes (v : Deployment ρ) (outside : ℕ → Settings)
    (actions : List (Action ρ)) :
    ∀ e ∈ (run v actions (start outside)).log, e.mode = .platform none → e.table = .isolated →
      (∀ o, e.result = .ok o → o.inserted = [] ∧ o.updated = []) ∧
      ∀ pick, e.stmt = .delete pick → e.result = .ok ⟨[], [], [], e.snapshot.filter pick⟩ := by
  intro e he hmode htable
  have hcorrect := (run_keeps actions (invariant_start outside)).log e he
  rw [Entry.Correct, hmode, htable] at hcorrect
  refine ⟨fun o ho => ?_, fun pick hstmt => ?_⟩
  · rw [hcorrect] at ho
    have hunwritten : ∀ r, Holds ((policyOf v.uuidType v.tenantOf .isolated).check
        (Mode.platform none).settings) r → False := by
      intro r hr
      rcases writes_of_check hr with howns | ⟨haudit, -⟩
      · exact not_owns_platform v.uuidType v.tenantOf r howns
      · cases haudit
    exact ((exec_within ho).mono (fun _ hr => hr) hunwritten).unwritten
  · rw [hcorrect, hstmt, exec, scan_of_forall (visible_of_platform v.uuidType v.tenantOf .isolated)]
    rfl

/-! ### A tenant and the platform at once -/

def sampleType : UuidType where
  read s := ObjectPath.uuidOf s.toList
  read_str u := by
    rw [Uuid.str, String.toList_ofList]
    exact UuidText.uuidOf_chars u
  read_empty := by decide

/-- Rows are a tenant and a number; one engine, with a role that obeys the policies. -/
def sampleDeployment : Deployment (Uuid × ℕ) where
  uuidType := sampleType
  tenantOf r := some r.1
  engineOf _ := 0
  posture _ := ⟨"ithina_dis_db", false, false⟩

def sampleRows : List (Uuid × ℕ) := [(.ofNat 2, 1), (.ofNat 3, 2)]

/-- Two connections: the tenant's reads, the platform's deletes. -/
def sampleActions : List (Action (Uuid × ℕ)) :=
  [.enter 0 (.tenant (Uuid.ofNat 2).str), .setUserType 0, .enter 1 (.platform none),
    .setTenantId 0, .setUserType 1, .setTenantId 1,
    .execute 0 .isolated sampleRows (.select fun _ => true),
    .execute 1 .isolated sampleRows (.delete fun _ => true)]

def sampleRun : State (Uuid × ℕ) :=
  run sampleDeployment sampleActions (start fun _ => ⟨none, some "left"⟩)

/-- What the two statements come to. -/
def sampleLog : List (Entry (Uuid × ℕ)) :=
  [⟨.tenant (Uuid.ofNat 2).str, .isolated, sampleRows, .select fun _ => true,
      .ok ⟨[(.ofNat 2, 1)], [], [], []⟩⟩,
    ⟨.platform none, .isolated, sampleRows, .delete fun _ => true,
      .ok ⟨[], [], [], sampleRows⟩⟩]

lemma log_sample : sampleRun.log = sampleLog := by
  rfl

/-- The tenant sees its row and not the other. -/
theorem sessions_scoped_sample : ∃ e ∈ sampleRun.log, e.mode = .tenant (Uuid.ofNat 2).str ∧
    e.result = .ok ⟨[(.ofNat 2, 1)], [], [], []⟩ ∧
    Within (e.mode.Reads sampleType sampleDeployment.tenantOf e.table)
      (e.mode.Writes sampleType sampleDeployment.tenantOf e.table)
      ⟨[(.ofNat 2, 1)], [], [], []⟩ := by
  have hmem : sampleLog.head (by simp [sampleLog]) ∈ sampleRun.log := by
    rw [log_sample]
    exact List.head_mem _
  exact ⟨_, hmem, rfl, rfl,
    (sessions_scoped sampleDeployment (fun _ => ⟨none, some "left"⟩) sampleActions _ hmem).2 _ rfl⟩

/-- The platform session deletes the rows of both tenants. -/
theorem see_all_session_only_deletes_sample : ∃ e ∈ sampleRun.log, e.mode = .platform none ∧
    e.result = .ok ⟨[], [], [], sampleRows.filter fun _ => true⟩ := by
  have hmem : sampleLog.getLast (by simp [sampleLog]) ∈ sampleRun.log := by
    rw [log_sample]
    exact List.getLast_mem _
  exact ⟨_, hmem, rfl, (see_all_session_only_deletes sampleDeployment
    (fun _ => ⟨none, some "left"⟩) sampleActions _ hmem rfl rfl).2 _ rfl⟩

end CortexDis.RlsSessions
