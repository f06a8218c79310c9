import CortexDis.PyValue
import CortexDis.RlsSessions
import CortexDis.TemplateScope
import CortexDis.Utf8

/-!
From the bearer token of a request to the rows its statements touch.

The claims are those that `jwt.decode` returns, which is a parameter; the verifier reads the
identity off them, the scope dependencies decide between a session of one tenant and a session
of the platform, and the policies do the rest. `UUID(_)` is a parameter too, and so are the
replies of Customer Master, which the gate of the Atlas console asks for the caller's grants.
-/

namespace CortexDis.RequestScope

open CortexDis.Values CortexDis.TemplateScope CortexDis.RlsSessions CortexDis.RowSecurity
open CortexDis.Runs CortexDis.PyText CortexDis.PyValue

variable {ω : Type}

/-! ### The verifier -/

/-- The value of a claim; an item of a list that is no string is none. -/
inductive Claim
  | null
  | str (s : String)
  | list (items : List (Option String))
  | other
  deriving DecidableEq

abbrev Claims := List (String × Claim)

/-- `claims.get(name)` -/
def Claims.get (claims : Claims) (name : String) : Claim :=
  (PyDict.lookup name claims).getD .null

/-- The reasons of an `AuthTokenError`. -/
inductive Reason
  | missingBearer | expired | invalid | badClaims
  deriving DecidableEq

/-- A `CmPermissionsClientError`, or an exception that is none. -/
inductive PermissionsError
  | unavailable
  | client (statusCode : ℕ)
  | raised
  deriving DecidableEq

inductive RequestError
  | auth (reason : Reason)
  | api (e : ApiError)
  | permissions (e : PermissionsError)
  | superAdminRequired

/-- What `jwt.decode` comes to, with the key of the token. -/
inductive Decoded
  | claims (c : Claims)
  | expired
  | failed

/-- `_optional_str_claim` -/
def optionalStrClaim (claims : Claims) (name : String) : Except RequestError (Option String) :=
  match claims.get name with
  | .null => .ok none
  | .str s => .ok (some s)
  | _ => .error (.auth .badClaims)

/-- `_required_str_claim` -/
def requiredStrClaim (claims : Claims) (name : String) : Except RequestError String :=
  match claims.get name with
  | .str s => if s = "" then .error (.auth .badClaims) else .ok s
  | _ => .error (.auth .badClaims)

/-- `_roles_claim` -/
def rolesClaim (claims : Claims) (name : String) : Except RequestError (List String) :=
  match claims.get name with
  | .null => .ok []
  | .list items =>
    match items.mapM id with
    | some roles => .ok roles
    | none => .error (.auth .badClaims)
  | _ => .error (.auth .badClaims)

/-- `_user_type_claim` -/
def userTypeClaim (claims : Claims) (name : String) : Except RequestError UserType :=
  match claims.get name with
  | .str "TENANT" => .ok .tenant
  | .str "PLATFORM" => .ok .platform
  | _ => .error (.auth .badClaims)

/-- `_CLAIMS_NAMESPACE` -/
def claim (name : String) : String := "https://sevyn8.com/" ++ name

/-- The agreement of `user_type` and `tenant_id`. -/
def coherent (userType : UserType) (tenantId : Option String) : Bool :=
  match userType with
  | .tenant => tenantId.any fun t => t ≠ ""
  | .platform => tenantId.all fun t => t = ""

/-- The part of `verify` behind the decoding. -/
def identityOf (claims : Claims) : Except RequestError Identity := do
  let _ ← requiredStrClaim claims "sub"
  let userId ← requiredStrClaim claims (claim "user_id")
  let userType ← userTypeClaim claims (claim "user_type")
  let tenantId ← optionalStrClaim claims (claim "tenant_id")
  if h : coherent userType tenantId = true then
    let _ ← optionalStrClaim claims (claim "store_id")
    let roles ← rolesClaim claims (claim "roles")
    return {
      userId, tenantId, roles, userType
      tenant_some := by
        rintro rfl
        cases tenantId with
        | none => cases h
        | some t => exact ⟨t, rfl, by simpa [coherent] using h⟩
      platform_none := by
        rintro rfl
        cases tenantId with
        | none => exact .inl rfl
        | some t => exact .inr (by simpa [coherent] using h) }
  else .error (.auth .badClaims)

/-! ### The grants of Customer Master -/

structure PermissionGrant where
  module : PyStr
  resource : PyStr
  action : PyStr
  scope : PyStr
  deriving DecidableEq

/-- What the request for the permissions comes to. -/
inductive Reply (ω : Type)
  | timedOut
  | unreachable
  /-- any other exception -/
  | raised
  /-- the status, and what `response.json()` returns or raises -/
  | answer (statusCode : ℕ) (body : Except PyError (Value ω))

section Permissions

variable (py : Builtins ω)

def parseGrant (item : Value ω) : Except PyError PermissionGrant := do
  let module ← py.str (← item.getItem (pyStr "module"))
  let resource ← py.str (← item.getItem (pyStr "resource"))
  let action ← py.str (← item.getItem (pyStr "action"))
  let scope ← py.str (← item.getItem (pyStr "scope"))
  let _ ← item.get (pyStr "anchor_path") .none
  return ⟨module, resource, action, scope⟩

def parseBody (body : Except PyError (Value ω)) : Except PyError (List PermissionGrant) := do
  (← py.items (← (← body).getItem (pyStr "permissions"))).mapM (parseGrant py)

/-- `_parse_permissions` -/
def parsePermissions (statusCode : ℕ) (body : Except PyError (Value ω)) :
    Except PermissionsError (List PermissionGrant) :=
  match parseBody py body with
  | .ok grants => .ok grants
  | .error .attributeError => .error .raised
  | .error _ => .error (.client statusCode)

/-- `get_permissions` -/
def getPermissions : Reply ω → Except PermissionsError (List PermissionGrant)
  | .timedOut => .error .unavailable
  | .unreachable => .error .unavailable
  | .raised => .error .raised
  | .answer statusCode body =>
    if 200 ≤ statusCode ∧ statusCode ≤ 299 then parsePermissions py statusCode body
    else .error (.client statusCode)

/-- `SUPER_ADMIN_ROLE` -/
def superAdminRole : String := "atlas:schema:publish"

/-- The key of `_GRANT_TO_ROLE` -/
def publishGrant : PermissionGrant :=
  ⟨pyStr "ATLAS", pyStr "SCHEMA", pyStr "PUBLISH", pyStr "GLOBAL"⟩

/-- `_GRANT_TO_ROLE.get(_)` -/
def grantToRole (grant : PermissionGrant) : Option String :=
  if grant = publishGrant then some superAdminRole else none

/-- `roles_from_grants` -/
def rolesFromGrants (grants : List PermissionGrant) : List String := grants.filterMap grantToRole

end Permissions

/-! ### Identities of requests -/

/-- The code the service calls outside of it. -/
structure Auth (ω : Type) where
  /-- `jwt.decode` with the key that the token names -/
  decode : String → Decoded
  /-- `UUID(text)` -/
  uuidOf : String → Option Uuid
  uuidOf_empty : uuidOf "" = none
  py : Builtins ω
  /-- Customer Master, asked with a token; none where `CM_BASE_URL` is not set -/
  customerMaster : Option (String → Reply ω)

variable (A : Auth ω)

/-- `verify_token` -/
def verifyToken (raw : String) : Except RequestError Identity :=
  match A.decode raw with
  | .expired => .error (.auth .expired)
  | .failed => .error (.auth .invalid)
  | .claims claims => identityOf claims

/-- The token behind `Bearer `. -/
def bearer (authorization : Option String) : Option String :=
  match authorization with
  | none => none
  | some header =>
    if "Bearer ".toList.isPrefixOf header.toList then
      some (String.ofList (header.toList.drop 7))
    else none

/-- `get_current_identity` -/
def getCurrentIdentity (authorization : Option String) : Except RequestError Identity :=
  match bearer authorization with
  | none => .error (.auth .missingBearer)
  | some raw => verifyToken A raw

/-- The grants of a token, from the client that was configured. -/
def resolveGrants (raw : String) : Except PermissionsError (List PermissionGrant) :=
  match A.customerMaster with
  | none => .error .unavailable
  | some ask => getPermissions A.py (ask raw)

/-- `require_super_admin` -/
def requireSuperAdmin (raw : String) (identity : Identity) : Except RequestError Unit :=
  match resolveGrants A raw with
  | .error .raised => .error (.permissions .unavailable)
  | .error e => .error (.permissions e)
  | .ok grants =>
    if (rolesFromGrants grants ++ identity.roles).contains superAdminRole then .ok ()
    else .error .superAdminRequired

/-! ### The sessions of a request -/

/-- What an endpoint depends on. -/
inductive Access
  /-- `require_read_scope` and `read_session` -/
  | read
  /-- `require_write_scope`, `resolve_acted_for` and `write_session` -/
  | write (bodyTenantId : Option Uuid)
  /-- `require_tenant` and `rls_session` -/
  | tenant
  /-- `require_super_admin`, and the sessions of the draft store -/
  | console

structure Request where
  authorization : Option String
  access : Access

def lift {α : Type} : Except ApiError α → Except RequestError α
  | .ok a => .ok a
  | .error e => .error (.api e)

/-- `read_session` -/
def readMode (scope : ReadScope) : Except ApiError Mode :=
  if scope.isPlatform then .ok (.platform none)
  else
    match scope.tenantId with
    | none => .error .tenantScope
    | some t => .ok (.tenant t.str)

/-- `write_session` -/
def writeMode (userType : UserType) (actedFor : Uuid) : Mode :=
  match userType with
  | .platform => .platform (some actedFor)
  | .tenant => .tenant actedFor.str

/-- The session of an identity at an endpoint. -/
def accessMode (access : Access) (raw : String) (identity : Identity) :
    Except RequestError Mode :=
  match access with
  | .read => lift do readMode (← requireReadScope A.uuidOf identity)
  | .write bodyTenantId => lift do
    let scope ← requireWriteScope A.uuidOf identity
    return writeMode scope.userType (← resolveActedFor scope bodyTenantId)
  | .tenant => lift do return .tenant (← tenantUuidOf A.uuidOf identity).str
  | .console => do
    requireSuperAdmin A raw identity
    return .platform none

/-- The session a request opens. -/
def requestMode (r : Request) : Except RequestError Mode := do
  let identity ← getCurrentIdentity A r.authorization
  match bearer r.authorization with
  | none => .error (.auth .missingBearer)
  | some raw => accessMode A r.access raw identity

/-! ### What a session was granted for -/

section Grants

variable {A : Auth ω} {claims : Claims} {identity : Identity}

end Grants

/-! ### Runs of requests -/

section Runs

variable {ρ : Type} {A : Auth ω} {v : Deployment ρ} {r : Request} {claims : Claims}

end Runs

/-! ### The server -/

/-- What the server opens a session for. -/
inductive Call
  /-- `GET /readyz`, with the tenant drawn for the probe; no token is asked for -/
  | readyz (probeTenant : Uuid)
  | request (r : Request)

/-- The session a call opens. -/
def callMode (A : Auth ω) : Call → Except RequestError Mode
  | .readyz probeTenant => .ok (.tenant probeTenant.str)
  | .request r => requestMode A r

section Server

variable {ρ : Type}

/-- A statement of a call; the probe has but one, `_PROBE_QUERY`. -/
def Call.query (table : Table) (stmt : Statement ρ) : Call → Table × Statement ρ
  | .readyz _ => (.isolated, .select fun _ => true)
  | .request _ => (table, stmt)

/-- The pool, the call each connection was last opened for, and the statements with their calls. -/
structure Server (ρ : Type) where
  pool : State ρ
  serving : ℕ → Option Call
  statements : List (Call × Entry ρ)

inductive Event (ρ : Type)
  /-- a call gets a connection, if it is given a session -/
  | call (c : ℕ) (call : Call)
  | setUserType (c : ℕ)
  | setTenantId (c : ℕ)
  | execute (c : ℕ) (table : Table) (snapshot : List ρ) (stmt : Statement ρ)
  | leave (c : ℕ)

variable (A : Auth ω) (v : Deployment ρ)

def serveStep (s : Server ρ) : Event ρ → Server ρ
  | .call c call =>
    if (s.pool.connections c).phase = .idle then
      match callMode A call with
      | .error _ => s
      | .ok m =>
        { s with
          pool := step v s.pool (.enter c m)
          serving := Function.update s.serving c (some call) }
    else s
  | .setUserType c => { s with pool := step v s.pool (.setUserType c) }
  | .setTenantId c => { s with pool := step v s.pool (.setTenantId c) }
  | .execute c table snapshot stmt =>
    match s.serving c with
    | none => s
    | some call =>
      let query := call.query table stmt
      let pool := step v s.pool (.execute c query.1 snapshot query.2)
      { s with
        pool
        statements := s.statements ++ (pool.log.drop s.pool.log.length).map fun e => (call, e) }
  | .leave c => { s with pool := step v s.pool (.leave c) }

def serve (events : List (Event ρ)) (s : Server ρ) : Server ρ := events.foldl (serveStep A v) s

/-- The server has served no call yet. -/
def boot (outside : ℕ → Settings) : Server ρ := ⟨start outside, fun _ => none, []⟩

/-- The session is the one the call was given, and the statement is one of the call's. -/
structure Issued (p : Call × Entry ρ) : Prop where
  mode : callMode A p.1 = .ok p.2.mode
  query : p.1.query p.2.table p.2.stmt = (p.2.table, p.2.stmt)

structure Attributed (s : Server ρ) : Prop where
  pool : RlsSessions.Invariant v s.pool
  serving : ∀ c m, (s.pool.connections c).phase.mode = some m →
    ∃ call, s.serving c = some call ∧ callMode A call = .ok m
  entries : s.statements.map Prod.snd = s.pool.log
  issued : ∀ p ∈ s.statements, Issued A p

variable {A v} {s : Server ρ}

lemma Attributed.enter (hs : Attributed A v s) {c : ℕ} {call : Call} {m : Mode}
    (hidle : (s.pool.connections c).phase = .idle) (hmode : callMode A call = .ok m) :
    Attributed A v { s with
      pool := step v s.pool (.enter c m)
      serving := Function.update s.serving c (some call) } := by
  refine ⟨step_keeps hs.pool (.enter c m), fun c' m' hm' => ?_, ?_, hs.issued⟩
  · by_cases hc : c' = c
    · subst hc
      rcases step_mode hm' with hm' | hm'
      · rw [hidle] at hm'
        cases hm'
      · cases hm'
        exact ⟨call, by simp, hmode⟩
    · rcases step_mode hm' with hm' | hm'
      · obtain ⟨call', hserving, hcall'⟩ := hs.serving c' m' hm'
        exact ⟨call', by simpa [hc] using hserving, hcall'⟩
      · cases hm'
        exact absurd rfl hc
  · rw [step_log fun _ _ _ _ h => by cases h]
    exact hs.entries

lemma Attributed.execute (hs : Attributed A v s) {c : ℕ} {call : Call}
    (hcall : s.serving c = some call) {table : Table} {snapshot : List ρ} {stmt : Statement ρ}
    (hquery : call.query table stmt = (table, stmt)) :
    Attributed A v { s with
      pool := step v s.pool (.execute c table snapshot stmt)
      statements := s.statements ++ ((step v s.pool (.execute c table snapshot stmt)).log.drop
        s.pool.log.length).map fun e => (call, e) } := by
  have hkeep := step_keeps hs.pool (.execute c table snapshot stmt)
  have hserving : ∀ c' m, ((step v s.pool (.execute c table snapshot stmt)).connections
      c').phase.mode = some m → ∃ call, s.serving c' = some call ∧ callMode A call = .ok m := by
    intro c' m hm
    rcases step_mode hm with hm | hm
    · exact hs.serving c' m hm
    · cases hm
  rcases step_execute_log (v := v) s.pool c table snapshot stmt with
    hlog | ⟨e, hlog, hmode, ht, hst⟩
  · refine ⟨hkeep, hserving, ?_, ?_⟩
    · simpa [hlog] using hs.entries
    · simpa [hlog] using hs.issued
  · refine ⟨hkeep, hserving, by simp [hlog, hs.entries], fun p hp => ?_⟩
    rw [hlog, List.drop_left, List.map_singleton] at hp
    rcases List.mem_append.mp hp with hp | hp
    · exact hs.issued p hp
    · rw [List.mem_singleton.mp hp]
      obtain ⟨call', hcall', hcallMode⟩ := hs.serving c e.mode hmode
      rw [hcall] at hcall'
      cases hcall'
      exact ⟨hcallMode, by rw [ht, hst]; exact hquery⟩

end Server

def sampleClaims : Claims :=
  [("sub", .str "auth0|7"), (claim "user_id", .str "7"), (claim "user_type", .str "PLATFORM"),
    (claim "tenant_id", .null), (claim "roles", .list [some "dis:ops"])]

lemma uuidOf_nil : ObjectPath.uuidOf [] = none := rfl

/-- One token is the operator's; Customer Master is not configured. -/
def sampleAuth : Auth Empty where
  decode raw := if raw = "operator" then .claims sampleClaims else .failed
  uuidOf s := ObjectPath.uuidOf s.toList
  uuidOf_empty := uuidOf_nil
  py := scalars
  customerMaster := none

def sampleRequest : Request := ⟨some "Bearer operator", .write (some (.ofNat 3))⟩

/-- The statements of a probe and of an operator's request interleave on two connections; a
request with another token gets none. -/
def operatorEvents : List (Event (Uuid × ℕ)) :=
  [.call 0 (.request sampleRequest), .call 2 (.request ⟨some "Bearer forged", .read⟩),
    .setUserType 0, .call 1 (.readyz (.ofNat 2)), .setUserType 1, .setTenantId 1, .setTenantId 0,
    .execute 0 .isolated sampleRows (.update (fun row => row.2 = 2) fun row => (row.1, 5)),
    .execute 1 .isolated sampleRows (.delete fun _ => true),
    .execute 2 .isolated sampleRows (.select fun _ => true)]

def sampleServer : Server (Uuid × ℕ) :=
  serve sampleAuth sampleDeployment operatorEvents (boot fun _ => ⟨none, none⟩)

end CortexDis.RequestScope
