import CortexDis.PyDict
import CortexDis.Runs
import CortexDis.Upsert
import CortexDis.Values

/-!
The mirror of Customer Master's tenants and stores.

A run copies a snapshot, one transaction a tenant: the tenant's row, then its stores. A
transaction that raises is rolled back and ends the run.
-/

namespace CortexDis.MirrorSync

open CortexDis.Values CortexDis.PyDict CortexDis.Upsert CortexDis.Runs

/-! ### Columns -/

/-- A value of `varchar(n)`. -/
@[ext] structure Varchar (n : ℕ) where
  text : String
  fits : text.length ≤ n
  deriving DecidableEq

/-- A value of `char(n)`. -/
@[ext] structure Bpchar (n : ℕ) where
  text : String
  width : text.length = n
  deriving DecidableEq

/-- A longer text loses blanks beyond the width, but no other character. -/
def blankBeyond (n : ℕ) (text : String) : Bool := (text.toList.drop n).all fun c => c = ' '

/-- The assignment of a text to a `varchar(n)` column. -/
def Varchar.assign (n : ℕ) (text : String) : Option (Varchar n) :=
  if h : text.length ≤ n then some ⟨text, h⟩
  else if blankBeyond n text then some ⟨String.ofList (text.toList.take n), by simp⟩
  else none

/-- The assignment of a text to a `char(n)` column: a shorter text is filled up with blanks. -/
def Bpchar.assign (n : ℕ) (text : String) : Option (Bpchar n) :=
  if blankBeyond n text then
    some ⟨String.ofList ((text.toList ++ List.replicate n ' ').take n), by simp⟩
  else none

lemma Varchar.assign_of_le {n : ℕ} {text : String} (h : text.length ≤ n) :
    Varchar.assign n text = some ⟨text, h⟩ := by
  rw [assign, dif_pos h]

lemma Bpchar.assign_of_length {n : ℕ} {text : String} (h : text.length = n) :
    Bpchar.assign n text = some ⟨text, h⟩ := by
  subst h
  have hlength : text.toList.length = text.length := String.length_toList
  have hdrop : text.toList.drop text.length = [] := by simp [← hlength]
  have htake : (text.toList ++ List.replicate text.length ' ').take text.length = text.toList := by
    rw [← hlength, List.take_left']
    rfl
  simp [assign, blankBeyond, hdrop, htake]

/-! ### The snapshot and the mirror -/

structure CmTenant where
  tenantId : Uuid
  name : String
  displayCode : Option String
  status : String
  pcCreatedAt : Timestamp
  pcUpdatedAt : Timestamp
  pcSuspendedAt : Option Timestamp
  pcTerminatedAt : Option Timestamp
  deriving DecidableEq

structure CmStore where
  storeId : Uuid
  tenantId : Uuid
  name : String
  storeCode : Option String
  status : String
  country : String
  timezone : String
  currency : String
  taxTreatment : String
  pcCreatedAt : Timestamp
  pcUpdatedAt : Timestamp
  pcClosedAt : Option Timestamp
  deriving DecidableEq

/-- What Customer Master returns. Ids are its primary keys, and its columns are as wide as the
mirror's: names of `varchar(200)`, currencies of `char(3)`. -/
structure Snapshot where
  tenants : List CmTenant
  stores : List CmStore
  tenantIds : (tenants.map CmTenant.tenantId).Nodup
  storeIds : (stores.map CmStore.storeId).Nodup
  tenantNames : ∀ t ∈ tenants, t.name.length ≤ 200
  storeNames : ∀ s ∈ stores, s.name.length ≤ 200
  currencies : ∀ s ∈ stores, s.currency.length = 3

/-- A row of `identity_mirror.tenants`. -/
@[ext] structure TenantRow where
  tenantId : Uuid
  name : Varchar 200
  displayCode : Option String
  status : String
  pcCreatedAt : Timestamp
  pcUpdatedAt : Timestamp
  pcSuspendedAt : Option Timestamp
  pcTerminatedAt : Option Timestamp
  mirrorSyncedAt : Timestamp

/-- A row of `identity_mirror.stores`. -/
@[ext] structure StoreRow where
  storeId : Uuid
  tenantId : Uuid
  name : Varchar 200
  storeCode : Option String
  status : String
  country : String
  timezone : String
  currency : Bpchar 3
  taxTreatment : String
  pcCreatedAt : Timestamp
  pcUpdatedAt : Timestamp
  pcClosedAt : Option Timestamp
  mirrorSyncedAt : Timestamp

/-- The primary key of `identity_mirror.stores`. -/
def StoreRow.key (r : StoreRow) : Uuid × Uuid := (r.tenantId, r.storeId)

def CmStore.key (s : CmStore) : Uuid × Uuid := (s.tenantId, s.storeId)

/-- The mirrored columns of a row. -/
def TenantRow.mirrored (r : TenantRow) : CmTenant :=
  ⟨r.tenantId, r.name.text, r.displayCode, r.status, r.pcCreatedAt, r.pcUpdatedAt,
    r.pcSuspendedAt, r.pcTerminatedAt⟩

/-- The mirrored columns of a row. -/
def StoreRow.mirrored (r : StoreRow) : CmStore :=
  ⟨r.storeId, r.tenantId, r.name.text, r.storeCode, r.status, r.country, r.timezone,
    r.currency.text, r.taxTreatment, r.pcCreatedAt, r.pcUpdatedAt, r.pcClosedAt⟩

def tenantStatuses : List String := ["ONBOARDING", "TRIAL", "ACTIVE", "SUSPENDED", "TERMINATED"]

def storeStatuses : List String := ["OPENING", "ACTIVE", "INACTIVE", "CLOSED"]

def taxTreatments : List String := ["INCLUSIVE", "EXCLUSIVE"]

/-- The constraints beyond the primary keys: the vocabularies, `uq_ims_store_id` and
`fk_ims_tenant`. -/
def valid (tenants : Table TenantRow.tenantId) (stores : Table StoreRow.key) : Bool :=
  (tenants.rows.all fun t => tenantStatuses.contains t.status) &&
  (stores.rows.all fun s => storeStatuses.contains s.status &&
    taxTreatments.contains s.taxTreatment &&
    tenants.rows.any fun t => t.tenantId = s.tenantId) &&
  (stores.rows.map StoreRow.storeId).Nodup

/-- The two tables, with their constraints. -/
@[ext] structure Mirror where
  tenants : Table TenantRow.tenantId
  stores : Table StoreRow.key
  valid : valid tenants stores

/-! ### The statements -/

/-- The row that `TENANT_UPSERT` proposes for `tenant_params(tenant)`. -/
def tenantValues (now : Timestamp) (tenant : CmTenant) : Option TenantRow := do
  let name ← Varchar.assign 200 tenant.name
  return {
    tenantId := tenant.tenantId
    name
    displayCode := tenant.displayCode
    status := tenant.status
    pcCreatedAt := tenant.pcCreatedAt
    pcUpdatedAt := tenant.pcUpdatedAt
    pcSuspendedAt := tenant.pcSuspendedAt
    pcTerminatedAt := tenant.pcTerminatedAt
    mirrorSyncedAt := now }

/-- The conflict clause of `TENANT_UPSERT` -/
def tenantUpsert : Statement TenantRow.tenantId where
  set old new := { old with
    name := new.name
    displayCode := new.displayCode
    status := new.status
    pcCreatedAt := new.pcCreatedAt
    pcUpdatedAt := new.pcUpdatedAt
    pcSuspendedAt := new.pcSuspendedAt
    pcTerminatedAt := new.pcTerminatedAt
    mirrorSyncedAt := new.mirrorSyncedAt }
  changed old new :=
    old.name ≠ new.name || old.displayCode ≠ new.displayCode || old.status ≠ new.status ||
    old.pcCreatedAt ≠ new.pcCreatedAt || old.pcUpdatedAt ≠ new.pcUpdatedAt ||
    old.pcSuspendedAt ≠ new.pcSuspendedAt || old.pcTerminatedAt ≠ new.pcTerminatedAt
  key_set _ _ := rfl

/-- The row that `STORE_UPSERT` proposes for `store_params(store)`. -/
def storeValues (now : Timestamp) (store : CmStore) : Option StoreRow := do
  let name ← Varchar.assign 200 store.name
  let currency ← Bpchar.assign 3 store.currency
  return {
    storeId := store.storeId
    tenantId := store.tenantId
    name
    storeCode := store.storeCode
    status := store.status
    country := store.country
    timezone := store.timezone
    currency
    taxTreatment := store.taxTreatment
    pcCreatedAt := store.pcCreatedAt
    pcUpdatedAt := store.pcUpdatedAt
    pcClosedAt := store.pcClosedAt
    mirrorSyncedAt := now }

/-- The conflict clause of `STORE_UPSERT` -/
def storeUpsert : Statement StoreRow.key where
  set old new := { old with
    name := new.name
    storeCode := new.storeCode
    status := new.status
    country := new.country
    timezone := new.timezone
    currency := new.currency
    taxTreatment := new.taxTreatment
    pcCreatedAt := new.pcCreatedAt
    pcUpdatedAt := new.pcUpdatedAt
    pcClosedAt := new.pcClosedAt
    mirrorSyncedAt := new.mirrorSyncedAt }
  changed old new :=
    old.name ≠ new.name || old.storeCode ≠ new.storeCode || old.status ≠ new.status ||
    old.country ≠ new.country || old.timezone ≠ new.timezone || old.currency ≠ new.currency ||
    old.taxTreatment ≠ new.taxTreatment || old.pcCreatedAt ≠ new.pcCreatedAt ||
    old.pcUpdatedAt ≠ new.pcUpdatedAt || old.pcClosedAt ≠ new.pcClosedAt
  key_set _ _ := rfl

inductive SyncError
  /-- a value is too long for its column -/
  | data
  /-- a row violates a constraint -/
  | integrity
  /-- the database or the connection fails -/
  | operational
  deriving DecidableEq, Repr

/-- `_apply` of `TENANT_UPSERT`: a statement that would violate a constraint raises. -/
def applyTenant (now : Timestamp) (tenant : CmTenant) (m : Mirror) :
    Except SyncError (Mirror × Outcome) :=
  match tenantValues now tenant with
  | none => .error .data
  | some new =>
    let done := tenantUpsert.exec new m.tenants
    if h : MirrorSync.valid done.1 m.stores then .ok (⟨done.1, m.stores, h⟩, done.2)
    else .error .integrity

/-- `_apply` of `STORE_UPSERT` -/
def applyStore (now : Timestamp) (store : CmStore) (m : Mirror) :
    Except SyncError (Mirror × Outcome) :=
  match storeValues now store with
  | none => .error .data
  | some new =>
    let done := storeUpsert.exec new m.stores
    if h : MirrorSync.valid m.tenants done.1 then .ok (⟨m.tenants, done.1, h⟩, done.2)
    else .error .integrity

/-! ### A run -/

structure UpsertCounts where
  inserted : ℕ
  updated : ℕ
  unchanged : ℕ
  deriving DecidableEq, Repr

/-- `UpsertCounts()` -/
def UpsertCounts.zero : UpsertCounts := ⟨0, 0, 0⟩

def UpsertCounts.record (c : UpsertCounts) : Outcome → UpsertCounts
  | .inserted => { c with inserted := c.inserted + 1 }
  | .updated => { c with updated := c.updated + 1 }
  | .unchanged => { c with unchanged := c.unchanged + 1 }

def UpsertCounts.seen (c : UpsertCounts) : ℕ := c.inserted + c.updated + c.unchanged

structure TenantSyncCounts where
  tenantId : Uuid
  tenants : UpsertCounts
  stores : UpsertCounts
  deriving DecidableEq, Repr

structure SyncResult where
  perTenant : List TenantSyncCounts
  skippedStores : ℕ
  deriving DecidableEq, Repr

def UpsertCounts.add (c d : UpsertCounts) : UpsertCounts :=
  ⟨c.inserted + d.inserted, c.updated + d.updated, c.unchanged + d.unchanged⟩

/-- `totals`: of the tenants and of the stores -/
def SyncResult.totals (result : SyncResult) : UpsertCounts × UpsertCounts :=
  result.perTenant.foldl (fun t c => (t.1.add c.tenants, t.2.add c.stores)) (.zero, .zero)

/-- The transaction of one tenant, as the database serves it. -/
structure Session where
  /-- `now()` -/
  now : Timestamp
  /-- the calls that raise for a reason of their own, counted from 0; the commit comes last -/
  raises : ℕ → Bool

/-- The `n`-th call of a session. -/
def Session.call {α : Type} (s : Session) (n : ℕ) (result : Except SyncError α) :
    Except SyncError α :=
  if s.raises n then .error .operational else result

/-- The statements of a tenant's stores, of which the first is the `n`-th call. -/
def applyStores (s : Session) : ℕ → List CmStore → Mirror → UpsertCounts →
    Except SyncError (Mirror × UpsertCounts)
  | _, [], m, counts => .ok (m, counts)
  | n, store :: stores, m, counts => do
    let (m', outcome) ← s.call n (applyStore s.now store m)
    applyStores s (n + 1) stores m' (counts.record outcome)

/-- The transaction of a tenant. -/
def syncTenant (s : Session) (tenant : CmTenant) (stores : List CmStore) (m : Mirror) :
    Except SyncError (Mirror × TenantSyncCounts) := do
  let (m₁, outcome) ← s.call 0 (applyTenant s.now tenant m)
  let (m₂, storeCounts) ← applyStores s 1 stores m₁ .zero
  s.call (stores.length + 1)
    (.ok (m₂, ⟨tenant.tenantId, UpsertCounts.zero.record outcome, storeCounts⟩))

/-- `stores_by_tenant` -/
def storesByTenant (stores : List CmStore) : Dict Uuid (List CmStore) :=
  stores.foldl (fun d store =>
    d.set store.tenantId ((d.get? store.tenantId).getD [] ++ [store])) .empty

/-- The loop over the tenants, from the `i`-th on. -/
def syncTenants (sessions : ℕ → Session) (byTenant : Dict Uuid (List CmStore)) :
    ℕ → List CmTenant → Mirror → Mirror × Except SyncError (List TenantSyncCounts)
  | _, [], m => (m, .ok [])
  | i, tenant :: tenants, m =>
    match syncTenant (sessions i) tenant ((byTenant.get? tenant.tenantId).getD []) m with
    | .error e => (m, .error e)
    | .ok (m', counts) =>
      ((syncTenants sessions byTenant (i + 1) tenants m').1,
        (syncTenants sessions byTenant (i + 1) tenants m').2.map (counts :: ·))

/-- The stores of tenants that were not read. -/
def skipped (tenants : List CmTenant) (byTenant : Dict Uuid (List CmStore)) : ℕ :=
  ((byTenant.entries.filter fun e =>
    !(tenants.map CmTenant.tenantId).contains e.1).map fun e => e.2.length).sum

/-- `upsert_identity`: the mirror afterwards, and the result or what was raised. -/
def upsertIdentity (sessions : ℕ → Session) (tenants : List CmTenant) (stores : List CmStore)
    (m : Mirror) : Mirror × Except SyncError SyncResult :=
  let byTenant := storesByTenant stores
  let run := syncTenants sessions byTenant 0 tenants m
  (run.1, run.2.map fun perTenant => ⟨perTenant, skipped tenants byTenant⟩)

/-! ### What one statement does -/

lemma tenantUpsert_copies : tenantUpsert.Copies TenantRow.mirrored where
  data_set hkey := by simp [tenantUpsert, TenantRow.mirrored, hkey]
  changed_iff {old new} hkey := by
    simp only [tenantUpsert, TenantRow.mirrored, ne_eq, CmTenant.mk.injEq, hkey, true_and,
      Varchar.ext_iff, Bool.or_eq_true, decide_eq_true_eq]
    tauto

lemma storeUpsert_copies : storeUpsert.Copies StoreRow.mirrored where
  data_set {old new} hkey := by
    obtain ⟨htenant, hstore⟩ := Prod.mk.inj hkey
    simp [storeUpsert, StoreRow.mirrored, htenant, hstore]
  changed_iff {old new} hkey := by
    obtain ⟨htenant, hstore⟩ := Prod.mk.inj hkey
    simp only [storeUpsert, StoreRow.mirrored, ne_eq, CmStore.mk.injEq, htenant, hstore, true_and,
      Varchar.ext_iff, Bpchar.ext_iff, Bool.or_eq_true, decide_eq_true_eq]
    tauto

lemma exists_tenantValues {tenant : CmTenant} (h : tenant.name.length ≤ 200) (now : Timestamp) :
    ∃ new, tenantValues now tenant = some new ∧ new.mirrored = tenant := by
  refine ⟨_, by rw [tenantValues, Varchar.assign_of_le h]; rfl, rfl⟩

/-- The values of a store fit its columns. -/
def CmStore.Fits (store : CmStore) : Prop := store.name.length ≤ 200 ∧ store.currency.length = 3

lemma exists_storeValues {store : CmStore} (h : store.Fits) (now : Timestamp) :
    ∃ new, storeValues now store = some new ∧ new.mirrored = store := by
  refine ⟨_, by rw [storeValues, Varchar.assign_of_le h.1, Bpchar.assign_of_length h.2]; rfl, rfl⟩

/-- The mirror has the tenant as the snapshot has it. -/
def HasTenant (m : Mirror) (tenant : CmTenant) : Prop :=
  ∃ r, m.tenants.find? tenant.tenantId = some r ∧ r.mirrored = tenant

/-- The mirror has the store as the snapshot has it. -/
def HasStore (m : Mirror) (store : CmStore) : Prop :=
  ∃ r, m.stores.find? store.key = some r ∧ r.mirrored = store

lemma applyTenant_ok {now : Timestamp} {tenant : CmTenant} {m m' : Mirror} {outcome : Outcome}
    (hfits : tenant.name.length ≤ 200) (h : applyTenant now tenant m = .ok (m', outcome)) :
    HasTenant m' tenant ∧ m'.stores = m.stores ∧
      ∀ k, tenant.tenantId ≠ k → m'.tenants.find? k = m.tenants.find? k := by
  obtain ⟨new, hnew, hdata⟩ := exists_tenantValues hfits now
  have hkey : new.tenantId = tenant.tenantId := by rw [← hdata]; rfl
  rw [applyTenant, hnew] at h
  dsimp only at h
  split at h
  · cases h
    obtain ⟨r, hr, hmirrored⟩ := tenantUpsert_copies.find?_exec new m.tenants
    refine ⟨⟨r, hkey ▸ hr, hmirrored.trans hdata⟩, rfl, fun k hk => ?_⟩
    exact find?_exec_of_ne (hkey ▸ hk)
  · cases h

lemma applyStore_ok {now : Timestamp} {store : CmStore} {m m' : Mirror} {outcome : Outcome}
    (hfits : store.Fits) (h : applyStore now store m = .ok (m', outcome)) :
    HasStore m' store ∧ m'.tenants = m.tenants ∧
      ∀ k, store.key ≠ k → m'.stores.find? k = m.stores.find? k := by
  obtain ⟨new, hnew, hdata⟩ := exists_storeValues hfits now
  have hkey : new.key = store.key := by rw [← hdata]; rfl
  rw [applyStore, hnew] at h
  dsimp only at h
  split at h
  · cases h
    obtain ⟨r, hr, hmirrored⟩ := storeUpsert_copies.find?_exec new m.stores
    refine ⟨⟨r, hkey ▸ hr, hmirrored.trans hdata⟩, rfl, fun k hk => ?_⟩
    exact find?_exec_of_ne (hkey ▸ hk)
  · cases h

lemma applyTenant_of_has {tenant : CmTenant} {m : Mirror} (hfits : tenant.name.length ≤ 200)
    (h : HasTenant m tenant) (now : Timestamp) :
    applyTenant now tenant m = .ok (m, .unchanged) := by
  obtain ⟨new, hnew, hdata⟩ := exists_tenantValues hfits now
  obtain ⟨r, hr, hmirrored⟩ := h
  have hkey : new.tenantId = tenant.tenantId := by rw [← hdata]; rfl
  have hexec : tenantUpsert.exec new m.tenants = (m.tenants, .unchanged) :=
    tenantUpsert_copies.exec_unchanged (hkey.symm ▸ hr) (hmirrored.trans hdata.symm)
  simp only [applyTenant, hnew, hexec, m.valid, dite_true]

lemma applyStore_of_has {store : CmStore} {m : Mirror} (hfits : store.Fits)
    (h : HasStore m store) (now : Timestamp) : applyStore now store m = .ok (m, .unchanged) := by
  obtain ⟨new, hnew, hdata⟩ := exists_storeValues hfits now
  obtain ⟨r, hr, hmirrored⟩ := h
  have hkey : new.key = store.key := by rw [← hdata]; rfl
  have hexec : storeUpsert.exec new m.stores = (m.stores, .unchanged) :=
    storeUpsert_copies.exec_unchanged (hkey.symm ▸ hr) (hmirrored.trans hdata.symm)
  simp only [applyStore, hnew, hexec, m.valid, dite_true]

/-! ### What a transaction does -/

lemma call_eq_ok {α : Type} {s : Session} {n : ℕ} {result : Except SyncError α} {a : α}
    (h : s.call n result = .ok a) : result = .ok a := by
  unfold Session.call at h
  split at h
  · cases h
  · exact h

lemma seen_record (c : UpsertCounts) (outcome : Outcome) :
    (c.record outcome).seen = c.seen + 1 := by
  cases outcome <;> simp only [UpsertCounts.record, UpsertCounts.seen] <;> omega

lemma HasStore.of_find?_eq {m m' : Mirror} {store : CmStore} (h : HasStore m store)
    (heq : m'.stores.find? store.key = m.stores.find? store.key) : HasStore m' store := by
  obtain ⟨r, hr, hmirrored⟩ := h
  exact ⟨r, heq.trans hr, hmirrored⟩

lemma HasTenant.of_find?_eq {m m' : Mirror} {tenant : CmTenant} (h : HasTenant m tenant)
    (heq : m'.tenants.find? tenant.tenantId = m.tenants.find? tenant.tenantId) :
    HasTenant m' tenant := by
  obtain ⟨r, hr, hmirrored⟩ := h
  exact ⟨r, heq.trans hr, hmirrored⟩

lemma applyStores_ok {s : Session} {n : ℕ} {stores : List CmStore} {m m' : Mirror}
    {c c' : UpsertCounts} (hfits : ∀ store ∈ stores, store.Fits)
    (hkeys : (stores.map CmStore.key).Nodup) (h : applyStores s n stores m c = .ok (m', c')) :
    (∀ store ∈ stores, HasStore m' store) ∧ m'.tenants = m.tenants ∧
      (∀ k, (∀ store ∈ stores, store.key ≠ k) → m'.stores.find? k = m.stores.find? k) ∧
      c'.seen = c.seen + stores.length := by
  induction stores generalizing n m c with
  | nil =>
    cases h
    exact ⟨by simp, rfl, fun _ _ => rfl, rfl⟩
  | cons store stores ih =>
    obtain ⟨⟨m₁, outcome⟩, hcall, hrest⟩ := of_bind_eq_ok h
    obtain ⟨hhas, htenants, hother⟩ := applyStore_ok (hfits store List.mem_cons_self)
      (call_eq_ok hcall)
    rw [List.map_cons, List.nodup_cons] at hkeys
    obtain ⟨ihhas, ihtenants, ihother, ihseen⟩ := ih
      (fun store' hmem => hfits store' (List.mem_cons_of_mem _ hmem)) hkeys.2 hrest
    refine ⟨?_, ihtenants.trans htenants, ?_, ?_⟩
    · -- the later statements are for other keys
      have hlater : ∀ store' ∈ stores, store'.key ≠ store.key := fun store' hmem heq =>
        hkeys.1 (heq ▸ List.mem_map_of_mem hmem)
      intro store' hmem
      rcases List.mem_cons.mp hmem with rfl | hmem
      · exact hhas.of_find?_eq (ihother store'.key hlater)
      · exact ihhas store' hmem
    · intro k hk
      rw [ihother k fun store' hmem => hk store' (List.mem_cons_of_mem _ hmem),
        hother k (hk store List.mem_cons_self)]
    · rw [ihseen, seen_record, List.length_cons]
      omega

/-- The tenants and their stores are mirrored as the snapshot has them, and no other row
changed since `m`. -/
structure Applied (tenants : List CmTenant) (stores : List CmStore) (m m' : Mirror) : Prop where
  tenant : ∀ t ∈ tenants, HasTenant m' t
  store : ∀ s ∈ stores, (∃ t ∈ tenants, t.tenantId = s.tenantId) → HasStore m' s
  otherTenants : ∀ k, (∀ t ∈ tenants, t.tenantId ≠ k) → m'.tenants.find? k = m.tenants.find? k
  otherStores : ∀ k, (∀ s ∈ stores, (∃ t ∈ tenants, t.tenantId = s.tenantId) → s.key ≠ k) →
    m'.stores.find? k = m.stores.find? k

lemma Applied.nil (stores : List CmStore) (m : Mirror) : Applied [] stores m m :=
  ⟨by simp, by simp, fun _ _ => rfl, fun _ _ => rfl⟩

/-- The stores of a tenant. -/
def storesOf (stores : List CmStore) (tenant : CmTenant) : List CmStore :=
  stores.filter fun s => s.tenantId = tenant.tenantId

lemma syncTenant_ok {s : Session} {tenant : CmTenant} {stores : List CmStore} {m m' : Mirror}
    {counts : TenantSyncCounts} (hname : tenant.name.length ≤ 200)
    (hfits : ∀ store ∈ stores, store.Fits) (hkeys : (stores.map CmStore.key).Nodup)
    (h : syncTenant s tenant (storesOf stores tenant) m = .ok (m', counts)) :
    Applied [tenant] stores m m' ∧ counts.stores.seen = (storesOf stores tenant).length := by
  obtain ⟨⟨m₁, outcome⟩, htenant, h⟩ := of_bind_eq_ok h
  obtain ⟨⟨m₂, storeCounts⟩, hstores, h⟩ := of_bind_eq_ok h
  cases call_eq_ok h
  have hsub : (storesOf stores tenant).Sublist stores := List.filter_sublist
  obtain ⟨hhas, hsame, hother⟩ := applyTenant_ok hname (call_eq_ok htenant)
  obtain ⟨hall, htenants, hrest, hseen⟩ := applyStores_ok
    (fun store hmem => hfits store (hsub.subset hmem)) (hkeys.sublist (hsub.map _)) hstores
  have hmem : ∀ store ∈ stores, (∃ t ∈ [tenant], t.tenantId = store.tenantId) ↔
      store ∈ storesOf stores tenant := by
    intro store hstore
    simp [storesOf, hstore, eq_comm]
  refine ⟨⟨?_, ?_, ?_, ?_⟩, by simpa [UpsertCounts.zero, UpsertCounts.seen] using hseen⟩
  · intro t ht
    obtain rfl := List.mem_singleton.mp ht
    exact hhas.of_find?_eq (by rw [htenants])
  · intro store hstore hknown
    exact hall store ((hmem store hstore).mp hknown)
  · intro k hk
    rw [htenants, hother k (hk tenant List.mem_cons_self)]
  · intro k hk
    rw [hrest k fun store hstore => hk store (hsub.subset hstore)
      ((hmem store (hsub.subset hstore)).mpr hstore), hsame]

/-! ### What a run does -/

lemma Applied.cons {tenant : CmTenant} {tenants : List CmTenant} {stores : List CmStore}
    {m m₁ m₂ : Mirror} (hnew : tenant.tenantId ∉ tenants.map CmTenant.tenantId)
    (h : Applied [tenant] stores m m₁) (h' : Applied tenants stores m₁ m₂) :
    Applied (tenant :: tenants) stores m m₂ := by
  -- later tenants write to rows of their own only
  have hother : ∀ t ∈ tenants, t.tenantId ≠ tenant.tenantId := fun t ht heq =>
    hnew (heq ▸ List.mem_map_of_mem ht)
  refine ⟨?_, ?_, ?_, ?_⟩
  · intro t ht
    rcases List.mem_cons.mp ht with rfl | ht
    · exact (h.tenant t List.mem_cons_self).of_find?_eq (h'.otherTenants t.tenantId hother)
    · exact h'.tenant t ht
  · rintro s hs ⟨t, ht, hknown⟩
    rcases List.mem_cons.mp ht with rfl | ht
    · refine (h.store s hs ⟨t, List.mem_cons_self, hknown⟩).of_find?_eq (h'.otherStores s.key ?_)
      rintro s' hs' ⟨t', ht', hknown'⟩ hkey
      have htenant : s'.tenantId = s.tenantId := (Prod.mk.inj hkey).1
      exact hother t' ht' (hknown'.trans (htenant.trans hknown.symm))
    · exact h'.store s hs ⟨t, ht, hknown⟩
  · intro k hk
    rw [h'.otherTenants k fun t ht => hk t (List.mem_cons_of_mem _ ht),
      h.otherTenants k fun t ht => hk t (List.mem_singleton.mp ht ▸ List.mem_cons_self)]
  · intro k hk
    rw [h'.otherStores k, h.otherStores k]
    · rintro s hs ⟨t, ht, hknown⟩
      exact hk s hs ⟨t, List.mem_singleton.mp ht ▸ List.mem_cons_self, hknown⟩
    · rintro s hs ⟨t, ht, hknown⟩
      exact hk s hs ⟨t, List.mem_cons_of_mem _ ht, hknown⟩

lemma storesByTenant_snoc (stores : List CmStore) (store : CmStore) :
    storesByTenant (stores ++ [store]) = (storesByTenant stores).set store.tenantId
      (((storesByTenant stores).get? store.tenantId).getD [] ++ [store]) := by
  simp [storesByTenant, List.foldl_append]

lemma get?_storesByTenant (stores : List CmStore) (tenant : CmTenant) :
    ((storesByTenant stores).get? tenant.tenantId).getD [] = storesOf stores tenant := by
  induction stores using List.reverseRecOn with
  | nil => rfl
  | append_singleton stores store ih =>
    rw [storesByTenant_snoc, Dict.get?_set, storesOf, List.filter_append]
    by_cases h : store.tenantId = tenant.tenantId
    · simp [h, ih, storesOf]
    · simp [h, ih, storesOf]

/-- What the loop leaves when it ends: some of the tenants applied, all of them unless it
raises. -/
lemma syncTenants_applied (sessions : ℕ → Session) {stores : List CmStore}
    (hfits : ∀ store ∈ stores, store.Fits) (hkeys : (stores.map CmStore.key).Nodup) (i : ℕ)
    {tenants : List CmTenant} (hnames : ∀ t ∈ tenants, t.name.length ≤ 200)
    (hids : (tenants.map CmTenant.tenantId).Nodup) (m : Mirror) :
    ∃ done rest, tenants = done ++ rest ∧
      Applied done stores m (syncTenants sessions (storesByTenant stores) i tenants m).1 ∧
      match (syncTenants sessions (storesByTenant stores) i tenants m).2 with
      | .ok perTenant => rest = [] ∧ perTenant.map (fun c => c.stores.seen) =
          tenants.map fun t => (storesOf stores t).length
      | .error _ => rest ≠ [] := by
  induction tenants generalizing i m with
  | nil => exact ⟨[], [], rfl, .nil stores m, rfl, rfl⟩
  | cons tenant tenants ih =>
    rw [List.map_cons, List.nodup_cons] at hids
    rw [syncTenants, get?_storesByTenant]
    cases htenant : syncTenant (sessions i) tenant (storesOf stores tenant) m with
    | error e => exact ⟨[], tenant :: tenants, rfl, .nil stores m, by simp⟩
    | ok ended =>
      obtain ⟨m₁, counts⟩ := ended
      obtain ⟨happlied, hseen⟩ := syncTenant_ok (hnames tenant List.mem_cons_self) hfits hkeys
        htenant
      obtain ⟨done, rest, hsplit, hdone, hresult⟩ := ih (i + 1)
        (fun t ht => hnames t (List.mem_cons_of_mem _ ht)) hids.2 m₁
      have hnew : tenant.tenantId ∉ done.map CmTenant.tenantId := fun hmem =>
        hids.1 (by rw [hsplit, List.map_append]; exact List.mem_append_left _ hmem)
      refine ⟨tenant :: done, rest, by rw [hsplit, List.cons_append], happlied.cons hnew hdone, ?_⟩
      dsimp only
      cases hloop : (syncTenants sessions (storesByTenant stores) (i + 1) tenants m₁).2 with
      | error e =>
        rw [hloop] at hresult
        exact hresult
      | ok perTenant =>
        rw [hloop] at hresult
        exact ⟨hresult.1, by simp [hseen, hresult.2]⟩

/-! ### The counts -/

/-- The values under the keys that `q` picks, counted. -/
def countWhere (q : Uuid → Bool) (entries : List (Uuid × List CmStore)) : ℕ :=
  ((entries.filter fun e => q e.1).map fun e => e.2.length).sum

lemma countWhere_put (q : Uuid → Bool) (store : CmStore) (k : Uuid)
    (entries : List (Uuid × List CmStore)) :
    countWhere q (put k ((lookup k entries).getD [] ++ [store]) entries) =
      countWhere q entries + if q k then 1 else 0 := by
  induction entries with
  | nil => cases hq : q k <;> simp [countWhere, put, lookup, hq]
  | cons e entries ih =>
    by_cases hk : e.1 = k
    · subst hk
      cases hq : q e.1 <;> simp [countWhere, put, lookup, hq]
      omega
    · simp only [countWhere, put, lookup, hk, if_false] at ih ⊢
      cases hq : q e.1 <;> simp only [List.filter_cons, hq, Bool.false_eq_true, if_false, if_true,
        List.map_cons, List.sum_cons, ih]
      omega

lemma countWhere_storesByTenant (q : Uuid → Bool) (stores : List CmStore) :
    countWhere q (storesByTenant stores).entries =
      (stores.filter fun s => q s.tenantId).length := by
  induction stores using List.reverseRecOn with
  | nil => rfl
  | append_singleton stores store ih =>
    have hput := countWhere_put q store store.tenantId (storesByTenant stores).entries
    rw [ih] at hput
    rw [storesByTenant_snoc, List.filter_append, List.length_append]
    refine hput.trans ?_
    cases hq : q store.tenantId <;> simp [hq]

lemma sum_length_storesOf {tenants : List CmTenant} (stores : List CmStore)
    (hids : (tenants.map CmTenant.tenantId).Nodup) :
    (tenants.map fun t => (storesOf stores t).length).sum +
      (stores.filter fun s => !(tenants.map CmTenant.tenantId).contains s.tenantId).length =
        stores.length := by
  induction tenants with
  | nil => simp
  | cons tenant tenants ih =>
    rw [List.map_cons, List.nodup_cons] at hids
    have hsplit : (stores.filter fun s =>
          !(tenants.map CmTenant.tenantId).contains s.tenantId).length =
        (storesOf stores tenant).length + (stores.filter fun s =>
          !((tenant :: tenants).map CmTenant.tenantId).contains s.tenantId).length := by
      rw [List.length_eq_length_filter_add fun s => decide (s.tenantId = tenant.tenantId),
        List.filter_filter, List.filter_filter]
      congr 2
      · refine List.filter_congr fun s _ => ?_
        by_cases h : s.tenantId = tenant.tenantId
        · have hnot : (tenants.map CmTenant.tenantId).contains tenant.tenantId = false := by
            rw [List.contains_eq_mem, decide_eq_false hids.1]
          simp only [h, hnot, decide_true, Bool.not_false, Bool.and_self]
        · simp only [h, decide_false, Bool.false_and]
      · refine List.filter_congr fun s _ => ?_
        rw [List.map_cons, List.contains_cons, Bool.not_or]
        rfl
    have hrest := ih hids.2
    rw [List.map_cons, List.sum_cons]
    omega

lemma seen_totals (result : SyncResult) :
    result.totals.2.seen = (result.perTenant.map fun c => c.stores.seen).sum := by
  have hfold : ∀ (l : List TenantSyncCounts) (t : UpsertCounts × UpsertCounts),
      (l.foldl (fun t c => (t.1.add c.tenants, t.2.add c.stores)) t).2.seen =
        t.2.seen + (l.map fun c => c.stores.seen).sum := by
    intro l
    induction l with
    | nil => exact fun t => rfl
    | cons c l ih =>
      intro t
      rw [List.foldl_cons, ih, List.map_cons, List.sum_cons]
      simp only [UpsertCounts.add, UpsertCounts.seen]
      omega
  rw [SyncResult.totals, hfold]
  simp [UpsertCounts.zero, UpsertCounts.seen]

/-! ### A second run -/

/-- The counts of a tenant whose rows are as the snapshot has them. -/
def quiet (stores : List CmStore) (tenant : CmTenant) : TenantSyncCounts :=
  ⟨tenant.tenantId, ⟨0, 0, 1⟩, ⟨0, 0, (storesOf stores tenant).length⟩⟩

lemma call_cases {α : Type} (s : Session) (n : ℕ) (result : Except SyncError α) :
    s.call n result = result ∨ s.raises n ∧ s.call n result = .error .operational := by
  unfold Session.call
  cases s.raises n
  · exact .inl rfl
  · exact .inr ⟨rfl, rfl⟩

lemma applyStores_of_has (s : Session) (n : ℕ) {stores : List CmStore} {m : Mirror}
    (hfits : ∀ store ∈ stores, store.Fits) (hhas : ∀ store ∈ stores, HasStore m store)
    (c : UpsertCounts) :
    applyStores s n stores m c = .ok (m, { c with unchanged := c.unchanged + stores.length }) ∨
      (∃ k, s.raises k) ∧ applyStores s n stores m c = .error .operational := by
  induction stores generalizing n c with
  | nil => exact .inl rfl
  | cons store stores ih =>
    have happly := applyStore_of_has (hfits store List.mem_cons_self)
      (hhas store List.mem_cons_self) s.now
    rw [applyStores, happly]
    rcases call_cases s n (.ok (m, Outcome.unchanged)) with hcall | ⟨hraises, hcall⟩
    · rw [hcall, ok_bind]
      have hrest := ih (n + 1) (fun store' hmem => hfits store' (List.mem_cons_of_mem _ hmem))
        (fun store' hmem => hhas store' (List.mem_cons_of_mem _ hmem)) (c.record .unchanged)
      have hlength : c.unchanged + (stores.length + 1) = c.unchanged + 1 + stores.length := by
        omega
      rw [List.length_cons, hlength]
      exact hrest
    · rw [hcall, error_bind]
      exact .inr ⟨⟨n, hraises⟩, rfl⟩

lemma syncTenant_of_has (s : Session) {tenant : CmTenant} {stores : List CmStore} {m : Mirror}
    (hname : tenant.name.length ≤ 200) (hfits : ∀ store ∈ stores, store.Fits)
    (htenant : HasTenant m tenant) (hhas : ∀ store ∈ storesOf stores tenant, HasStore m store) :
    syncTenant s tenant (storesOf stores tenant) m = .ok (m, quiet stores tenant) ∨
      (∃ k, s.raises k) ∧
        syncTenant s tenant (storesOf stores tenant) m = .error .operational := by
  rw [syncTenant, applyTenant_of_has hname htenant]
  rcases call_cases s 0 (.ok (m, Outcome.unchanged)) with hcall | ⟨hraises, hcall⟩
  · rw [hcall, ok_bind]
    dsimp only
    have hsub : ∀ store ∈ storesOf stores tenant, store.Fits := fun store hmem =>
      hfits store (List.mem_of_mem_filter hmem)
    rcases applyStores_of_has s 1 hsub hhas .zero with hstores | ⟨hraises, hstores⟩
    · rw [hstores, ok_bind]
      dsimp only
      rcases call_cases s ((storesOf stores tenant).length + 1) (.ok (m, quiet stores tenant))
        with hcommit | ⟨hraises, hcommit⟩
      · refine .inl (Eq.trans ?_ hcommit)
        simp [quiet, UpsertCounts.zero, UpsertCounts.record]
      · refine .inr ⟨⟨_, hraises⟩, Eq.trans ?_ hcommit⟩
        simp [quiet, UpsertCounts.zero, UpsertCounts.record]
    · rw [hstores, error_bind]
      exact .inr ⟨hraises, rfl⟩
  · rw [hcall, error_bind]
    exact .inr ⟨⟨0, hraises⟩, rfl⟩

lemma syncTenants_of_has (sessions : ℕ → Session) {stores : List CmStore}
    (hfits : ∀ store ∈ stores, store.Fits) (i : ℕ) {tenants : List CmTenant}
    (hnames : ∀ t ∈ tenants, t.name.length ≤ 200) {m : Mirror}
    (htenants : ∀ t ∈ tenants, HasTenant m t)
    (hstores : ∀ s ∈ stores, (∃ t ∈ tenants, t.tenantId = s.tenantId) → HasStore m s) :
    syncTenants sessions (storesByTenant stores) i tenants m =
        (m, .ok (tenants.map (quiet stores))) ∨
      (∃ j k, (sessions j).raises k) ∧
        syncTenants sessions (storesByTenant stores) i tenants m = (m, .error .operational) := by
  induction tenants generalizing i with
  | nil => exact .inl rfl
  | cons tenant tenants ih =>
    have hown : ∀ store ∈ storesOf stores tenant, HasStore m store := by
      intro store hmem
      obtain ⟨hstore, htenant⟩ := List.mem_filter.mp hmem
      exact hstores store hstore ⟨tenant, List.mem_cons_self, (of_decide_eq_true htenant).symm⟩
    rw [syncTenants, get?_storesByTenant]
    rcases syncTenant_of_has (sessions i) (hnames tenant List.mem_cons_self) hfits
      (htenants tenant List.mem_cons_self) hown with hsync | ⟨⟨k, hraises⟩, hsync⟩
    · rw [hsync]
      dsimp only
      have hrest := ih (i + 1) (fun t ht => hnames t (List.mem_cons_of_mem _ ht))
        (fun t ht => htenants t (List.mem_cons_of_mem _ ht))
        (fun s hs ⟨t, ht, hknown⟩ => hstores s hs ⟨t, List.mem_cons_of_mem _ ht, hknown⟩)
      rcases hrest with hrest | ⟨hraises, hrest⟩
      · rw [hrest]
        exact .inl rfl
      · rw [hrest]
        exact .inr ⟨hraises, rfl⟩
    · rw [hsync]
      exact .inr ⟨⟨i, k, hraises⟩, rfl⟩

/-! ### Runs without a failing call -/

/-- The stores that a run of the tenants writes. -/
def written (tenants : List CmTenant) (stores : List CmStore) : List CmStore :=
  stores.filter fun s => (tenants.map CmTenant.tenantId).contains s.tenantId

/-- No store is in the mirror under another tenant. -/
def Placed (stores : List CmStore) (m : Mirror) : Prop :=
  ∀ s ∈ stores, ∀ r ∈ m.stores.rows, r.storeId = s.storeId → r.tenantId = s.tenantId

/-- The words of a store are those of the vocabularies. -/
def CmStore.Worded (store : CmStore) : Prop :=
  storeStatuses.contains store.status = true ∧ taxTreatments.contains store.taxTreatment = true

/-- The rows of the snapshot meet the constraints of the mirror. -/
structure Meets (x : Snapshot) (m : Mirror) : Prop where
  tenantWords : ∀ t ∈ x.tenants, tenantStatuses.contains t.status = true
  storeWords : ∀ s ∈ written x.tenants x.stores, s.Worded
  placed : Placed (written x.tenants x.stores) m

lemma valid_iff {tenants : Table TenantRow.tenantId} {stores : Table StoreRow.key} :
    MirrorSync.valid tenants stores = true ↔
      (∀ t ∈ tenants.rows, tenantStatuses.contains t.status = true) ∧
      (∀ s ∈ stores.rows, s.mirrored.Worded ∧ ∃ t ∈ tenants.rows, t.tenantId = s.tenantId) ∧
      ∀ r ∈ stores.rows, ∀ s ∈ stores.rows, r.storeId = s.storeId → r = s := by
  have hnodup : stores.rows.Nodup := stores.nodup.of_map
  simp only [MirrorSync.valid, Bool.and_eq_true, List.all_eq_true, List.any_eq_true,
    decide_eq_true_eq, List.nodup_map_iff_inj_on hnodup, CmStore.Worded, StoreRow.mirrored]
  tauto

lemma applyTenant_isOk {tenant : CmTenant} (hname : tenant.name.length ≤ 200)
    (hword : tenantStatuses.contains tenant.status = true) (now : Timestamp) (m : Mirror) :
    ∃ ended, applyTenant now tenant m = .ok ended := by
  obtain ⟨new, hnew, hdata⟩ := exists_tenantValues hname now
  obtain ⟨hwords, hstores, hids⟩ := valid_iff.mp m.valid
  have hvalid : MirrorSync.valid (tenantUpsert.exec new m.tenants).1 m.stores = true := by
    refine valid_iff.mpr ⟨fun t ht => ?_, fun s hs => ?_, hids⟩
    · rcases tenantUpsert_copies.mem_exec ht with ht | ⟨-, ht⟩
      · exact hwords t ht
      · have hstatus : t.status = tenant.status := congrArg CmTenant.status (ht.trans hdata)
        rwa [hstatus]
    · -- its tenant is still there
      obtain ⟨hworded, t, ht, htenant⟩ := hstores s hs
      refine ⟨hworded, ?_⟩
      by_cases hkey : new.tenantId = t.tenantId
      · obtain ⟨t', ht', -⟩ := tenantUpsert_copies.find?_exec new m.tenants
        exact ⟨t', Table.mem_of_find? ht', (Table.key_of_find? ht').trans (hkey.trans htenant)⟩
      · have hkept := (find?_exec_of_ne (S := tenantUpsert) hkey).trans (Table.find?_of_mem ht)
        exact ⟨t, Table.mem_of_find? hkept, htenant⟩
  simp only [applyTenant, hnew, hvalid, dite_true]
  exact ⟨_, rfl⟩

lemma applyStore_isOk {store : CmStore} {m : Mirror} (hfits : store.Fits) (hword : store.Worded)
    (htenant : ∃ t ∈ m.tenants.rows, t.tenantId = store.tenantId) (hplaced : Placed [store] m)
    (now : Timestamp) : ∃ m' outcome, applyStore now store m = .ok (m', outcome) ∧
      ∀ r ∈ m'.stores.rows, r ∈ m.stores.rows ∨ r.mirrored = store := by
  obtain ⟨new, hnew, hdata⟩ := exists_storeValues hfits now
  obtain ⟨hwords, hstores, hids⟩ := valid_iff.mp m.valid
  have hmem : ∀ r ∈ (storeUpsert.exec new m.stores).1.rows,
      r ∈ m.stores.rows ∨ r.mirrored = store := fun r hr =>
    (storeUpsert_copies.mem_exec hr).imp_right fun h => h.2.trans hdata
  -- an id belongs to one tenant, by the rows that stood there and by the snapshot
  have hkey : ∀ r ∈ (storeUpsert.exec new m.stores).1.rows, r.storeId = store.storeId →
      r.key = store.key := by
    intro r hr hid
    rcases hmem r hr with hold | rfl
    · exact Prod.ext (hplaced store List.mem_cons_self r hold hid) hid
    · rfl
  have hvalid : MirrorSync.valid m.tenants (storeUpsert.exec new m.stores).1 = true := by
    refine valid_iff.mpr ⟨hwords, fun r hr => ?_, fun r hr s hs hid => ?_⟩
    · rcases hmem r hr with hold | rfl
      · exact hstores r hold
      · exact ⟨hword, htenant⟩
    · refine List.inj_on_of_nodup_map (storeUpsert.exec new m.stores).1.nodup hr hs ?_
      rcases hmem r hr with hr' | hr'
      · rcases hmem s hs with hs' | hs'
        · rw [hids r hr' s hs' hid]
        · have hstore : s.storeId = store.storeId := congrArg CmStore.storeId hs'
          rw [hkey r hr (hid.trans hstore), hkey s hs hstore]
      · have hstore : r.storeId = store.storeId := congrArg CmStore.storeId hr'
        rw [hkey r hr hstore, hkey s hs (hid.symm.trans hstore)]
  simp only [applyStore, hnew, hvalid, dite_true]
  exact ⟨_, _, rfl, hmem⟩

lemma call_of_quiet {α : Type} {s : Session} (h : ∀ n, s.raises n = false) (n : ℕ)
    (result : Except SyncError α) : s.call n result = result := by
  rw [Session.call, h n]
  rfl

lemma applyStores_isOk {s : Session} (hquiet : ∀ n, s.raises n = false)
    {all : List CmStore} (hids : (all.map CmStore.storeId).Nodup) {stores : List CmStore}
    (hsub : stores ⊆ all) (hfits : ∀ store ∈ stores, store.Fits)
    (hwords : ∀ store ∈ stores, store.Worded) (n : ℕ) {m : Mirror}
    (htenants : ∀ store ∈ stores, ∃ t ∈ m.tenants.rows, t.tenantId = store.tenantId)
    (hplaced : Placed all m) (c : UpsertCounts) :
    ∃ m' c', applyStores s n stores m c = .ok (m', c') ∧ Placed all m' := by
  induction stores generalizing n m c with
  | nil => exact ⟨m, c, rfl, hplaced⟩
  | cons store stores ih =>
    have hstore := hsub List.mem_cons_self
    have hfit := hfits store List.mem_cons_self
    obtain ⟨m₁, outcome, happly, hmem⟩ := applyStore_isOk hfit (hwords store List.mem_cons_self)
      (htenants store List.mem_cons_self)
      (fun s' hs' r hr hid => List.mem_singleton.mp hs' ▸ hplaced store hstore r hr
        (List.mem_singleton.mp hs' ▸ hid)) s.now
    have hplaced₁ : Placed all m₁ := by
      intro s' hs' r hr hid
      rcases hmem r hr with hold | hnew
      · exact hplaced s' hs' r hold hid
      · have hid' : store.storeId = s'.storeId := (congrArg CmStore.storeId hnew).symm.trans hid
        rw [← List.inj_on_of_nodup_map hids hstore hs' hid']
        exact congrArg CmStore.tenantId hnew
    have hsame : m₁.tenants = m.tenants := (applyStore_ok hfit happly).2.1
    obtain ⟨m', c', hrest, hplaced'⟩ := ih (fun s' h => hsub (List.mem_cons_of_mem _ h))
      (fun s' h => hfits s' (List.mem_cons_of_mem _ h))
      (fun s' h => hwords s' (List.mem_cons_of_mem _ h)) (n + 1)
      (fun s' h => hsame ▸ htenants s' (List.mem_cons_of_mem _ h)) hplaced₁ (c.record outcome)
    refine ⟨m', c', ?_, hplaced'⟩
    rw [applyStores, call_of_quiet hquiet, happly, ok_bind]
    exact hrest

lemma syncTenant_isOk {s : Session} (hquiet : ∀ n, s.raises n = false) {tenant : CmTenant}
    {stores all : List CmStore} (hname : tenant.name.length ≤ 200)
    (hword : tenantStatuses.contains tenant.status = true)
    (hids : (all.map CmStore.storeId).Nodup) (hfits : ∀ store ∈ stores, store.Fits)
    (hsub : storesOf stores tenant ⊆ all) (hwords : ∀ store ∈ all, store.Worded) {m : Mirror}
    (hplaced : Placed all m) :
    ∃ m' counts, syncTenant s tenant (storesOf stores tenant) m = .ok (m', counts) ∧
      Placed all m' := by
  obtain ⟨⟨m₁, outcome⟩, htenant⟩ := applyTenant_isOk hname hword s.now m
  obtain ⟨⟨r, hr, -⟩, hstores, -⟩ := applyTenant_ok hname htenant
  have htenants : ∀ store ∈ storesOf stores tenant,
      ∃ t ∈ m₁.tenants.rows, t.tenantId = store.tenantId := by
    intro store hstore
    have hown : store.tenantId = tenant.tenantId := of_decide_eq_true (List.mem_filter.mp hstore).2
    exact ⟨r, Table.mem_of_find? hr, (Table.key_of_find? hr).trans hown.symm⟩
  have hplaced₁ : Placed all m₁ := fun s' hs' r' hr' => hplaced s' hs' r' (hstores ▸ hr')
  obtain ⟨m₂, counts, happly, hplaced₂⟩ := applyStores_isOk hquiet hids hsub
    (fun store hmem => hfits store (List.mem_of_mem_filter hmem))
    (fun store hmem => hwords store (hsub hmem)) 1 htenants hplaced₁ .zero
  refine ⟨m₂, ⟨tenant.tenantId, UpsertCounts.zero.record outcome, counts⟩, ?_, hplaced₂⟩
  rw [syncTenant, call_of_quiet hquiet, htenant, ok_bind]
  dsimp only
  rw [happly, ok_bind]
  exact call_of_quiet hquiet _ _

lemma syncTenants_isOk {sessions : ℕ → Session} (hquiet : ∀ i n, (sessions i).raises n = false)
    {stores all : List CmStore} (hids : (all.map CmStore.storeId).Nodup)
    (hfits : ∀ store ∈ stores, store.Fits) (hwords : ∀ store ∈ all, store.Worded) (i : ℕ)
    {tenants : List CmTenant} (hnames : ∀ t ∈ tenants, t.name.length ≤ 200)
    (htenants : ∀ t ∈ tenants, tenantStatuses.contains t.status = true)
    (hsub : ∀ t ∈ tenants, storesOf stores t ⊆ all) {m : Mirror} (hplaced : Placed all m) :
    ∃ perTenant, (syncTenants sessions (storesByTenant stores) i tenants m).2 = .ok perTenant := by
  induction tenants generalizing i m with
  | nil => exact ⟨[], rfl⟩
  | cons tenant tenants ih =>
    obtain ⟨m₁, counts, hsync, hplaced₁⟩ := syncTenant_isOk (hquiet i)
      (hnames tenant List.mem_cons_self) (htenants tenant List.mem_cons_self) hids hfits
      (hsub tenant List.mem_cons_self) hwords hplaced
    obtain ⟨perTenant, hrest⟩ := ih (i + 1) (fun t h => hnames t (List.mem_cons_of_mem _ h))
      (fun t h => htenants t (List.mem_cons_of_mem _ h))
      (fun t h => hsub t (List.mem_cons_of_mem _ h)) hplaced₁
    refine ⟨counts :: perTenant, ?_⟩
    rw [syncTenants, get?_storesByTenant, hsync]
    dsimp only
    rw [hrest]
    rfl

/-! ### Convergence -/

/-- What holds after a run that completes with the result. -/
structure Completed (x : Snapshot) (m m' : Mirror) (result : SyncResult) : Prop where
  applied : Applied x.tenants x.stores m m'
  counted : result.totals.2.inserted + result.totals.2.updated + result.totals.2.unchanged +
    result.skippedStores = x.stores.length
  /-- A second run changes nothing, and every outcome is unchanged unless a call raises. -/
  again : ∀ sessions,
    upsertIdentity sessions x.tenants x.stores m' =
        (m', .ok ⟨x.tenants.map (quiet x.stores), result.skippedStores⟩) ∨
      (∃ i n, (sessions i).raises n) ∧
        upsertIdentity sessions x.tenants x.stores m' = (m', .error .operational)

/-- What holds after a run that raises: it fails inside some tenant. The tenants before it are
applied, its own rows are as before. -/
def Aborted (x : Snapshot) (m m' : Mirror) : Prop :=
  ∃ done tenant rest, x.tenants = done ++ tenant :: rest ∧ Applied done x.stores m m' ∧
    m'.tenants.find? tenant.tenantId = m.tenants.find? tenant.tenantId ∧
    ∀ storeId, m'.stores.find? (tenant.tenantId, storeId) =
      m.stores.find? (tenant.tenantId, storeId)

lemma Snapshot.fits (x : Snapshot) : ∀ store ∈ x.stores, store.Fits := fun store hmem =>
  ⟨x.storeNames store hmem, x.currencies store hmem⟩

lemma Snapshot.storeKeys (x : Snapshot) : (x.stores.map CmStore.key).Nodup := by
  refine List.Nodup.of_map Prod.snd ?_
  rw [List.map_map]
  exact x.storeIds

lemma upsertIdentity_isOk {x : Snapshot} {sessions : ℕ → Session} {m : Mirror}
    (hquiet : ∀ i n, (sessions i).raises n = false) (hmeets : Meets x m) :
    ∃ perTenant, (syncTenants sessions (storesByTenant x.stores) 0 x.tenants m).2 =
      .ok perTenant := by
  have hids : ((written x.tenants x.stores).map CmStore.storeId).Nodup :=
    x.storeIds.sublist (List.filter_sublist.map _)
  refine syncTenants_isOk hquiet hids x.fits hmeets.storeWords 0 x.tenantNames hmeets.tenantWords
    (fun t ht s hs => ?_) hmeets.placed
  obtain ⟨hs, hown⟩ := List.mem_filter.mp hs
  refine List.mem_filter.mpr ⟨hs, ?_⟩
  rw [List.contains_iff_mem, of_decide_eq_true hown]
  exact List.mem_map_of_mem ht

/-- A run of the sync over any mirror: it completes and the mirror has the snapshot, or it
stops at a tenant and leaves that tenant's rows as they were. It stops only where a call raises
or a row of the snapshot violates a constraint of the mirror. -/
theorem sync_converges (x : Snapshot) (sessions : ℕ → Session) (m : Mirror) :
    match upsertIdentity sessions x.tenants x.stores m with
    | (m', .ok result) => Completed x m m' result
    | (m', .error _) => Aborted x m m' ∧ ((∃ i n, (sessions i).raises n) ∨ ¬ Meets x m) := by
  obtain ⟨done, rest, hsplit, happlied, hresult⟩ := syncTenants_applied sessions x.fits
    x.storeKeys 0 x.tenantNames x.tenantIds m
  rw [upsertIdentity]
  cases hloop : (syncTenants sessions (storesByTenant x.stores) 0 x.tenants m).2 with
  | ok perTenant =>
    rw [hloop] at hresult
    obtain ⟨rfl, hseen⟩ := hresult
    rw [List.append_nil] at hsplit
    rw [← hsplit] at happlied
    refine ⟨happlied, ?_, fun sessions' => ?_⟩
    · have htotal := seen_totals ⟨perTenant, skipped x.tenants (storesByTenant x.stores)⟩
      rw [hseen, UpsertCounts.seen] at htotal
      have hskipped := countWhere_storesByTenant
        (fun k => !(x.tenants.map CmTenant.tenantId).contains k) x.stores
      have hparts := sum_length_storesOf x.stores x.tenantIds
      rw [← hskipped, ← htotal] at hparts
      exact hparts
    · rcases syncTenants_of_has sessions' x.fits 0 x.tenantNames happlied.tenant happlied.store
        with hagain | ⟨hraises, hagain⟩
      · refine .inl ?_
        rw [upsertIdentity, hagain]
        rfl
      · refine .inr ⟨hraises, ?_⟩
        rw [upsertIdentity, hagain]
        rfl
  | error e =>
    rw [hloop] at hresult
    obtain ⟨tenant, rest, rfl⟩ := List.exists_cons_of_ne_nil hresult
    have hids := x.tenantIds
    rw [hsplit, List.map_append, List.map_cons] at hids
    -- ids are distinct, so the tenant it stopped at is none of those before
    have hother : ∀ t ∈ done, t.tenantId ≠ tenant.tenantId := fun t ht heq =>
      (List.nodup_append.mp hids).2.2 t.tenantId (List.mem_map_of_mem ht) tenant.tenantId
        List.mem_cons_self heq
    refine ⟨⟨done, tenant, rest, hsplit, happlied, happlied.otherTenants _ hother,
      fun storeId => ?_⟩, ?_⟩
    · refine happlied.otherStores _ ?_
      rintro s hs ⟨t, ht, hknown⟩ hkey
      exact hother t ht (hknown.trans (Prod.mk.inj hkey).1)
    · -- with quiet sessions and rows that fit, the loop would not have stopped
      by_contra hfair
      rw [not_or, not_not] at hfair
      have hquiet : ∀ i n, (sessions i).raises n = false := fun i n =>
        Bool.eq_false_iff.mpr fun h => hfair.1 ⟨i, n, h⟩
      obtain ⟨perTenant, hok⟩ := upsertIdentity_isOk hquiet hfair.2
      rw [hloop] at hok
      cases hok

/-- A tenant, by its number. -/
def cmTenant (n : ℕ) (name : String) : CmTenant :=
  ⟨.ofNat n, name, none, "ACTIVE", 10, 20, none, none⟩

def cmStore (n tenant : ℕ) : CmStore :=
  ⟨.ofNat n, .ofNat tenant, "Store", none, "OPENING", "DE", "Europe/Berlin", "EUR", "INCLUSIVE", 10,
    20, none⟩

/-- A tenant under a new name, a store of it, and a store of a tenant that was not read. -/
def sampleSnapshot : Snapshot where
  tenants := [cmTenant 1 "New"]
  stores := [cmStore 7 1, cmStore 8 2]
  tenantIds := by decide
  storeIds := by decide
  tenantNames := by decide
  storeNames := by decide
  currencies := by decide

/-- The tenant under its old name. -/
def sampleMirror : Mirror where
  tenants := ⟨[⟨.ofNat 1, ⟨"Old", by decide⟩, none, "ACTIVE", 10, 20, none, none, 30⟩], by simp⟩
  stores := ⟨[], by simp⟩
  valid := by decide

/-- The tenant is updated, its store inserted, and the other store skipped. -/
theorem sync_converges_sample :
    ∃ m', upsertIdentity (fun _ => ⟨40, fun _ => false⟩) sampleSnapshot.tenants
        sampleSnapshot.stores sampleMirror =
        (m', .ok ⟨[⟨.ofNat 1, ⟨0, 1, 0⟩, ⟨1, 0, 0⟩⟩], 1⟩) ∧
      Completed sampleSnapshot sampleMirror m' ⟨[⟨.ofNat 1, ⟨0, 1, 0⟩, ⟨1, 0, 0⟩⟩], 1⟩ := by
  have hconverges := sync_converges sampleSnapshot (fun _ => ⟨40, fun _ => false⟩) sampleMirror
  have hresult : (upsertIdentity (fun _ => ⟨40, fun _ => false⟩) sampleSnapshot.tenants
      sampleSnapshot.stores sampleMirror).2 = .ok ⟨[⟨.ofNat 1, ⟨0, 1, 0⟩, ⟨1, 0, 0⟩⟩], 1⟩ := by
    rfl
  cases hrun : upsertIdentity (fun _ => ⟨40, fun _ => false⟩) sampleSnapshot.tenants
      sampleSnapshot.stores sampleMirror with
  | mk m' result =>
    rw [hrun] at hresult hconverges
    subst hresult
    exact ⟨m', rfl, hconverges⟩

end CortexDis.MirrorSync
