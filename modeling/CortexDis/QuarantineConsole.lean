import CortexDis.Quarantine
import CortexDis.RequestScope

/-!
The quarantine console: the list of held items, and one of them in full.

Rows and chunks are held in two tables of one shape here. A read opens the session of its scope,
so that the policy of the tables and the predicate of the statement both restrict it. The stage
and the status of an item are shown in words of the wire, and the filters are given in them.
-/

namespace CortexDis.QuarantineConsole

open CortexDis.Values CortexDis.Errors CortexDis.Quarantine CortexDis.TemplateScope
open CortexDis.RowSecurity CortexDis.RlsSessions CortexDis.RequestScope

/-! ### Held items -/

inductive Kind
  | row | chunk
  deriving DecidableEq

def Kind.text : Kind → String
  | .row => "row"
  | .chunk => "chunk"

/-- `status` -/
inductive Status
  | new | resolved | dismissed
  deriving DecidableEq

/-- `failure_context`, as the writer stores it. -/
inductive Context
  | chunk (context : ChunkContext)
  | rows (failures : List RowFailure)

/-- A row of either table. -/
structure HeldItem extends RecordBase where
  id : Uuid
  status : Status
  failureContext : Option Context
  mappingVersionId : Option ℕ

/-- The two tables, by their primary keys. -/
structure Tables where
  rows : List HeldItem
  chunks : List HeldItem
  rows_nodup : (rows.map HeldItem.id).Nodup
  chunks_nodup : (chunks.map HeldItem.id).Nodup

def Tables.table (db : Tables) : Kind → List HeldItem
  | .row => db.rows
  | .chunk => db.chunks

abbrev Tagged := Kind × HeldItem

/-- The items of both tables. -/
def Tables.items (db : Tables) : List Tagged :=
  db.rows.map (Kind.row, ·) ++ db.chunks.map (Kind.chunk, ·)

/-! ### Words of the wire -/

inductive StageWire
  | sourceShape | canonicalShape | fk | normalization | other
  deriving DecidableEq

def StageWire.text : StageWire → String
  | .sourceShape => "source-shape"
  | .canonicalShape => "canonical-shape"
  | .fk => "fk"
  | .normalization => "normalization"
  | .other => "other"

inductive StatusWire
  | opened | resolved
  deriving DecidableEq

/-- `_STAGE_DB_TO_WIRE` -/
def stageDbToWire : List (QuarantineFailureStage × StageWire) :=
  [(.preMappingValidation, .sourceShape), (.postMappingValidation, .canonicalShape),
    (.identityValidation, .fk), (.mappingExecution, .normalization), (.canonicalWrite, .other),
    (.other, .other), (.preIngestPii, .other), (.bronzeWrite, .other), (.mappingLookup, .other)]

/-- `_STATUS_DB_TO_WIRE` -/
def statusDbToWire : List (Status × StatusWire) :=
  [(.new, .opened), (.resolved, .resolved), (.dismissed, .resolved)]

/-- `stage_to_wire`; none is a `KeyError`. -/
def stageToWire (stage : QuarantineFailureStage) : Option StageWire :=
  PyDict.lookup stage stageDbToWire

/-- `stage_db_values_for` -/
def stageDbValuesFor (errorType : StageWire) : List QuarantineFailureStage :=
  (stageDbToWire.filter fun e => e.2 = errorType).map Prod.fst

/-- `status_to_wire`; none is a `KeyError`. -/
def statusToWire (status : Status) : Option StatusWire := PyDict.lookup status statusDbToWire

/-- `status_db_values_for` -/
def statusDbValuesFor (status : StatusWire) : List Status :=
  (statusDbToWire.filter fun e => e.2 = status).map Prod.fst

/-! ### Reads -/

inductive ConsoleError
  | tenantScope
  | database (e : Failure CastError)
  | notFound (identifier : String)
  /-- a stage or a status without a word of the wire -/
  | keyError
  deriving DecidableEq

def lift {ε α : Type} (f : ε → ConsoleError) : Except ε α → Except ConsoleError α
  | .ok a => .ok a
  | .error e => .error (f e)

/-- The filters of the list, in words of the tables. -/
structure Filters where
  source : Option String
  stages : Option (List QuarantineFailureStage)
  statuses : Option (List Status)
  cutoff : Option Timestamp

section Reads

variable (T : UuidType) (scope : ReadScope)

/-- `_tenant_term` -/
def tenantTerm : Except ConsoleError (HeldItem → Bool) :=
  if scope.isPlatform then .ok fun _ => true
  else
    match scope.tenantId with
    | none => .error .tenantScope
    | some t => .ok fun r => r.tenantId = t

/-- `_list_filters` -/
def listFilters (f : Filters) : Except ConsoleError (HeldItem → Bool) := do
  let term ← tenantTerm scope
  return fun r => term r && f.source.all (fun s => r.sourceId = s) &&
    f.stages.all (fun stages => stages.contains r.failureStage) &&
    f.statuses.all (fun statuses => statuses.contains r.status) &&
    f.cutoff.all (fun cutoff => cutoff ≤ r.quarantinedAt)

/-- A `SELECT` of a table in a session. -/
def select (mode : Mode) (table : List HeldItem) (pick : HeldItem → Bool) :
    Except ConsoleError (List HeldItem) :=
  match exec (tenantIsolation T fun r => some r.tenantId) mode.settings table (.select pick) with
  | .ok o => .ok o.returned
  | .error e => .error (.database e)

/-- Newest first, and the later id first among items of one instant. -/
def newestFirst (a b : Tagged) : Prop :=
  b.2.quarantinedAt < a.2.quarantinedAt ∨
    b.2.quarantinedAt = a.2.quarantinedAt ∧ b.2.id.bits.toNat ≤ a.2.id.bits.toNat

instance : DecidableRel newestFirst := fun _ _ => inferInstanceAs (Decidable (_ ∨ _))

/-- `read_session` -/
def openRead : Except ConsoleError Mode := lift (fun _ => .tenantScope) (readMode scope)

/-- `list_held_items` -/
def listHeldItems (db : Tables) (f : Filters) : Except ConsoleError (List Tagged) := do
  let pick ← listFilters scope f
  let mode ← openRead scope
  let rows ← select T mode db.rows pick
  let chunks ← select T mode db.chunks pick
  return (rows.map (Kind.row, ·) ++ chunks.map (Kind.chunk, ·)).insertionSort newestFirst

/-- `count_open` -/
def countOpen (db : Tables) : Except ConsoleError ℕ := do
  let term ← tenantTerm scope
  let mode ← openRead scope
  let rows ← select T mode db.rows fun r => term r && r.status = .new
  let chunks ← select T mode db.chunks fun r => term r && r.status = .new
  return rows.length + chunks.length

/-- The handle of an item, `kind:uuid` -/
def handleOf (kind : Kind) (id : Uuid) : String := kind.text ++ ":" ++ id.str

/-- `get_held_item` -/
def getHeldItem (db : Tables) (kind : Kind) (id : Uuid) : Except ConsoleError Tagged := do
  let term ← tenantTerm scope
  let mode ← openRead scope
  match ← select T mode (db.table kind) fun r => r.id = id && term r with
  | [] => .error (.notFound (handleOf kind id))
  | r :: _ => .ok (kind, r)

end Reads

/-! ### Handlers -/

/-- `_parse_item_id`; `decimalDigit` is the value of a decimal digit of Unicode. -/
def parseItemId (decimalDigit : Char → Option ℕ) (itemId : String) :
    Except ConsoleError (Kind × Uuid) :=
  let kindRaw := itemId.toList.takeWhile (· ≠ ':')
  match itemId.toList.dropWhile (· ≠ ':') with
  | [] => .error (.notFound itemId)
  | _ :: raw =>
    let kind? : Option Kind :=
      if kindRaw = Kind.row.text.toList then some .row
      else if kindRaw = Kind.chunk.text.toList then some .chunk
      else none
    match kind?, UuidText.uuidOfText decimalDigit raw with
    | some kind, some id => .ok (kind, id)
    | _, _ => .error (.notFound itemId)

structure ListRow where
  id : String
  kind : Kind
  traceId : String
  sourceId : String
  source : String
  errorReason : FailureCode
  failureStage : StageWire
  failedAt : String
  status : StatusWire
  deriving DecidableEq

structure ListResponse where
  items : List ListRow
  openCount : ℕ
  deriving DecidableEq

structure Detail where
  id : String
  kind : Kind
  traceId : String
  source : String
  failedAt : String
  mappingVersion : Option ℕ
  errorReason : FailureCode
  failureStage : StageWire
  errorContext : String
  chainDepth : ℕ
  deriving DecidableEq

inductive WindowWire
  | hours24 | days7 | days30
  deriving DecidableEq

/-- `_WINDOW_DELTA`, in microseconds -/
def WindowWire.delta : WindowWire → ℤ
  | .hours24 => 24 * 3600000000
  | .days7 => 7 * 24 * 3600000000
  | .days30 => 30 * 24 * 3600000000

/-- The query of a list request. -/
structure ListQuery where
  source : Option String
  errorType : Option StageWire
  status : Option StatusWire
  window : Option WindowWire

/-- One failure of the context: its parts that have a text. -/
def failureSegment (column : Option String) (check reason : String) : String :=
  ", ".intercalate ((column.toList ++ [check, reason]).filter fun s => s ≠ "")

/-- The segments of the failures, behind the stage. -/
def composeFailures (stage : StageWire) (segments : List String) : String :=
  match segments.filter fun s => s ≠ "" with
  | [] => stage.text
  | parts => stage.text ++ ": " ++ "; ".intercalate parts

/-- `_compose_context` -/
def composeContext (stage : StageWire) : Option Context → String
  | none => stage.text
  | some (.chunk context) =>
    if context.failureMessage ≠ "" then stage.text ++ ": " ++ context.failureMessage
    else composeFailures stage ((context.failures.getD []).map fun f =>
      failureSegment f.column f.check f.reason)
  | some (.rows failures) =>
    composeFailures stage (failures.map fun f => failureSegment f.column f.check f.reason)

section Handlers

variable (T : UuidType) (decimalDigit : Char → Option ℕ) (iso : Timestamp → String)

/-- A word of the wire, or a `KeyError`. -/
def wireWord {α : Type} : Option α → Except ConsoleError α
  | some a => .ok a
  | none => .error .keyError

/-- `_to_list_row` -/
def toListRow (x : Tagged) : Except ConsoleError ListRow := do
  return {
    id := handleOf x.1 x.2.id
    kind := x.1
    traceId := x.2.traceId.str
    sourceId := x.2.sourceId
    source := x.2.sourceId
    errorReason := x.2.failureReason
    failureStage := ← wireWord (stageToWire x.2.failureStage)
    failedAt := iso x.2.quarantinedAt
    status := ← wireWord (statusToWire x.2.status) }

/-- `_to_detail` -/
def toDetail (x : Tagged) : Except ConsoleError Detail := do
  let stage ← wireWord (stageToWire x.2.failureStage)
  return {
    id := handleOf x.1 x.2.id
    kind := x.1
    traceId := x.2.traceId.str
    source := x.2.sourceId
    failedAt := iso x.2.quarantinedAt
    mappingVersion := x.2.mappingVersionId
    errorReason := x.2.failureReason
    failureStage := stage
    errorContext := composeContext stage x.2.failureContext
    chainDepth := 0 }

/-- The filters of a query, in words of the tables. -/
def ListQuery.filters (now : Timestamp) (q : ListQuery) : Filters where
  source := q.source
  stages := q.errorType.map stageDbValuesFor
  statuses := q.status.map statusDbValuesFor
  cutoff := q.window.map fun w => now - w.delta

/-- `list_quarantine` -/
def listQuarantine (now : Timestamp) (scope : ReadScope) (q : ListQuery) (db : Tables) :
    Except ConsoleError ListResponse := do
  let items ← listHeldItems T scope db (q.filters now)
  let openCount ← countOpen T scope db
  return ⟨← items.mapM (toListRow iso), openCount⟩

/-- `get_quarantine_item` -/
def getQuarantineItem (scope : ReadScope) (itemId : String) (db : Tables) :
    Except ConsoleError Detail := do
  let (kind, id) ← parseItemId decimalDigit itemId
  toDetail iso (← getHeldItem T scope db kind id)

end Handlers

/-! ### What a session shows -/

/-- The item is of the tenant of the scope, or the scope is the platform's. -/
def inScope (scope : ReadScope) (r : HeldItem) : Bool :=
  scope.isPlatform || decide (scope.tenantId = some r.tenantId)

section Sessions

variable {T : UuidType} {scope : ReadScope} {m : Mode}

lemma visible_of_tenant (t : Uuid) (r : HeldItem) :
    (tenantIsolation T fun r : HeldItem => some r.tenantId).visible (Mode.tenant t.str).settings r =
      .ok (some (decide (r.tenantId = t))) := by
  have hne : t.str ≠ "" := by
    intro h
    have hread := T.read_str t
    rw [h, T.read_empty] at hread
    cases hread
  have hscoped : scopedTenant T (Mode.tenant t.str).settings = .ok (some t) := by
    simp only [scopedTenant, Mode.settings, Mode.tenantText, if_neg hne, T.read_str]
  have hplatform : isPlatform (Mode.tenant t.str).settings = some false := rfl
  simp only [tenantIsolation, tenantMatch, hscoped, hplatform]
  by_cases h : r.tenantId = t
  · simp [Except.map, Sql.compare, Sql.Truth.or, h]
  · have hbeq : (r.tenantId == t) = false := by simpa using h
    simp only [Except.map, Sql.compare, hbeq, h, decide_false]
    rfl

lemma select_eq (hmode : readMode scope = .ok m) (table : List HeldItem) (pick : HeldItem → Bool) :
    select T m table pick = .ok ((table.filter (inScope scope)).filter pick) := by
  have hscan : scan ((tenantIsolation T fun r : HeldItem => some r.tenantId).visible m.settings)
      table = .ok (table.filter (inScope scope)) := by
    unfold readMode at hmode
    split at hmode
    · rename_i hplatform
      cases hmode
      have hall := scan_of_forall
        (visible_of_platform T (fun r : HeldItem => some r.tenantId) .isolated) table
      rw [List.filter_eq_self.mpr fun r _ => by rw [inScope, hplatform, Bool.true_or]]
      exact hall
    · rename_i hplatform
      split at hmode
      · cases hmode
      · rename_i t htenant
        cases hmode
        rw [scan_of_known (visible_of_tenant t)]
        refine congrArg _ (List.filter_congr fun r _ => ?_)
        rw [inScope, Bool.eq_false_iff.mpr hplatform, Bool.false_or, htenant]
        simp [eq_comm]
  rw [select, exec, hscan]
  rfl

lemma tenantTerm_eq (hmode : readMode scope = .ok m) :
    ∃ term, tenantTerm scope = .ok term ∧ ∀ r, inScope scope r = true → term r = true := by
  unfold readMode at hmode
  unfold tenantTerm
  by_cases hplatform : scope.isPlatform = true
  · rw [if_pos hplatform]
    exact ⟨_, rfl, fun _ _ => rfl⟩
  · rw [if_neg hplatform] at hmode ⊢
    cases htenant : scope.tenantId with
    | none =>
      rw [htenant] at hmode
      cases hmode
    | some t =>
      refine ⟨_, rfl, fun r hr => ?_⟩
      rw [inScope, Bool.eq_false_iff.mpr hplatform, Bool.false_or, htenant] at hr
      simpa [eq_comm] using hr

lemma readMode_isOk {uuidOf : String → Option Uuid} {identity : Identity}
    (h : requireReadScope uuidOf identity = .ok scope) : ∃ m, readMode scope = .ok m := by
  unfold requireReadScope at h
  split at h
  · split at h
    · cases h
      exact ⟨_, rfl⟩
    · cases h
  · obtain ⟨t, -, h⟩ := Runs.of_bind_eq_ok h
    cases h
    exact ⟨_, rfl⟩

end Sessions

/-! ### The list -/

/-- The item passes the filters. -/
def Filters.accepts (f : Filters) (r : HeldItem) : Bool :=
  f.source.all (fun s => r.sourceId = s) &&
    f.stages.all (fun stages => stages.contains r.failureStage) &&
    f.statuses.all (fun statuses => statuses.contains r.status) &&
    f.cutoff.all (fun cutoff => cutoff ≤ r.quarantinedAt)

/-- The row of the list is what the query asks for, in the words that the row shows. -/
structure ListQuery.Matches (q : ListQuery) (now : Timestamp) (row : ListRow) (t : Timestamp) :
    Prop where
  source : ∀ s, q.source = some s → row.sourceId = s
  errorType : ∀ e, q.errorType = some e → row.failureStage = e
  status : ∀ s, q.status = some s → row.status = s
  window : ∀ w, q.window = some w → now - w.delta ≤ t

section List

variable {T : UuidType} {scope : ReadScope} {m : Mode} {db : Tables}

lemma filter_filter_term {term accepts : HeldItem → Bool}
    (hterm : ∀ r, inScope scope r = true → term r = true) (table : List HeldItem) :
    (table.filter (inScope scope)).filter (fun r => term r && accepts r) =
      table.filter fun r => inScope scope r && accepts r := by
  rw [List.filter_filter]
  refine List.filter_congr fun r _ => ?_
  cases hscope : inScope scope r with
  | false => rw [Bool.and_false, Bool.false_and]
  | true => rw [hterm r hscope, Bool.true_and, Bool.and_true]

lemma filter_items (db : Tables) (p : HeldItem → Bool) : db.items.filter (fun x => p x.2) =
    (db.rows.filter p).map (Kind.row, ·) ++ (db.chunks.filter p).map (Kind.chunk, ·) := by
  rw [Tables.items, List.filter_append, List.filter_map, List.filter_map]
  rfl

lemma listFilters_eq {term : HeldItem → Bool} (h : tenantTerm scope = .ok term) (f : Filters) :
    listFilters scope f = .ok fun r => term r && f.accepts r := by
  rw [listFilters, h]
  refine congrArg Except.ok (funext fun r => ?_)
  simp only [Filters.accepts, Bool.and_assoc]

lemma listHeldItems_eq (hmode : readMode scope = .ok m) (f : Filters) :
    listHeldItems T scope db f = .ok ((db.items.filter fun x =>
      inScope scope x.2 && f.accepts x.2).insertionSort newestFirst) := by
  obtain ⟨term, hterm, himplied⟩ := tenantTerm_eq hmode
  have hselect : ∀ table, select T m table (fun r => term r && f.accepts r) =
      .ok (table.filter fun r => inScope scope r && f.accepts r) := fun table => by
    rw [select_eq hmode, filter_filter_term himplied]
  have hopen : openRead scope = .ok m := by rw [openRead, hmode]; rfl
  have hitems := filter_items db fun r => inScope scope r && f.accepts r
  rw [hitems, listHeldItems, listFilters_eq hterm, hopen]
  simp only [Bind.bind, Except.bind, hselect, Pure.pure, Except.pure]

lemma countOpen_eq (hmode : readMode scope = .ok m) : countOpen T scope db =
    .ok (db.items.filter fun x => inScope scope x.2 && decide (x.2.status = .new)).length := by
  obtain ⟨term, hterm, himplied⟩ := tenantTerm_eq hmode
  have hselect : ∀ table, select T m table (fun r => term r && decide (r.status = .new)) =
      .ok (table.filter fun r => inScope scope r && decide (r.status = .new)) := fun table => by
    rw [select_eq hmode, filter_filter_term himplied]
  have hopen : openRead scope = .ok m := by rw [openRead, hmode]; rfl
  have hitems := filter_items db fun r => inScope scope r && decide (r.status = .new)
  rw [hitems, countOpen, hterm, hopen, List.length_append, List.length_map, List.length_map]
  simp only [Bind.bind, Except.bind, hselect, Pure.pure, Except.pure]

lemma contains_reverse {α β : Type} [DecidableEq α] [DecidableEq β] {crosswalk : List (α × β)}
    (h : (crosswalk.map Prod.fst).Nodup) (a : α) (b : β) :
    ((crosswalk.filter fun e => e.2 = b).map Prod.fst).contains a = true ↔
      PyDict.lookup a crosswalk = some b := by
  rw [List.contains_iff_mem, List.mem_map]
  constructor
  · rintro ⟨e, he, rfl⟩
    obtain ⟨hmem, hb⟩ := List.mem_filter.mp he
    rw [← of_decide_eq_true hb]
    exact PyDict.lookup_of_mem h hmem
  · intro hlookup
    exact ⟨(a, b), List.mem_filter.mpr ⟨PyDict.mem_of_lookup hlookup, decide_eq_true rfl⟩, rfl⟩

lemma mem_stageDbValuesFor (e : StageWire) (stage : QuarantineFailureStage) :
    (stageDbValuesFor e).contains stage = true ↔ stageToWire stage = some e :=
  contains_reverse (by decide) stage e

lemma mem_statusDbValuesFor (s : StatusWire) (status : Status) :
    (statusDbValuesFor s).contains status = true ↔ statusToWire status = some s :=
  contains_reverse (by decide) status s

lemma toListRow_isOk (iso : Timestamp → String) (x : Tagged) :
    ∃ row, toListRow iso x = .ok row := by
  obtain ⟨kind, r⟩ := x
  have hstage : ∃ word, stageToWire r.failureStage = some word := by
    cases r.failureStage <;> exact ⟨_, rfl⟩
  have hstatus : ∃ word, statusToWire r.status = some word := by
    cases r.status <;> exact ⟨_, rfl⟩
  obtain ⟨stage, hstage⟩ := hstage
  obtain ⟨status, hstatus⟩ := hstatus
  simp only [toListRow, hstage, hstatus, wireWord]
  exact ⟨_, rfl⟩

lemma toListRow_ok {iso : Timestamp → String} {x : Tagged} {row : ListRow}
    (h : toListRow iso x = .ok row) : row.id = handleOf x.1 x.2.id ∧ row.kind = x.1 ∧
      row.traceId = x.2.traceId.str ∧ row.sourceId = x.2.sourceId ∧
      row.errorReason = x.2.failureReason ∧ stageToWire x.2.failureStage = some row.failureStage ∧
      row.failedAt = iso x.2.quarantinedAt ∧ statusToWire x.2.status = some row.status := by
  obtain ⟨stage, hstage, h⟩ := Runs.of_bind_eq_ok h
  obtain ⟨status, hstatus, h⟩ := Runs.of_bind_eq_ok h
  cases h
  have hword : ∀ {α : Type} {o : Option α} {a : α}, wireWord o = .ok a → o = some a := by
    intro α o a ho
    cases o with
    | none => cases ho
    | some b =>
      cases ho
      rfl
  exact ⟨rfl, rfl, rfl, rfl, rfl, hword hstage, rfl, hword hstatus⟩

lemma accepts_iff {iso : Timestamp → String} {x : Tagged} {row : ListRow} {now : Timestamp}
    (h : toListRow iso x = .ok row) (q : ListQuery) :
    (q.filters now).accepts x.2 = true ↔ q.Matches now row x.2.quarantinedAt := by
  obtain ⟨-, -, -, hsource, -, hstage, -, hstatus⟩ := toListRow_ok h
  have hall : ∀ {α : Type} (o : Option α) (p : α → Bool),
      o.all p = true ↔ ∀ a, o = some a → p a = true := by
    intro α o p
    cases o <;> simp
  have hmap : ∀ {α β : Type} (o : Option α) (f : α → β) (p : β → Bool),
      (o.map f).all p = true ↔ ∀ a, o = some a → p (f a) = true := by
    intro α β o f p
    cases o <;> simp
  simp only [Filters.accepts, ListQuery.filters, Bool.and_eq_true, hmap]
  simp only [hall, decide_eq_true_eq, mem_stageDbValuesFor, mem_statusDbValuesFor, hstage, hstatus,
    Option.some.injEq, ← hsource]
  constructor
  · rintro ⟨⟨⟨hs, he⟩, ht⟩, hw⟩
    exact ⟨hs, he, ht, hw⟩
  · rintro ⟨hs, he, ht, hw⟩
    exact ⟨⟨⟨hs, he⟩, ht⟩, hw⟩

lemma items_nodup (db : Tables) : db.items.Nodup := by
  have htag : ∀ (kind : Kind) {table : List HeldItem}, (table.map HeldItem.id).Nodup →
      (table.map (kind, ·)).Nodup := fun kind table h =>
    h.of_map.map fun _ _ heq => (Prod.mk.inj heq).2
  refine (htag .row db.rows_nodup).append (htag .chunk db.chunks_nodup) ?_
  intro x hrow hchunk
  obtain ⟨r, -, rfl⟩ := List.mem_map.mp hrow
  obtain ⟨r', -, heq⟩ := List.mem_map.mp hchunk
  cases (Prod.mk.inj heq).1

lemma pairwise_newestFirst (items : List Tagged) :
    (items.insertionSort newestFirst).Pairwise newestFirst := by
  have htotal : Std.Total newestFirst := by
    have hkeys : ∀ (s t : ℤ) (m n : ℕ),
        (t < s ∨ t = s ∧ n ≤ m) ∨ (s < t ∨ s = t ∧ m ≤ n) := by omega
    exact ⟨fun a b => hkeys _ _ _ _⟩
  have htrans : IsTrans Tagged newestFirst := by
    have hkeys : ∀ (s t u : ℤ) (m n k : ℕ), (t < s ∨ t = s ∧ n ≤ m) → (u < t ∨ u = t ∧ k ≤ n) →
        u < s ∨ u = s ∧ k ≤ m := by omega
    exact ⟨fun a b c => hkeys _ _ _ _ _ _⟩
  exact List.pairwise_insertionSort _ items

/-- The items that a query shows, in the order of the list. -/
def shownItems (scope : ReadScope) (now : Timestamp) (q : ListQuery) (db : Tables) : List Tagged :=
  (db.items.filter fun x => inScope scope x.2 && (q.filters now).accepts x.2).insertionSort
    newestFirst

lemma mem_shown {now : Timestamp} {q : ListQuery} {x : Tagged} :
    x ∈ shownItems scope now q db ↔
      x ∈ db.items ∧ inScope scope x.2 = true ∧ (q.filters now).accepts x.2 = true := by
  rw [shownItems, List.mem_insertionSort, List.mem_filter, Bool.and_eq_true]

lemma listQuarantine_ok (T : UuidType) (iso : Timestamp → String) (hmode : readMode scope = .ok m)
    (now : Timestamp) (q : ListQuery) (db : Tables) : ∃ rows,
      listQuarantine T iso now scope q db = .ok ⟨rows, (db.items.filter fun x =>
        inScope scope x.2 && decide (statusToWire x.2.status = some .opened)).length⟩ ∧
      List.Forall₂ (fun x row => toListRow iso x = .ok row) (shownItems scope now q db) rows := by
  have hopen : (db.items.filter fun x => inScope scope x.2 && decide (x.2.status = .new)) =
      db.items.filter fun x =>
        inScope scope x.2 && decide (statusToWire x.2.status = some .opened) := by
    refine List.filter_congr fun x _ => ?_
    cases x.2.status <;> rfl
  have hisOk : ∀ x ∈ shownItems scope now q db, ∃ row, toListRow iso x = .ok row :=
    fun x _ => toListRow_isOk iso x
  obtain ⟨rows, hrows⟩ := Runs.exists_mapM_eq_ok hisOk
  refine ⟨rows, ?_, Runs.forall₂_of_mapM_eq_ok hrows⟩
  rw [shownItems] at hrows
  rw [listQuarantine, listHeldItems_eq hmode, countOpen_eq hmode, hopen]
  simp only [Bind.bind, Except.bind, hrows, Pure.pure, Except.pure]

end List

/-- **The list shows what the query asks for.** In a scope that the read gate returns, whatever
the tables hold: the list has each item once that is in the scope and whose row shows what the
filters say, newest first, and the open count is of all items in the scope that show as open,
whatever the filters. -/
theorem list_quarantine_exact (T : UuidType) (iso : Timestamp → String)
    (uuidOf : String → Option Uuid) (identity : Identity) (scope : ReadScope)
    (hscope : requireReadScope uuidOf identity = .ok scope) (now : Timestamp) (q : ListQuery)
    (db : Tables) : ∃ shown rows,
      listQuarantine T iso now scope q db = .ok ⟨rows, (db.items.filter fun x =>
        inScope scope x.2 && decide (statusToWire x.2.status = some .opened)).length⟩ ∧
      List.Forall₂ (fun x row => toListRow iso x = .ok row) shown rows ∧ shown.Nodup ∧
      shown.Pairwise newestFirst ∧
      ∀ x, x ∈ shown ↔ x ∈ db.items ∧ inScope scope x.2 = true ∧
        ∃ row, toListRow iso x = .ok row ∧ q.Matches now row x.2.quarantinedAt := by
  obtain ⟨m, hmode⟩ := readMode_isOk hscope
  obtain ⟨rows, hlist, hrows⟩ := listQuarantine_ok T iso hmode now q db
  refine ⟨_, rows, hlist, hrows, ?_, pairwise_newestFirst _, fun x => ?_⟩
  · exact (List.perm_insertionSort _ _).nodup_iff.mpr ((items_nodup db).filter _)
  · rw [mem_shown]
    obtain ⟨row, hrow⟩ := toListRow_isOk iso x
    rw [accepts_iff hrow]
    constructor
    · rintro ⟨hx, hin, hmatches⟩
      exact ⟨hx, hin, row, hrow, hmatches⟩
    · rintro ⟨hx, hin, row', hrow', hmatches⟩
      rw [hrow] at hrow'
      cases hrow'
      exact ⟨hx, hin, hmatches⟩

/-! ### One item -/

section Detail

variable {T : UuidType} {scope : ReadScope} {m : Mode} {db : Tables}

lemma getHeldItem_eq (hmode : readMode scope = .ok m) (kind : Kind) (id : Uuid) :
    getHeldItem T scope db kind id =
      match (db.table kind).filter fun r => inScope scope r && decide (r.id = id) with
      | [] => .error (.notFound (handleOf kind id))
      | r :: _ => .ok (kind, r) := by
  obtain ⟨term, hterm, himplied⟩ := tenantTerm_eq hmode
  have hopen : openRead scope = .ok m := by rw [openRead, hmode]; rfl
  have hselect : select T m (db.table kind) (fun r => decide (r.id = id) && term r) =
      .ok ((db.table kind).filter fun r => inScope scope r && decide (r.id = id)) := by
    rw [select_eq hmode, ← filter_filter_term himplied]
    refine congrArg _ (List.filter_congr fun r _ => Bool.and_comm _ _)
  rw [getHeldItem, hterm, hopen]
  simp only [Bind.bind, Except.bind, hselect]

lemma parseItemId_handleOf (decimalDigit : Char → Option ℕ) (kind : Kind) (id : Uuid) :
    parseItemId decimalDigit (handleOf kind id) = .ok (kind, id) := by
  have htoList : (handleOf kind id).toList = kind.text.toList ++ ':' :: id.chars := by
    simp [handleOf, Uuid.str, String.toList_append]
  have hkind : ∀ c ∈ kind.text.toList, decide (c ≠ ':') = true := by
    cases kind <;> simp [Kind.text]
  have htake : (handleOf kind id).toList.takeWhile (· ≠ ':') = kind.text.toList := by
    rw [htoList, List.takeWhile_append_of_pos hkind]
    simp
  have hdrop : (handleOf kind id).toList.dropWhile (· ≠ ':') = ':' :: id.chars := by
    rw [htoList, List.dropWhile_append_of_pos hkind]
    simp
  rw [parseItemId]
  dsimp only
  rw [htake, hdrop]
  simp only [UuidText.uuidOfText_chars]
  cases kind with
  | row => rw [if_pos rfl]
  | chunk =>
    have hne : Kind.chunk.text.toList ≠ Kind.row.text.toList := by decide
    rw [if_neg hne, if_pos rfl]

lemma mem_items {x : Tagged} : x ∈ db.items ↔ x.2 ∈ db.table x.1 := by
  obtain ⟨kind, r⟩ := x
  cases kind <;> simp [Tables.items, Tables.table]

lemma eq_of_id (kind : Kind) {r r' : HeldItem} (hr : r ∈ db.table kind) (hr' : r' ∈ db.table kind)
    (h : r.id = r'.id) : r = r' := by
  cases kind with
  | row => exact List.inj_on_of_nodup_map db.rows_nodup hr hr' h
  | chunk => exact List.inj_on_of_nodup_map db.chunks_nodup hr hr' h

lemma getHeldItem_of_mem (hmode : readMode scope = .ok m) {x : Tagged} (hx : x ∈ db.items)
    (hin : inScope scope x.2 = true) : getHeldItem T scope db x.1 x.2.id = .ok x := by
  rw [getHeldItem_eq hmode]
  have hmem : x.2 ∈ (db.table x.1).filter fun r => inScope scope r && decide (r.id = x.2.id) :=
    List.mem_filter.mpr ⟨mem_items.mp hx, by rw [hin, decide_eq_true rfl]; rfl⟩
  split
  · rename_i hnil
    rw [hnil] at hmem
    cases hmem
  · rename_i r rest hcons
    have hr := List.mem_filter.mp (hcons ▸ List.mem_cons_self : r ∈ (db.table x.1).filter _)
    have hid : r.id = x.2.id := of_decide_eq_true (Bool.and_eq_true_iff.mp hr.2).2
    rw [eq_of_id x.1 hr.1 (mem_items.mp hx) hid]

lemma getHeldItem_ok (hmode : readMode scope = .ok m) {kind : Kind} {id : Uuid} {x : Tagged}
    (h : getHeldItem T scope db kind id = .ok x) :
    x ∈ db.items ∧ inScope scope x.2 = true ∧ x.1 = kind ∧ x.2.id = id := by
  rw [getHeldItem_eq hmode] at h
  split at h
  · cases h
  · rename_i r rest hcons
    cases h
    have hr := List.mem_filter.mp (hcons ▸ List.mem_cons_self : r ∈ (db.table kind).filter _)
    obtain ⟨hin, hid⟩ := Bool.and_eq_true_iff.mp hr.2
    exact ⟨mem_items.mpr hr.1, hin, rfl, of_decide_eq_true hid⟩

lemma getQuarantineItem_of_mem {decimalDigit : Char → Option ℕ} {iso : Timestamp → String}
    (hmode : readMode scope = .ok m) {x : Tagged} (hx : x ∈ db.items)
    (hin : inScope scope x.2 = true) {row : ListRow} (hrow : toListRow iso x = .ok row) :
    ∃ d, getQuarantineItem T decimalDigit iso scope row.id db = .ok d ∧ toDetail iso x = .ok d ∧
      d.id = row.id ∧ d.kind = row.kind ∧ d.traceId = row.traceId ∧ d.source = row.source ∧
      d.failedAt = row.failedAt ∧ d.errorReason = row.errorReason ∧
      d.failureStage = row.failureStage := by
  obtain ⟨hid, hkind, htrace, hsource, hreason, hstage, hfailed, -⟩ := toListRow_ok hrow
  have hdetail : toDetail iso x = .ok ⟨row.id, row.kind, row.traceId, row.sourceId, row.failedAt,
      x.2.mappingVersionId, row.errorReason, row.failureStage,
      composeContext row.failureStage x.2.failureContext, 0⟩ := by
    simp only [toDetail, hstage, wireWord, hid, hkind, htrace, hsource, hreason, hfailed]
    rfl
  have hsource' : row.source = row.sourceId := by
    obtain ⟨_, -, h⟩ := Runs.of_bind_eq_ok hrow
    obtain ⟨_, -, h⟩ := Runs.of_bind_eq_ok h
    cases h
    rfl
  refine ⟨_, ?_, hdetail, rfl, rfl, rfl, hsource'.symm, rfl, rfl, rfl⟩
  rw [getQuarantineItem, hid, parseItemId_handleOf]
  simp only [Bind.bind, Except.bind, getHeldItem_of_mem hmode hx hin, hdetail, hid]

end Detail

/-- **An item of the list opens as itself, and nothing else opens.** In a scope that the read gate
returns: the id in a row of the list opens the item of the row, with what the row says of it; any
handle that opens names an item in the scope; and the handle of an item outside of the scope is
answered as that of no item. -/
theorem detail_of_list_row (T : UuidType) (decimalDigit : Char → Option ℕ)
    (iso : Timestamp → String) (uuidOf : String → Option Uuid) (identity : Identity)
    (scope : ReadScope) (hscope : requireReadScope uuidOf identity = .ok scope) (db : Tables) :
    (∀ x ∈ db.items, inScope scope x.2 = true → ∀ row, toListRow iso x = .ok row →
      ∃ d, getQuarantineItem T decimalDigit iso scope row.id db = .ok d ∧ toDetail iso x = .ok d ∧
        d.id = row.id ∧ d.kind = row.kind ∧ d.traceId = row.traceId ∧ d.source = row.source ∧
        d.failedAt = row.failedAt ∧ d.errorReason = row.errorReason ∧
        d.failureStage = row.failureStage) ∧
    (∀ itemId d, getQuarantineItem T decimalDigit iso scope itemId db = .ok d →
      ∃ x ∈ db.items, inScope scope x.2 = true ∧
        parseItemId decimalDigit itemId = .ok (x.1, x.2.id) ∧ toDetail iso x = .ok d) ∧
    ∀ kind id, (∀ x ∈ db.items, x.1 = kind → x.2.id = id → inScope scope x.2 = false) →
      getQuarantineItem T decimalDigit iso scope (handleOf kind id) db =
        .error (.notFound (handleOf kind id)) := by
  obtain ⟨m, hmode⟩ := readMode_isOk hscope
  refine ⟨fun x hx hin row hrow => getQuarantineItem_of_mem hmode hx hin hrow,
    fun itemId d h => ?_, fun kind id hout => ?_⟩
  · obtain ⟨⟨kind, id⟩, hparse, h⟩ := Runs.of_bind_eq_ok h
    obtain ⟨x, hget, hdetail⟩ := Runs.of_bind_eq_ok h
    obtain ⟨hx, hin, rfl, rfl⟩ := getHeldItem_ok hmode hget
    exact ⟨x, hx, hin, hparse, hdetail⟩
  · rw [getQuarantineItem, parseItemId_handleOf]
    have hnone : getHeldItem T scope db kind id = .error (.notFound (handleOf kind id)) := by
      rw [getHeldItem_eq hmode, List.filter_eq_nil_iff.mpr fun r hr hkeep => ?_]
      obtain ⟨hin, hid⟩ := Bool.and_eq_true_iff.mp hkeep
      rw [hout (kind, r) (mem_items.mpr hr) rfl (of_decide_eq_true hid)] at hin
      cases hin
    simp only [Bind.bind, Except.bind, hnone]

/-! ### Two tenants -/

/-- A tenant's user, by the tenant's number. -/
def sampleIdentity : Identity where
  userId := "7"
  tenantId := some (Uuid.ofNat 2).str
  roles := []
  userType := .tenant
  tenant_some _ := ⟨_, rfl, by decide⟩
  platform_none h := by cases h

def sampleBase (tenant : ℕ) (t : Timestamp) : RecordBase :=
  ⟨.ofNat tenant, .ofNat 5, .ofNat 6, .ofNat 9, "pos", "csv_upload", "gs://bronze/a.csv",
    .mappingExecution, .mappingExecutionFailed, t⟩

def sampleItem (tenant id : ℕ) (t : Timestamp) : HeldItem :=
  { sampleBase tenant t with
    id := .ofNat id, status := .new, failureContext := none, mappingVersionId := none }

/-- A row and a chunk of the tenant, under one id, and a row of another tenant. -/
def sampleTables : Tables where
  rows := [sampleItem 2 11 100, sampleItem 3 12 200]
  chunks := [sampleItem 2 11 300]
  rows_nodup := by decide
  chunks_nodup := by decide

lemma scope_sample : requireReadScope sampleType.read sampleIdentity =
    .ok ⟨false, some (.ofNat 2)⟩ := by
  have htenant : tenantUuidOf sampleType.read sampleIdentity = .ok (.ofNat 2) := by
    simp only [tenantUuidOf, sampleIdentity, sampleType.read_str]
  simp only [requireReadScope, htenant]
  rfl

/-- The chunk is shown and the row of the other tenant is not. -/
theorem list_quarantine_exact_sample : ∃ shown rows,
    listQuarantine sampleType (fun t => toString t) 400 ⟨false, some (.ofNat 2)⟩
      ⟨some "pos", some .normalization, some .opened, none⟩ sampleTables = .ok ⟨rows, 2⟩ ∧
    List.Forall₂ (fun x row => toListRow (fun t => toString t) x = .ok row) shown rows ∧
    (Kind.chunk, sampleItem 2 11 300) ∈ shown ∧ (Kind.row, sampleItem 3 12 200) ∉ shown := by
  obtain ⟨shown, rows, hlist, hrows, -, -, hmem⟩ :=
    list_quarantine_exact sampleType (fun t => toString t) sampleType.read sampleIdentity
      ⟨false, some (.ofNat 2)⟩ scope_sample 400
      ⟨some "pos", some .normalization, some .opened, none⟩ sampleTables
  refine ⟨shown, rows, hlist, hrows, (hmem _).mpr ⟨?_, by decide, _, rfl, ?_⟩, fun h => ?_⟩
  · simp [Tables.items, sampleTables]
  · constructor <;> decide
  · exact absurd ((hmem _).mp h).2.1 (by decide)

/-- The row and the chunk of one id open as themselves. -/
theorem detail_of_list_row_sample : ∃ d,
    getQuarantineItem sampleType (fun _ => none) (fun t => toString t) ⟨false, some (.ofNat 2)⟩
      (handleOf .chunk (.ofNat 11)) sampleTables = .ok d ∧ d.kind = .chunk := by
  obtain ⟨d, hget, -, -, hkind, -⟩ := (detail_of_list_row sampleType (fun _ => none)
    (fun t => toString t) sampleType.read sampleIdentity ⟨false, some (.ofNat 2)⟩ scope_sample
    sampleTables).1 (Kind.chunk, sampleItem 2 11 300) (by simp [Tables.items, sampleTables])
    (by decide) _ rfl
  exact ⟨d, hget, hkind⟩

end CortexDis.QuarantineConsole
