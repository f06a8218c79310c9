import CortexDis.DraftDocs

/-!
The durable store against the in-memory one, under the same sequence of calls.

The two agree as long as an id is a UUID in its canonical form (or names no row), the texts
have no NUL and fit their columns, and no other published row has the vertical, the table and
the version that is to be published.
-/

namespace CortexDis.StoreRefinement

open CortexDis.PyText CortexDis.PyValue CortexDis.SchemaIr CortexDis.DraftIr CortexDis.DraftStore
open CortexDis.DraftDocs CortexDis.Jsonb CortexDis.Runs CortexDis.PyDict

variable {υ : Type} [DecidableEq υ] (py : Builtins Empty) (ids : Uuids υ)

/-- A call to a store; `create` carries the id it mints. -/
inductive Call (υ : Type)
  | create (u : υ) (draft : Schema)
  | get (draftId : PyStr)
  | update (draftId : PyStr) (draft : Schema)
  | freeze (draftId : PyStr) (version : ℤ)

inductive Answer
  | id (draftId : PyStr)
  | draft (s : Schema)
  | nothing

/-- A call to the durable store. -/
def durable (table : Table υ) : Call υ → Table υ × Except AtlasError Answer
  | .create u draft =>
    match insertStmt table u draft with
    | .ok table' => (table', .ok (.id (ids.textOf u)))
    | .error e => (table, .error e)
  | .get draftId => (table, (get py ids table draftId).map .draft)
  | .update draftId draft =>
    match update py ids table draftId draft with
    | .ok table' => (table', .ok .nothing)
    | .error e => (table, .error e)
  | .freeze draftId version =>
    match freeze py ids table draftId version with
    | .ok (table', s) => (table', .ok (.draft s))
    | .error e => (table, .error e)

/-- A call to the in-memory store. -/
def inMemory (drafts : Drafts) : Call υ → Drafts × Except AtlasError Answer
  | .create u draft => (Memory.create drafts (ids.textOf u) draft, .ok (.id (ids.textOf u)))
  | .get draftId => (drafts, (Memory.get drafts draftId).map .draft)
  | .update draftId draft =>
    match Memory.update drafts draftId draft with
    | .ok drafts' => (drafts', .ok .nothing)
    | .error e => (drafts, .error e)
  | .freeze draftId version =>
    match Memory.freeze drafts draftId version with
    | .ok (drafts', s) => (drafts', .ok (.draft s))
    | .error e => (drafts, .error e)

/-- The documents of the handlers: assembled by `create_draft`, edited by patches. -/
inductive Assembled : Schema → Prop
  | assemble (vertical tableKey : String) (columns : List ProfiledColumn)
      (proposals : List ColumnProposal) :
      Assembled (assembleDraftIr vertical tableKey columns proposals)
  | patch {draft updated : Schema} {patch : DraftPatch} {draftId : PyStr} (h : Assembled draft)
      (hp : applyPatch draft patch draftId = .ok updated) : Assembled updated

/-- The documents a call carries are such documents. -/
def Call.Assembled : Call υ → Prop
  | .create _ draft => StoreRefinement.Assembled draft
  | .update _ draft => StoreRefinement.Assembled draft
  | _ => True

/-! ### The condition -/

/-- The document has no NUL character. -/
def Plain (draft : Schema) : Prop := AllText NulFree (schemaToDocument draft)

/-- The text fits a column of `n` characters, trailing spaces aside. -/
def Fits (n : ℕ) (s : PyStr) : Prop := s.length ≤ n ∨ (s.drop n).all (· = 32)

/-- The id is a UUID, and in canonical form if it names a row. -/
def Known (table : Table υ) (draftId : PyStr) : Prop :=
  ∃ u, ids.uuidOf draftId = some u ∧ (draftId = ids.textOf u ∨ table.get? u = none)

/-- The condition on a call, in the state before it. -/
def Meets (table : Table υ) : Call υ → Prop
  | .create u draft =>
    table.get? u = none ∧ Plain draft ∧ Fits 64 draft.vertical ∧
      ∀ t ∈ draft.tables.head?, Fits 128 t.key
  | .get draftId => Known ids table draftId
  | .update draftId draft =>
    Known ids table draftId ∧ ∀ u row, ids.uuidOf draftId = some u → table.get? u = some row →
      row.status = pyStr "draft" → Plain draft
  | .freeze draftId version =>
    Known ids table draftId ∧ ∀ u row s, ids.uuidOf draftId = some u → table.get? u = some row →
      loadIr py row = .ok s → s.status = pyStr "draft" → ratifyViolations s = [] →
        (-2 ^ 31 ≤ version ∧ version < 2 ^ 31) ∧
          duplicate table u
            { row with status := pyStr "published", schemaVersion := version } = false

/-! ### Documents -/

lemma Assembled.facts {d : Schema} (h : Assembled d) :
    WellFormed d ∧ d.status = pyStr "draft" ∧ d.schemaVersion = 1 := by
  induction h with
  | assemble vertical tableKey columns proposals =>
    exact ⟨wellFormed_assemble vertical tableKey columns proposals, rfl, rfl⟩
  | patch _ hp ih =>
    obtain ⟨hwf, hstatus, hversion⟩ := ih
    refine ⟨hwf.applyPatch hp, ?_, ?_⟩
    · rw [applyPatch_status hp, hstatus]
    · obtain ⟨table, rest, fields, -, -, rfl⟩ := applyPatch_eq_ok hp
      exact hversion

lemma saveIr_eq {d : Schema} (hwf : WellFormed d) (hplain : Plain d) :
    saveIr d = .ok (schemaToDocument d) := by
  have hclean : AllText Clean (schemaToDocument d) := hwf.allText.and hplain
  rw [saveIr, toJsonb_of_clean hclean]

lemma plain_of_saveIr {d : Schema} {ir : Json} (hwf : WellFormed d) (h : saveIr d = .ok ir) :
    Plain d := by
  unfold saveIr at h
  cases hj : toJsonb (schemaToDocument d) with
  | error e => simp [hj] at h
  | ok v => exact nulFree_of_toJsonb hwf.allText hj

lemma Plain.frozen {d : Schema} (h : Plain d) (version : ℤ) : Plain (frozen d version) := by
  have hpub : NulFree (pyStr "published") := by
    unfold NulFree
    decide
  simp only [Plain, schemaToDocument, record, List.map, allText_dict, allItems_cons, allText_str,
    allText_int] at h ⊢
  obtain ⟨hv, hversion, ⟨hk, -⟩, hrest⟩ := h
  exact ⟨hv, hversion, ⟨hk, hpub⟩, hrest⟩

lemma varchar_isOk_iff {n : ℕ} {s : PyStr} (hs : Clean s) :
    (∃ t, varchar n s = .ok t) ↔ Fits n s := by
  have hchars : (s.any fun c => c = 0 || isHigh c || isLow c) = false := by
    rw [List.any_eq_false]
    intro c hc
    have hne : c ≠ 0 := fun h => hs.2 (h ▸ hc)
    simp [hne, (hs.1 c hc).1, (hs.1 c hc).2]
  rw [varchar, hchars, Fits]
  by_cases hlen : s.length ≤ n
  · simp [hlen]
  · by_cases hspaces : (s.drop n).all (· = 32) = true <;> simp [hlen, hspaces]

lemma clean_texts {d : Schema} {t : TableIR Empty} (hwf : WellFormed d) (hplain : Plain d)
    (ht : d.tables = [t]) : Clean d.vertical ∧ Clean t.key := by
  have hclean : AllText Clean (schemaToDocument d) := hwf.allText.and hplain
  simp only [schemaToDocument, record, List.map, allText_dict, allItems_cons, allText_str, ht,
    allText_list, List.mem_cons, List.not_mem_nil, or_false, forall_eq, tableToDict] at hclean
  exact ⟨hclean.1.2, hclean.2.2.2.2.2.2.1.2.1.2⟩

lemma insertStmt_isOk_iff {table : Table υ} {u : υ} {d : Schema} (hd : Assembled d) :
    (∃ table', insertStmt table u d = .ok table') ↔
      table.get? u = none ∧ Plain d ∧ Fits 64 d.vertical ∧
        ∀ t ∈ d.tables.head?, Fits 128 t.key := by
  obtain ⟨hwf, hstatus, hversion⟩ := hd.facts
  obtain ⟨t, ht, -⟩ := hwf.table
  have hdraft : varchar 16 (pyStr "draft") = .ok (pyStr "draft") := by decide
  have hone : int4 1 = .ok 1 := by decide
  simp only [ht, List.head?_cons, Option.mem_def, Option.some.injEq, forall_eq']
  constructor
  · rintro ⟨table', h⟩
    obtain ⟨row, hnone, -, hir, -⟩ := insertStmt_eq_ok h
    have hplain := plain_of_saveIr hwf hir
    obtain ⟨hvertical, hkey⟩ := clean_texts hwf hplain ht
    simp only [insertStmt, ht] at h
    obtain ⟨ir, -, h⟩ := of_bind_eq_ok h
    obtain ⟨vertical, hv, h⟩ := of_bind_eq_ok h
    obtain ⟨key, hk, h⟩ := of_bind_eq_ok h
    exact ⟨hnone, hplain, (varchar_isOk_iff hvertical).mp ⟨vertical, hv⟩,
      (varchar_isOk_iff hkey).mp ⟨key, hk⟩⟩
  · rintro ⟨hnone, hplain, hfv, hfk⟩
    obtain ⟨hvertical, hkey⟩ := clean_texts hwf hplain ht
    obtain ⟨vertical, hv⟩ := (varchar_isOk_iff hvertical).mpr hfv
    obtain ⟨key, hk⟩ := (varchar_isOk_iff hkey).mpr hfk
    have hnotpub : pyStr "draft" ≠ pyStr "published" := by simp
    refine ⟨table.set u ⟨vertical, key, pyStr "draft", 1, schemaToDocument d⟩, ?_⟩
    simp [insertStmt, ht, saveIr_eq hwf hplain, hv, hk, hstatus, hversion, hdraft, hone, hnone,
      putRow, duplicate, hnotpub]

/-! ### Related states -/

/-- A row stores a draft. -/
structure Stores (row : Row) (s : Schema) : Prop where
  wellFormed : WellFormed s
  plain : Plain s
  holds : Holds row s
  status : row.status = s.status

/-- The two stores hold the same drafts, the in-memory one under the canonical ids. -/
structure Related (table : Table υ) (drafts : Drafts) : Prop where
  row : ∀ u row, table.get? u = some row →
    ∃ s, Stores row s ∧ drafts.get? (ids.textOf u) = some s
  missing : ∀ u, table.get? u = none → drafts.get? (ids.textOf u) = none
  canonical : ∀ t s, drafts.get? t = some s → ∃ u, t = ids.textOf u

variable {py ids}

lemma related_empty : Related ids (Dict.empty : Table υ) Dict.empty where
  row u row h := by simp at h
  missing u h := by simp
  canonical t s h := by simp at h

lemma Related.set {table : Table υ} {drafts : Drafts} (h : Related ids table drafts) (u : υ)
    {row : Row} {s : Schema} (hs : Stores row s) :
    Related ids (table.set u row) (drafts.set (ids.textOf u) s) where
  row v row' hrow := by
    by_cases huv : u = v
    · subst huv
      simp only [Dict.get?_set_self, Option.some.injEq] at hrow
      subst hrow
      exact ⟨s, hs, by simp⟩
    · rw [Dict.get?_set_ne _ _ huv] at hrow
      rw [Dict.get?_set_ne _ _ fun ht => huv (ids.textOf_injective ht)]
      exact h.row v row' hrow
  missing v hv := by
    by_cases huv : u = v
    · subst huv
      simp at hv
    · rw [Dict.get?_set_ne _ _ huv] at hv
      rw [Dict.get?_set_ne _ _ fun ht => huv (ids.textOf_injective ht)]
      exact h.missing v hv
  canonical t s' ht := by
    by_cases htu : ids.textOf u = t
    · exact ⟨u, htu.symm⟩
    · rw [Dict.get?_set_ne _ _ htu] at ht
      exact h.canonical t s' ht

/-- What a read finds in related states: a text that is no UUID, an id of no row, the draft
in both stores, or a row whose id is not in canonical form. -/
lemma Related.get_cases {table : Table υ} {drafts : Drafts} (h : Related ids table drafts)
    (py : Builtins Empty) (draftId : PyStr) :
    (¬ Known ids table draftId ∧ get py ids table draftId = .error (.driver .invalidUuid) ∧
        Memory.get drafts draftId = .error (.draftNotFound draftId)) ∨
      (Known ids table draftId ∧ get py ids table draftId = .error (.draftNotFound draftId) ∧
        Memory.get drafts draftId = .error (.draftNotFound draftId) ∧
        ∀ u, ids.uuidOf draftId = some u → table.get? u = none) ∨
      (Known ids table draftId ∧ ∃ u row s, draftId = ids.textOf u ∧ table.get? u = some row ∧
        Stores row s ∧ get py ids table draftId = .ok s ∧ Memory.get drafts draftId = .ok s) ∨
      (¬ Known ids table draftId ∧ ∃ s, get py ids table draftId = .ok s ∧
        Memory.get drafts draftId = .error (.draftNotFound draftId)) := by
  cases hid : ids.uuidOf draftId with
  | none =>
    refine .inl ⟨?_, ?_, ?_⟩
    · rintro ⟨u, hu, -⟩
      simp [hid] at hu
    · simp only [DraftStore.get, castUuid, hid]
      rfl
    · cases hd : drafts.get? draftId with
      | none => simp [Memory.get, hd]
      | some s =>
        obtain ⟨u, rfl⟩ := h.canonical draftId s hd
        simp at hid
  | some u =>
    -- the memory store finds the draft under the canonical text only
    have hmem : draftId ≠ ids.textOf u → Memory.get drafts draftId =
        .error (.draftNotFound draftId) := by
      intro hne
      cases hd : drafts.get? draftId with
      | none => simp [Memory.get, hd]
      | some s =>
        obtain ⟨v, rfl⟩ := h.canonical draftId s hd
        rw [ids.uuidOf_textOf, Option.some.injEq] at hid
        exact absurd (congrArg ids.textOf hid) hne
    cases hrow : table.get? u with
    | none =>
      refine .inr (.inl ⟨⟨u, hid, .inr hrow⟩, by simp [DraftStore.get, castUuid, hid, hrow],
        ?_, ?_⟩)
      · by_cases htext : draftId = ids.textOf u
        · rw [htext, Memory.get, h.missing u hrow]
        · exact hmem htext
      · rintro v hv
        cases hv
        exact hrow
    | some row =>
      obtain ⟨s, hs, hdraft⟩ := h.row u row hrow
      have hget : get py ids table draftId = .ok s := by
        simp [DraftStore.get, castUuid, hid, hrow, hs.wellFormed.loadIr py hs.holds]
      by_cases htext : draftId = ids.textOf u
      · refine .inr (.inr (.inl ⟨⟨u, hid, .inl htext⟩, u, row, s, htext, hrow, hs, hget, ?_⟩))
        rw [htext, Memory.get, hdraft]
      · refine .inr (.inr (.inr ⟨?_, s, hget, hmem htext⟩))
        rintro ⟨v, hv, hcase⟩
        cases hid.symm.trans hv
        rcases hcase with hcase | hcase
        · exact htext hcase
        · simp [hrow] at hcase

/-! ### Errors of statements -/

/-- A computation that fails only with an error of the driver. -/
def OnlyDriver {α : Type} (x : Except AtlasError α) : Prop :=
  ∀ e, x = .error e → ∃ d, e = .driver d

lemma OnlyDriver.bind {α β : Type} {x : Except AtlasError α} {f : α → Except AtlasError β}
    (hx : OnlyDriver x) (hf : ∀ a, OnlyDriver (f a)) : OnlyDriver (x >>= f) := by
  intro e h
  cases x with
  | error e' =>
    cases h
    exact hx _ rfl
  | ok a => exact hf a e h

lemma onlyDriver_ok {α : Type} (a : α) : OnlyDriver (.ok a : Except AtlasError α) :=
  fun _ h => nomatch h

lemma onlyDriver_error {α : Type} (d : DriverError) :
    OnlyDriver (.error (.driver d) : Except AtlasError α) := by
  rintro e ⟨⟩
  exact ⟨d, rfl⟩

lemma onlyDriver_saveIr (d : Schema) : OnlyDriver (saveIr d) := by
  unfold saveIr
  split
  · exact onlyDriver_ok _
  · exact onlyDriver_error _

omit [DecidableEq υ] in
lemma onlyDriver_castUuid (draftId : PyStr) : OnlyDriver (castUuid ids draftId) := by
  unfold castUuid
  split
  · exact onlyDriver_ok _
  · exact onlyDriver_error _

lemma onlyDriver_beforeUpdate (row : Row) : OnlyDriver (beforeUpdate row) := by
  unfold beforeUpdate
  split
  · exact onlyDriver_error _
  · exact onlyDriver_ok _

lemma onlyDriver_putRow (table : Table υ) (u : υ) (row : Row) :
    OnlyDriver (putRow table u row) := by
  unfold putRow
  split
  · exact onlyDriver_error _
  · exact onlyDriver_ok _

lemma onlyDriver_int4 (n : ℤ) : OnlyDriver (int4 n) := by
  unfold int4
  split
  · exact onlyDriver_ok _
  · exact onlyDriver_error _

lemma onlyDriver_updateStmt (table : Table υ) (draftId : PyStr) (d : Schema) :
    OnlyDriver (updateStmt ids table draftId d) := by
  refine (onlyDriver_saveIr d).bind fun ir => (onlyDriver_castUuid draftId).bind fun u => ?_
  split
  · exact onlyDriver_ok _
  · exact (onlyDriver_beforeUpdate _).bind fun _ => onlyDriver_putRow _ _ _

lemma onlyDriver_freezeStmt (table : Table υ) (draftId : PyStr) (d : Schema) (version : ℤ) :
    OnlyDriver (freezeStmt ids table draftId d version) := by
  refine (onlyDriver_saveIr d).bind fun ir => (onlyDriver_int4 version).bind fun v =>
    (onlyDriver_castUuid draftId).bind fun u => ?_
  split
  · exact onlyDriver_ok _
  · exact (onlyDriver_beforeUpdate _).bind fun _ => onlyDriver_putRow _ _ _

lemma checkUpdate_ne_notFound {draftId t : PyStr} {current draft : Schema} :
    checkUpdate draftId current draft ≠ .error (.draftNotFound t) := by
  unfold checkUpdate
  split
  · simp
  · split <;> simp

lemma checkFreeze_ne_notFound {draftId t : PyStr} {current : Schema} :
    checkFreeze draftId current ≠ .error (.draftNotFound t) := by
  unfold checkFreeze
  split
  · simp
  · split <;> simp

lemma update_ne_notFound {table : Table υ} {draftId t : PyStr} {s d : Schema}
    (hget : get py ids table draftId = .ok s) :
    update py ids table draftId d ≠ .error (.draftNotFound t) := by
  intro h
  rw [update, hget, ok_bind] at h
  cases hc : checkUpdate draftId s d with
  | error e =>
    rw [hc] at h
    cases h
    exact checkUpdate_ne_notFound hc
  | ok x =>
    rw [hc, ok_bind] at h
    obtain ⟨e, he⟩ := onlyDriver_updateStmt table draftId d _ h
    cases he

lemma freeze_ne_notFound {table : Table υ} {draftId t : PyStr} {s : Schema}
    (hget : get py ids table draftId = .ok s) (version : ℤ) :
    freeze py ids table draftId version ≠ .error (.draftNotFound t) := by
  intro h
  rw [freeze, hget, ok_bind] at h
  cases hc : checkFreeze draftId s with
  | error e =>
    rw [hc] at h
    cases h
    exact checkFreeze_ne_notFound hc
  | ok x =>
    rw [hc, ok_bind] at h
    cases hf : freezeStmt ids table draftId (frozen s version) version with
    | error e =>
      rw [hf] at h
      cases h
      obtain ⟨e, he⟩ := onlyDriver_freezeStmt table draftId _ version _ hf
      cases he
    | ok table' =>
      rw [hf] at h
      cases h

/-! ### The writes, in related states -/

section Writes

variable {table : Table υ} {u : υ} {row : Row} {s d : Schema} {version : ℤ}

lemma updateStmt_of_draft (hrow : table.get? u = some row) (hdraft : row.status = pyStr "draft")
    (hwf : WellFormed d) (hplain : Plain d) :
    updateStmt ids table (ids.textOf u) d =
      .ok (table.set u { row with ir := schemaToDocument d }) := by
  have hne : pyStr "draft" ≠ pyStr "published" := by simp
  simp [updateStmt, saveIr_eq hwf hplain, castUuid, hrow, beforeUpdate, hdraft, hne, putRow,
    duplicate]

lemma freezeStmt_of_draft (hrow : table.get? u = some row) (hdraft : row.status = pyStr "draft")
    (hwf : WellFormed d) (hplain : Plain d) :
    freezeStmt ids table (ids.textOf u) d version =
      int4 version >>= fun v => putRow table u
        { row with status := pyStr "published", schemaVersion := v, ir := schemaToDocument d } := by
  have hne : pyStr "draft" ≠ pyStr "published" := by simp
  simp [freezeStmt, saveIr_eq hwf hplain, castUuid, hrow, beforeUpdate, hdraft, hne]

end Writes

section Calls

variable {table : Table υ} {drafts : Drafts} {version : ℤ}

/-- Answers agree and the states stay related, exactly under `P`. -/
def Agree (ids : Uuids υ) (P : Prop) (a : Table υ × Except AtlasError Answer)
    (b : Drafts × Except AtlasError Answer) : Prop :=
  (a.2 = b.2 ↔ P) ∧ (P → Related ids a.1 b.1)

lemma agree_create (h : Related ids table drafts) {u : υ} {d : Schema} (hd : Assembled d) :
    Agree ids (Meets py ids table (.create u d)) (durable py ids table (.create u d))
      (inMemory ids drafts (.create u d)) := by
  have hiff : (∃ table', insertStmt table u d = .ok table') ↔ Meets py ids table (.create u d) :=
    insertStmt_isOk_iff hd
  rw [← hiff]
  cases hr : insertStmt table u d with
  | error e => exact ⟨by simp [durable, inMemory, hr], by simp⟩
  | ok table' =>
    refine ⟨by simp [durable, inMemory, hr], fun _ => ?_⟩
    obtain ⟨row, -, hstatus, hir, rfl⟩ := insertStmt_eq_ok hr
    obtain ⟨hwf, hdraft, -⟩ := hd.facts
    have hvarchar : varchar 16 (pyStr "draft") = .ok (pyStr "draft") := by decide
    rw [hdraft, hvarchar, Except.ok.injEq] at hstatus
    simp only [durable, hr, inMemory, Memory.create]
    exact h.set u ⟨hwf, plain_of_saveIr hwf hir, hwf.saveIr hir, hstatus.symm.trans hdraft.symm⟩

lemma agree_get (h : Related ids table drafts) (draftId : PyStr) :
    Agree ids (Meets py ids table (.get draftId)) (durable py ids table (.get draftId))
      (inMemory ids drafts (.get draftId)) := by
  refine ⟨?_, fun _ => h⟩
  simp only [Meets, durable, inMemory]
  obtain ⟨hk, hg, hm⟩ | ⟨hk, hg, hm, -⟩ | ⟨hk, u, row, s, -, -, -, hg, hm⟩ | ⟨hk, s, hg, hm⟩ :=
    h.get_cases py draftId <;> simp [hg, hm, hk, Except.map]

/-- A call that reads the draft first: where the reads already differ, or fail alike, so do
the answers, and it is left to look at a draft that both stores hold. -/
lemma agree_of_read (py : Builtins Empty) (h : Related ids table drafts) {draftId : PyStr}
    {P : Prop}
    {a : Table υ × Except AtlasError Answer} {b : Drafts × Except AtlasError Answer}
    (hP : P → Known ids table draftId)
    (hmissing : Known ids table draftId →
      (∀ u, ids.uuidOf draftId = some u → table.get? u = none) → P)
    (herr : ∀ e, get py ids table draftId = .error e → a = (table, .error e))
    (hmem : ∀ e, Memory.get drafts draftId = .error e → b = (drafts, .error e))
    (hne : ∀ s, get py ids table draftId = .ok s → a.2 ≠ .error (.draftNotFound draftId))
    (hfound : ∀ u row s, draftId = ids.textOf u → table.get? u = some row → Stores row s →
      get py ids table draftId = .ok s → Memory.get drafts draftId = .ok s →
      Known ids table draftId → Agree ids P a b) :
    Agree ids P a b := by
  obtain ⟨hk, hg, hm⟩ | ⟨hk, hg, hm, hnone⟩ | ⟨hk, u, row, s, hu, hrow, hs, hg, hm⟩ |
    ⟨hk, s, hg, hm⟩ := h.get_cases py draftId
  · refine ⟨iff_of_false ?_ fun hp => hk (hP hp), fun hp => absurd (hP hp) hk⟩
    simp [herr _ hg, hmem _ hm]
  · have hp := hmissing hk hnone
    refine ⟨iff_of_true ?_ hp, fun _ => ?_⟩
    · simp [herr _ hg, hmem _ hm]
    · simpa [herr _ hg, hmem _ hm] using h
  · exact hfound u row s hu hrow hs hg hm hk
  · refine ⟨iff_of_false ?_ fun hp => hk (hP hp), fun hp => absurd (hP hp) hk⟩
    rw [hmem _ hm]
    exact hne s hg

lemma agree_error (h : Related ids table drafts) {P : Prop} (hP : P) (e : AtlasError) :
    Agree ids P (table, .error e) (drafts, .error e) :=
  ⟨iff_of_true rfl hP, fun _ => h⟩

lemma agree_update (h : Related ids table drafts) (draftId : PyStr) {d : Schema}
    (hd : Assembled d) :
    Agree ids (Meets py ids table (.update draftId d)) (durable py ids table (.update draftId d))
      (inMemory ids drafts (.update draftId d)) := by
  obtain ⟨hwf, hstatus, -⟩ := hd.facts
  refine agree_of_read py h (fun hp => hp.1)
    (fun hk hnone => ⟨hk, fun u row hu hrow => by simp [hnone u hu] at hrow⟩) ?_ ?_ ?_ ?_
  · intro e he
    have hdur : update py ids table draftId d = .error e := by rw [update, he]; rfl
    simp [durable, hdur]
  · intro e he
    have hmem : Memory.update drafts draftId d = .error e := by rw [Memory.update, he]; rfl
    simp [inMemory, hmem]
  · intro s hg
    have hne := update_ne_notFound (d := d) (t := draftId) hg
    simp only [durable]
    cases hr : update py ids table draftId d with
    | ok table' => simp
    | error e => exact fun he => hne (by rw [hr, Except.error.inj he])
  · rintro u row s rfl hrow hs hg hm hk
    have hdur : update py ids table (ids.textOf u) d =
        checkUpdate (ids.textOf u) s d >>= fun _ => updateStmt ids table (ids.textOf u) d := by
      rw [update, hg, ok_bind]
    have hmem : Memory.update drafts (ids.textOf u) d =
        checkUpdate (ids.textOf u) s d >>= fun _ => .ok (drafts.set (ids.textOf u) d) := by
      rw [Memory.update, hm, ok_bind]
      rfl
    by_cases hsd : s.status = pyStr "draft"
    · have hrowd : row.status = pyStr "draft" := hs.status.trans hsd
      have hcheck : checkUpdate (ids.textOf u) s d = .ok () := by simp [checkUpdate, hsd, hstatus]
      rw [hcheck, ok_bind] at hdur hmem
      by_cases hplain : Plain d
      · have hstmt : updateStmt ids table (ids.textOf u) d = _ :=
          updateStmt_of_draft hrow hrowd hwf hplain
        have hmeets : Meets py ids table (.update (ids.textOf u) d) :=
          ⟨hk, fun _ _ _ _ _ => hplain⟩
        refine ⟨by simp [durable, inMemory, hdur, hmem, hstmt, hmeets], fun _ => ?_⟩
        simp only [durable, inMemory, hdur, hmem, hstmt]
        exact h.set u ⟨hwf, hplain, rfl, hrowd.trans hstatus.symm⟩
      · have hnot : ¬ Meets py ids table (.update (ids.textOf u) d) :=
          fun hp => hplain (hp.2 u row (by simp) hrow hrowd)
        refine ⟨iff_of_false ?_ hnot, fun hp => absurd hp hnot⟩
        simp only [durable, inMemory, hdur, hmem]
        cases hr : updateStmt ids table (ids.textOf u) d with
        | error e => simp
        | ok table' =>
          obtain ⟨_, ir, -, hir, -⟩ := updateStmt_eq_ok hr
          exact absurd (plain_of_saveIr hwf hir) hplain
    · -- a published draft: the same conflict in both
      have hmeets : Meets py ids table (.update (ids.textOf u) d) := by
        refine ⟨hk, fun v row' hv hrow' hd' => ?_⟩
        rw [ids.uuidOf_textOf, Option.some.injEq] at hv
        subst hv
        cases hrow.symm.trans hrow'
        exact absurd (hs.status.symm.trans hd') hsd
      have hcheck : checkUpdate (ids.textOf u) s d =
          .error (.stateConflict (ids.textOf u) (.editNonDraft s.status)) := by
        simp [checkUpdate, hsd]
      rw [hcheck] at hdur hmem
      simp only [durable, inMemory, hdur, hmem]
      exact agree_error h hmeets _

lemma agree_freeze (h : Related ids table drafts) (draftId : PyStr) :
    Agree ids (Meets py ids table (.freeze draftId version))
      (durable py ids table (.freeze draftId version))
      (inMemory ids drafts (.freeze draftId version)) := by
  refine agree_of_read py h (fun hp => hp.1)
    (fun hk hnone => ⟨hk, fun u row s hu hrow => by simp [hnone u hu] at hrow⟩) ?_ ?_ ?_ ?_
  · intro e he
    have hdur : freeze py ids table draftId version = .error e := by rw [freeze, he]; rfl
    simp [durable, hdur]
  · intro e he
    have hmem : Memory.freeze drafts draftId version = .error e := by rw [Memory.freeze, he]; rfl
    simp [inMemory, hmem]
  · intro s hg
    have hne := freeze_ne_notFound (t := draftId) hg version
    simp only [durable]
    cases hr : freeze py ids table draftId version with
    | ok r => simp
    | error e => exact fun he => hne (by rw [hr, Except.error.inj he])
  · rintro u row s rfl hrow hs hg hm hk
    have hdur : freeze py ids table (ids.textOf u) version =
        checkFreeze (ids.textOf u) s >>= fun _ =>
          freezeStmt ids table (ids.textOf u) (frozen s version) version >>= fun table' =>
            .ok (table', frozen s version) := by
      rw [freeze, hg, ok_bind]
      rfl
    have hmem : Memory.freeze drafts (ids.textOf u) version =
        checkFreeze (ids.textOf u) s >>= fun _ =>
          .ok (drafts.set (ids.textOf u) (frozen s version), frozen s version) := by
      rw [Memory.freeze, hm, ok_bind]
      rfl
    have hload : loadIr py row = .ok s := hs.wellFormed.loadIr py hs.holds
    cases hcheck : checkFreeze (ids.textOf u) s with
    | error e =>
      -- not a draft, or not ratified: the same error in both
      have hmeets : Meets py ids table (.freeze (ids.textOf u) version) := by
        refine ⟨hk, fun v row' s' hv hrow' hload' hd' hr' => ?_⟩
        rw [ids.uuidOf_textOf, Option.some.injEq] at hv
        subst hv
        cases hrow.symm.trans hrow'
        cases hload.symm.trans hload'
        simp [checkFreeze, hd', hr'] at hcheck
      rw [hcheck] at hdur hmem
      simp only [durable, inMemory, hdur, hmem]
      exact agree_error h hmeets e
    | ok x =>
      obtain ⟨hsd, hratified⟩ := checkFreeze_eq_ok hcheck
      have hrowd : row.status = pyStr "draft" := hs.status.trans hsd
      have hwf := hs.wellFormed.frozen version
      have hplain := hs.plain.frozen version
      rw [hcheck, ok_bind, freezeStmt_of_draft hrow hrowd hwf hplain] at hdur
      rw [hcheck, ok_bind] at hmem
      have hmeets : Meets py ids table (.freeze (ids.textOf u) version) ↔
          (-2 ^ 31 ≤ version ∧ version < 2 ^ 31) ∧ duplicate table u
            { row with status := pyStr "published", schemaVersion := version } = false := by
        constructor
        · intro hp
          exact hp.2 u row s (by simp) hrow hload hsd hratified
        · refine fun hp => ⟨hk, fun v row' s' hv hrow' _ _ _ => ?_⟩
          rw [ids.uuidOf_textOf, Option.some.injEq] at hv
          subst hv
          cases hrow.symm.trans hrow'
          exact hp
      rw [hmeets]
      by_cases hrange : -2 ^ 31 ≤ version ∧ version < 2 ^ 31
      · have hint : int4 version = .ok version := by rw [int4, if_pos hrange]
        cases hdup : duplicate table u
            { row with status := pyStr "published", schemaVersion := version } with
        | false =>
          have hput : putRow table u { row with
              status := pyStr "published", schemaVersion := version
              ir := schemaToDocument (frozen s version) } = .ok _ :=
            if_neg fun ht => Bool.noConfusion (hdup.symm.trans ht)
          rw [hint, ok_bind, hput, ok_bind] at hdur
          refine ⟨iff_of_true ?_ ⟨hrange, rfl⟩, fun _ => ?_⟩
          · simp [durable, inMemory, hdur, hmem]
          simp only [durable, inMemory, hdur, hmem]
          exact h.set u ⟨hwf, hplain, rfl, rfl⟩
        | true =>
          have hput : putRow table u { row with
              status := pyStr "published", schemaVersion := version
              ir := schemaToDocument (frozen s version) } = .error (.driver .uniqueViolation) :=
            if_pos hdup
          rw [hint, ok_bind, hput, error_bind] at hdur
          exact ⟨by simp [durable, inMemory, hdur, hmem], by simp⟩
      · have hint : int4 version = .error (.driver .dataError) := by rw [int4, if_neg hrange]
        rw [hint, error_bind, error_bind] at hdur
        refine ⟨iff_of_false ?_ fun hp => hrange hp.1, fun hp => absurd hp.1 hrange⟩
        simp [durable, inMemory, hdur, hmem]

lemma agree_call (h : Related ids table drafts) (c : Call υ) (hc : c.Assembled) :
    Agree ids (Meets py ids table c) (durable py ids table c) (inMemory ids drafts c) := by
  cases c with
  | create u d => exact agree_create h hc
  | get draftId => exact agree_get h draftId
  | update draftId d => exact agree_update h draftId hc
  | freeze draftId version => exact agree_freeze h draftId

end Calls

/-- **The stores agree exactly under the condition**: from empty stores, over every sequence
of calls with documents of the handlers, the two give the same answers and the same errors if
and only if each call meets the condition in the state before it. -/
theorem stores_agree_iff (py : Builtins Empty) (ids : Uuids υ) (calls : List (Call υ))
    (hcalls : ∀ c ∈ calls, c.Assembled) :
    outputs (durable py ids) calls Dict.empty = outputs (inMemory ids) calls Dict.empty ↔
      Along (fun table c => (durable py ids table c).1) (Meets py ids) calls Dict.empty := by
  refine outputs_eq_iff (R := Related ids) ?_ ?_ related_empty
  · intro c hc table drafts h
    exact (agree_call h c (hcalls c hc)).1
  · intro c hc table drafts h
    exact (agree_call h c (hcalls c hc)).2

def firstId : PyStr := pyStr "01909f3a-7c1e-7a31-9d4f-8c4f5d1b2a60"
def secondId : PyStr := pyStr "01909f3a-7c1e-7a31-9d4f-8c4f5d1b2a61"

def freshSnapshot : Schema := assembleDraftIr "retail" "retail_snapshot" [] []

/-- The same draft with its natural key set. -/
def ratifiedSnapshot : Schema :=
  { freshSnapshot with
    tables := freshSnapshot.tables.map fun t => { t with naturalKey := [pyStr "store_id"] } }

lemma assembled_ratifiedSnapshot : Assembled ratifiedSnapshot := by
  have hbase : Assembled freshSnapshot := .assemble "retail" "retail_snapshot" [] []
  have hpatch :
      applyPatch freshSnapshot ⟨some ["store_id"], []⟩ firstId = .ok ratifiedSnapshot := rfl
  exact .patch hbase hpatch

/-- A draft is created and read back. -/
theorem create_get_agree :
    (∃ table', insertStmt Dict.empty firstId freshSnapshot = .ok table') ∧
      outputs (durable PyValue.scalars canonicalIds)
          [.create firstId freshSnapshot, .get firstId] Dict.empty =
        outputs (inMemory canonicalIds) [.create firstId freshSnapshot, .get firstId]
          Dict.empty := by
  have hfresh : Assembled freshSnapshot := .assemble "retail" "retail_snapshot" [] []
  have hok : (insertStmt Dict.empty firstId freshSnapshot).isOk = true := by decide +kernel
  have hinsert := exists_of_isOk hok
  refine ⟨hinsert, (stores_agree_iff _ _ _ ?_).mpr ⟨(insertStmt_isOk_iff hfresh).mp hinsert,
    ?_, ?_⟩⟩
  · intro c hc
    simp only [List.mem_cons, List.not_mem_nil, or_false] at hc
    rcases hc with rfl | rfl
    · exact hfresh
    · trivial
  · exact ⟨firstId, rfl, .inl rfl⟩
  · trivial

/-- Two drafts of one table, both published as version 1. -/
def publishTwice : List (Call PyStr) :=
  [.create firstId ratifiedSnapshot, .create secondId ratifiedSnapshot, .freeze firstId 1,
    .freeze secondId 1]

/-- The second one is a conflict in the table and a success in memory. -/
theorem second_publish_differs :
    (∀ c ∈ publishTwice, c.Assembled) ∧
      outputs (durable PyValue.scalars canonicalIds) publishTwice Dict.empty ≠
        outputs (inMemory canonicalIds) publishTwice Dict.empty := by
  constructor
  · simp [publishTwice, Call.Assembled, assembled_ratifiedSnapshot]
  · intro h
    have hdurable : (outputs (durable PyValue.scalars canonicalIds) publishTwice
        Dict.empty).map Except.isOk = [true, true, true, false] := by decide +kernel
    have hmemory : (outputs (inMemory canonicalIds) publishTwice Dict.empty).map Except.isOk =
        [true, true, true, true] := by decide +kernel
    rw [h, hmemory] at hdurable
    simp at hdurable

end CortexDis.StoreRefinement
