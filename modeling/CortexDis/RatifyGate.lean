import CortexDis.DraftAttrs

/-!
What the publish gate says of an edited draft.

The gate asks of every field whether it is a member of the key. A patch sets the key to any
names, and a member that names no field is asked of nobody.
-/

namespace CortexDis.RatifyGate

open CortexDis.PyText CortexDis.PyValue CortexDis.SchemaIr CortexDis.DraftIr CortexDis.DraftDocs
open CortexDis.DraftAttrs CortexDis.Runs

/-! ### Ratified tables -/

/-- A person must decide the field. -/
def Curated (t : TableIR Empty) (f : FieldIR Empty) : Prop :=
  f.mandatory = true ∨ f.enumCandidate ≠ [] ∨ (f.pii ≠ .none ∧ f.pii ≠ text "none") ∨
    f.name ∈ t.naturalKey

structure Ratified (t : TableIR Empty) : Prop where
  key : t.semantics = pyStr "merge_upsert" → t.naturalKey ≠ [] ∧
    ∀ k ∈ t.naturalKey, ∃ f ∈ t.fields, f.name = k ∧ f.origin = text "human"
  curated : ∀ f ∈ t.fields, Curated t f → f.origin = text "human"

lemma isCuratedBearing_iff (f : FieldIR Empty) (t : TableIR Empty) :
    isCuratedBearing f t = true ↔ Curated t f := by
  have hpii : (!f.pii.isNone && !f.pii.isStr (pyStr "none")) = true ↔
      f.pii ≠ .none ∧ f.pii ≠ text "none" := by
    rw [Bool.and_eq_true, Bool.not_eq_true', Bool.not_eq_true', ← Bool.not_eq_true,
      ← Bool.not_eq_true, Value.isStr_iff, text]
    refine and_congr_left fun _ => not_congr ?_
    cases f.pii <;> simp [Value.isNone]
  rw [isCuratedBearing, Bool.or_eq_true, Bool.or_eq_true, Bool.or_eq_true, hpii, Curated,
    List.contains_iff_mem]
  simp only [Bool.not_eq_true', List.isEmpty_eq_false_iff]
  tauto

lemma tableViolations_eq_nil {t : TableIR Empty} (h : tableViolations t = []) :
    (∀ f ∈ t.fields, Curated t f → f.origin = text "human") ∧
      (t.semantics = pyStr "merge_upsert" → t.naturalKey ≠ []) := by
  obtain ⟨hfields, hkey⟩ := List.append_eq_nil_iff.mp h
  constructor
  · intro f hf hcurated
    have hnot := List.filter_eq_nil_iff.mp (List.map_eq_nil_iff.mp hfields) f hf
    rw [(isCuratedBearing_iff f t).mpr hcurated, Bool.true_and, Bool.not_eq_true',
      Bool.not_eq_false, Value.isStr_iff] at hnot
    exact hnot
  · rintro hsemantics hnil
    rw [hsemantics, hnil] at hkey
    simp at hkey

lemma ratified_iff {t : TableIR Empty} (h : tableViolations t = []) : Ratified t ↔
    (t.semantics = pyStr "merge_upsert" → ∀ k ∈ t.naturalKey, k ∈ t.fields.map FieldIR.name) := by
  obtain ⟨hcurated, hkey⟩ := tableViolations_eq_nil h
  constructor
  · intro hr hsemantics k hk
    obtain ⟨f, hf, rfl, -⟩ := (hr.key hsemantics).2 k hk
    exact List.mem_map_of_mem hf
  · intro hnames
    refine ⟨fun hsemantics => ⟨hkey hsemantics, fun k hk => ?_⟩, hcurated⟩
    obtain ⟨f, hf, rfl⟩ := List.mem_map.mp (hnames hsemantics k hk)
    exact ⟨f, hf, rfl, hcurated f hf (.inr (.inr (.inr hk)))⟩

/-! ### Edited drafts -/

/-- The key after patches: the last one that is set. -/
def keyAfter (key : List PyStr) (patches : List DraftPatch) : List PyStr :=
  patches.foldl (fun key patch => patch.naturalKey.elim key fun l => l.map pyStr) key

/-- The patches, each accepted on what the one before left. -/
def applyPatches (draftId : PyStr) (draft : Schema) (patches : List DraftPatch) :
    Except AtlasError Schema :=
  patches.foldlM (fun draft patch => applyPatch draft patch draftId) draft

lemma applyPatch_table {draft updated : Schema} {patch : DraftPatch} {draftId : PyStr}
    {t : TableIR Empty} (ht : draft.tables = [t])
    (h : applyPatch draft patch draftId = .ok updated) :
    ∃ t', updated.tables = [t'] ∧ t'.semantics = t.semantics ∧
      t'.fields.map FieldIR.name = t.fields.map FieldIR.name ∧
      t'.naturalKey = keyAfter t.naturalKey [patch] := by
  obtain ⟨table, rest, fields, htables, hfields, rfl⟩ := applyPatch_eq_ok h
  obtain ⟨rfl, rfl⟩ := List.cons.inj (htables.symm.trans ht)
  exact ⟨_, rfl, rfl, (foldlM_applyEdit_attr hfields).1, rfl⟩

lemma applyPatches_table {draft updated : Schema} {patches : List DraftPatch} {draftId : PyStr}
    {t : TableIR Empty} (ht : draft.tables = [t])
    (h : applyPatches draftId draft patches = .ok updated) :
    ∃ t', updated.tables = [t'] ∧ t'.semantics = t.semantics ∧
      t'.fields.map FieldIR.name = t.fields.map FieldIR.name ∧
      t'.naturalKey = keyAfter t.naturalKey patches := by
  induction patches generalizing draft t with
  | nil =>
    cases h
    exact ⟨t, ht, rfl, rfl, rfl⟩
  | cons patch patches ih =>
    rw [applyPatches, List.foldlM_cons] at h
    obtain ⟨next, hnext, h⟩ := of_bind_eq_ok h
    obtain ⟨t₁, ht₁, hsemantics₁, hnames₁, hkey₁⟩ := applyPatch_table ht hnext
    obtain ⟨t', ht', hsemantics, hnames, hkey⟩ := ih ht₁ h
    refine ⟨t', ht', hsemantics.trans hsemantics₁, hnames.trans hnames₁, ?_⟩
    rw [hkey, hkey₁]
    rfl

/-- The names of the fields of a draft. -/
def fieldNames (draft : Schema) : List PyStr :=
  draft.tables.flatMap fun t => t.fields.map FieldIR.name

/-- **When the gate is sound.** A draft that was created and edited, and that has no violations,
is ratified exactly when the last key set by its patches names fields of the created draft. -/
theorem ratify_gate_sound_iff (vertical tableKey : String) (columns : List ProfiledColumn)
    (proposals : List ColumnProposal) (draftId : PyStr) (patches : List DraftPatch)
    (draft : Schema)
    (hrun : applyPatches draftId (assembleDraftIr vertical tableKey columns proposals) patches =
      .ok draft) (hgate : ratifyViolations draft = []) :
    (∀ t ∈ draft.tables, Ratified t) ↔ ∀ k ∈ keyAfter [] patches,
      k ∈ fieldNames (assembleDraftIr vertical tableKey columns proposals) := by
  obtain ⟨t, ht, hsemantics, hnames, hkey⟩ := applyPatches_table rfl hrun
  have hviolations : tableViolations t = [] := by simpa [ratifyViolations, ht] using hgate
  have hcreated : fieldNames (assembleDraftIr vertical tableKey columns proposals) =
      t.fields.map FieldIR.name := by
    rw [hnames, fieldNames, assembleDraftIr, List.flatMap_singleton]
  have hmerge : t.semantics = pyStr "merge_upsert" := hsemantics
  rw [ht, List.forall_mem_singleton, ratified_iff hviolations, hcreated]
  constructor
  · intro h k hk
    exact h hmerge k (hkey ▸ hk)
  · intro h _ k hk
    exact h k (by rwa [hkey] at hk)

/-- One column of whole numbers, as the profile gives it. -/
def skuColumn : ProfiledColumn := ⟨"sku", "int", false, none, none, none, [], 1, 1, 1, ["sku"]⟩

def draftId : PyStr := pyStr "01909f3a-7c1e-7a31-9d4f-8c4f5d1b2a60"

/-- The draft after a patch that sets the key to one name and ratifies the field. -/
def keyedDraft (member : String) : Except AtlasError Schema :=
  applyPatches draftId (assembleDraftIr "retail" "retail_snapshot" [skuColumn] [])
    [⟨some [member], [⟨"sku", none, none, none, none, some .human⟩]⟩]

theorem sku_key_is_ratified : ∃ draft, keyedDraft "sku" = .ok draft ∧
    ∀ t ∈ draft.tables, Ratified t := by
  obtain ⟨draft, hrun, hgate⟩ : ∃ draft, keyedDraft "sku" = .ok draft ∧
      ratifyViolations draft = [] := ⟨_, rfl, by decide +kernel⟩
  refine ⟨draft, hrun, (ratify_gate_sound_iff "retail" "retail_snapshot" [skuColumn] [] draftId
    _ draft hrun hgate).mpr ?_⟩
  decide +kernel

/-- A key of a name that no field has passes the gate. -/
theorem ghost_key_passes : ∃ draft, keyedDraft "ghost" = .ok draft ∧
    ratifyViolations draft = [] ∧ ¬ ∀ t ∈ draft.tables, Ratified t := by
  refine ⟨_, rfl, by decide +kernel, fun h => ?_⟩
  obtain ⟨f, hf, hname, -⟩ := ((h _ (List.mem_singleton_self _)).key rfl).2 (pyStr "ghost")
    (List.mem_singleton_self _)
  have hnone : ¬ pyStr "ghost" ∈
      fieldNames (assembleDraftIr "retail" "retail_snapshot" [skuColumn] []) := by decide +kernel
  exact hnone (hname ▸ List.mem_map_of_mem hf)

end CortexDis.RatifyGate
